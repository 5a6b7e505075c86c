import Washing.Inventory.Loop
import Washing.Optimizations.Inputs

/-!
# What a run leaves behind

A successful run is its loop, one flush, and refreshes that write optimizations only (`run_ok`, `discoverAndStore_ok`);
the refreshes cannot fail once the machines are stored (`refreshMachines_total`). A condition on the states of the loop
is stated with `AlongLoop`.
-/

namespace Washing

/-- At every turn of the loop `turn` holds of the state and the normalised record, and `finish` of the last state. -/
def AlongLoop (env : InventoryEnv) (provisioner : MachineProvisioner) (now : Time)
    (turn : InventoryState → MachineRecord → Prop) (finish : InventoryState → Prop) :
    InventoryState → List MachineRecord → Prop
  | st, [] => finish st
  | st, record :: records => turn st (normalizeMachineRecord env.unicode record) ∧
    match processRecord env provisioner now st record with
    | .error _ => True
    | .ok st => AlongLoop env provisioner now turn finish st records

instance decidableAlongLoop (env : InventoryEnv) (provisioner : MachineProvisioner) (now : Time)
    (turn : InventoryState → MachineRecord → Prop) (finish : InventoryState → Prop) [∀ st r, Decidable (turn st r)]
    [∀ st, Decidable (finish st)] :
    ∀ st records, Decidable (AlongLoop env provisioner now turn finish st records)
  | st, [] => inferInstanceAs (Decidable (finish st))
  | st, record :: records =>
    match h : processRecord env provisioner now st record with
    | .error _ => decidable_of_iff (turn st (normalizeMachineRecord env.unicode record)) (by simp [AlongLoop, h])
    | .ok st₁ =>
      have := decidableAlongLoop env provisioner now turn finish st₁ records
      decidable_of_iff (turn st (normalizeMachineRecord env.unicode record) ∧
        AlongLoop env provisioner now turn finish st₁ records) (by simp [AlongLoop, h])

/-! ## Refreshes -/

theorem refreshMachines_frame {env : InventoryEnv} : ∀ {ids : List Nat} {ticks : Nat} {db db' : Database},
    refreshMachines env ticks db ids = .ok db' →
    ∃ optimizations nextId, db.nextId ≤ nextId ∧ db' = { db with optimizations, nextId }
  | [], _, _, _, h => by
    cases h
    exact ⟨_, _, le_rfl, rfl⟩
  | i :: ids, ticks, db, db', h => by
    unfold refreshMachines at h
    cases hr : refreshMachineOptimization env.settings db i (env.clock ticks) with
    | error e => simp [hr] at h
    | ok result =>
      obtain ⟨o, n, hn, hdb⟩ := refreshMachineOptimization_frame hr
      simp only [hr] at h
      obtain ⟨o', n', hn', rfl⟩ := refreshMachines_frame h
      rw [hdb] at hn' ⊢
      exact ⟨o', n', hn.trans hn', rfl⟩

/-- The refreshes of stored machines succeed. -/
theorem refreshMachines_total (env : InventoryEnv) : ∀ {ids : List Nat} (ticks : Nat) (db : Database),
    (db.optimizations.map (·.machineId)).Nodup → (∀ i ∈ ids, ∃ m ∈ db.machines, m.id = i) →
    ∃ db', refreshMachines env ticks db ids = .ok db'
  | [], _, db, _, _ => ⟨db, rfl⟩
  | i :: ids, ticks, db, hu, hids => by
    obtain ⟨m, hm⟩ : ∃ m, Table.get db.machines i = some m := by
      obtain ⟨m, hm, hid⟩ := hids i List.mem_cons_self
      cases hget : Table.get db.machines i with
      | none => exact absurd hid (Table.get_none hget m hm)
      | some n => exact ⟨n, rfl⟩
    obtain ⟨report, hr⟩ := refreshMachineOptimization_eq (s := env.settings) hu hm (env.clock ticks)
    have hu' := writeOptimization_unique hu (holdsRow_find db i)
      (buildOptimizationSnapshot env.settings db m (env.clock ticks))
    obtain ⟨o, n, -, hdb⟩ := refreshMachineOptimization_frame hr
    change writeOptimization _ _ _ _ = _ at hdb
    rw [hdb] at hr hu'
    obtain ⟨db', hdb'⟩ := refreshMachines_total env (ticks + 1) _ hu' fun j hj => hids j (List.mem_cons_of_mem i hj)
    exact ⟨db', by simp [refreshMachines, hr, hdb']⟩

/-! ## A successful run -/

/-- Starting a run keeps the database consistent. -/
theorem startRun_consistent {db : Database} (hc : db.Consistent) (provisionerId : Nat) (now : Time) :
    (startRun db provisionerId now).Consistent := by
  have hmetrics : ∀ scope, (startRun db provisionerId now).metrics scope = db.metrics scope := by
    intro scope
    cases scope <;> rfl
  have hkeyed := hc.provisioners_keyed.modify (f := fun p => p.started now) (fun _ => rfl) provisionerId
  refine { hc with provisioners_keyed := hkeyed, metrics_keyed := ?_, metrics_unique := ?_, metrics_fresh := ?_ }
  · exact fun scope => hmetrics scope ▸ hc.metrics_keyed scope
  · exact fun scope => hmetrics scope ▸ hc.metrics_unique scope
  · exact fun scope => hmetrics scope ▸ hc.metrics_fresh scope

/-- A finished body consists of a loop, a flush, the refreshes, and the assignments to the provisioner. -/
theorem discoverAndStore_eq_ok {env : InventoryEnv} {mock : InventoryConnector} {db : Database} {p : MachineProvisioner}
    {now : Time} {ticks : Nat} {body : InventoryBody} (h : discoverAndStore env mock db p now ticks = .ok body) :
    ∃ records st session db', discover mock p = .ok records ∧
      processRecords env p now (.start db ticks) records = .ok st ∧
      st.session.flush (machineMapper env.clock) = .ok session ∧
      refreshMachines env session.ticks (InventoryState.store { st with session } db)
        (st.optimizationMachineIds.dedup.insertionSort (· ≤ ·)) = .ok db' ∧
      body.state = { st with session } ∧ session.ticks ≤ body.ticks ∧
      body.db = { db' with
        provisioners := Table.modify db'.provisioners p.id fun q =>
          { q with lastSuccessAt := some now, lastError := none } } := by
  simp only [discoverAndStore, bind_ok_iff] at h
  obtain ⟨records, hrecords, st, hst, h⟩ := h
  split at h
  · cases h
  · rename_i session hflush
    simp only [bind_ok_iff] at h
    obtain ⟨db', hdb', hreturn⟩ := h
    cases hreturn
    exact ⟨records, st, session, db', hrecords, hst, hflush, hdb', rfl, Nat.le_add_right _ _, rfl⟩

/-- The machines after a finished body are the rows of its session. -/
theorem discoverAndStore_ok {env : InventoryEnv} {mock : InventoryConnector} {db : Database} {p : MachineProvisioner}
    {now : Time} {ticks : Nat} {body : InventoryBody} (h : discoverAndStore env mock db p now ticks = .ok body) :
    ∃ records st session, discover mock p = .ok records ∧
      processRecords env p now (.start db ticks) records = .ok st ∧
      st.session.flush (machineMapper env.clock) = .ok session ∧ body.state = { st with session } ∧
      body.db.machines = session.stored ∧ session.ticks ≤ body.ticks ∧ st.nextId ≤ body.db.nextId := by
  obtain ⟨records, st, session, db', hrecords, hst, hflush, hdb', hstate, hticks, hbody⟩ := discoverAndStore_eq_ok h
  obtain ⟨o, n, hn, rfl⟩ := refreshMachines_frame hdb'
  rw [hbody]
  exact ⟨records, st, session, hrecords, hst, hflush, hstate, rfl, hticks, hn⟩

/-- A successful run is a finished body for the enabled provisioner. -/
theorem run_ok {env : InventoryEnv} {mock : InventoryConnector} {db : Database} {ticks provisionerId : Nat}
    {report : InventoryReport} (h : (runProvisionerInventory env mock db ticks provisionerId).result = .ok report) :
    ∃ p body, Table.get db.provisioners provisionerId = some p ∧ p.enabled ∧
      discoverAndStore env mock (startRun db provisionerId (env.clock ticks)) (p.started (env.clock ticks))
        (env.clock ticks) (ticks + 1) = .ok body ∧
      runProvisionerInventory env mock db ticks provisionerId =
        ⟨body.db, body.ticks, body.state.written, body.state.session.emitted,
          .ok ⟨body.state.created, body.state.updated, body.state.flavorChanges⟩⟩ := by
  unfold runProvisionerInventory at h ⊢
  cases hp : Table.get db.provisioners provisionerId with
  | none => simp [hp] at h
  | some p =>
    simp only [hp] at h ⊢
    split_ifs at h ⊢ with he
    cases hbody : discoverAndStore env mock (startRun db provisionerId (env.clock ticks)) (p.started (env.clock ticks))
        (env.clock ticks) (ticks + 1) with
    | error e => simp [hbody] at h
    | ok body => exact ⟨p, body, rfl, by simpa [MachineProvisioner.started] using he, hbody, rfl⟩

/-- A run that fails writes provisioners only. -/
theorem run_error {env : InventoryEnv} {mock : InventoryConnector} {db : Database} {ticks provisionerId : Nat} {e : Exc}
    (h : (runProvisionerInventory env mock db ticks provisionerId).result = .error e) :
    ∃ provisioners now, runProvisionerInventory env mock db ticks provisionerId =
      ⟨{ db with provisioners }, now, [], [], .error e⟩ ∧ ticks ≤ now := by
  unfold runProvisionerInventory at h ⊢
  cases hp : Table.get db.provisioners provisionerId with
  | none =>
    simp only [hp] at h
    exact ⟨db.provisioners, ticks, by rw [← h], le_rfl⟩
  | some p =>
    simp only [hp] at h ⊢
    split_ifs at h ⊢ with he
    · cases hbody : discoverAndStore env mock (startRun db provisionerId (env.clock ticks))
          (p.started (env.clock ticks)) (env.clock ticks) (ticks + 1) with
      | error e' =>
        simp only [hbody] at h
        exact ⟨_, _, by rw [← h]; rfl, Nat.le_succ _⟩
      | ok body => simp [hbody] at h
    · exact ⟨_, _, by rw [← h]; rfl, Nat.le_succ _⟩

end Washing
