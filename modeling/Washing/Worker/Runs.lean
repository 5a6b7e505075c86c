import Washing.Worker.Kept

/-!
# What the runs keep

An inventory run keeps what is guaranteed of the stored rows: every statement of its flushes and creations is checked
against the unique constraints, and every text that it assigns goes through the validators (`KeptInv`). A refresh and a
collection write rows about stored machines only.
-/

namespace Washing

/-! ## The loop of an inventory run -/

/-- The invariant of the loop of a run that started from `db`. -/
structure KeptInv (U : Unicode) (db : Database) (st : InventoryState) : Prop where
  numbered : Table.Numbered st.session.rows st.nextId
  next_le : db.nextId ≤ st.nextId
  unique : ∀ t ∈ st.session.rows, ∀ u ∈ st.session.rows, t.stored.Conflicts u.stored → Row.id t = Row.id u
  canonical : st.session.Each fun stored object => stored.Canonical U ∧ object.Canonical U
  kept : ∀ i ∈ Table.ids db.machines, i ∈ Table.ids st.session.rows
  histories : ∀ r ∈ st.history, r.machineId ∈ Table.ids st.session.rows

section Loop

variable {env : InventoryEnv} {db : Database} {p : MachineProvisioner} {now : Time} {st : InventoryState}

/-- A stamp writes no text. -/
theorem Machine.canonical_stamp {U : Unicode} (clock : Nat → Time) (k : Nat) (stored object : Machine)
    (h : stored.Canonical U ∧ object.Canonical U) :
    ((machineMapper clock).stamp k object).Canonical U ∧ ((machineMapper clock).stamp k object).Canonical U := by
  have hobject : ((machineMapper clock).stamp k object).Canonical U :=
    ⟨⟨h.2.application, h.2.environment, h.2.region⟩, h.2.hostname, h.2.externalId⟩
  exact ⟨hobject, hobject⟩

theorem keptInv_start {U : Unicode} (h : db.Kept U) (ticks : Nat) : KeptInv U db (.start db ticks) := by
  have hids : Table.ids (InventoryState.start db ticks).session.rows = Table.ids db.machines := by
    simp only [InventoryState.start, Session.load, Table.ids, List.map_map]
    rfl
  constructor
  case numbered => exact (Table.Numbered.mk h.consistent.machines_keyed h.consistent.machines_fresh).of_ids hids
  case next_le => exact le_rfl
  case unique =>
    intro t ht u hu hc
    obtain ⟨m, hm, rfl⟩ := List.mem_map.mp ht
    obtain ⟨n, hn, rfl⟩ := List.mem_map.mp hu
    exact h.consistent.machines_unique m hm n hn hc
  case canonical => exact Session.each_load (fun m hm => ⟨h.machines m hm, h.machines m hm⟩) _
  case kept => exact fun i hi => hids ▸ hi
  case histories => exact fun r hr => hids ▸ h.histories r hr

/-- A matched record: a text is assigned through its validator, and a new row of the history is about the machine. -/
theorem KeptInv.update (h : KeptInv env.unicode db st) {t : Tracked Machine} (ht : t ∈ st.session.rows)
    (r : MachineRecord) : KeptInv env.unicode db (updateMachine env p now st r t.stored) := by
  obtain ⟨hsession, -, -, -, hnext, -⟩ := updateMachine_fields env p now st r t.stored
  have hids := Session.ids_assign st.session t.stored.id (Machine.assign env.unicode p r) (Machine.id_assign _ _ _)
  constructor
  case numbered =>
    rw [hsession]
    exact (h.numbered.mono hnext).of_ids hids
  case next_le => exact h.next_le.trans hnext
  case unique =>
    rw [hsession]
    intro u hu w hw hc
    obtain ⟨v, hv, hstored, -⟩ := Session.mem_assign hu
    obtain ⟨x, hx, hstored', -⟩ := Session.mem_assign hw
    have hsame := h.unique v hv x hx (hstored ▸ hstored' ▸ hc)
    have hid : Row.id u = Row.id v := congrArg Machine.id hstored
    have hid' : Row.id w = Row.id x := congrArg Machine.id hstored'
    rw [hid, hid', hsame]
  case canonical =>
    rw [hsession]
    exact h.canonical.assign fun u hu _ => ⟨(h.canonical u hu).1, Machine.canonical_assign _ _ _ _⟩
  case kept =>
    rw [hsession, hids]
    exact h.kept
  case histories =>
    rw [hsession, hids]
    have hmachine : t.stored.id ∈ Table.ids st.session.rows := Table.mem_ids.mpr ⟨t, ht, rfl⟩
    unfold updateMachine
    split_ifs with hchanged
    · intro s hs
      obtain hs | hs := List.mem_append.mp hs
      · exact h.histories s hs
      · rw [List.mem_singleton.mp hs]
        exact hmachine
    · exact h.histories

/-- A new machine is checked against the constraints. -/
theorem KeptInv.create (h : KeptInv env.unicode db st) {r : MachineRecord} {st' : InventoryState}
    (hok : createMachine env p now st r = .ok st') : KeptInv env.unicode db st' := by
  unfold createMachine at hok
  split at hok
  · cases hok
  · rename_i session hinsert
    cases hok
    have hids := Session.ids_insert h.numbered.keyed hinsert
    have hnew : (Machine.new env.unicode st.nextId p r).Canonical env.unicode := Machine.canonical_assign _ _ _ _
    constructor
    case numbered => exact (h.numbered.insert hids).mono (Nat.le_succ _)
    case next_le => exact h.next_le.trans (Nat.le_add_right _ 2)
    case unique => exact Session.unique_insert _ h.numbered.keyed h.unique hinsert
    case canonical =>
      exact h.canonical.insert h.numbered.keyed (Machine.canonical_stamp env.clock) ⟨hnew, hnew⟩ hinsert
    case kept =>
      rw [hids]
      exact fun i hi => List.mem_append_left _ (h.kept i hi)
    case histories =>
      rw [hids]
      intro s hs
      obtain hs | hs := List.mem_append.mp hs
      · exact List.mem_append_left _ (h.histories s hs)
      · rw [List.mem_singleton.mp hs]
        exact List.mem_append_right _ (List.mem_singleton_self _)

/-- The loop keeps the invariant, whatever the records are. -/
theorem KeptInv.run : ∀ {records : List MachineRecord} {st st' : InventoryState}, KeptInv env.unicode db st →
    processRecords env p now st records = .ok st' → KeptInv env.unicode db st'
  | [], st, st', h, hok => by
    cases hok
    exact h
  | record :: records, st, st', h, hok => by
    cases hst₁ : processRecord env p now st record with
    | error e => simp [processRecords, hst₁] at hok
    | ok st₁ =>
      simp only [processRecords, hst₁] at hok
      refine KeptInv.run ?_ hok
      simp only [processRecord] at hst₁
      split at hst₁
      · cases hst₁
      · exact h.create hst₁
      · next row hfind =>
        cases hst₁
        obtain ⟨t, ht, rfl⟩ := List.mem_map.mp (findMachine_found hfind).1
        exact h.update ht _

/-- The flush after the loop. -/
theorem KeptInv.flush (h : KeptInv env.unicode db st) {session : Session Machine}
    (hs : st.session.flush (machineMapper env.clock) = .ok session) : KeptInv env.unicode db { st with session } := by
  obtain ⟨horderly, hflushed⟩ := Session.flush_ok _ h.numbered.keyed hs
  have hids : Table.ids session.rows = Table.ids st.session.rows := hflushed.ids
  exact {
    numbered := h.numbered.of_ids hids
    next_le := h.next_le
    unique := hflushed.unique _ horderly h.unique
    canonical := h.canonical.flush h.numbered.keyed (Machine.canonical_stamp env.clock) hs
    kept := fun i hi => hids.symm ▸ h.kept i hi
    histories := fun r hr => hids.symm ▸ h.histories r hr }

/-- The database as the session leaves it. -/
theorem KeptInv.store {U : Unicode} (h : KeptInv U db st) (hdb : db.Kept U) : (st.store db).Kept U := by
  have hc := hdb.consistent
  have hids : Table.ids (st.store db).machines = Table.ids st.session.rows := by
    simp only [InventoryState.store, Session.stored, Table.ids, List.map_map]
    rfl
  have hnumbered := h.numbered.of_ids hids
  have hrows : ∀ m ∈ (st.store db).machines, ∃ t ∈ st.session.rows, t.stored = m := fun m hm => List.mem_map.mp hm
  have hmetrics : ∀ scope, (st.store db).metrics scope = db.metrics scope := fun scope => by cases scope <;> rfl
  refine ⟨⟨?consistent, ?applications, ?machines, hdb.keys⟩, ?histories, ?optimizations⟩
  case consistent =>
    constructor
    case provisioners_keyed => exact hc.provisioners_keyed
    case providers_keyed => exact hc.providers_keyed
    case machines_keyed => exact hnumbered.keyed
    case machines_unique =>
      intro m hm n hn hconflicts
      obtain ⟨t, ht, rfl⟩ := hrows m hm
      obtain ⟨u, hu, rfl⟩ := hrows n hn
      exact h.unique t ht u hu hconflicts
    case machines_fresh => exact hnumbered.fresh
    case metrics_keyed => exact fun scope => hmetrics scope ▸ hc.metrics_keyed scope
    case metrics_unique => exact fun scope => hmetrics scope ▸ hc.metrics_unique scope
    case metrics_fresh =>
      exact fun scope => hmetrics scope ▸ fun r hr => (hc.metrics_fresh scope r hr).trans_le h.next_le
    case optimizations_keyed => exact hc.optimizations_keyed
    case optimizations_unique => exact hc.optimizations_unique
    case optimizations_fresh => exact fun r hr => (hc.optimizations_fresh r hr).trans_le h.next_le
    case applications_keyed => exact hc.applications_keyed
  case applications =>
    exact ⟨hdb.applications.keyed, fun a ha => (hdb.applications.fresh a ha).trans_le h.next_le,
      hdb.applications.unique⟩
  case machines =>
    intro m hm
    obtain ⟨t, ht, rfl⟩ := hrows m hm
    exact (h.canonical t ht).1
  case histories => exact fun r hr => hids ▸ h.histories r hr
  case optimizations => exact fun r hr => hids ▸ h.kept _ (hdb.optimizations r hr)

end Loop

/-! ## Refreshes -/

section Refresh

variable {U : Unicode} {db : Database}

/-- The optimization of a stored machine is written. -/
theorem Database.Kept.writeOptimization (h : db.Kept U) {machineId : Nat} (hm : machineId ∈ Table.ids db.machines)
    {current : Option MachineOptimization} (hrow : HoldsRow db machineId current) (snapshot : OptimizationSnapshot) :
    (writeOptimization db machineId current snapshot).Kept U := by
  have hconsistent : (Washing.writeOptimization db machineId current snapshot).Consistent :=
    h.consistent.writeOptimization hrow
  have howned : ∀ r ∈ (Washing.writeOptimization db machineId current snapshot).optimizations,
      r.machineId ∈ Table.ids db.machines := by
    cases current with
    | none =>
      intro r hr
      obtain hr | hr := List.mem_append.mp hr
      · exact h.optimizations r hr
      · rw [List.mem_singleton.mp hr]
        exact hm
    | some row =>
      intro r hr
      obtain ⟨old, hold, rfl⟩ := Table.mem_modify.mp hr
      rw [updateOptimization_eq]
      split_ifs <;> exact h.optimizations old hold
  obtain ⟨optimizations, nextId, hle, heq⟩ := writeOptimization_frame db machineId current snapshot
  rw [heq] at hconsistent howned ⊢
  exact ⟨⟨hconsistent, ⟨h.applications.keyed, fun a ha => (h.applications.fresh a ha).trans_le hle,
    h.applications.unique⟩, h.machines, h.keys⟩, h.histories, howned⟩

theorem Database.Kept.refresh (h : db.Kept U) {settings : Settings} {machineId : Nat} {now : Time}
    {result : Database × RefreshReport} (hok : refreshMachineOptimization settings db machineId now = .ok result) :
    result.1.Kept U := by
  cases hget : Table.get db.machines machineId with
  | none => simp [refreshMachineOptimization, hget] at hok
  | some m =>
    obtain ⟨report, heq⟩ := refreshMachineOptimization_eq (s := settings) h.consistent.optimizations_unique hget now
    cases heq.symm.trans hok
    obtain ⟨hm, hid⟩ := Table.get_some hget
    exact h.writeOptimization (Table.mem_ids.mpr ⟨m, hm, hid⟩) (holdsRow_find db machineId) _

theorem Database.Kept.refreshes {env : InventoryEnv} : ∀ {machineIds : List Nat} {ticks : Nat} {db db' : Database},
    db.Kept U → refreshMachines env ticks db machineIds = .ok db' → db'.Kept U
  | [], _, _, _, h, hok => by
    cases hok
    exact h
  | i :: machineIds, ticks, db, db', h, hok => by
    unfold refreshMachines at hok
    cases hr : refreshMachineOptimization env.settings db i (env.clock ticks) with
    | error e => simp [hr] at hok
    | ok result =>
      simp only [hr] at hok
      exact (h.refresh hr).refreshes hok

end Refresh

/-! ## The runs -/

section Runs

variable {db : Database}

/-- The provisioners are written. -/
theorem Database.Kept.withProvisioners {U : Unicode} (h : db.Kept U) {provisioners : List MachineProvisioner}
    (hids : Table.ids provisioners = Table.ids db.provisioners) : Database.Kept U { db with provisioners } := by
  have hkeyed : Table.Keyed provisioners := by
    unfold Table.Keyed
    exact hids ▸ h.consistent.provisioners_keyed
  exact h.frame hkeyed h.consistent.providers_keyed rfl rfl (fun scope => by cases scope <;> rfl) rfl rfl le_rfl

/-- The providers are written. -/
theorem Database.Kept.withProviders {U : Unicode} (h : db.Kept U) {providers : List MachineProvider}
    (hids : Table.ids providers = Table.ids db.providers) : Database.Kept U { db with providers } := by
  have hkeyed : Table.Keyed providers := by
    unfold Table.Keyed
    exact hids ▸ h.consistent.providers_keyed
  exact h.frame h.consistent.provisioners_keyed hkeyed rfl rfl (fun scope => by cases scope <;> rfl) rfl rfl le_rfl

/-- An inventory run, whatever becomes of it. -/
theorem Database.Kept.inventory {env : InventoryEnv} (h : db.Kept env.unicode) (mock : InventoryConnector)
    (ticks provisionerId : Nat) : (runProvisionerInventory env mock db ticks provisionerId).db.Kept env.unicode := by
  unfold runProvisionerInventory
  cases hp : Table.get db.provisioners provisionerId with
  | none => exact h
  | some p =>
    have hstart : (startRun db provisionerId (env.clock ticks)).Kept env.unicode :=
      h.withProvisioners (Table.ids_modify (fun p => by rfl) _ _)
    have hfail : ∀ error, (failRun env.unicode (startRun db provisionerId (env.clock ticks)) provisionerId
        error).Kept env.unicode := fun error => hstart.withProvisioners (Table.ids_modify (fun p => by rfl) _ _)
    simp only
    split
    · exact hfail _
    · cases hbody : discoverAndStore env mock (startRun db provisionerId (env.clock ticks))
          (p.started (env.clock ticks)) (env.clock ticks) (ticks + 1) with
      | error e => exact hfail _
      | ok body =>
        obtain ⟨records, st, session, db', -, hloop, hflush, hrefresh, -, -, hdb⟩ := discoverAndStore_eq_ok hbody
        have hstored := (((keptInv_start hstart (ticks + 1)).run hloop).flush hflush).store hstart
        show body.db.Kept env.unicode
        rw [hdb]
        exact (hstored.refreshes hrefresh).withProvisioners (Table.ids_modify (fun p => by rfl) _ _)

/-- The samples of a run are written. -/
theorem Database.Kept.writeSamples {U : Unicode} (h : db.Kept U) {p : MachineProvider} {ops : List SampleOp}
    (hfits : ∀ op ∈ ops, op.Fits (db.metrics p.scope)) (hnodup : ((createdSamples ops).map SampleValues.day).Nodup)
    (now : Time) : (writeSamples db p ops now).Kept U := by
  obtain ⟨-, -, hmachines, hoptimizations, happlications, hnext, -⟩ := writeSamples_frame db p ops now
  have hhistory := writeSamples_flavorHistory db p ops now
  have hle : db.nextId ≤ (Washing.writeSamples db p ops now).nextId := hnext ▸ Nat.le_add_right _ _
  refine ⟨⟨h.consistent.writeSamples hfits hnodup, ⟨?_, ?_, ?_⟩, ?_, ?_⟩, ?_, ?_⟩
  · exact happlications ▸ h.applications.keyed
  · exact happlications ▸ fun a ha => (h.applications.fresh a ha).trans_le hle
  · exact happlications ▸ h.applications.unique
  · exact hmachines ▸ h.machines
  · exact happlications ▸ h.keys
  · rw [hhistory, hmachines]
    exact h.histories
  · rw [hoptimizations, hmachines]
    exact h.optimizations

/-- A collection, whatever becomes of it. -/
theorem Database.Kept.collection {env : CollectionEnv} (h : db.Kept env.unicode) (providerId machineId : Nat) :
    (runProviderMachineCollection env db providerId machineId).1.Kept env.unicode := by
  unfold runProviderMachineCollection
  split
  · exact h
  · exact h
  · rename_i p hload
    split
    · exact h
    · exact h
    · rename_i m hscoped
      cases hc : collectSamples env db p m with
      | error e => exact h.withProviders (Table.ids_modify (fun p => by rfl) _ _)
      | ok result =>
        simp only [collectSamples, bind_ok_iff] at hc
        obtain ⟨_, -, records, -, ops, hops, db₁, hflush, ⟨db₂, _⟩, hrefresh, hreturn⟩ := hc
        cases hreturn
        have hindexed := h.consistent.indexed p.scope
        have hfits := (upsertAll_ok hindexed hops).1
        obtain ⟨-, hnodup, -, rfl⟩ := flushSamples_ok hindexed (fun id v hop => hfits _ hop) hflush
        rw [writeSamples_emitted hindexed.keyed (fun id v hop => hfits _ hop) (.refl _ _)] at hrefresh
        exact (h.writeSamples hfits hnodup _).refresh hrefresh

/-- An inventory run in which anything may fail. -/
theorem Database.Kept.inventoryJob {env : InventoryEnv} (h : db.Kept env.unicode) (faults : Faults InventoryWork)
    (mock : InventoryConnector) (ticks provisionerId : Nat) :
    (inventoryJob faults env mock db ticks provisionerId).2.committed.Kept env.unicode := by
  cases hrun : (Washing.inventoryJob faults env mock db ticks provisionerId).1 with
  | error e =>
    rw [inventoryJob_error hrun]
    exact h.withProvisioners (Table.ids_modify (fun p => by rfl) _ _)
  | ok report =>
    rw [(inventoryJob_ok hrun).2]
    exact h.inventory mock ticks provisionerId

/-- A collection in which anything may fail. -/
theorem Database.Kept.collectionJob {env : CollectionEnv} (h : db.Kept env.unicode) (faults : Faults CollectionWork)
    (providerId machineId : Nat) :
    (collectionJob faults env db providerId machineId).2.committed.Kept env.unicode := by
  cases hrun : (Washing.collectionJob faults env db providerId machineId).1 with
  | error e =>
    obtain hdb | hdb := collectionJob_error hrun
    · rw [hdb]
      exact h
    · rw [hdb]
      exact h.withProviders (Table.ids_modify (fun p => by rfl) _ _)
  | ok report =>
    rw [(collectionJob_ok hrun).2]
    exact h.collection providerId machineId

end Runs

end Washing
