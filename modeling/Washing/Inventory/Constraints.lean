import Washing.Inventory.Outcome

/-!
# When a run commits

The records of a run never collide with each other, so a statement of the run can violate a constraint only by giving a
machine the hostname that the table still has for another one. `HostnamesFree` excludes this for the next flush; it is
the same as `Session.Orderly` for the states of the loop (`LoopInv.orderly_iff`), and it is what a creation needs
(`LoopInv.create_cases`). A run on distinct records commits exactly when it holds at every creation and at the end of
the loop, and fails with an integrity error otherwise (`run_commits_iff`).
-/

namespace Washing

/-- No pending row takes a hostname that the table has for another row of the platform, unless that row is pending too
and is updated before it. -/
def HostnamesFree (rows : List (Tracked Machine)) : Prop :=
  ∀ t ∈ rows, t.Pending → ∀ u ∈ rows, Row.id u ≠ Row.id t → t.object.SameHostname u.stored →
    u.Pending ∧ Row.id u < Row.id t

instance (rows : List (Tracked Machine)) : Decidable (HostnamesFree rows) :=
  inferInstanceAs (Decidable (∀ t ∈ rows, _))

/-- The hostnames are free whenever the loop flushes: at the creations and at its end. -/
def HandoversOrderly (env : InventoryEnv) (p : MachineProvisioner) (now : Time) :
    InventoryState → List MachineRecord → Prop :=
  AlongLoop env p now (fun st r => findMachine st.session.stored p r = .ok none → HostnamesFree st.session.rows)
    fun st => HostnamesFree st.session.rows

instance (env : InventoryEnv) (p : MachineProvisioner) (now : Time) (st : InventoryState)
    (records : List MachineRecord) : Decidable (HandoversOrderly env p now st records) :=
  inferInstanceAs (Decidable (AlongLoop _ _ _ _ _ _ _))

section Loop

variable {env : InventoryEnv} {p : MachineProvisioner} {rows : List Machine} {now : Time} {st : InventoryState}
  {log : AssignmentLog}

/-- A pending row carries a record of the log. -/
theorem LoopInv.pending_carries (h : LoopInv p rows st log) {t : Tracked Machine} (ht : t ∈ st.session.rows)
    (hp : t.Pending) : ∃ r, (r, Row.id t) ∈ log ∧ Carries p r t.object := by
  cases hl : lastRecord log (Row.id t) with
  | none => exact absurd (h.untouched t ht hl).1 hp
  | some r => exact ⟨r, lastRecord_mem hl, h.touched t ht r hl⟩

/-- The objects of two pending rows do not conflict: they carry distinct records. -/
theorem LoopInv.pending_not_conflicts (h : LoopInv p rows st log) {t u : Tracked Machine} (ht : t ∈ st.session.rows)
    (htp : t.Pending) (hu : u ∈ st.session.rows) (hup : u.Pending) (hne : Row.id u ≠ Row.id t) :
    ¬ t.object.Conflicts u.object := by
  obtain ⟨r, hr, hcarries⟩ := h.pending_carries ht htp
  obtain ⟨s, hs, hcarries'⟩ := h.pending_carries hu hup
  refine hcarries.not_conflicts hcarries' ?_
  by_contra hd
  have heq := eq_of_not_distinct h.distinct hr hs hd
  exact hne (congrArg Prod.snd heq).symm

/-- In the loop, the next flush is orderly exactly when the hostnames are free. -/
theorem LoopInv.orderly_iff (h : LoopInv p rows st log) (clock : Nat → Time) :
    Session.Orderly (machineMapper clock) st.session.rows ↔ HostnamesFree st.session.rows := by
  constructor
  · intro horderly t ht htp u hu hne hhost
    have hfree := horderly t ht htp u hu hne
    by_contra hno
    by_cases hlt : Row.id u < Row.id t
    · have hclean : u.object = u.stored := not_not.mp fun hup => hno ⟨hup, hlt⟩
      rw [if_pos hlt, hclean] at hfree
      exact hfree (.inl hhost)
    · rw [if_neg hlt] at hfree
      exact hfree (.inl hhost)
  · intro hfree t ht htp u hu hne
    have hstored : ¬ (u.Pending ∧ Row.id u < Row.id t) → ¬ t.object.Conflicts u.stored := by
      rintro hno (hhost | hext)
      · exact hno (hfree t ht htp u hu hne hhost)
      · exact h.external t ht htp u hu hne hext
    by_cases hlt : Row.id u < Row.id t
    · rw [if_pos hlt]
      by_cases hup : u.Pending
      · exact h.pending_not_conflicts ht htp hu hup hne
      · have hclean : u.object = u.stored := not_not.mp hup
        rw [hclean]
        exact hstored fun hboth => hup hboth.1
    · rw [if_neg hlt]
      exact hstored fun hboth => hlt hboth.2

/-- The flush of a state of the loop, by its hostnames. -/
theorem LoopInv.flush_cases (h : LoopInv p rows st log) (clock : Nat → Time) :
    (HostnamesFree st.session.rows ∧ ∃ session, st.session.flush (machineMapper clock) = .ok session) ∨
    (¬ HostnamesFree st.session.rows ∧ ∃ e, st.session.flush (machineMapper clock) = .error e) := by
  rw [← h.orderly_iff clock]
  rcases Session.flush_cases (machineMapper clock) h.keyed with ⟨ho, session, hs, -⟩ | ⟨ho, e, he⟩
  · exact .inl ⟨ho, session, hs⟩
  · exact .inr ⟨ho, e, he⟩

/-- A new machine conflicts with no row of the flushed session. -/
theorem LoopInv.create_free (h : LoopInv p rows st log) {record : MachineRecord}
    (hnone : ∀ t ∈ st.session.rows, ¬ HoldsExternalId p (normalizeMachineRecord env.unicode record) t.stored ∧
      ¬ HoldsHostname p (normalizeMachineRecord env.unicode record) t.stored)
    (hd : ∀ x ∈ log, Distinct (normalizeMachineRecord env.unicode record) x.1) {session : Session Machine}
    (hflush : st.session.flush (machineMapper env.clock) = .ok session) : ∀ u ∈ session.rows,
    ¬ (Machine.new env.unicode st.nextId p (normalizeMachineRecord env.unicode record)).Conflicts u.stored := by
  have hcarries : Carries p (normalizeMachineRecord env.unicode record)
      (Machine.new env.unicode st.nextId p (normalizeMachineRecord env.unicode record)) := carries_assign _ _ _ _
  intro u hu
  obtain ⟨-, t, ht, -, ⟨hp, k, -, hstored⟩ | ⟨-, rfl⟩⟩ := (Session.flush_ok _ h.keyed hflush).2.row _ hu
  · obtain ⟨r, hr, hcarried⟩ := h.pending_carries ht hp
    rw [hstored]
    exact hcarries.not_conflicts (hcarried.stamp _ _) (hd _ hr)
  · -- the flush left the row as the lookup saw it
    obtain ⟨hext, hhost⟩ := hnone u ht
    rintro (⟨hplatform, hname⟩ | ⟨hsource, hid, -, hsome⟩)
    · exact hhost ⟨hplatform.symm, hname.symm.trans hcarries.hostname⟩
    · exact hext ⟨hcarries.externalId ▸ hsome, hsource.symm.trans hcarries.source, hid.symm.trans hcarries.externalId⟩

/-- A creation succeeds if the hostnames are free, and fails with an integrity error otherwise. -/
theorem LoopInv.create_cases (h : LoopInv p rows st log) (now : Time) {record : MachineRecord}
    (hnone : ∀ t ∈ st.session.rows, ¬ HoldsExternalId p (normalizeMachineRecord env.unicode record) t.stored ∧
      ¬ HoldsHostname p (normalizeMachineRecord env.unicode record) t.stored)
    (hd : ∀ x ∈ log, Distinct (normalizeMachineRecord env.unicode record) x.1) :
    (HostnamesFree st.session.rows ∧
      ∃ st', createMachine env p now st (normalizeMachineRecord env.unicode record) = .ok st') ∨
    (¬ HostnamesFree st.session.rows ∧ ∃ message,
      createMachine env p now st (normalizeMachineRecord env.unicode record) = .error ⟨.integrityError, message⟩) := by
  unfold createMachine
  rcases h.flush_cases env.clock with ⟨hfree, session, hflush⟩ | ⟨hnot, e, hflush⟩
  · have hinsert := (Session.insert_eq_ok_iff (machineMapper env.clock)).mpr
      ⟨session, hflush, h.create_free hnone hd hflush, rfl⟩
    rw [hinsert]
    exact .inl ⟨hfree, _, rfl⟩
  · have hinsert : st.session.insert (machineMapper env.clock) (Machine.new env.unicode st.nextId p
        (normalizeMachineRecord env.unicode record)) = .error e := by
      simp [Session.insert, hflush]
    rw [hinsert]
    exact .inr ⟨hnot, _, rfl⟩

/-- The loop reaches its end with free hostnames if the handovers are orderly; otherwise it fails with an integrity
error, or ends in a state that cannot be flushed. -/
theorem LoopInv.run_cases (now : Time) : ∀ {records : List MachineRecord} {st : InventoryState} {log : AssignmentLog},
    LoopInv p rows st log → Ahead env.unicode log records →
    (HandoversOrderly env p now st records ∧
      ∃ st', processRecords env p now st records = .ok st' ∧ HostnamesFree st'.session.rows) ∨
    (¬ HandoversOrderly env p now st records ∧
      ((∃ message, processRecords env p now st records = .error ⟨.integrityError, message⟩) ∨
        ∃ st', processRecords env p now st records = .ok st' ∧ ¬ HostnamesFree st'.session.rows))
  | [], st, log, h, _ => by
    by_cases hfree : HostnamesFree st.session.rows
    · exact .inl ⟨hfree, st, rfl, hfree⟩
    · exact .inr ⟨hfree, .inr ⟨st, rfl, hfree⟩⟩
  | record :: records, st, log, h, ha => by
    have hturn : (∃ st₁, processRecord env p now st record = .ok st₁ ∧
          (findMachine st.session.stored p (normalizeMachineRecord env.unicode record) = .ok none →
            HostnamesFree st.session.rows)) ∨
        (¬ HandoversOrderly env p now st (record :: records) ∧
          ∃ message, processRecords env p now st (record :: records) = .error ⟨.integrityError, message⟩) := by
      rcases h.lookup env now record with ⟨t, -, -, hfind, heq⟩ | ⟨hnone, hfind, heq⟩
      · exact .inl ⟨_, heq, fun hno => by simp [hfind] at hno⟩
      · rcases h.create_cases now hnone ha.head with ⟨hfree, st₁, hcreate⟩ | ⟨hnot, message, hcreate⟩
        · exact .inl ⟨st₁, heq.trans hcreate, fun _ => hfree⟩
        · refine .inr ⟨fun horderly => hnot (horderly.1 hfind), message, ?_⟩
          simp [processRecords, heq, hcreate]
    rcases hturn with ⟨st₁, hst₁, hfree⟩ | ⟨hnot, herror⟩
    · obtain ⟨i, -, hinv⟩ := h.turn ha hst₁
      have horderly : HandoversOrderly env p now st (record :: records) ↔ HandoversOrderly env p now st₁ records := by
        unfold HandoversOrderly
        rw [AlongLoop, hst₁]
        exact and_iff_right hfree
      have hloop : processRecords env p now st (record :: records) = processRecords env p now st₁ records := by
        simp [processRecords, hst₁]
      rw [horderly, hloop]
      exact hinv.run_cases now (ha.tail i)
    · exact .inr ⟨hnot, .inl herror⟩

end Loop

/-! ## The run -/

/-- The body of a run on distinct records finishes if the handovers are orderly, and fails with an integrity error
otherwise. -/
theorem discoverAndStore_cases {env : InventoryEnv} {mock : InventoryConnector} (now : Time) (ticks : Nat)
    {db : Database} (hc : db.Consistent) {p : MachineProvisioner} {records : List MachineRecord}
    (hrecords : discover mock p = .ok records) (hd : DistinctRecords env.unicode records) :
    (HandoversOrderly env p now (.start db ticks) records ∧
      ∃ body, discoverAndStore env mock db p now ticks = .ok body) ∨
    (¬ HandoversOrderly env p now (.start db ticks) records ∧
      ∃ message, discoverAndStore env mock db p now ticks = .error ⟨.integrityError, message⟩) := by
  have hstart := loopInv_start hc p ticks
  have hahead : Ahead env.unicode [] records := hd
  rcases hstart.run_cases now hahead with ⟨horderly, st, hloop, hfree⟩ | ⟨hnot, ⟨message, hloop⟩ | ⟨st, hloop, hheld⟩⟩
  · obtain ⟨log, hinv, -⟩ := hstart.run hahead hloop
    obtain ⟨-, session, hflush⟩ | ⟨hheld, -⟩ := hinv.flush_cases env.clock
    · obtain ⟨hfinal, -⟩ := hinv.flush hflush
      -- the refreshes find the machines that the flush stored
      have hstored : ∀ i ∈ st.optimizationMachineIds.dedup.insertionSort (· ≤ ·), ∃ m ∈ session.stored, m.id = i := by
        intro i hi
        rw [List.mem_insertionSort, List.mem_dedup] at hi
        obtain ⟨t, ht, hid⟩ := hfinal.refreshed i hi
        exact ⟨t.stored, List.mem_map_of_mem ht, hid⟩
      obtain ⟨db', hrefresh⟩ := refreshMachines_total env session.ticks
        (InventoryState.store { st with session } db) hc.optimizations_unique hstored
      refine .inl ⟨horderly, ?_⟩
      simp [discoverAndStore, hrecords, hloop, hflush, hrefresh, bind, Except.bind, pure, Except.pure]
    · exact absurd hfree hheld
  · refine .inr ⟨hnot, message, ?_⟩
    simp [discoverAndStore, hrecords, hloop, bind, Except.bind]
  · obtain ⟨log, hinv, -⟩ := hstart.run hahead hloop
    obtain ⟨hfree, -⟩ | ⟨-, ⟨row, other⟩, hflush⟩ := hinv.flush_cases env.clock
    · exact absurd hfree hheld
    · refine .inr ⟨hnot, env.integrityMessage row other, ?_⟩
      simp [discoverAndStore, hrecords, hloop, hflush, bind, Except.bind]

/-- The run was committed. -/
def InventoryOutcome.Committed (outcome : InventoryOutcome) : Prop := ∃ report, outcome.result = .ok report

/-- A statement of the run violated a unique constraint. -/
def InventoryOutcome.ViolatesConstraint (outcome : InventoryOutcome) : Prop :=
  ∃ message, outcome.result = .error ⟨.integrityError, message⟩

/-- A run of an enabled provisioner on distinct records violates no constraint, and commits, exactly when the hostnames
are free at each of its flushes. -/
theorem run_commits_iff (env : InventoryEnv) (mock : InventoryConnector) (db : Database) (hc : db.Consistent)
    (ticks provisionerId : Nat) (p : MachineProvisioner) (hp : Table.get db.provisioners provisionerId = some p)
    (he : p.enabled) (records : List MachineRecord)
    (hrecords : discover mock (p.started (env.clock ticks)) = .ok records)
    (hd : DistinctRecords env.unicode records) :
    (¬ (runProvisionerInventory env mock db ticks provisionerId).ViolatesConstraint ∧
        (runProvisionerInventory env mock db ticks provisionerId).Committed) ↔
      HandoversOrderly env (p.started (env.clock ticks)) (env.clock ticks) (.start db (ticks + 1)) records := by
  have henabled : (p.started (env.clock ticks)).enabled = true := he
  unfold runProvisionerInventory
  simp only [hp, henabled, not_true_eq_false, if_false]
  rcases discoverAndStore_cases (env.clock ticks) (ticks + 1) (startRun_consistent hc _ _)
      hrecords hd with
    ⟨horderly, body, hbody⟩ | ⟨hnot, message, hbody⟩
  · rw [hbody]
    refine iff_of_true ⟨?_, _, rfl⟩ horderly
    rintro ⟨message, herror⟩
    cases herror
  · rw [hbody]
    refine iff_of_false (fun hgood => ?_) hnot
    exact hgood.1 ⟨message, rfl⟩

/-- A machine that took the hostname of another one. -/
def handoverRecords : List MachineRecord := [smallRecord "a" "H2"]

/-- The machines before the handover. -/
def handoverDb : Database := smallDb [smallMachine 1 "a" "H1", smallMachine 2 "b" "H2"]

/-- The second machine took the hostname of the first one, which has a name of its own. -/
def chainRecords : List MachineRecord := [smallRecord "b" "H1", smallRecord "a" "H3"]

/-- The handover aborts the run, unless the machine that held the hostname is renamed before. -/
theorem run_commits_handover :
    ((¬ (runProvisionerInventory smallEnv (fun _ => .ok handoverRecords) handoverDb 0 1).ViolatesConstraint ∧
        (runProvisionerInventory smallEnv (fun _ => .ok handoverRecords) handoverDb 0 1).Committed) ↔
      HandoversOrderly smallEnv (smallProvisioner.started 0) 0 (.start handoverDb 1) handoverRecords) ∧
    ¬ (runProvisionerInventory smallEnv (fun _ => .ok chainRecords) handoverDb 0 1).ViolatesConstraint ∧
      (runProvisionerInventory smallEnv (fun _ => .ok chainRecords) handoverDb 0 1).Committed :=
  ⟨run_commits_iff smallEnv (fun _ => .ok handoverRecords) handoverDb (by decide) 0 1 smallProvisioner (by decide) rfl
    handoverRecords (by decide +kernel) (by decide +kernel),
  (run_commits_iff smallEnv (fun _ => .ok chainRecords) handoverDb (by decide) 0 1 smallProvisioner (by decide) rfl
    chainRecords (by decide +kernel) (by decide +kernel)).mpr (by decide +kernel)⟩

/-- The machine that held the hostname is no longer reported, and its row makes the whole run fail. -/
theorem handed_over_hostname_aborts : DistinctRecords smallEnv.unicode handoverRecords ∧ handoverDb.Consistent ∧
    (runProvisionerInventory smallEnv (fun _ => .ok handoverRecords) handoverDb 0 1).result =
      .error ⟨.integrityError, "duplicate key value"⟩ ∧
    ¬ (runProvisionerInventory smallEnv (fun _ => .ok handoverRecords) handoverDb 0 1).Committed := by
  have hresult : (runProvisionerInventory smallEnv (fun _ => .ok handoverRecords) handoverDb 0 1).result =
      .error ⟨.integrityError, "duplicate key value"⟩ := by decide +kernel
  refine ⟨by decide +kernel, by decide, hresult, ?_⟩
  rintro ⟨report, hok⟩
  rw [hresult] at hok
  cases hok

end Washing
