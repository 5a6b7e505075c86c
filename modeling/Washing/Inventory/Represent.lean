import Washing.Inventory.Outcome

/-!
# Every record gets a row of its own

A lookup sees the table, not the assignments that are still pending. If a row was renamed in memory, a later record that
matches what the row used to be takes it over, and the first record is lost. `LookupCurrent` says that the row found for
a record is on the platform of the provisioner and that its identifiers are not out of date; a successful run represents
every record exactly when this holds at every turn (`represents_all_iff`).

The proof follows `Good`: no row was assigned to twice, and every row assigned to is on the platform. It is lost at the
first turn at which `LookupCurrent` fails (`good_update_iff`) and never regained, and at the end it says that every
record is represented (`good_iff_represented`).
-/

namespace Washing

/-- The row found for a record, if any, is on the platform of the provisioner, and its object still has the identifiers
that the lookup saw. -/
def LookupCurrent (p : MachineProvisioner) (st : InventoryState) (r : MachineRecord) : Prop :=
  match findMachine st.session.stored p r with
  | .ok (some row) => row.platformId = p.platformId ∧ (st.session.objectOf row).externalId = row.externalId ∧
      (st.session.objectOf row).hostname = row.hostname
  | _ => True

instance (p : MachineProvisioner) (st : InventoryState) (r : MachineRecord) : Decidable (LookupCurrent p st r) :=
  match h : findMachine st.session.stored p r with
  | .ok (some row) => decidable_of_iff (row.platformId = p.platformId ∧
      (st.session.objectOf row).externalId = row.externalId ∧ (st.session.objectOf row).hostname = row.hostname)
      (by simp [LookupCurrent, h])
  | .ok none => .isTrue (by simp [LookupCurrent, h])
  | .error _ => .isTrue (by simp [LookupCurrent, h])

/-- Every record is represented by a row, and the counters give the number of rows written. -/
def RepresentsAll (U : Unicode) (p : MachineProvisioner) (records : List MachineRecord) (outcome : InventoryOutcome)
    (report : InventoryReport) : Prop :=
  (∀ record ∈ records, ∃ m ∈ outcome.db.machines, Represents p (normalizeMachineRecord U record) m) ∧
    report.created + report.updated = outcome.written.dedup.length

instance (U : Unicode) (p : MachineProvisioner) (records : List MachineRecord) (outcome : InventoryOutcome)
    (report : InventoryReport) : Decidable (RepresentsAll U p records outcome report) :=
  inferInstanceAs (Decidable (_ ∧ _))

/-- The keys and the platforms of the stored rows. -/
def platforms (s : Session Machine) : List (Nat × Nat) := s.rows.map fun t => (Row.id t, t.stored.platformId)

/-- No row was assigned to twice, and the rows assigned to are on the platform of the provisioner. -/
def Good (p : MachineProvisioner) (st : InventoryState) : Prop :=
  st.written.Nodup ∧ ∀ x ∈ platforms st.session, x.1 ∈ st.written → x.2 = p.platformId

section Steps

variable {env : InventoryEnv} {p : MachineProvisioner} {rows : List Machine} {now : Time} {st : InventoryState}
  {log : AssignmentLog}

theorem LoopInv.mem_written (h : LoopInv p rows st log) {i : Nat} : i ∈ st.written ↔ ∃ r, (r, i) ∈ log := by
  rw [h.written, List.mem_reverse, List.mem_map]
  constructor
  · rintro ⟨⟨r, j⟩, hx, rfl⟩
    exact ⟨r, hx⟩
  · rintro ⟨r, hx⟩
    exact ⟨_, hx, rfl⟩

theorem LoopInv.mem_written_iff_last (h : LoopInv p rows st log) {i : Nat} :
    i ∈ st.written ↔ ∃ r, lastRecord log i = some r := by
  rw [h.mem_written]
  constructor
  · rintro ⟨r, hr⟩
    cases hl : lastRecord log i with
    | none => exact absurd rfl (lastRecord_none hl _ hr)
    | some s => exact ⟨s, rfl⟩
  · rintro ⟨r, hr⟩
    exact ⟨r, lastRecord_mem hr⟩

/-- The object of the session for a row of its table. -/
theorem LoopInv.objectOf (h : LoopInv p rows st log) {t : Tracked Machine} (ht : t ∈ st.session.rows) :
    st.session.objectOf t.stored = t.object := Session.objectOf_eq h.keyed ht

/-- A row that was assigned to is found out of date by any other record. -/
theorem stale_of_written (h : LoopInv p rows st log) {r : MachineRecord} {t : Tracked Machine}
    (ht : t ∈ st.session.rows) (hf : Found p r st t) (hd : ∀ x ∈ log, Distinct r x.1) (hw : Row.id t ∈ st.written) :
    ¬ (t.object.externalId = t.stored.externalId ∧ t.object.hostname = t.stored.hostname) := by
  rintro ⟨hext, hhost⟩
  obtain ⟨s, hs⟩ := h.mem_written_iff_last.mp hw
  have hcarries := h.touched t ht s hs
  have hdistinct : Distinct r s := hd _ (lastRecord_mem hs)
  rcases hf with ⟨hne, -, hheld⟩ | ⟨-, -, hheld⟩
  · exact hdistinct.2 hne (by rw [← hheld, ← hext, hcarries.externalId])
  · exact hdistinct.1 (by rw [← hheld, ← hhost, hcarries.hostname])

theorem platforms_assign (s : Session Machine) (i : Nat) (f : Machine → Machine)
    (hf : ∀ m, Row.id (f m) = Row.id m) : platforms (s.assign i f hf) = platforms s := by
  simp only [platforms, Session.assign, Table.modify, List.map_map]
  refine List.map_congr_left fun t _ => ?_
  by_cases hi : Row.id t = i
  · simp only [Function.comp_apply, hi, if_true]
    exact congrArg (·, _) hi
  · simp [hi]

theorem LoopInv.platforms_flush (h : LoopInv p rows st log) {session : Session Machine}
    (hs : st.session.flush (machineMapper env.clock) = .ok session) : platforms session = platforms st.session := by
  obtain ⟨tick, -, hrows⟩ := (Session.flush_ok _ h.keyed hs).2.rows_eq
  rw [platforms, hrows, List.map_map]
  refine List.map_congr_left fun t ht => ?_
  by_cases hp : t.Pending
  · simp only [Function.comp_apply, hp, if_true]
    exact Prod.ext (t.id_sync _ _) (h.platform t ht)
  · simp [hp]

/-- A matched record keeps the state good exactly when its lookup was current. -/
theorem good_update_iff (h : LoopInv p rows st log) {record : MachineRecord} {t : Tracked Machine}
    (ht : t ∈ st.session.rows) (hf : Found p (normalizeMachineRecord env.unicode record) st t)
    (hfind : findMachine st.session.stored p (normalizeMachineRecord env.unicode record) = .ok (some t.stored))
    (hd : ∀ x ∈ log, Distinct (normalizeMachineRecord env.unicode record) x.1) :
    Good p (updateMachine env p now st (normalizeMachineRecord env.unicode record) t.stored) ↔
      Good p st ∧ LookupCurrent p st (normalizeMachineRecord env.unicode record) := by
  obtain ⟨hsession, hwritten, -⟩ :=
    updateMachine_fields env p now st (normalizeMachineRecord env.unicode record) t.stored
  have hstale := stale_of_written h ht hf hd
  set r := normalizeMachineRecord env.unicode record
  have hcurrent : LookupCurrent p st r ↔ t.stored.platformId = p.platformId ∧
      t.object.externalId = t.stored.externalId ∧ t.object.hostname = t.stored.hostname := by
    rw [LookupCurrent, hfind]
    simp only [h.objectOf ht]
  have hmem : (t.stored.id, t.stored.platformId) ∈ platforms st.session := List.mem_map.mpr ⟨t, ht, rfl⟩
  rw [Good, Good, hsession, hwritten, platforms_assign, hcurrent, List.nodup_append']
  constructor
  · rintro ⟨⟨hnodup, -, hdisjoint⟩, hplatforms⟩
    have hnew : Row.id t ∉ st.written := fun hw => hdisjoint hw (List.mem_singleton.mpr rfl)
    have hlast : lastRecord log (Row.id t) = none := by
      cases hl : lastRecord log (Row.id t) with
      | none => rfl
      | some s => exact absurd (h.mem_written_iff_last.mpr ⟨s, hl⟩) hnew
    have hobject := (h.untouched t ht hlast).1
    exact ⟨⟨hnodup, fun x hx hw => hplatforms x hx (List.mem_append_left _ hw)⟩,
      hplatforms _ hmem (List.mem_append_right _ (List.mem_singleton.mpr rfl)), by rw [hobject], by rw [hobject]⟩
  · rintro ⟨⟨hnodup, hplatforms⟩, hplatform, hidentifiers⟩
    have hnew : Row.id t ∉ st.written := fun hw => hstale hw hidentifiers
    refine ⟨⟨hnodup, List.nodup_singleton _, List.disjoint_singleton.mpr hnew⟩, fun x hx hw => ?_⟩
    rcases List.mem_append.mp hw with hw | hw
    · exact hplatforms x hx hw
    · obtain ⟨u, hu, rfl⟩ := List.mem_map.mp hx
      rw [h.keyed.eq_of_id hu ht (List.mem_singleton.mp hw)]
      exact hplatform

/-- A creation keeps the state good. -/
theorem good_create_iff (h : LoopInv p rows st log) {r : MachineRecord} {st' : InventoryState}
    (hok : createMachine env p now st r = .ok st') : Good p st' ↔ Good p st := by
  unfold createMachine at hok
  split at hok
  · cases hok
  · rename_i session hinsert
    obtain ⟨s₁, hflush, -, hsession⟩ := (Session.insert_eq_ok_iff _).mp hinsert
    cases hok
    have hplatforms : platforms session = platforms st.session ++ [(st.nextId, p.platformId)] := by
      rw [← h.platforms_flush hflush, hsession, platforms, List.map_append]
      rfl
    have hold : ∀ i ∈ st.written, i < st.nextId := by
      intro i hi
      obtain ⟨r', hr'⟩ := h.mem_written.mp hi
      obtain ⟨t, ht, hid⟩ := h.logged _ hr'
      have hti : Row.id t = i := hid
      exact hti ▸ h.fresh t ht
    have hnew : st.nextId ∉ st.written := fun hw => (hold _ hw).false
    rw [Good, Good, hplatforms]
    constructor
    · rintro ⟨hnodup, hall⟩
      refine ⟨(List.nodup_append'.mp hnodup).1, fun x hx hw => ?_⟩
      exact hall x (List.mem_append_left _ hx) (List.mem_append_left _ hw)
    · rintro ⟨hnodup, hall⟩
      refine ⟨List.nodup_append'.mpr ⟨hnodup, List.nodup_singleton _, List.disjoint_singleton.mpr hnew⟩, ?_⟩
      intro x hx hw
      rcases List.mem_append.mp hx with hx | hx
      · rcases List.mem_append.mp hw with hw | hw
        · exact hall x hx hw
        · obtain ⟨t, ht, rfl⟩ := List.mem_map.mp hx
          exact absurd (List.mem_singleton.mp hw) (h.fresh t ht).ne
      · rw [List.mem_singleton.mp hx]

/-- The state is good at the end exactly when it was at the start and every lookup was current. -/
theorem good_run_iff : ∀ {records : List MachineRecord} {st : InventoryState} {log : AssignmentLog},
    LoopInv p rows st log → Ahead env.unicode log records →
    ∀ {st' : InventoryState}, processRecords env p now st records = .ok st' →
    (Good p st' ↔ Good p st ∧ AlongLoop env p now (LookupCurrent p) (fun _ => True) st records)
  | [], st, log, _, _, st', hok => by
    cases hok
    simp [AlongLoop]
  | record :: records, st, log, h, ha, st', hok => by
    cases hst₁ : processRecord env p now st record with
    | error e => simp [processRecords, hst₁] at hok
    | ok st₁ =>
      simp only [processRecords, hst₁] at hok
      obtain ⟨i, hturn, hinv⟩ := h.turn ha hst₁
      have hgood : Good p st₁ ↔ Good p st ∧ LookupCurrent p st (normalizeMachineRecord env.unicode record) := by
        cases hturn with
        | matched t ht hf hfind hstate _ =>
          rw [hstate]
          exact good_update_iff h ht hf hfind ha.head
        | created hfind hcreate _ => rw [good_create_iff h hcreate, LookupCurrent, hfind, and_true]
      rw [good_run_iff hinv (ha.tail i) hok, hgood, AlongLoop, hst₁, and_assoc]

/-- At the end of a run without pending rows, the state is good exactly when every record is represented and no row was
assigned to twice. -/
theorem good_iff_represented (h : LoopInv p rows st log) (hclean : ∀ t ∈ st.session.rows, ¬ t.Pending) :
    Good p st ↔ (∀ x ∈ log, ∃ m ∈ st.session.stored, Represents p x.1 m) ∧ st.written.Nodup := by
  have hobject : ∀ t ∈ st.session.rows, t.object = t.stored := fun t ht => not_not.mp (hclean t ht)
  constructor
  · rintro ⟨hnodup, hplatforms⟩
    refine ⟨fun x hx => ?_, hnodup⟩
    obtain ⟨t, ht, hid⟩ := h.logged x hx
    have hw : Row.id t ∈ st.written := h.mem_written.mpr ⟨x.1, hid ▸ hx⟩
    obtain ⟨s, hs⟩ := h.mem_written_iff_last.mp hw
    -- the only record assigned to the row is this one
    have hsnd : (log.map Prod.snd).Nodup := by
      rw [h.written] at hnodup
      exact List.nodup_reverse.mp hnodup
    have heq : (s, Row.id t) = x := List.inj_on_of_nodup_map hsnd (lastRecord_mem hs) hx hid
    have hcarries := h.touched t ht s hs
    rw [hobject t ht] at hcarries
    exact ⟨t.stored, List.mem_map_of_mem ht, hplatforms _ (List.mem_map.mpr ⟨t, ht, rfl⟩) hw, heq ▸ hcarries⟩
  · rintro ⟨hall, hnodup⟩
    refine ⟨hnodup, fun x hx hw => ?_⟩
    obtain ⟨t, ht, rfl⟩ := List.mem_map.mp hx
    obtain ⟨r, hr⟩ := h.mem_written_iff_last.mp hw
    have hmem := lastRecord_mem hr
    obtain ⟨m, hm, hplatform, hcarries⟩ := hall _ hmem
    obtain ⟨u, hu, rfl⟩ := List.mem_map.mp hm
    -- the row that represents the record was assigned the record, so it is this row
    have hlast : ∃ s, lastRecord log (Row.id u) = some s := by
      cases hl : lastRecord log (Row.id u) with
      | none => exact absurd ⟨hplatform, hcarries⟩ ((h.untouched u hu hl).2.2 _ hmem)
      | some s => exact ⟨s, rfl⟩
    obtain ⟨s, hs⟩ := hlast
    have hhost : ¬ Distinct r s := by
      have hcarried := h.touched u hu s hs
      rw [hobject u hu] at hcarried
      exact fun hd => hd.1 (hcarries.hostname.symm.trans hcarried.hostname)
    have hpair := eq_of_not_distinct h.distinct hmem (lastRecord_mem hs) hhost
    have hid : Row.id t = Row.id u := congrArg Prod.snd hpair
    rw [h.keyed.eq_of_id ht hu hid]
    exact hplatform

end Steps

/-- Starting a run does not change what a provisioner is matched by. -/
theorem represents_started {p : MachineProvisioner} {now : Time} {r : MachineRecord} {m : Machine} :
    Represents (p.started now) r m ↔ Represents p r m := by
  constructor
  · rintro ⟨hplatform, h⟩
    exact ⟨hplatform, h.source, h.externalId, h.hostname, h.application, h.region, h.environment, h.cpu, h.ramMb,
      h.diskMb⟩
  · rintro ⟨hplatform, h⟩
    exact ⟨hplatform, h.source, h.externalId, h.hostname, h.application, h.region, h.environment, h.cpu, h.ramMb,
      h.diskMb⟩

/-- The body of a run on distinct records represents all of them, in as many rows as it counts, exactly when every
lookup of the loop is current. -/
theorem body_represents_iff {env : InventoryEnv} {mock : InventoryConnector} {db : Database} (hc : db.Consistent)
    {p : MachineProvisioner} {now : Time} {ticks : Nat} {records : List MachineRecord}
    (hrecords : discover mock p = .ok records) (hd : DistinctRecords env.unicode records) {body : InventoryBody}
    (hbody : discoverAndStore env mock db p now ticks = .ok body) :
    ((∀ record ∈ records, ∃ m ∈ body.db.machines, Represents p (normalizeMachineRecord env.unicode record) m) ∧
        body.state.created + body.state.updated = body.state.written.dedup.length) ↔
      AlongLoop env p now (LookupCurrent p) (fun _ => True) (.start db ticks) records := by
  obtain ⟨records', st, session, hrecords', hloop, hflush, hstate, hmachines, -⟩ := discoverAndStore_ok hbody
  rw [hrecords, Except.ok.injEq] at hrecords'
  subst hrecords'
  have hstart : LoopInv p db.machines (.start db ticks) [] := loopInv_start hc _ _
  have hahead : Ahead env.unicode [] records := hd
  obtain ⟨log, hinv, hlog⟩ := hstart.run hahead hloop
  obtain ⟨hfinal, hclean⟩ := hinv.flush hflush
  have hgood := good_run_iff hstart hahead hloop
  have hgoodStart : Good p (.start db ticks) := by simp [Good, InventoryState.start]
  have hgoodFlush : Good p { st with session } ↔ Good p st := by simp only [Good, hinv.platforms_flush hflush]
  have hrepresented := good_iff_represented hfinal hclean
  rw [hgoodFlush, hgood, and_iff_right hgoodStart] at hrepresented
  have hrecordsLog : (∀ x ∈ log, ∃ m ∈ session.stored, Represents p x.1 m) ↔
      ∀ record ∈ records, ∃ m ∈ session.stored, Represents p (normalizeMachineRecord env.unicode record) m := by
    have hmem : ∀ r, (∃ i, (r, i) ∈ log) ↔ ∃ record ∈ records, normalizeMachineRecord env.unicode record = r := by
      intro r
      have hfst : r ∈ log.map Prod.fst ↔ r ∈ (records.map (normalizeMachineRecord env.unicode)).reverse := by
        rw [hlog, List.map_nil, List.append_nil]
      simpa using hfst
    constructor
    · intro h record hrecord
      obtain ⟨i, hi⟩ := (hmem _).mpr ⟨record, hrecord, rfl⟩
      exact h _ hi
    · rintro h ⟨r, i⟩ hx
      obtain ⟨record, hrecord, rfl⟩ := (hmem r).mp ⟨i, hx⟩
      exact h record hrecord
  have hcount : st.created + st.updated = st.written.dedup.length ↔ st.written.Nodup := by
    have hlength : st.created + st.updated = st.written.length := by
      rw [hinv.counted, hinv.written, List.length_reverse, List.length_map]
    rw [hlength, ← List.dedup_eq_self]
    constructor
    · exact fun h => (List.dedup_sublist _).eq_of_length h.symm
    · exact fun h => by rw [h]
  rw [hmachines, hstate]
  simp only [hcount, ← hrecordsLog]
  exact hrepresented.symm

/-- A successful run on distinct records represents all of them exactly when every lookup of the loop is current. -/
theorem represents_all_iff (env : InventoryEnv) (mock : InventoryConnector) (db : Database) (hc : db.Consistent)
    (ticks provisionerId : Nat) (p : MachineProvisioner) (hp : Table.get db.provisioners provisionerId = some p)
    (records : List MachineRecord) (hrecords : discover mock (p.started (env.clock ticks)) = .ok records)
    (hd : DistinctRecords env.unicode records) (report : InventoryReport)
    (hok : (runProvisionerInventory env mock db ticks provisionerId).result = .ok report) :
    RepresentsAll env.unicode p records (runProvisionerInventory env mock db ticks provisionerId) report ↔
      AlongLoop env (p.started (env.clock ticks)) (env.clock ticks) (LookupCurrent p) (fun _ => True)
        (.start db (ticks + 1)) records := by
  obtain ⟨p', body, hp', -, hbody, hrun⟩ := run_ok hok
  rw [hp, Option.some.injEq] at hp'
  subst hp'
  rw [hrun] at hok ⊢
  cases hok
  have hiff := body_represents_iff (startRun_consistent hc _ _) hrecords hd hbody
  simp only [represents_started] at hiff
  exact hiff

/-- A machine that was renamed, and a new machine under its old name. -/
def renamedRecords : List MachineRecord := [smallRecord "a" "H2", smallRecord "b" "H1"]

/-- Between the renamed machine and the one under its old name, a new machine is discovered. -/
def renamedFirstRecords : List MachineRecord := [smallRecord "a" "H2", smallRecord "c" "H3", smallRecord "b" "H1"]

/-- Nothing represents the renamed machine, unless a creation stores its new name before the old one is looked up. -/
theorem represents_all_renamed :
    (RepresentsAll Unicode.ascii smallProvisioner renamedRecords
      (runProvisionerInventory smallEnv (fun _ => .ok renamedRecords) (smallDb [smallMachine 1 "a" "H1"]) 0 1)
        ⟨0, 2, 0⟩ ↔
    AlongLoop smallEnv (smallProvisioner.started 0) 0 (LookupCurrent smallProvisioner) (fun _ => True)
      (.start (smallDb [smallMachine 1 "a" "H1"]) 1) renamedRecords) ∧
    RepresentsAll Unicode.ascii smallProvisioner renamedFirstRecords
      (runProvisionerInventory smallEnv (fun _ => .ok renamedFirstRecords) (smallDb [smallMachine 1 "a" "H1"]) 0 1)
        ⟨2, 1, 0⟩ :=
  ⟨represents_all_iff smallEnv (fun _ => .ok renamedRecords) (smallDb [smallMachine 1 "a" "H1"]) (by decide) 0 1
    smallProvisioner (by decide) renamedRecords (by decide +kernel) (by decide +kernel) ⟨0, 2, 0⟩ (by decide +kernel),
  (represents_all_iff smallEnv (fun _ => .ok renamedFirstRecords) (smallDb [smallMachine 1 "a" "H1"]) (by decide) 0 1
    smallProvisioner (by decide) renamedFirstRecords (by decide +kernel) (by decide +kernel) ⟨2, 1, 0⟩
    (by decide +kernel)).mpr (by decide +kernel)⟩

/-- Both records are assigned to the one row, which ends up as the second; nothing has the new name of the machine. -/
theorem renamed_machine_lost :
    (runProvisionerInventory smallEnv (fun _ => .ok renamedRecords) (smallDb [smallMachine 1 "a" "H1"]) 0 1).result =
      .ok ⟨0, 2, 0⟩ ∧
    ¬ RepresentsAll Unicode.ascii smallProvisioner renamedRecords
      (runProvisionerInventory smallEnv (fun _ => .ok renamedRecords) (smallDb [smallMachine 1 "a" "H1"]) 0 1)
      ⟨0, 2, 0⟩ := by
  refine ⟨by decide +kernel, fun h => ?_⟩
  have hcount := h.2
  revert hcount
  decide +kernel

end Washing
