import Washing.Inventory.Represent

/-!
# Running an inventory again

A record is mirrored by a machine when assigning it would change nothing (`Mirrors`). A run whose records are all
mirrored stays in the session it has loaded, so it emits no statement on the machines and writes nothing but the
bookkeeping of the provisioner (`run_mirrored`). After a run that represents every record, every record is mirrored
(`AssignInv`); so the next run on records that it has seen changes nothing (`rerun_changes_nothing`).
-/

namespace Washing

/-! ## A run that has nothing to do -/

/-- The machine is on the platform of the provisioner, and assigning the record would change nothing. -/
def Mirrors (U : Unicode) (p : MachineProvisioner) (r : MachineRecord) (m : Machine) : Prop :=
  m.platformId = p.platformId ∧ m.assign U p r = m

section Mirrored

variable {env : InventoryEnv} {p : MachineProvisioner} {now : Time} {rows : List Machine} {ticks : Nat}
  {record : MachineRecord} {m : Machine}

theorem Mirrors.carries (h : Mirrors env.unicode p (normalizeMachineRecord env.unicode record) m) :
    Carries p (normalizeMachineRecord env.unicode record) m := by
  have hcarries := carries_assign env.unicode p record m
  rwa [h.2] at hcarries

/-- The lookup finds the machine that mirrors the record. -/
theorem findMachine_mirrored (hk : Table.Keyed rows) (hu : Unique rows) (hm : m ∈ rows)
    (h : Mirrors env.unicode p (normalizeMachineRecord env.unicode record) m) :
    findMachine rows p (normalizeMachineRecord env.unicode record) = .ok (some m) := by
  have hcarries := h.carries
  have hhost : HoldsHostname p (normalizeMachineRecord env.unicode record) m := ⟨h.1, hcarries.hostname⟩
  have hne : (normalizeMachineRecord env.unicode record).externalId ≠ some "" := normalizeExternalId_ne_empty _
  have hexternal : ∀ n, HoldsExternalId p (normalizeMachineRecord env.unicode record) n →
      HoldsExternalId p (normalizeMachineRecord env.unicode record) m :=
    fun _ hn => ⟨hn.1, hcarries.source, hcarries.externalId⟩
  rcases findMachine_cases hk hu p hne with ⟨n, hn, hfind, hheld⟩ | ⟨-, hnone⟩
  · have hid : n.id = m.id := by
      rcases hheld with hheld | ⟨-, hheld⟩
      · exact hu n hn m hm (hheld.conflicts (hexternal n hheld))
      · exact hu n hn m hm (hheld.conflicts hhost)
    rw [hfind, hk.eq_of_id hn hm hid]
  · exact absurd hhost (hnone m hm).2

theorem stored_load (rows : List Machine) (ticks : Nat) : (Session.load rows ticks).stored = rows := by
  rw [Session.load, Session.stored, List.map_map]
  exact List.map_id rows

/-- An assignment that changes nothing leaves the session as it was loaded. -/
theorem assign_load (hk : Table.Keyed rows) (hm : m ∈ rows) {f : Machine → Machine}
    {hf : ∀ r, Row.id (f r) = Row.id r} (h : f m = m) :
    (Session.load rows ticks).assign m.id f hf = Session.load rows ticks := by
  have hrows : ((Session.load rows ticks).assign m.id f hf).rows = (Session.load rows ticks).rows := by
    refine (List.map_congr_left fun t ht => ?_).trans (List.map_id _)
    obtain ⟨n, hn, rfl⟩ := List.mem_map.mp ht
    split_ifs with hid
    · obtain rfl : n = m := hk.eq_of_id hn hm hid
      simp only [Tracked.clean, h, id]
    · rfl
  exact congrArg (fun trackedRows => (⟨trackedRows, ticks, []⟩ : Session Machine)) hrows

/-- A session that was only loaded has nothing to write. -/
theorem flush_load (M : Mapper Machine) (rows : List Machine) (ticks : Nat) :
    (Session.load rows ticks).flush M = .ok (Session.load rows ticks) := by
  have hclean : ∀ i, (Session.load rows ticks).emitUpdate M i = .ok (Session.load rows ticks) := by
    intro i
    unfold Session.emitUpdate
    cases hget : Table.get (Session.load rows ticks).rows i with
    | none => rfl
    | some t =>
      obtain ⟨n, -, rfl⟩ := List.mem_map.mp (Table.get_some hget).1
      exact if_neg (Tracked.not_pending_clean n)
  have hids : ∀ ids, Session.flushIds M ids (Session.load rows ticks) = .ok (Session.load rows ticks) := by
    intro ids
    induction ids with
    | nil => rfl
    | cons i ids ih => simp only [Session.flushIds, hclean, ih]
  exact hids _

/-- A mirrored record is counted, and nothing else happens. -/
theorem processRecord_mirrored (hk : Table.Keyed rows) (hu : Unique rows) {st : InventoryState}
    (hst : st.session = Session.load rows ticks) (hm : m ∈ rows)
    (h : Mirrors env.unicode p (normalizeMachineRecord env.unicode record) m) :
    processRecord env p now st record =
      .ok { st with updated := st.updated + 1, written := st.written ++ [m.id] } := by
  have hstored : st.session.stored = rows := by
    rw [hst, stored_load]
  have hobject : st.session.objectOf m = m := by
    rw [hst]
    refine Session.objectOf_eq (t := Tracked.clean m) ?_ (List.mem_map_of_mem hm)
    unfold Table.Keyed Table.ids at hk ⊢
    rwa [Session.load, List.map_map]
  have hflavor : flavorChanged m (normalizeMachineRecord env.unicode record) = false := by
    simp [flavorChanged, h.carries.cpu, h.carries.ramMb, h.carries.diskMb]
  have hsession : st.session.assign m.id (Machine.assign env.unicode p (normalizeMachineRecord env.unicode record))
      (Machine.id_assign _ _ _) = st.session := by
    rw [hst]
    exact assign_load hk hm h.2
  simp only [processRecord, hstored, findMachine_mirrored hk hu hm h, updateMachine, hobject, hflavor,
    Bool.false_eq_true, if_false, hsession]

/-- The loop over mirrored records counts them. -/
theorem processRecords_mirrored (hk : Table.Keyed rows) (hu : Unique rows) : ∀ {records : List MachineRecord}
    {st : InventoryState}, st.session = Session.load rows ticks →
    (∀ record ∈ records, ∃ m ∈ rows, Mirrors env.unicode p (normalizeMachineRecord env.unicode record) m) →
    ∃ written, processRecords env p now st records =
      .ok { st with updated := st.updated + records.length, written }
  | [], st, _, _ => ⟨st.written, rfl⟩
  | record :: records, st, hst, h => by
    obtain ⟨m, hm, hmirrors⟩ := h record List.mem_cons_self
    have hst' : ({ st with updated := st.updated + 1, written := st.written ++ [m.id] } : InventoryState).session =
        Session.load rows ticks := hst
    obtain ⟨written, hrest⟩ := processRecords_mirrored hk hu hst' fun r hr => h r (List.mem_cons_of_mem record hr)
    refine ⟨written, ?_⟩
    rw [processRecords, processRecord_mirrored hk hu hst hm hmirrors]
    simp only [hrest, List.length_cons, Nat.add_assoc, Nat.add_comm 1]

end Mirrored

/-- A provisioner whose run has succeeded. -/
def MachineProvisioner.succeeded (p : MachineProvisioner) (now : Time) : MachineProvisioner :=
  { p with lastRunAt := some now, lastSuccessAt := some now, lastError := none }

/-- A run whose records are all mirrored writes nothing but the bookkeeping of the provisioner. -/
theorem run_mirrored {env : InventoryEnv} {mock : InventoryConnector} {db : Database} (hk : Table.Keyed db.machines)
    (hu : Unique db.machines) {ticks provisionerId : Nat} {p : MachineProvisioner}
    (hp : Table.get db.provisioners provisionerId = some p) (henabled : p.enabled) {records : List MachineRecord}
    (hrecords : discover mock (p.started (env.clock ticks)) = .ok records)
    (h : ∀ record ∈ records, ∃ m ∈ db.machines,
      Mirrors env.unicode p (normalizeMachineRecord env.unicode record) m) :
    ∃ written, runProvisionerInventory env mock db ticks provisionerId =
      ⟨{ db with provisioners := Table.modify db.provisioners provisionerId (·.succeeded (env.clock ticks)) },
        ticks + 1, written, [], .ok ⟨0, records.length, 0⟩⟩ := by
  obtain ⟨-, hid⟩ := Table.get_some hp
  have hstart : (InventoryState.start (startRun db provisionerId (env.clock ticks)) (ticks + 1)).session =
      Session.load db.machines (ticks + 1) := rfl
  have hmirrored : ∀ record ∈ records, ∃ m ∈ db.machines,
      Mirrors env.unicode (p.started (env.clock ticks)) (normalizeMachineRecord env.unicode record) m := h
  have hprocess := @processRecords_mirrored env (p.started (env.clock ticks)) (env.clock ticks) _ (ticks + 1) hk hu
  obtain ⟨written, hloop⟩ := hprocess hstart hmirrored
  have hstore : discoverAndStore env mock (startRun db provisionerId (env.clock ticks)) (p.started (env.clock ticks))
      (env.clock ticks) (ticks + 1) = .ok
        ⟨{ db with provisioners := Table.modify db.provisioners provisionerId (·.succeeded (env.clock ticks)) },
          { InventoryState.start (startRun db provisionerId (env.clock ticks)) (ticks + 1) with
            updated := 0 + records.length
            written := written }, ticks + 1⟩ := by
    have hprovisioners : Table.modify (startRun db provisionerId (env.clock ticks)).provisioners
        (p.started (env.clock ticks)).id
          (fun q => { q with lastSuccessAt := some (env.clock ticks), lastError := none }) =
          Table.modify db.provisioners provisionerId (·.succeeded (env.clock ticks)) := by
      have hids : ∀ q : MachineProvisioner, Row.id (q.started (env.clock ticks)) = Row.id q := fun _ => rfl
      have hp' : (p.started (env.clock ticks)).id = provisionerId := hid
      rw [hp', startRun, Table.modify_modify hids]
      rfl
    have hflush := flush_load (machineMapper env.clock) db.machines (ticks + 1)
    rw [← hprovisioners]
    simp only [discoverAndStore, hrecords, bind, Except.bind, hloop, hstart, hflush]
    simp only [InventoryState.start, List.dedup_nil, List.insertionSort_nil, refreshMachines, InventoryState.store,
      stored_load, startRun]
    rfl
  refine ⟨written, ?_⟩
  have henabled' : ¬ ¬ (p.started (env.clock ticks)).enabled := not_not_intro henabled
  simp only [runProvisionerInventory, hp, if_neg henabled', hstore, Nat.zero_add]
  rfl

/-! ## After a run that represents every record -/

/-- Assigning the last record of a row again would not change its object. -/
def AssignInv (U : Unicode) (p : MachineProvisioner) (st : InventoryState) (log : AssignmentLog) : Prop :=
  ∀ t ∈ st.session.rows, ∀ r, lastRecord log (Row.id t) = some r → t.object.assign U p r = t.object

section Assigned

variable {env : InventoryEnv} {p : MachineProvisioner} {rows : List Machine} {now : Time} {st st' : InventoryState}
  {log : AssignmentLog}

theorem assign_assign (U : Unicode) (p : MachineProvisioner) (r : MachineRecord) (m : Machine) :
    (m.assign U p r).assign U p r = m.assign U p r := rfl

theorem assign_new (U : Unicode) (id : Nat) (p : MachineProvisioner) (r : MachineRecord) :
    (Machine.new U id p r).assign U p r = Machine.new U id p r := assign_assign U p r _

theorem assign_stamp (U : Unicode) (p : MachineProvisioner) (r : MachineRecord) (clock : Nat → Time) (k : Nat)
    (m : Machine) :
    ((machineMapper clock).stamp k m).assign U p r = (machineMapper clock).stamp k (m.assign U p r) := rfl

/-- Flushing stamps the time, which no record assigns. -/
theorem AssignInv.flush (h : AssignInv env.unicode p st log) (hk : Table.Keyed st.session.rows)
    {session : Session Machine} (hflush : st.session.flush (machineMapper env.clock) = .ok session) :
    AssignInv env.unicode p { st with session } log := by
  intro t ht r hr
  obtain ⟨hclean, q, hq, hid, ⟨-, k, -, hstored⟩ | ⟨-, rfl⟩⟩ := (Session.flush_ok _ hk hflush).2.row _ ht
  · have hobject : t.object = (machineMapper env.clock).stamp k q.object := (not_not.mp hclean).trans hstored
    rw [hid] at hr
    rw [hobject, assign_stamp, h q hq r hr]
  · exact h t hq r hr

theorem AssignInv.turn (h : AssignInv env.unicode p st log) (hinv : LoopInv p rows st log) {record : MachineRecord}
    {i : Nat} (hturn : Turn env p now st record st' i) :
    AssignInv env.unicode p st' ((normalizeMachineRecord env.unicode record, i) :: log) := by
  cases hturn with
  | matched t ht hf hfind hstate hid =>
    subst hstate hid
    intro u hu r hr
    rw [(updateMachine_fields env p now st _ t.stored).1] at hu
    obtain ⟨q, hq, hstored, ⟨hid, hobject⟩ | ⟨hid, rfl⟩⟩ := Session.mem_assign hu
    · have hsame : Row.id u = Row.id t := (congrArg Row.id hstored).trans hid
      rw [hsame, lastRecord_cons_self] at hr
      rw [← Option.some.inj hr, hobject, assign_assign]
    · have hne : Row.id u ≠ Row.id t := hid
      rw [lastRecord_cons_ne hne] at hr
      exact h u hq r hr
  | created hfind hcreate hid =>
    subst hid
    unfold createMachine at hcreate
    split at hcreate
    case h_1 => cases hcreate
    case h_2 session hinsert =>
      obtain ⟨s₁, hflush, -, hsession⟩ := (Session.insert_eq_ok_iff _).mp hinsert
      cases hcreate
      intro u hu r hr
      rw [hsession] at hu
      rcases List.mem_append.mp hu with hu | hu
      · have hold : Row.id u ≠ st.nextId := ((hinv.flush hflush).1.fresh u hu).ne
        rw [lastRecord_cons_ne hold] at hr
        exact h.flush hinv.keyed hflush u hu r hr
      · rw [List.mem_singleton.mp hu] at hr ⊢
        have hnew : Row.id (Tracked.clean ((machineMapper env.clock).stamp s₁.ticks
            (Machine.new env.unicode st.nextId p (normalizeMachineRecord env.unicode record)))) = st.nextId := rfl
        rw [hnew, lastRecord_cons_self] at hr
        rw [← Option.some.inj hr, Tracked.object_clean, assign_stamp, assign_new]

/-- The loop leaves every row as its last record makes it. -/
theorem AssignInv.run : ∀ {records : List MachineRecord} {st : InventoryState} {log : AssignmentLog},
    LoopInv p rows st log → AssignInv env.unicode p st log → Ahead env.unicode log records →
    ∀ {st' : InventoryState}, processRecords env p now st records = .ok st' →
    ∃ log', LoopInv p rows st' log' ∧ AssignInv env.unicode p st' log' ∧
      log'.map Prod.fst = (records.map (normalizeMachineRecord env.unicode)).reverse ++ log.map Prod.fst
  | [], st, log, h, hassign, _, st', hok => by
    cases hok
    exact ⟨log, h, hassign, rfl⟩
  | record :: records, st, log, h, hassign, ha, st', hok => by
    cases hst₁ : processRecord env p now st record with
    | error e => simp [processRecords, hst₁] at hok
    | ok st₁ =>
      simp only [processRecords, hst₁] at hok
      obtain ⟨i, hturn, hinv⟩ := h.turn ha hst₁
      obtain ⟨log', hinv', hassign', hmap⟩ := AssignInv.run hinv (hassign.turn h hturn) (ha.tail i) hok
      exact ⟨log', hinv', hassign', by simp [hmap]⟩

end Assigned

/-- A finished body leaves its provisioner as a successful run. -/
theorem discoverAndStore_provisioner {env : InventoryEnv} {mock : InventoryConnector} {db : Database}
    {provisionerId ticks : Nat} {p : MachineProvisioner} {now : Time} {body : InventoryBody}
    (hp : Table.get db.provisioners provisionerId = some p)
    (h : discoverAndStore env mock (startRun db provisionerId now) (p.started now) now ticks = .ok body) :
    Table.get body.db.provisioners provisionerId = some (p.succeeded now) := by
  obtain ⟨_, _, _, db', _, _, _, hrefresh, _, _, hbody⟩ := discoverAndStore_eq_ok h
  obtain ⟨o, n, -, rfl⟩ := refreshMachines_frame hrefresh
  have hid : (p.started now).id = provisionerId := (Table.get_some hp).2
  rw [hbody, hid]
  have hstarted : Table.get (startRun db provisionerId now).provisioners provisionerId = some (p.started now) := by
    rw [startRun, Table.get_modify (fun q => by rfl), hp]
    simp only [if_true, Option.map_some]
  show Table.get (Table.modify (startRun db provisionerId now).provisioners provisionerId _) provisionerId = _
  rw [Table.get_modify (fun q => by rfl), hstarted]
  simp only [if_true, Option.map_some]
  rfl

/-- After a run that represented every record, the machines mirror all of them. -/
theorem mirrored_of_represented {env : InventoryEnv} {mock : InventoryConnector} {db : Database} (hc : db.Consistent)
    {ticks : Nat} {p : MachineProvisioner} {now : Time} {records : List MachineRecord} (hrecords : discover mock p =
    .ok records) (hd : DistinctRecords env.unicode records) {body : InventoryBody}
    (hbody : discoverAndStore env mock db p now ticks = .ok body)
    (hall : ∀ record ∈ records, ∃ m ∈ body.db.machines, Represents p (normalizeMachineRecord env.unicode record) m)
    (hcount : body.state.created + body.state.updated = body.state.written.dedup.length) :
    Table.Keyed body.db.machines ∧ Unique body.db.machines ∧ ∀ record ∈ records, ∃ m ∈ body.db.machines,
      Mirrors env.unicode p (normalizeMachineRecord env.unicode record) m := by
  obtain ⟨records', st, session, hrecords', hloop, hflush, hstate, hmachines, -⟩ := discoverAndStore_ok hbody
  obtain rfl : records = records' := Except.ok.inj (hrecords.symm.trans hrecords')
  have hstart : LoopInv p db.machines (.start db ticks) [] := loopInv_start hc _ _
  have hassignStart : AssignInv env.unicode p (.start db ticks) [] := by
    rintro _ _ _ ⟨⟩
  have hahead : Ahead env.unicode [] records := hd
  obtain ⟨log, hinv, hassign, hlog⟩ := AssignInv.run hstart hassignStart hahead hloop
  obtain ⟨hfinal, hclean⟩ := hinv.flush hflush
  have hassignFinal := hassign.flush hinv.keyed hflush
  have hmem : ∀ r, (∃ i, (r, i) ∈ log) ↔ ∃ record ∈ records, normalizeMachineRecord env.unicode record = r := by
    intro r
    have hfst : r ∈ log.map Prod.fst ↔ r ∈ (records.map (normalizeMachineRecord env.unicode)).reverse := by
      rw [hlog, List.map_nil, List.append_nil]
    simpa using hfst
  -- every record was assigned to a row of its own
  have hnodup : st.written.Nodup := by
    rw [hstate] at hcount
    have hlength : st.created + st.updated = st.written.length := by
      rw [hinv.counted, hinv.written, List.length_reverse, List.length_map]
    exact List.dedup_eq_self.mp ((List.dedup_sublist _).eq_of_length (hcount.symm.trans hlength))
  have hrepresented : ∀ x ∈ log, ∃ m ∈ session.stored, Represents p x.1 m := by
    rintro ⟨r, i⟩ hx
    obtain ⟨record, hrecord, rfl⟩ := (hmem r).mp ⟨i, hx⟩
    exact hmachines ▸ hall record hrecord
  obtain ⟨-, hplatforms⟩ := (good_iff_represented hfinal hclean).mpr ⟨hrepresented, hnodup⟩
  have hsnd : (log.map Prod.snd).Nodup := List.nodup_reverse.mp (hinv.written ▸ hnodup)
  rw [hmachines]
  refine ⟨hfinal.storedKeyed, hfinal.storedUnique, fun record hrecord => ?_⟩
  obtain ⟨i, hi⟩ := (hmem _).mpr ⟨record, hrecord, rfl⟩
  obtain ⟨t, ht, hid⟩ := hfinal.logged _ hi
  obtain rfl : Row.id t = i := hid
  have hw : Row.id t ∈ st.written := hinv.mem_written.mpr ⟨_, hi⟩
  obtain ⟨s, hs⟩ := hinv.mem_written_iff_last.mp hw
  have heq : (s, Row.id t) = (normalizeMachineRecord env.unicode record, Row.id t) :=
    List.inj_on_of_nodup_map hsnd (lastRecord_mem hs) hi rfl
  have hobject : t.object = t.stored := not_not.mp (hclean t ht)
  have hassigned := hassignFinal t ht s hs
  rw [(Prod.mk.inj heq).1, hobject] at hassigned
  exact ⟨t.stored, List.mem_map_of_mem ht, hplatforms _ (List.mem_map.mpr ⟨t, ht, rfl⟩) hw, hassigned⟩

/-- After a successful run that represented all of its distinct records, a run on any of these records, in any order
and however often each, emits no statement on the machines and leaves everything but the bookkeeping of the
provisioner as it is. -/
theorem rerun_changes_nothing (env : InventoryEnv) (mock mock' : InventoryConnector) (db : Database)
    (hc : db.Consistent) (ticks ticks' provisionerId : Nat) (p : MachineProvisioner)
    (hp : Table.get db.provisioners provisionerId = some p) (records again : List MachineRecord)
    (hrecords : discover mock (p.started (env.clock ticks)) = .ok records) (hd : DistinctRecords env.unicode records)
    (report : InventoryReport) (hok : (runProvisionerInventory env mock db ticks provisionerId).result = .ok report)
    (hall : RepresentsAll env.unicode p records (runProvisionerInventory env mock db ticks provisionerId) report)
    (hagain : discover mock' ((p.succeeded (env.clock ticks)).started (env.clock ticks')) = .ok again)
    (hseen : ∀ r ∈ again, ∃ record ∈ records,
      normalizeMachineRecord env.unicode r = normalizeMachineRecord env.unicode record) :
    ∃ written, runProvisionerInventory env mock' (runProvisionerInventory env mock db ticks provisionerId).db ticks'
        provisionerId =
      ⟨{ (runProvisionerInventory env mock db ticks provisionerId).db with
          provisioners := Table.modify (runProvisionerInventory env mock db ticks provisionerId).db.provisioners
            provisionerId (·.succeeded (env.clock ticks')) },
        ticks' + 1, written, [], .ok ⟨0, again.length, 0⟩⟩ := by
  obtain ⟨p', body, hp', henabled, hbody, hrun⟩ := run_ok hok
  obtain rfl : p = p' := Option.some.inj (hp.symm.trans hp')
  rw [hrun] at hok hall ⊢
  cases hok
  have hstarted : (startRun db provisionerId (env.clock ticks)).Consistent :=
    { hc with provisioners_keyed := hc.provisioners_keyed.modify (fun q => by rfl) _ }
  obtain ⟨hkeyed, hunique, hmirrored⟩ := mirrored_of_represented hstarted hrecords hd hbody
    (fun record hrecord => by simpa only [represents_started] using hall.1 record hrecord) hall.2
  refine run_mirrored hkeyed hunique (discoverAndStore_provisioner hp hbody) henabled hagain fun r hr => ?_
  obtain ⟨record, hrecord, hsame⟩ := hseen r hr
  rw [hsame]
  exact hmirrored record hrecord

/-- A connector that discovers a stored machine under a new hostname, and two machines that are new. -/
def threeReported : InventoryConnector :=
  fun _ => .ok [smallRecord "a" "H1", smallRecord "b" "H2", smallRecord "c" "H3"]

/-- The same machines in another order, one of them spelled differently. -/
def threeReordered : InventoryConnector :=
  fun _ => .ok [smallRecord "c" " h3 ", smallRecord "a" "H1", smallRecord "b" "H2"]

/-- A stored machine of the provisioner. -/
def oneStored : Database := smallDb [smallMachine 2 "b" "H9"]

theorem rerun_changes_nothing_small :
    (runProvisionerInventory smallEnv threeReported oneStored 0 1).result = .ok ⟨2, 1, 0⟩ ∧
    ∃ written, runProvisionerInventory smallEnv threeReordered
        (runProvisionerInventory smallEnv threeReported oneStored 0 1).db 7 1 =
      ⟨{ (runProvisionerInventory smallEnv threeReported oneStored 0 1).db with
          provisioners := Table.modify (runProvisionerInventory smallEnv threeReported oneStored 0 1).db.provisioners 1
            (·.succeeded 7) }, 8, written, [], .ok ⟨0, 3, 0⟩⟩ := by
  have hok : (runProvisionerInventory smallEnv threeReported oneStored 0 1).result = .ok ⟨2, 1, 0⟩ := by decide +kernel
  have hall : RepresentsAll Unicode.ascii smallProvisioner
      [smallRecord "a" "H1", smallRecord "b" "H2", smallRecord "c" "H3"]
      (runProvisionerInventory smallEnv threeReported oneStored 0 1) ⟨2, 1, 0⟩ := by decide +kernel
  exact ⟨hok, rerun_changes_nothing smallEnv threeReported threeReordered oneStored (by decide) 0 7 1 smallProvisioner
    (by decide) [smallRecord "a" "H1", smallRecord "b" "H2", smallRecord "c" "H3"]
    [smallRecord "c" " h3 ", smallRecord "a" "H1", smallRecord "b" "H2"] rfl (by decide +kernel) ⟨2, 1, 0⟩ hok hall rfl
    (by decide +kernel)⟩

end Washing
