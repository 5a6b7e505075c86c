import Washing.Lib.Upsert
import Washing.Metrics.Collection
import Washing.Optimizations.Inputs

/-!
# The samples of a collection

The operations of a run say which rows its lookups found (`SampleOp.Fits`). If they still fit the table when they are
written, the flush puts the samples of the connector into the table, one after the other (`flushSamples_ok`,
`writeSamples_upserted`). The flush sends only the operations that change a row (`emitted`); this makes no difference as
long as the other rows still hold what the run has loaded (`StillHeld`, `updateSamples_emitted`).
-/

namespace Washing

/-! ## Days -/

/-- The columns of the unique constraint of a metric table. -/
abbrev SampleDay := Nat × Nat × Int

/-- The day of a stored sample. -/
def MachineMetric.day (r : MachineMetric) : SampleDay := (r.providerId, r.machineId, r.date)

/-- The day of a new sample. -/
def SampleValues.day (v : SampleValues) : SampleDay := (v.providerId, v.machineId, v.date)

theorem sameDay_iff {v : SampleValues} {r : MachineMetric} : sameDay v r ↔ r.day = v.day := by
  simp [sameDay, MachineMetric.day, SampleValues.day]

/-- The stored samples of a scope, by day. -/
def sampleAt (db : Database) (scope : ScopeName) : SampleDay → Option Int :=
  valueAt MachineMetric.day MachineMetric.value (db.metrics scope)

/-! ## Operations -/

/-- What an operation writes. -/
def SampleOp.values : SampleOp → Option SampleValues
  | .skipped => none
  | .created v | .updated _ v => some v

/-- The samples that operations write, with their days. -/
def sampleEntries (ops : List SampleOp) : List (SampleDay × Int) :=
  (ops.filterMap SampleOp.values).map fun v => (v.day, v.value)

/-- The samples that a connector returned: those of a machine, with an integer value. -/
def returnedSamples (env : CollectionEnv) (provider : MachineProvider) (machines : List Machine) :
    Nat → List MetricRecord → List SampleValues
  | _, [] => []
  | k, record :: records =>
    match recordValues env.unicode provider record machines (env.clock k) with
    | .ok (some values) => values :: returnedSamples env provider machines (k + 1) records
    | .ok none | .error _ => returnedSamples env provider machines (k + 1) records

/-- The lookup of an operation would find the same now. -/
def SampleOp.Fits (rows : List MachineMetric) : SampleOp → Prop
  | .skipped => True
  | .created v => ∀ r ∈ rows, ¬ sameDay v r
  | .updated id v => ∃ r ∈ rows, r.id = id ∧ sameDay v r

instance (rows : List MachineMetric) : DecidablePred (SampleOp.Fits rows)
  | .skipped => inferInstanceAs (Decidable True)
  | .created v => inferInstanceAs (Decidable (∀ r ∈ rows, ¬ sameDay v r))
  | .updated id v => inferInstanceAs (Decidable (∃ r ∈ rows, r.id = id ∧ sameDay v r))

/-- Puts do not disturb an operation, unless they create its day. -/
theorem SampleOp.Fits.upserted {rows rows' : List MachineMetric} {entries : List (SampleDay × Int)} {op : SampleOp}
    (h : op.Fits rows) (hput : Upserted MachineMetric.day MachineMetric.value rows entries rows')
    (hnew : ∀ v, op = .created v → ∀ e ∈ entries, e.1 ≠ v.day) : op.Fits rows' := by
  cases op with
  | skipped => trivial
  | created v =>
    intro r' hr' hday
    rcases hput.keys r' hr' with ⟨r, hr, hkey⟩ | ⟨e, he, hkey⟩
    · exact h r hr (sameDay_iff.mpr (hkey.symm.trans (sameDay_iff.mp hday)))
    · exact hnew v rfl e he (hkey.symm.trans (sameDay_iff.mp hday))
  | updated id v =>
    obtain ⟨r, hr, rfl, hday⟩ := h
    obtain ⟨r', hr', hid', hday'⟩ := hput.persists r hr
    exact ⟨r', hr', hid', sameDay_iff.mpr (hday'.trans (sameDay_iff.mp hday))⟩

/-- What the columns for a record are. -/
theorem recordValues_some {U : Unicode} {provider : MachineProvider} {record : MetricRecord} {machines : List Machine}
    {now : Time} {v : SampleValues} (h : recordValues U provider record machines now = .ok (some v)) :
    v.providerId = provider.id ∧ resolveMachineId U record machines = some v.machineId ∧
      v.date = record.date.getD (dateOf now) ∧ record.value.toInt = .ok v.value := by
  unfold recordValues at h
  cases hresolve : resolveMachineId U record machines with
  | none => simp [hresolve] at h
  | some machineId =>
    cases hvalue : record.value.toInt with
    | error e => simp [hresolve, hvalue] at h
    | ok value =>
      simp only [hresolve, hvalue, Except.ok.injEq, Option.some.injEq] at h
      subst h
      exact ⟨rfl, rfl, rfl, rfl⟩

section Lookups

variable {env : CollectionEnv} {U : Unicode} {rows rows' : List MachineMetric} {provider : MachineProvider}
  {machines : List Machine} {now : Time} {next : Nat}

/-- The query of a daily upsert. -/
theorem dayQuery_eq (v : SampleValues) (rows : List MachineMetric) :
    selectWhere (fun r => Cond.and (Cond.and (Cond.eq (some r.providerId) (some v.providerId))
      (Cond.eq (some r.machineId) (some v.machineId))) (Cond.eq (some r.date) (some v.date))) rows =
      rows.filter fun r => r.day = v.day := by
  refine List.filter_congr fun r _ => ?_
  rw [Bool.eq_iff_iff]
  simp [MachineMetric.day, SampleValues.day, and_assoc]

/-- What a lookup finds in a table with unique days. -/
theorem oneOrNone_day (h : Indexed MachineMetric.day next rows) (v : SampleValues) :
    oneOrNone (rows.filter fun r => r.day = v.day) = .ok (rows.find? fun r => r.day = v.day) := by
  have hnodup : rows.Nodup := List.Nodup.of_map _ h.unique
  rw [oneOrNone_ok (hnodup.filter _), List.head?_filter]
  intro r hr s hs
  simp only [List.mem_filter, decide_eq_true_eq] at hr hs
  exact h.eq_of_key hr.1 hs.1 (hr.2.trans hs.2.symm)

/-- An operation fits the table that it was looked up in, and is the same for every table that it fits. -/
theorem upsertDailyMetric_iff (h : Indexed MachineMetric.day next rows) {record : MetricRecord} {op : SampleOp} :
    upsertDailyMetric U rows provider record machines now = .ok op ↔ op.Fits rows ∧
      recordValues U provider record machines now = .ok op.values := by
  unfold upsertDailyMetric
  cases hvalues : recordValues U provider record machines now with
  | error e => simp
  | ok values =>
    cases values with
    | none =>
      cases op with
      | skipped => simp [SampleOp.Fits, SampleOp.values]
      | created v | updated id v => simp [SampleOp.values]
    | some v =>
      have hlookup := (congrArg oneOrNone (dayQuery_eq v rows)).trans (oneOrNone_day h v)
      simp only [hlookup]
      cases hfind : rows.find? fun r => r.day = v.day with
      | none =>
        have hfree : ∀ r ∈ rows, ¬ sameDay v r := by
          intro r hr hday
          exact absurd (sameDay_iff.mp hday) (by simpa using List.find?_eq_none.mp hfind r hr)
        cases op with
        | skipped => simp [SampleOp.values]
        | created v' =>
          simp only [Except.ok.injEq, SampleOp.created.injEq, SampleOp.Fits, SampleOp.values, Option.some.injEq]
          constructor
          · rintro rfl
            exact ⟨hfree, rfl⟩
          · exact fun h => h.2
        | updated id v' =>
          simp only [reduceCtorEq, Except.ok.injEq, SampleOp.Fits, SampleOp.values, Option.some.injEq, false_iff]
          rintro ⟨⟨r, hr, -, hday⟩, rfl⟩
          exact hfree r hr hday
      | some row =>
        have hrow : row ∈ rows := List.mem_of_find?_eq_some hfind
        have hday : row.day = v.day := by simpa using List.find?_some hfind
        cases op with
        | skipped => simp [SampleOp.values]
        | created v' =>
          simp only [reduceCtorEq, Except.ok.injEq, SampleOp.Fits, SampleOp.values, Option.some.injEq, false_iff]
          rintro ⟨hfree, rfl⟩
          exact hfree row hrow (sameDay_iff.mpr hday)
        | updated id v' =>
          simp only [Except.ok.injEq, SampleOp.updated.injEq, SampleOp.Fits, SampleOp.values, Option.some.injEq]
          constructor
          · rintro ⟨rfl, rfl⟩
            exact ⟨⟨row, hrow, rfl, sameDay_iff.mpr hday⟩, rfl⟩
          · rintro ⟨⟨r, hr, rfl, hrday⟩, rfl⟩
            rw [h.eq_of_key hr hrow ((sameDay_iff.mp hrday).trans hday.symm)]
            exact ⟨rfl, rfl⟩

/-- One turn of the loop over the records. -/
theorem upsertAll_cons {k : Nat} {record : MetricRecord} {records : List MetricRecord} {ops : List SampleOp} :
    upsertAll env rows provider machines k (record :: records) = .ok ops ↔ ∃ op ops', ops = op :: ops' ∧
      upsertDailyMetric env.unicode rows provider record machines (env.clock k) = .ok op ∧
      upsertAll env rows provider machines (k + 1) records = .ok ops' := by
  rw [upsertAll]
  cases upsertDailyMetric env.unicode rows provider record machines (env.clock k) with
  | error e => simp
  | ok op =>
    cases upsertAll env rows provider machines (k + 1) records with
    | error e => simp
    | ok ops' =>
      simp only [Except.ok.injEq]
      constructor
      · rintro rfl
        exact ⟨op, ops', rfl, rfl, rfl⟩
      · rintro ⟨_, _, rfl, rfl, rfl⟩
        rfl

/-- The operations of a run fit the table, and write what the connector returned. -/
theorem upsertAll_ok (h : Indexed MachineMetric.day next rows) {k : Nat} {records : List MetricRecord}
    {ops : List SampleOp} (hops : upsertAll env rows provider machines k records = .ok ops) :
    (∀ op ∈ ops, op.Fits rows) ∧ ops.filterMap SampleOp.values = returnedSamples env provider machines k records := by
  induction records generalizing k ops with
  | nil =>
    cases hops
    exact ⟨nofun, rfl⟩
  | cons record records ih =>
    obtain ⟨op, ops', rfl, hop, hrest⟩ := upsertAll_cons.mp hops
    obtain ⟨hfits, hvalues⟩ := (upsertDailyMetric_iff h).mp hop
    obtain ⟨hrestfits, hrestvalues⟩ := ih hrest
    refine ⟨List.forall_mem_cons.mpr ⟨hfits, hrestfits⟩, ?_⟩
    rw [List.filterMap_cons, returnedSamples, hvalues, ← hrestvalues]
    cases op.values with
    | none => rfl
    | some v => rfl

/-- As long as the operations fit, the lookups would find the same. -/
theorem upsertAll_transfer (h : Indexed MachineMetric.day next rows) {next' : Nat}
    (h' : Indexed MachineMetric.day next' rows') {k : Nat} {records : List MetricRecord} {ops : List SampleOp}
    (hops : upsertAll env rows provider machines k records = .ok ops) (hfits : ∀ op ∈ ops, op.Fits rows') :
    upsertAll env rows' provider machines k records = .ok ops := by
  induction records generalizing k ops with
  | nil => exact hops
  | cons record records ih =>
    obtain ⟨op, ops', rfl, hop, hrest⟩ := upsertAll_cons.mp hops
    obtain ⟨hopfits, hrestfits⟩ := List.forall_mem_cons.mp hfits
    have hvalues := ((upsertDailyMetric_iff h).mp hop).2
    exact upsertAll_cons.mpr ⟨op, ops', rfl, (upsertDailyMetric_iff h').mpr ⟨hopfits, hvalues⟩, ih hrest hrestfits⟩

end Lookups

/-! ## The flush -/

/-- The samples that a flush inserts. -/
def createdSamples (ops : List SampleOp) : List SampleValues :=
  ops.filterMap fun op => match op with | .created v => some v | _ => none

/-- The rows that a flush inserts. -/
def newSamples : Nat → List SampleOp → List MachineMetric
  | _, [] => []
  | k, .created v :: ops => ⟨k, v.providerId, v.machineId, v.date, v.value⟩ :: newSamples (k + 1) ops
  | k, .skipped :: ops | k, .updated _ _ :: ops => newSamples k ops

/-- A provider after a successful run. -/
def MachineProvider.succeeded (p : MachineProvider) (now : Time) : MachineProvider :=
  { p with lastSuccessAt := some now }

/-- A database with the writes of a flush. -/
def writeSamples (db : Database) (provider : MachineProvider) (ops : List SampleOp) (now : Time) : Database :=
  let rows := updateSamples (db.metrics provider.scope) ops ++ newSamples db.nextId ops
  { db with
    providers := Table.modify db.providers provider.id fun p => p.succeeded now
    nextId := db.nextId + (newSamples db.nextId ops).length }.setMetrics rows provider.scope

section Flush

variable {env : CollectionEnv} {rows : List MachineMetric} {next : Nat}

theorem mem_createdSamples {ops : List SampleOp} {v : SampleValues} :
    v ∈ createdSamples ops ↔ .created v ∈ ops := by
  simp only [createdSamples, List.mem_filterMap]
  constructor
  · rintro ⟨op, hop, hv⟩
    cases op with
    | created v' =>
      cases hv
      exact hop
    | skipped | updated _ _ => cases hv
  · exact fun h => ⟨_, h, rfl⟩

@[simp] theorem metrics_setMetrics (db : Database) (rows : List MachineMetric) (scope scope' : ScopeName) :
    (db.setMetrics rows scope).metrics scope' = if scope' = scope then rows else db.metrics scope' := by
  cases scope <;> cases scope' <;> rfl

@[simp] theorem setMetrics_setMetrics (db : Database) (rows rows' : List MachineMetric) (scope : ScopeName) :
    (db.setMetrics rows scope).setMetrics rows' scope = db.setMetrics rows' scope := by
  cases scope <;> rfl

@[simp] theorem nextId_setMetrics (db : Database) (rows : List MachineMetric) (scope : ScopeName) :
    (db.setMetrics rows scope).nextId = db.nextId := by cases scope <;> rfl

theorem setMetrics_nextId (db : Database) (rows : List MachineMetric) (scope : ScopeName) (nextId : Nat) :
    { db.setMetrics rows scope with nextId } = { db with nextId }.setMetrics rows scope := by cases scope <;> rfl

/-- Inserting samples: all days are free and distinct, and the rows are appended. -/
theorem insertSamples_ok {scope : ScopeName} {ops : List SampleOp} {db db' : Database}
    (h : insertSamples env scope db ops = .ok db') :
    (∀ v ∈ createdSamples ops, ∀ r ∈ db.metrics scope, r.day ≠ v.day) ∧
    ((createdSamples ops).map SampleValues.day).Nodup ∧
    db' = { db with nextId := db.nextId + (newSamples db.nextId ops).length }.setMetrics
      (db.metrics scope ++ newSamples db.nextId ops) scope := by
  induction ops generalizing db with
  | nil =>
    cases h
    refine ⟨nofun, List.nodup_nil, ?_⟩
    cases scope <;> simp [newSamples, Database.setMetrics, Database.metrics]
  | cons op ops ih =>
    cases op with
    | skipped | updated _ _ => exact ih h
    | created v =>
      rw [insertSamples, insertSample] at h
      split_ifs at h with hrange hmachine hday
      set new : MachineMetric := ⟨db.nextId, v.providerId, v.machineId, v.date, v.value⟩ with hnew
      obtain ⟨hfree, hnodup, rfl⟩ := ih h
      simp only [metrics_setMetrics, nextId_setMetrics, if_true] at hfree ⊢
      refine ⟨List.forall_mem_cons.mpr ⟨fun r hr hrday => hday ⟨r, hr, sameDay_iff.mpr hrday⟩, fun w hw r hr => ?_⟩,
        List.nodup_cons.mpr ⟨fun hmem => ?_, hnodup⟩, ?_⟩
      · exact hfree w hw r (List.mem_append_left _ hr)
      · obtain ⟨w, hw, hwday⟩ := List.mem_map.mp hmem
        exact hfree w hw new (List.mem_append_right _ (List.mem_singleton_self new)) hwday.symm
      · rw [setMetrics_nextId, setMetrics_setMetrics, List.append_assoc]
        have hlength : db.nextId + 1 + (newSamples (db.nextId + 1) ops).length =
            db.nextId + (newSamples db.nextId (.created v :: ops)).length := by
          rw [newSamples, List.length_cons]
          omega
        rw [hlength]
        rfl

theorem updateSamples_append (rows rows' : List MachineMetric) (ops : List SampleOp) :
    updateSamples (rows ++ rows') ops = updateSamples rows ops ++ updateSamples rows' ops := by
  induction ops generalizing rows rows' with
  | nil => rfl
  | cons op ops ih =>
    cases op with
    | skipped | created _ => exact ih rows rows'
    | updated id v =>
      rw [updateSamples, updateSamples, updateSamples, Table.modify, List.map_append, ih]
      rfl

/-- Rows that no operation found stay as they are. -/
theorem updateSamples_of_not_found {r : MachineMetric} {ops : List SampleOp} (h : ∀ v, .updated r.id v ∉ ops) :
    updateSamples [r] ops = [r] := by
  induction ops with
  | nil => rfl
  | cons op ops ih =>
    have hrest := ih fun v hv => h v (List.mem_cons_of_mem op hv)
    cases op with
    | skipped | created _ => exact hrest
    | updated id v =>
      have hne : ¬ Row.id r = id := by
        rintro rfl
        exact h v List.mem_cons_self
      rw [updateSamples, Table.modify, List.map_singleton, if_neg hne, hrest]

/-- The updates and inserts of a flush put the samples of the operations into the table. -/
theorem samples_upserted (h : Indexed MachineMetric.day next rows) {ops : List SampleOp}
    (hfits : ∀ op ∈ ops, op.Fits rows)
    (hnodup : ((createdSamples ops).map SampleValues.day).Nodup) :
    Indexed MachineMetric.day (next + (newSamples next ops).length) (updateSamples rows ops ++ newSamples next ops) ∧
      Upserted MachineMetric.day MachineMetric.value rows (sampleEntries ops)
        (updateSamples rows ops ++ newSamples next ops) := by
  induction ops generalizing rows next with
  | nil =>
    rw [updateSamples, newSamples, List.append_nil]
    exact ⟨h, Upserted.refl rows⟩
  | cons op ops ih =>
    obtain ⟨hop, hrest⟩ := List.forall_mem_cons.mp hfits
    cases op with
    | skipped => exact ih h hrest hnodup
    | updated id v =>
      obtain ⟨row, hrow, rfl, hday⟩ := hop
      have hrowday : row.day = v.day := sameDay_iff.mp hday
      obtain ⟨hindexed, hput⟩ := h.modify MachineMetric.value hrow (f := v.assign) (fun _ => rfl) hrowday.symm rfl
      rw [hrowday] at hput
      have hfits' : ∀ op ∈ ops, op.Fits (Table.modify rows row.id v.assign) := by
        refine fun op hop => (hrest op hop).upserted hput fun w hw e he hday' => ?_
        rw [List.mem_singleton.mp he] at hday'
        exact (hw ▸ hrest op hop : SampleOp.Fits rows (.created w)) row hrow (sameDay_iff.mpr (hrowday.trans hday'))
      obtain ⟨hdone, hall⟩ := ih hindexed hfits' hnodup
      exact ⟨hdone, hput.trans hall⟩
    | created v =>
      set new : MachineMetric := ⟨next, v.providerId, v.machineId, v.date, v.value⟩ with hnew
      have hfree : ∀ r ∈ rows, r.day ≠ v.day := fun r hr hday => hop r hr (sameDay_iff.mpr hday)
      obtain ⟨hindexed, hput⟩ := h.append MachineMetric.value (r := new) rfl hfree
      obtain ⟨hother, hnodup⟩ := List.nodup_cons.mp hnodup
      have hfits' : ∀ op ∈ ops, op.Fits (rows ++ [new]) := by
        refine fun op hop => (hrest op hop).upserted hput fun w hw e he hday => hother ?_
        rw [List.mem_singleton.mp he] at hday
        exact List.mem_map.mpr ⟨w, mem_createdSamples.mpr (hw ▸ hop), hday.symm⟩
      obtain ⟨hdone, hall⟩ := ih hindexed hfits' hnodup
      have hkept : updateSamples [new] ops = [new] := by
        refine updateSamples_of_not_found fun w hw => ?_
        obtain ⟨r, hr, hid, -⟩ := hrest _ hw
        exact absurd hid (h.fresh r hr).ne
      rw [updateSamples_append, hkept, List.append_assoc, List.singleton_append] at hdone hall
      have hlength : next + 1 + (newSamples (next + 1) ops).length =
          next + (newSamples next (.created v :: ops)).length := by
        rw [newSamples, List.length_cons]
        omega
      rw [hlength] at hdone
      exact ⟨hdone, hput.trans hall⟩

/-- Updates leave every day where it is. -/
theorem updateSamples_persists (h : Indexed MachineMetric.day next rows) {ops : List SampleOp}
    (hfound : ∀ id v, .updated id v ∈ ops → SampleOp.Fits rows (.updated id v)) {r : MachineMetric} (hr : r ∈ rows) :
    ∃ r' ∈ updateSamples rows ops, r'.day = r.day := by
  induction ops generalizing rows r with
  | nil => exact ⟨r, hr, rfl⟩
  | cons op ops ih =>
    have hrest : ∀ id v, .updated id v ∈ ops → SampleOp.Fits rows (.updated id v) :=
      fun id v hmem => hfound id v (List.mem_cons_of_mem op hmem)
    cases op with
    | skipped | created _ => exact ih h hrest hr
    | updated id v =>
      obtain ⟨row, hrow, rfl, hday⟩ := hfound id v List.mem_cons_self
      obtain ⟨hindexed, hput⟩ := h.modify MachineMetric.value hrow (f := v.assign) (fun _ => rfl)
        (sameDay_iff.mp hday).symm rfl
      obtain ⟨r', hr', -, hday'⟩ := hput.persists r hr
      obtain ⟨r'', hr'', hday''⟩ := ih hindexed (fun id w hmem => (hrest id w hmem).upserted hput nofun) hr'
      exact ⟨r'', hr'', hday''.trans hday'⟩

/-! ## What a flush sends -/

theorem mem_lastUpdates {ops : List SampleOp} {op : SampleOp} (h : op ∈ lastUpdates ops) : op ∈ ops := by
  induction ops with
  | nil => cases h
  | cons first ops ih =>
    cases first with
    | skipped | created _ =>
      rcases List.mem_cons.mp h with rfl | h
      · exact List.mem_cons_self
      · exact List.mem_cons_of_mem _ (ih h)
    | updated id v =>
      rw [lastUpdates] at h
      split_ifs at h with hlater
      · exact List.mem_cons_of_mem _ (ih h)
      · rcases List.mem_cons.mp h with rfl | h
        · exact List.mem_cons_self
        · exact List.mem_cons_of_mem _ (ih h)

theorem mem_emitted {loaded : List MachineMetric} {ops : List SampleOp} {op : SampleOp} (h : op ∈ emitted loaded ops) :
    op ∈ ops := mem_lastUpdates (List.mem_filter.mp h).1

/-- All inserts are sent. -/
theorem newSamples_emitted (loaded : List MachineMetric) (k : Nat) (ops : List SampleOp) :
    newSamples k (emitted loaded ops) = newSamples k ops := by
  unfold emitted
  induction ops generalizing k with
  | nil => rfl
  | cons op ops ih =>
    cases op with
    | skipped => exact ih k
    | created v => exact congrArg (_ :: ·) (ih (k + 1))
    | updated id v =>
      rw [lastUpdates]
      split_ifs with hlater
      · exact ih k
      · rw [List.filter_cons]
        split_ifs
        · exact ih k
        · exact ih k

/-- An assignment that a later one replaces does not matter. -/
theorem updateSamples_replaced {ops : List SampleOp} {id : Nat} (h : ops.any (·.assigns id)) (v : SampleValues)
    (rows : List MachineMetric) : updateSamples (Table.modify rows id v.assign) ops = updateSamples rows ops := by
  induction ops generalizing rows with
  | nil => cases h
  | cons op ops ih =>
    cases op with
    | skipped | created _ => exact ih h rows
    | updated id' v' =>
      rw [updateSamples, updateSamples]
      by_cases hid : id' = id
      · subst hid
        have hlast : Table.modify (Table.modify rows id' v.assign) id' v'.assign = Table.modify rows id' v'.assign := by
          rw [Table.modify, Table.modify, Table.modify, List.map_map]
          refine List.map_congr_left fun r _ => ?_
          simp only [Function.comp_apply]
          by_cases hr : Row.id r = id'
          · rw [if_pos hr, if_pos hr]
            exact if_pos hr
          · rw [if_neg hr, if_neg hr]
        rw [hlast]
      · have hlater : ops.any (·.assigns id) := by simpa [SampleOp.assigns, hid] using h
        have hswap : Table.modify (Table.modify rows id v.assign) id' v'.assign =
            Table.modify (Table.modify rows id' v'.assign) id v.assign := by
          rw [Table.modify, Table.modify, Table.modify, Table.modify, List.map_map, List.map_map]
          refine List.map_congr_left fun r _ => ?_
          simp only [Function.comp_apply]
          by_cases hr : Row.id r = id
          · have hr' : Row.id r ≠ id' := fun e => hid (e.symm.trans hr)
            rw [if_pos hr, if_neg hr', if_pos hr]
            exact if_neg hr'
          · rw [if_neg hr]
            by_cases hr' : Row.id r = id'
            · rw [if_pos hr']
              exact (if_neg hr).symm
            · rw [if_neg hr', if_neg hr]
        rw [hswap, ih hlater]

/-- What was loaded still holds where a flush writes nothing. -/
def StillHeld (loaded rows : List MachineMetric) (ops : List SampleOp) : Prop :=
  ∀ op ∈ lastUpdates ops, op.Changes rows → op.Changes loaded

instance (loaded rows : List MachineMetric) (ops : List SampleOp) : Decidable (StillHeld loaded rows ops) :=
  inferInstanceAs (Decidable (∀ op ∈ _, _))

theorem StillHeld.refl (rows : List MachineMetric) (ops : List SampleOp) : StillHeld rows rows ops := fun _ _ => id

/-- Rows with another id are not modified. -/
theorem changes_modify {op : SampleOp} {id : Nat} {f : MachineMetric → MachineMetric} (hf : ∀ r, (f r).id = r.id)
    (h : ¬ op.assigns id) : op.Changes (Table.modify rows id f) ↔ op.Changes rows := by
  cases op with
  | skipped | created _ => exact Iff.rfl
  | updated id' v =>
    have hne : id' ≠ id := by simpa [SampleOp.assigns] using h
    have hother : ∀ {r : MachineMetric}, r.id = id' → ¬ Row.id r = id := fun hr e => hne (hr.symm.trans e)
    constructor
    · intro hch r hr hid
      have hmem : (if Row.id r = id then f r else r) ∈ Table.modify rows id f := List.mem_map_of_mem hr
      rw [if_neg (hother hid)] at hmem
      exact hch r hmem hid
    · intro hch r hr hid
      obtain ⟨s, hs, rfl⟩ := Table.mem_modify.mp hr
      by_cases hsid : Row.id s = id
      · rw [if_pos hsid, hf] at hid
        exact absurd hsid (hother hid)
      · rw [if_neg hsid] at hid ⊢
        exact hch s hs hid

/-- A flush leaves the table as if every assignment was written, if what it loaded still holds where it writes
nothing. -/
theorem updateSamples_emitted {loaded : List MachineMetric} {ops : List SampleOp} (hkeyed : Table.Keyed rows)
    (hfound : ∀ id v, .updated id v ∈ ops → SampleOp.Fits rows (.updated id v)) (hheld : StillHeld loaded rows ops) :
    updateSamples rows (emitted loaded ops) = updateSamples rows ops := by
  unfold emitted
  induction ops generalizing rows with
  | nil => rfl
  | cons op ops ih =>
    have hrest : ∀ id v, .updated id v ∈ ops → SampleOp.Fits rows (.updated id v) :=
      fun id v hmem => hfound id v (List.mem_cons_of_mem op hmem)
    cases op with
    | skipped | created _ => exact ih hkeyed hrest fun op hop => hheld op (List.mem_cons_of_mem _ hop)
    | updated id v =>
      rw [StillHeld, lastUpdates] at hheld
      rw [lastUpdates, updateSamples]
      split_ifs at hheld ⊢ with hlater
      · rw [ih hkeyed hrest hheld, updateSamples_replaced hlater]
      · obtain ⟨hfirst, hheld⟩ := List.forall_mem_cons.mp hheld
        have hother : ∀ {op : SampleOp}, op ∈ ops → ¬ op.assigns id :=
          fun hop ha => hlater (List.any_eq_true.mpr ⟨_, hop, ha⟩)
        rw [List.filter_cons]
        split_ifs with hchanges
        · rw [updateSamples]
          refine ih (hkeyed.modify (f := v.assign) (fun _ => rfl) _) (fun i w hmem => ?_) fun op hop => ?_
          · obtain ⟨r, hr, rfl, hday⟩ := hrest i w hmem
            have hne : ¬ Row.id r = id := by simpa [SampleOp.assigns, Row.id] using hother hmem
            exact ⟨r, Table.mem_modify.mpr ⟨r, hr, (if_neg hne).symm⟩, rfl, hday⟩
          · rw [changes_modify (f := v.assign) (fun _ => rfl) (hother (mem_lastUpdates hop))]
            exact hheld op hop
        · -- the row has the assigned value already
          have hnot : ¬ SampleOp.Changes rows (.updated id v) := fun h => hchanges (decide_eq_true (hfirst h))
          simp only [SampleOp.Changes, not_forall, not_not] at hnot
          obtain ⟨r, hr, hid, hvalue⟩ := hnot
          obtain ⟨r', hr', hid', hday⟩ := hfound id v List.mem_cons_self
          obtain rfl := hkeyed.eq_of_id hr hr' (hid.trans hid'.symm)
          have hsame : Table.modify rows id v.assign = rows := by
            refine (List.map_congr_left fun s hs => ?_).trans (List.map_id rows)
            split_ifs with hsid
            · obtain rfl := hkeyed.eq_of_id hs hr (hsid.trans hid.symm)
              obtain ⟨hprovider, hmachine, hdate⟩ := hday
              rw [SampleValues.assign, ← hprovider, ← hmachine, ← hdate, ← hvalue]
              rfl
            · rfl
          rw [hsame]
          exact ih hkeyed hrest hheld

/-- A flush succeeds only when its operations fit, create no day twice and assign no value out of range; then it writes
what it sends. -/
theorem flushSamples_ok {loaded : List MachineMetric} {db db' : Database} {provider : MachineProvider}
    {ops : List SampleOp} {now : Time} (hrows : Indexed MachineMetric.day next (db.metrics provider.scope))
    (hfound : ∀ id v, .updated id v ∈ ops → SampleOp.Fits (db.metrics provider.scope) (.updated id v))
    (h : flushSamples env loaded db provider ops now = .ok db') :
    (∀ op ∈ ops, op.Fits (db.metrics provider.scope)) ∧ ((createdSamples ops).map SampleValues.day).Nodup ∧
      (∀ op ∈ lastUpdates ops, op.UpdatesInRange) ∧ db' = writeSamples db provider (emitted loaded ops) now := by
  rw [flushSamples] at h
  split_ifs at h with hrange
  obtain ⟨hfree, hnodup, rfl⟩ := insertSamples_ok h
  simp only [metrics_setMetrics, nextId_setMetrics, if_true] at hfree ⊢
  refine ⟨fun op hop => ?_, hnodup, fun op hop => by_contra fun hout => hrange ⟨op, hop, hout⟩, ?_⟩
  · cases op with
    | skipped => trivial
    | created v =>
      intro r hr hday
      obtain ⟨r', hr', hday'⟩ := updateSamples_persists hrows (fun id v hmem => hfound id v (mem_emitted hmem)) hr
      exact hfree v (mem_createdSamples.mpr hop) r' hr' (hday'.trans (sameDay_iff.mp hday))
    | updated id v => exact hfound id v hop
  · rw [setMetrics_nextId, setMetrics_setMetrics, writeSamples, newSamples_emitted]
    rfl

/-- What a flush sends is what it would write, if what it loaded still holds. -/
theorem writeSamples_emitted {loaded : List MachineMetric} {db : Database} {provider : MachineProvider}
    {ops : List SampleOp} (hkeyed : Table.Keyed (db.metrics provider.scope))
    (hfound : ∀ id v, .updated id v ∈ ops → SampleOp.Fits (db.metrics provider.scope) (.updated id v))
    (hheld : StillHeld loaded (db.metrics provider.scope) ops) (now : Time) :
    writeSamples db provider (emitted loaded ops) now = writeSamples db provider ops now := by
  rw [writeSamples, writeSamples, newSamples_emitted, updateSamples_emitted hkeyed hfound hheld]

end Flush

/-! ## The database after a flush -/

section Write

variable (db : Database) (provider : MachineProvider) (ops : List SampleOp) (now : Time)

theorem writeSamples_metrics (scope : ScopeName) : (writeSamples db provider ops now).metrics scope =
    if scope = provider.scope then updateSamples (db.metrics provider.scope) ops ++ newSamples db.nextId ops
    else db.metrics scope := by
  rw [writeSamples, metrics_setMetrics]
  rfl

theorem writeSamples_frame : (writeSamples db provider ops now).provisioners = db.provisioners ∧
    (writeSamples db provider ops now).attachments = db.attachments ∧
    (writeSamples db provider ops now).machines = db.machines ∧
    (writeSamples db provider ops now).optimizations = db.optimizations ∧
    (writeSamples db provider ops now).applications = db.applications ∧
    (writeSamples db provider ops now).nextId = db.nextId + (newSamples db.nextId ops).length ∧
    (writeSamples db provider ops now).providers =
      Table.modify db.providers provider.id fun p => p.succeeded now := by
  unfold writeSamples
  cases provider.scope <;> exact ⟨rfl, rfl, rfl, rfl, rfl, rfl, rfl⟩

theorem writeSamples_flavorHistory : (writeSamples db provider ops now).flavorHistory = db.flavorHistory := by
  unfold writeSamples
  cases provider.scope <;> rfl

variable {db provider ops now}

theorem Database.Consistent.indexed {db : Database} (h : db.Consistent) (scope : ScopeName) :
    Indexed MachineMetric.day db.nextId (db.metrics scope) :=
  ⟨h.metrics_keyed scope, h.metrics_unique scope, h.metrics_fresh scope⟩

/-- A flush keeps the database consistent. -/
theorem Database.Consistent.writeSamples (h : db.Consistent) (hfits : ∀ op ∈ ops, op.Fits (db.metrics provider.scope))
    (hnodup : ((createdSamples ops).map SampleValues.day).Nodup) : (writeSamples db provider ops now).Consistent := by
  obtain ⟨hprovisioners, -, hmachines, hoptimizations, happlications, hnext, hproviders⟩ :=
    writeSamples_frame db provider ops now
  have hindexed : ∀ scope, Indexed MachineMetric.day (Washing.writeSamples db provider ops now).nextId
      ((Washing.writeSamples db provider ops now).metrics scope) := by
    intro scope
    rw [writeSamples_metrics, hnext]
    split_ifs with hscope
    · exact (samples_upserted (h.indexed provider.scope) hfits hnodup).1
    · exact ⟨(h.indexed scope).keyed, (h.indexed scope).unique,
        fun r hr => ((h.indexed scope).fresh r hr).trans_le (Nat.le_add_right _ _)⟩
  have hle : db.nextId ≤ (Washing.writeSamples db provider ops now).nextId := hnext ▸ Nat.le_add_right _ _
  constructor
  case provisioners_keyed => exact hprovisioners ▸ h.provisioners_keyed
  case providers_keyed => exact hproviders ▸ h.providers_keyed.modify (f := fun p => p.succeeded now) (fun _ => rfl) _
  case machines_keyed => exact hmachines ▸ h.machines_keyed
  case machines_unique => exact hmachines ▸ h.machines_unique
  case machines_fresh => exact hmachines ▸ fun m hm => (h.machines_fresh m hm).trans_le hle
  case metrics_keyed => exact fun scope => (hindexed scope).keyed
  case metrics_unique => exact fun scope => (hindexed scope).unique
  case metrics_fresh => exact fun scope => (hindexed scope).fresh
  case optimizations_keyed => exact hoptimizations ▸ h.optimizations_keyed
  case optimizations_unique => exact hoptimizations ▸ h.optimizations_unique
  case optimizations_fresh => exact hoptimizations ▸ fun r hr => (h.optimizations_fresh r hr).trans_le hle
  case applications_keyed => exact happlications ▸ h.applications_keyed

/-- What a flush does to the samples of each scope. -/
theorem writeSamples_upserted (h : db.Consistent) (hfits : ∀ op ∈ ops, op.Fits (db.metrics provider.scope))
    (hnodup : ((createdSamples ops).map SampleValues.day).Nodup) (scope : ScopeName) :
    Upserted MachineMetric.day MachineMetric.value (db.metrics scope)
      (if scope = provider.scope then sampleEntries ops else [])
      ((writeSamples db provider ops now).metrics scope) := by
  rw [writeSamples_metrics]
  split_ifs with hscope
  · subst hscope
    exact (samples_upserted (h.indexed _) hfits hnodup).2
  · exact Upserted.refl _

/-- The own writes of a transaction do not depend on the bookkeeping of the providers. -/
theorem SameInputs.writeSamples {db' : Database} (h : SameInputs db db') (hnext : db'.nextId = db.nextId) :
    SameInputs (writeSamples db provider ops now) (writeSamples db' provider ops now) := by
  obtain ⟨hprovisioners, hattachments, hmachines, -, -, -, hproviders⟩ := writeSamples_frame db provider ops now
  obtain ⟨hprovisioners', hattachments', hmachines', -, -, -, hproviders'⟩ := writeSamples_frame db' provider ops now
  constructor
  case machines => rw [hmachines', hmachines, h.machines]
  case provisioners => rw [hprovisioners', hprovisioners, h.provisioners]
  case attachments => rw [hattachments', hattachments, h.attachments]
  case providers =>
    have hbare : ∀ p : MachineProvider, (p.succeeded now).bare = p.bare := fun _ => rfl
    rw [hproviders', hproviders, Table.map_modify hbare, Table.map_modify hbare, h.providers]
  case metrics =>
    intro scope
    rw [writeSamples_metrics, writeSamples_metrics, h.metrics, h.metrics, hnext]

end Write

end Washing
