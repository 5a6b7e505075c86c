import Washing.Metrics.Placement

/-!
# One sample a day

The session does not flush before its queries, so a record does not see what the records before it have added: two
records of one day without a row are both added, and the flush violates the unique constraint of the table
(`two_samples_of_a_day`). A record of the machine whose value is no number makes the run fail as well, and so does a
last value of a day that the column cannot hold. In every other case a collection leaves one row for each day of its
records, with the value of the last one, and every other day as it was (`daily_upserted_iff`).
-/

namespace Washing

section Flush

variable {env : CollectionEnv} {rows : List MachineMetric} {provider : MachineProvider} {machines : List Machine}
  {next : Nat}

/-! ## When the writes succeed -/

/-- The columns of a record that belongs to a machine need a number. -/
theorem recordValues_isOk_iff (U : Unicode) (provider : MachineProvider) (record : MetricRecord) (now : Time) :
    (∃ values, recordValues U provider record machines now = .ok values) ↔
      (resolveMachineId U record machines ≠ none → record.value.IsFinite) := by
  unfold recordValues
  cases resolveMachineId U record machines with
  | none => simp
  | some machineId => cases hvalue : record.value <;> simp [MetricValue.toInt, MetricValue.IsFinite]

/-- With unique days every record has an operation, unless its value is no number. -/
theorem upsertAll_isOk_iff (h : Indexed MachineMetric.day next rows) (provider : MachineProvider) (k : Nat)
    (records : List MetricRecord) :
    (∃ ops, upsertAll env rows provider machines k records = .ok ops) ↔
      ∀ r ∈ records, resolveMachineId env.unicode r machines ≠ none → r.value.IsFinite := by
  induction records generalizing k with
  | nil => exact iff_of_true ⟨[], rfl⟩ fun r hr => absurd hr List.not_mem_nil
  | cons record records ih =>
    rw [List.forall_mem_cons, ← ih (k + 1), ← recordValues_isOk_iff env.unicode provider record (env.clock k)]
    constructor
    · rintro ⟨_, hops⟩
      obtain ⟨op, ops, -, hop, hrest⟩ := upsertAll_cons.mp hops
      exact ⟨⟨_, ((upsertDailyMetric_iff h).mp hop).2⟩, ops, hrest⟩
    · rintro ⟨⟨values, hvalues⟩, ops, hrest⟩
      have hfirst : ∃ op, upsertDailyMetric env.unicode rows provider record machines (env.clock k) = .ok op := by
        unfold upsertDailyMetric
        cases values with
        | none => exact ⟨_, by rw [hvalues]⟩
        | some v =>
          have hlookup := (congrArg oneOrNone (dayQuery_eq v rows)).trans (oneOrNone_day h v)
          simp only [hvalues, hlookup]
          cases rows.find? _ with
          | none => exact ⟨_, rfl⟩
          | some row => exact ⟨_, rfl⟩
      obtain ⟨op, hop⟩ := hfirst
      exact ⟨op :: ops, upsertAll_cons.mpr ⟨op, ops, rfl, hop, hrest⟩⟩

theorem length_upsertAll {k : Nat} {records : List MetricRecord} {ops : List SampleOp}
    (h : upsertAll env rows provider machines k records = .ok ops) : ops.length = records.length := by
  induction records generalizing k ops with
  | nil =>
    cases h
    rfl
  | cons record records ih =>
    obtain ⟨op, ops', rfl, -, hrest⟩ := upsertAll_cons.mp h
    simp [ih hrest]

/-- Updates give no row a new day. -/
theorem updateSamples_day {ops : List SampleOp}
    (hfound : ∀ id v, .updated id v ∈ ops → SampleOp.Fits rows (.updated id v)) {r' : MachineMetric}
    (hr' : r' ∈ updateSamples rows ops) : ∃ r ∈ rows, r'.day = r.day := by
  obtain hold | ⟨id, v, hop, hday⟩ := mem_updateSamples hr'
  · exact ⟨r', hold, rfl⟩
  · obtain ⟨r, hr, -, hsame⟩ := hfound id v hop
    exact ⟨r, hr, hday.trans (sameDay_iff.mp hsame).symm⟩

/-- Samples in range of stored machines on free, distinct days can be inserted. -/
theorem insertSamples_succeeds {scope : ScopeName} {ops : List SampleOp} {db : Database}
    (hrange : ∀ v ∈ createdSamples ops, FitsInteger v.value)
    (hmachines : ∀ v ∈ createdSamples ops, ∃ m ∈ db.machines, m.id = v.machineId)
    (hfree : ∀ v ∈ createdSamples ops, ∀ r ∈ db.metrics scope, r.day ≠ v.day)
    (hnodup : ((createdSamples ops).map SampleValues.day).Nodup) :
    ∃ db', insertSamples env scope db ops = .ok db' := by
  induction ops generalizing db with
  | nil => exact ⟨db, rfl⟩
  | cons op ops ih =>
    cases op with
    | skipped | updated _ _ => exact ih hrange hmachines hfree hnodup
    | created v =>
      obtain ⟨hvalue, hrange⟩ := List.forall_mem_cons.mp hrange
      obtain ⟨hmachine, hmachines⟩ := List.forall_mem_cons.mp hmachines
      obtain ⟨hday, hfree⟩ := List.forall_mem_cons.mp hfree
      obtain ⟨hother, hnodup⟩ := List.nodup_cons.mp hnodup
      have hnone : ¬ ∃ r ∈ db.metrics scope, sameDay v r := fun ⟨r, hr, hsame⟩ => hday r hr (sameDay_iff.mp hsame)
      rw [insertSamples, insertSample, if_neg (not_not.mpr hvalue), if_neg (not_not.mpr hmachine), if_neg hnone]
      refine ih hrange (fun w hw => ?_) (fun w hw r hr => ?_) hnodup
      · obtain ⟨m, hm, hid⟩ := hmachines w hw
        exact ⟨m, by cases scope <;> exact hm, hid⟩
      · rw [metrics_setMetrics, if_pos rfl] at hr
        obtain hr | hr := List.mem_append.mp hr
        · exact hfree w hw r (by cases scope <;> exact hr)
        · rw [List.mem_singleton.mp hr]
          exact fun hsame => hother (List.mem_map.mpr ⟨w, hw, hsame.symm⟩)

/-- A flush of operations that fit succeeds when its values are in range, and it inserts samples of stored machines and
no day twice. -/
theorem flushSamples_succeeds {db : Database} {ops : List SampleOp}
    (hfits : ∀ op ∈ ops, op.Fits (db.metrics provider.scope))
    (hupdates : ∀ op ∈ lastUpdates ops, op.UpdatesInRange)
    (hinserts : ∀ v ∈ createdSamples ops, FitsInteger v.value)
    (hmachines : ∀ v ∈ createdSamples ops, ∃ m ∈ db.machines, m.id = v.machineId)
    (hnodup : ((createdSamples ops).map SampleValues.day).Nodup) (loaded : List MachineMetric) (now : Time) :
    ∃ db', flushSamples env loaded db provider ops now = .ok db' := by
  have hrange : ¬ ∃ op ∈ lastUpdates ops, ¬ op.UpdatesInRange := fun ⟨op, hop, hout⟩ => hout (hupdates op hop)
  rw [flushSamples, if_neg hrange]
  refine insertSamples_succeeds hinserts (fun v hv => ?_) (fun v hv r hr => ?_) hnodup
  · obtain ⟨m, hm, hid⟩ := hmachines v hv
    exact ⟨m, by cases provider.scope <;> exact hm, hid⟩
  · rw [metrics_setMetrics, if_pos rfl] at hr
    have hrows : r ∈ updateSamples (db.metrics provider.scope) (emitted loaded ops) := by
      revert hr
      cases provider.scope <;> exact id
    obtain ⟨r', hr', hday⟩ := updateSamples_day (fun id v hop => hfits _ (mem_emitted hop)) hrows
    rw [hday]
    exact fun hsame => hfits _ (mem_createdSamples.mp hv) r' hr' (sameDay_iff.mpr hsame)

/-! ## What the writes leave alone -/

/-- Rows that no update concerns stay as they are. -/
theorem filter_updateSamples {P : MachineMetric → Bool} {ops : List SampleOp}
    (hvalues : ∀ id v, .updated id v ∈ ops → ∀ r : MachineMetric, P (v.assign r) = false)
    (hrows : ∀ id v, .updated id v ∈ ops → ∀ r ∈ rows, r.id = id → P r = false) :
    (updateSamples rows ops).filter P = rows.filter P := by
  induction ops generalizing rows with
  | nil => rfl
  | cons op ops ih =>
    have hvalues' : ∀ id v, .updated id v ∈ ops → ∀ r : MachineMetric, P (v.assign r) = false :=
      fun id v hop => hvalues id v (List.mem_cons_of_mem op hop)
    cases op with
    | skipped | created _ => exact ih hvalues' fun id v hop => hrows id v (List.mem_cons_of_mem _ hop)
    | updated i w =>
      rw [updateSamples, ih hvalues']
      · -- the updated row satisfied the condition neither before nor after
        rw [Table.modify, List.filter_map]
        have hkept : rows.filter (P ∘ fun r => if Row.id r = i then w.assign r else r) = rows.filter P := by
          refine List.filter_congr fun r hr => ?_
          by_cases hi : Row.id r = i
          · simp only [Function.comp_apply, if_pos hi]
            rw [hvalues i w List.mem_cons_self r, hrows i w List.mem_cons_self r hr hi]
          · simp only [Function.comp_apply, if_neg hi]
        rw [hkept]
        refine (List.map_congr_left fun r hr => ?_).trans (List.map_id _)
        obtain ⟨hr, hP⟩ := List.mem_filter.mp hr
        have hi : ¬ Row.id r = i := fun hi => by
          rw [hrows i w List.mem_cons_self r hr hi] at hP
          cases hP
        exact if_neg hi
      · intro id v hop r hr hid
        obtain ⟨r₀, hr₀, rfl⟩ := Table.mem_modify.mp hr
        split_ifs at hid ⊢ with hi
        · exact hvalues i w List.mem_cons_self r₀
        · exact hrows id v (List.mem_cons_of_mem _ hop) r₀ hr₀ hid

theorem filter_newSamples {P : MachineMetric → Bool} {ops : List SampleOp} {k : Nat}
    (h : ∀ v, .created v ∈ ops → ∀ i, P ⟨i, v.providerId, v.machineId, v.date, v.value⟩ = false) :
    (newSamples k ops).filter P = [] := by
  induction ops generalizing k with
  | nil => rfl
  | cons op ops ih =>
    have hrest : ∀ {j}, (newSamples j ops).filter P = [] := ih fun v hop => h v (List.mem_cons_of_mem op hop)
    cases op with
    | skipped | updated _ _ => exact hrest
    | created v =>
      rw [newSamples, List.filter_cons_of_neg (by simp [h v List.mem_cons_self]), hrest]

/-! ## Counting -/

theorem length_newSamples (k : Nat) (ops : List SampleOp) :
    (newSamples k ops).length = (createdSamples ops).length := by
  induction ops generalizing k with
  | nil => rfl
  | cons op ops ih =>
    cases op with
    | skipped | updated _ _ => exact ih k
    | created v => exact congrArg (· + 1) (ih (k + 1))

theorem length_updateSamples (ops : List SampleOp) : (updateSamples rows ops).length = rows.length := by
  induction ops generalizing rows with
  | nil => rfl
  | cons op ops ih =>
    cases op with
    | skipped | created _ => exact ih
    | updated id v => rw [updateSamples, ih, Table.modify, List.length_map]

/-- Every operation is counted once; no operation at all counts as one that was skipped. -/
theorem collectionReport_counts (providerId machineId : Nat) (ops : List SampleOp) :
    (collectionReport providerId machineId ops).created = (createdSamples ops).length ∧
      (collectionReport providerId machineId ops).created + (collectionReport providerId machineId ops).updated +
        (collectionReport providerId machineId ops).skipped = ops.length + if ops = [] then 1 else 0 := by
  simp only [collectionReport]
  constructor
  · induction ops with
    | nil => rfl
    | cons op ops ih => cases op <;> simpa [createdSamples] using ih
  · rw [add_comm (if ops = [] then 1 else 0), ← add_assoc]
    refine congrArg (· + _) ?_
    induction ops with
    | nil => rfl
    | cons op ops ih => cases op <;> simp only [List.countP_cons, List.length_cons] <;> simp <;> omega

/-- The samples that operations create are those of days without a row. -/
theorem createdSamples_eq {ops : List SampleOp} (hfits : ∀ op ∈ ops, op.Fits rows) :
    createdSamples ops = (ops.filterMap SampleOp.values).filter fun v => ∀ r ∈ rows, r.day ≠ v.day := by
  induction ops with
  | nil => rfl
  | cons op ops ih =>
    obtain ⟨hop, hrest⟩ := List.forall_mem_cons.mp hfits
    cases op with
    | skipped => exact ih hrest
    | created v =>
      have hfree : ∀ r ∈ rows, r.day ≠ v.day := fun r hr hday => hop r hr (sameDay_iff.mpr hday)
      have htail : createdSamples (.created v :: ops) = v :: createdSamples ops := rfl
      rw [htail, ih hrest, List.filterMap_cons]
      simpa [SampleOp.values, List.filter_cons] using hfree
    | updated id v =>
      obtain ⟨r, hr, -, hsame⟩ := hop
      have htaken : ¬ ∀ r ∈ rows, r.day ≠ v.day := fun h => h r hr (sameDay_iff.mp hsame)
      have htail : createdSamples (.updated id v :: ops) = createdSamples ops := rfl
      rw [htail, ih hrest, List.filterMap_cons]
      simp only [SampleOp.values, List.filter_cons, decide_eq_true_eq, if_neg htaken]

/-! ## Last values -/

theorem mem_sampleEntries {ops : List SampleOp} {e : SampleDay × Int} :
    e ∈ sampleEntries ops ↔ ∃ op ∈ ops, ∃ v ∈ op.values, (v.day, v.value) = e := by
  simp only [sampleEntries, List.mem_map, List.mem_filterMap]
  constructor
  · rintro ⟨v, ⟨op, hop, hv⟩, he⟩
    exact ⟨op, hop, v, hv, he⟩
  · rintro ⟨op, hop, v, hv, he⟩
    exact ⟨v, ⟨op, hop, hv⟩, he⟩

/-- The operations of a day with a row assign to this row. -/
theorem assigns_of_day (h : Indexed MachineMetric.day next rows) {id : Nat} {v w : SampleValues} {op : SampleOp}
    (hfound : SampleOp.Fits rows (.updated id v)) (hop : op.Fits rows) (hw : w ∈ op.values) (hday : w.day = v.day) :
    op.assigns id := by
  obtain ⟨r, hr, rfl, hsame⟩ := hfound
  cases op with
  | skipped => cases hw
  | created w' =>
    cases hw
    exact absurd (sameDay_iff.mpr ((sameDay_iff.mp hsame).trans hday.symm)) (hop r hr)
  | updated id' w' =>
    cases hw
    obtain ⟨r', hr', rfl, hsame'⟩ := hop
    have hrow : r' = r := h.eq_of_key hr' hr ((sameDay_iff.mp hsame').trans (hday.trans (sameDay_iff.mp hsame).symm))
    exact decide_eq_true (congrArg _ hrow)

/-- An update that is sent has the last value of its day. -/
theorem lastValue_of_updated (h : Indexed MachineMetric.day next rows) {ops : List SampleOp}
    (hfits : ∀ op ∈ ops, op.Fits rows) {id : Nat} {v : SampleValues} (hop : .updated id v ∈ lastUpdates ops) :
    lastValue (sampleEntries ops) v.day = some v.value := by
  induction ops with
  | nil => cases hop
  | cons op ops ih =>
    obtain ⟨hfirst, hrest⟩ := List.forall_mem_cons.mp hfits
    have hlater : .updated id v ∈ lastUpdates ops → ∀ e, lastValue (e :: sampleEntries ops) v.day = some v.value := by
      intro hmem e
      rw [lastValue_cons, ih hrest hmem, Option.some_or]
    cases op with
    | skipped => exact ih hrest ((List.mem_cons.mp hop).resolve_left (by rintro ⟨⟩))
    | created w => exact hlater ((List.mem_cons.mp hop).resolve_left (by rintro ⟨⟩)) _
    | updated id' w =>
      rw [lastUpdates] at hop
      split_ifs at hop with hreplaced
      · exact hlater hop _
      · obtain hop | hop := List.mem_cons.mp hop
        · cases hop
          have hnone : lastValue (sampleEntries ops) v.day = none := by
            rw [lastValue_eq_none_iff]
            intro e he hday
            obtain ⟨op, hop, u, hu, rfl⟩ := mem_sampleEntries.mp he
            exact hreplaced (List.any_eq_true.mpr ⟨op, hop, assigns_of_day h hfirst (hrest op hop) hu hday⟩)
          refine (lastValue_cons (v.day, v.value) (sampleEntries ops) v.day).trans ?_
          rw [hnone, if_pos rfl, Option.none_or]
        · exact hlater hop _

/-- A sample that is inserted has the last value of its day, if no day is inserted twice. -/
theorem lastValue_of_created {ops : List SampleOp} (hfits : ∀ op ∈ ops, op.Fits rows)
    (hnodup : ((createdSamples ops).map SampleValues.day).Nodup) {v : SampleValues} (hv : v ∈ createdSamples ops) :
    lastValue (sampleEntries ops) v.day = some v.value := by
  induction ops with
  | nil => cases hv
  | cons op ops ih =>
    obtain ⟨hfirst, hrest⟩ := List.forall_mem_cons.mp hfits
    cases op with
    | skipped => exact ih hrest hnodup hv
    | updated id w =>
      refine (lastValue_cons (w.day, w.value) (sampleEntries ops) v.day).trans ?_
      rw [ih hrest hnodup hv, Option.some_or]
    | created w =>
      obtain ⟨hother, hnodup⟩ := List.nodup_cons.mp hnodup
      refine (lastValue_cons (w.day, w.value) (sampleEntries ops) v.day).trans ?_
      obtain rfl | hv := List.mem_cons.mp hv
      · have hnone : lastValue (sampleEntries ops) v.day = none := by
          rw [lastValue_eq_none_iff]
          intro e he hday
          obtain ⟨op, hop, u, hu, rfl⟩ := mem_sampleEntries.mp he
          cases op with
          | skipped => cases hu
          | created u' =>
            cases hu
            exact hother (List.mem_map.mpr ⟨u, mem_createdSamples.mpr hop, hday⟩)
          | updated id u' =>
            cases hu
            obtain ⟨r, hr, -, hsame⟩ := hrest _ hop
            exact hfirst r hr (sameDay_iff.mpr ((sameDay_iff.mp hsame).trans hday))
        rw [hnone, if_pos rfl, Option.none_or]
      · rw [ih hrest hnodup hv, Option.some_or]

/-- The last value of a day is sent. -/
theorem lastValue_sent {ops : List SampleOp} (hkeyed : Table.Keyed rows) (hfits : ∀ op ∈ ops, op.Fits rows)
    {day : SampleDay} {value : Int} (hlast : lastValue (sampleEntries ops) day = some value) :
    (∃ id v, .updated id v ∈ lastUpdates ops ∧ v.value = value) ∨ ∃ v ∈ createdSamples ops, v.value = value := by
  induction ops with
  | nil => cases hlast
  | cons op ops ih =>
    obtain ⟨hfirst, hrest⟩ := List.forall_mem_cons.mp hfits
    cases op with
    | skipped =>
      obtain ⟨id, v, hv, hvalue⟩ | hcreated := ih hrest hlast
      · exact .inl ⟨id, v, List.mem_cons_of_mem _ hv, hvalue⟩
      · exact .inr hcreated
    | created w =>
      have hcons := (lastValue_cons (w.day, w.value) (sampleEntries ops) day).symm.trans hlast
      cases hlater : lastValue (sampleEntries ops) day with
      | some later =>
        rw [hlater, Option.some_or] at hcons
        obtain ⟨id, v, hv, hvalue⟩ | ⟨v, hv, hvalue⟩ := ih hrest (hlater.trans hcons)
        · exact .inl ⟨id, v, List.mem_cons_of_mem _ hv, hvalue⟩
        · exact .inr ⟨v, List.mem_cons_of_mem w hv, hvalue⟩
      | none =>
        rw [hlater, Option.none_or] at hcons
        split_ifs at hcons with hday
        exact .inr ⟨w, List.mem_cons_self, Option.some.inj hcons⟩
    | updated id w =>
      have hcons := (lastValue_cons (w.day, w.value) (sampleEntries ops) day).symm.trans hlast
      rw [lastUpdates]
      cases hlater : lastValue (sampleEntries ops) day with
      | some later =>
        rw [hlater, Option.some_or] at hcons
        obtain ⟨id', v, hv, hvalue⟩ | hcreated := ih hrest (hlater.trans hcons)
        · refine .inl ⟨id', v, ?_, hvalue⟩
          split_ifs
          · exact hv
          · exact List.mem_cons_of_mem _ hv
        · exact .inr hcreated
      | none =>
        rw [hlater, Option.none_or] at hcons
        split_ifs at hcons with hday
        refine .inl ⟨id, w, ?_, Option.some.inj hcons⟩
        have hlast : ¬ ops.any (·.assigns id) := by
          intro hany
          obtain ⟨op, hop, hassigns⟩ := List.any_eq_true.mp hany
          cases op with
          | skipped | created _ => cases hassigns
          | updated id' u =>
            obtain rfl : id' = id := of_decide_eq_true hassigns
            obtain ⟨r, hr, hid, hsame⟩ := hfirst
            obtain ⟨r', hr', hid', hsame'⟩ := hrest _ hop
            obtain rfl := hkeyed.eq_of_id hr hr' (hid.trans hid'.symm)
            refine lastValue_eq_none_iff.mp hlater _ (mem_sampleEntries.mpr ⟨_, hop, u, rfl, rfl⟩) ?_
            exact ((sameDay_iff.mp hsame').symm.trans (sameDay_iff.mp hsame)).trans hday
        rw [if_neg hlast]
        exact List.mem_cons_self

/-- The last values of all days fit their columns exactly when what is sent does. -/
theorem lastValues_inRange_iff (h : Indexed MachineMetric.day next rows) {ops : List SampleOp}
    (hfits : ∀ op ∈ ops, op.Fits rows) (hnodup : ((createdSamples ops).map SampleValues.day).Nodup) :
    (∀ v ∈ ops.filterMap SampleOp.values, ∀ value ∈ lastValue (sampleEntries ops) v.day, FitsInteger value) ↔
      (∀ op ∈ lastUpdates ops, op.UpdatesInRange) ∧ ∀ v ∈ createdSamples ops, FitsInteger v.value := by
  constructor
  · intro hall
    refine ⟨fun op hop => ?_, fun v hv => ?_⟩
    · cases op with
      | skipped | created _ => trivial
      | updated id v =>
        exact hall v (List.mem_filterMap.mpr ⟨_, mem_lastUpdates hop, rfl⟩) _ (lastValue_of_updated h hfits hop)
    · have hmem : v ∈ ops.filterMap SampleOp.values := List.mem_filterMap.mpr ⟨_, mem_createdSamples.mp hv, rfl⟩
      exact hall v hmem _ (lastValue_of_created hfits hnodup hv)
  · rintro ⟨hupdates, hinserts⟩ v - value hlast
    obtain ⟨id, w, hw, rfl⟩ | ⟨w, hw, rfl⟩ := lastValue_sent h.keyed hfits hlast
    · exact hupdates _ hw
    · exact hinserts w hw

end Flush

/-! ## A run -/

section Run

variable {env : CollectionEnv} {db : Database} {p : MachineProvider} {m : Machine} {connector : MetricCollector}
  {records : List MetricRecord}

/-- What is committed when the flush of a run succeeds. -/
def collectedDb (env : CollectionEnv) (db : Database) (p : MachineProvider) (m : Machine) (records : List MetricRecord)
    (ops : List SampleOp) : Database :=
  let written := writeSamples db p ops (env.clock records.length)
  writeOptimization written m.id (db.optimizations.find? fun r => r.machineId = m.id)
    (buildOptimizationSnapshot env.settings written m (env.clock (records.length + 1)))

/-- A run whose connector answers fails in a lookup or in its flush, and the error is recorded, or it commits its
operations. -/
theorem collection_cases (hc : db.Consistent) (hp : p ∈ db.providers) (hm : m ∈ db.machines) (hs : Sees db p m)
    (hget : getMetricCollector env.mock p.type = .ok connector) (hrecords : connector p [m] = .ok records) :
    (∃ e, (upsertAll env (db.metrics p.scope) p [m] 0 records = .error e ∨
        ∃ ops, upsertAll env (db.metrics p.scope) p [m] 0 records = .ok ops ∧
          flushSamples env (db.metrics p.scope) db p ops (env.clock records.length) = .error e) ∧
      runProviderMachineCollection env db p.id m.id =
        ({ db with
          providers := Table.modify db.providers p.id fun p => p.recordError env.unicode (some (.exception e)) },
          .error e)) ∨
    ∃ ops, upsertAll env (db.metrics p.scope) p [m] 0 records = .ok ops ∧
      flushSamples env (db.metrics p.scope) db p ops (env.clock records.length) =
        .ok (writeSamples db p ops (env.clock records.length)) ∧
      runProviderMachineCollection env db p.id m.id =
        (collectedDb env db p m records ops, .ok (collectionReport p.id m.id ops)) := by
  have hload : loadProvider db p.id = .ok (some p) :=
    (oneOrNone_eq hc.providers_keyed p.id).trans (congrArg _ (Table.get_of_mem hc.providers_keyed hp))
  have hscoped := scopedMachine_of_sees hc.machines_keyed hm hs
  simp only [runProviderMachineCollection, hload, hscoped]
  cases hops : upsertAll env (db.metrics p.scope) p [m] 0 records with
  | error e =>
    have hcollect : collectSamples env db p m = .error e := by
      simp only [collectSamples, hget, hrecords, hops, bind, Except.bind]
    exact .inl ⟨e, .inl rfl, by rw [hcollect]⟩
  | ok ops =>
    cases hflush : flushSamples env (db.metrics p.scope) db p ops (env.clock records.length) with
    | error e =>
      have hcollect : collectSamples env db p m = .error e := by
        simp only [collectSamples, hget, hrecords, hops, hflush, bind, Except.bind]
      exact .inl ⟨e, .inr ⟨ops, rfl, hflush⟩, by rw [hcollect]⟩
    | ok db' =>
      have hfits := (upsertAll_ok (hc.indexed p.scope) hops).1
      obtain ⟨-, -, -, rfl⟩ := flushSamples_ok (hc.indexed p.scope) (fun id v hop => hfits _ hop) hflush
      rw [writeSamples_emitted (hc.metrics_keyed p.scope) (fun id v hop => hfits _ hop) (.refl _ _)] at hflush
      obtain ⟨-, -, hmachines, hoptimizations, -⟩ := writeSamples_frame db p ops (env.clock records.length)
      have hget' : Table.get (writeSamples db p ops (env.clock records.length)).machines m.id = some m :=
        hmachines ▸ Table.get_of_mem hc.machines_keyed hm
      obtain ⟨report, hrefresh⟩ := refreshMachineOptimization_eq (s := env.settings)
        (hoptimizations.symm ▸ hc.optimizations_unique) hget' (env.clock (records.length + 1))
      have hcollect : collectSamples env db p m =
          .ok (collectedDb env db p m records ops, collectionReport p.id m.id ops) := by
        rw [hoptimizations] at hrefresh
        simp only [collectSamples, hget, hrecords, hops, hflush, hrefresh, bind, Except.bind]
        rfl
      exact .inr ⟨ops, rfl, hflush, by rw [hcollect]⟩

theorem collectedDb_metrics (ops : List SampleOp) (scope : ScopeName) :
    (collectedDb env db p m records ops).metrics scope =
      (writeSamples db p ops (env.clock records.length)).metrics scope := by
  unfold collectedDb writeOptimization
  split <;> cases scope <;> rfl

/-! ## One row a day -/

/-- The samples of the records on days without a row. -/
def freshSamples (env : CollectionEnv) (db : Database) (p : MachineProvider) (m : Machine)
    (records : List MetricRecord) :
    List SampleValues :=
  (returnedSamples env p [m] 0 records).filter fun v => ∀ r ∈ db.metrics p.scope, r.day ≠ v.day

/-- The samples of a run can be stored: the values of the records that belong to the machine are numbers, no two of
them are of the same day without a row, and the last value of each day fits its column. -/
structure StorableDaily (env : CollectionEnv) (db : Database) (p : MachineProvider) (m : Machine)
    (records : List MetricRecord) : Prop where
  finite : ∀ r ∈ records, resolveMachineId env.unicode r [m] ≠ none → r.value.IsFinite
  fresh : ((freshSamples env db p m records).map SampleValues.day).Nodup
  inRange : ∀ v ∈ returnedSamples env p [m] 0 records,
    ∀ value ∈ lastValue ((returnedSamples env p [m] 0 records).map fun v => (v.day, v.value)) v.day, FitsInteger value

/-- A run succeeds, counts its records, leaves one row with the last value for each day of its records, and leaves the
other days alone. -/
structure DailyUpserted (env : CollectionEnv) (db : Database) (p : MachineProvider) (m : Machine)
    (records : List MetricRecord) : Prop where
  report : ∃ report, (runProviderMachineCollection env db p.id m.id).2 = .ok report ∧ report.status = none ∧
    (records ≠ [] → report.created + report.updated + report.skipped = records.length) ∧
    ((runProviderMachineCollection env db p.id m.id).1.metrics p.scope).length =
      (db.metrics p.scope).length + report.created
  days : ∀ v ∈ returnedSamples env p [m] 0 records,
    ∃ r, ((runProviderMachineCollection env db p.id m.id).1.metrics p.scope).filter (fun r => r.day = v.day) = [r] ∧
      some r.value = lastValue ((returnedSamples env p [m] 0 records).map fun v => (v.day, v.value)) v.day
  others : ∀ day, (∀ v ∈ returnedSamples env p [m] 0 records, v.day ≠ day) →
    ((runProviderMachineCollection env db p.id m.id).1.metrics p.scope).filter (fun r => r.day = day) =
      (db.metrics p.scope).filter fun r => r.day = day

/-- The only row of a day. -/
theorem Indexed.filter_key {rows : List MachineMetric} {next : Nat} (h : Indexed MachineMetric.day next rows)
    {r : MachineMetric} (hr : r ∈ rows) : (rows.filter fun s => s.day = r.day) = [r] :=
  Table.filter_key h.unique hr

/-- The committed samples of a run whose operations fit. -/
theorem written_daily (hc : db.Consistent) {ops : List SampleOp}
    (hops : upsertAll env (db.metrics p.scope) p [m] 0 records = .ok ops)
    (hnodup : ((createdSamples ops).map SampleValues.day).Nodup) (now : Time) :
    (∀ v ∈ returnedSamples env p [m] 0 records,
      ∃ r, ((writeSamples db p ops now).metrics p.scope).filter (fun r => r.day = v.day) = [r] ∧
        some r.value = lastValue ((returnedSamples env p [m] 0 records).map fun v => (v.day, v.value)) v.day) ∧
    ∀ day, (∀ v ∈ returnedSamples env p [m] 0 records, v.day ≠ day) →
      ((writeSamples db p ops now).metrics p.scope).filter (fun r => r.day = day) =
        (db.metrics p.scope).filter fun r => r.day = day := by
  obtain ⟨hfits, hvalues⟩ := upsertAll_ok (hc.indexed p.scope) hops
  obtain ⟨hindexed, hput⟩ := samples_upserted (hc.indexed p.scope) hfits hnodup
  rw [writeSamples_metrics, if_pos rfl]
  rw [sampleEntries, hvalues] at hput
  constructor
  · intro v hv
    obtain ⟨value, hlast⟩ := lastValue_isSome (List.mem_map.mpr ⟨v, hv, rfl⟩ :
      (v.day, v.value) ∈ (returnedSamples env p [m] 0 records).map fun v => (v.day, v.value))
    have hlookup := congrFun hput.lookup v.day
    rw [putAll_apply, hlast, Option.some_or, valueAt, Option.map_eq_some_iff] at hlookup
    obtain ⟨r, hfind, hvalue⟩ := hlookup
    have hday : r.day = v.day := by simpa using List.find?_some hfind
    refine ⟨r, ?_, by rw [hlast, hvalue]⟩
    rw [← hday]
    exact hindexed.filter_key (List.mem_of_find?_eq_some hfind)
  · intro day hday
    have hother : ∀ v, (∃ op ∈ ops, v ∈ op.values) → v.day ≠ day := fun v hv =>
      hday v (hvalues ▸ List.mem_filterMap.mpr hv)
    rw [List.filter_append, filter_updateSamples, filter_newSamples, List.append_nil]
    · exact fun v hop i => decide_eq_false (hother v ⟨_, hop, rfl⟩)
    · exact fun id v hop r => decide_eq_false (hother v ⟨_, hop, rfl⟩)
    · intro id v hop r hr hid
      obtain ⟨r', hr', hid', hsame⟩ := hfits _ hop
      have hsameDay : r.day = v.day := by
        rw [(hc.indexed p.scope).keyed.eq_of_id hr hr' (hid.trans hid'.symm)]
        exact sameDay_iff.mp hsame
      exact decide_eq_false fun h => hother v ⟨_, hop, rfl⟩ (hsameDay.symm.trans h)

/-- For records of the collected machine a run keeps one row a day exactly when its samples can be stored. -/
theorem daily_upserted_iff (env : CollectionEnv) (db : Database) (hc : db.Consistent) (p : MachineProvider)
    (hp : p ∈ db.providers) (m : Machine) (hm : m ∈ db.machines) (hs : Sees db p m) (connector : MetricCollector)
    (hget : getMetricCollector env.mock p.type = .ok connector) (records : List MetricRecord)
    (hrecords : connector p [m] = .ok records) (hown : ∀ r ∈ records, ∀ i ∈ r.machineId, i = m.id) :
    DailyUpserted env db p m records ↔ StorableDaily env db p m records := by
  have hindexed := hc.indexed p.scope
  constructor
  · intro h
    obtain ⟨report, hreport, -⟩ := h.report
    obtain ⟨e, -, herror⟩ | ⟨ops, hops, hflush, -⟩ := collection_cases hc hp hm hs hget hrecords
    · rw [herror] at hreport
      cases hreport
    · obtain ⟨hfits, hvalues⟩ := upsertAll_ok hindexed hops
      obtain ⟨-, hnodup, hupdates, -⟩ := flushSamples_ok hindexed (fun id v hop => hfits _ hop) hflush
      have hinserts : ∀ v ∈ createdSamples ops, FitsInteger v.value := fun v hv =>
        ((flushSamples_writes hflush).2 v (mem_createdSamples.mp hv)).1
      have hrange := (lastValues_inRange_iff hindexed hfits hnodup).mpr ⟨hupdates, hinserts⟩
      rw [sampleEntries, hvalues] at hrange
      refine ⟨(upsertAll_isOk_iff hindexed p 0 records).mp ⟨ops, hops⟩, ?_, hrange⟩
      rwa [freshSamples, ← hvalues, ← createdSamples_eq hfits]
  · rintro ⟨hfinite, hfresh, hrange⟩
    obtain ⟨ops, hops⟩ := (upsertAll_isOk_iff hindexed p 0 records).mpr hfinite
    obtain ⟨hfits, hvalues⟩ := upsertAll_ok hindexed hops
    have hnodup : ((createdSamples ops).map SampleValues.day).Nodup := by
      rwa [createdSamples_eq hfits, hvalues]
    rw [← hvalues] at hrange
    obtain ⟨hupdates, hinserts⟩ := (lastValues_inRange_iff hindexed hfits hnodup).mp hrange
    have hmachines : ∀ v ∈ createdSamples ops, ∃ m ∈ db.machines, m.id = v.machineId := by
      intro v hv
      obtain ⟨-, r, hr, hresolve⟩ := (upsertAll_values hops (mem_createdSamples.mp hv)).1 v rfl
      exact ⟨m, hm, (resolveMachineId_own (hown r hr) hresolve).symm⟩
    obtain ⟨db', hflush⟩ := flushSamples_succeeds hfits hupdates hinserts hmachines hnodup
      (db.metrics p.scope) (env.clock records.length)
    have hrun : runProviderMachineCollection env db p.id m.id =
        (collectedDb env db p m records ops, .ok (collectionReport p.id m.id ops)) := by
      obtain ⟨e, herror | ⟨ops', hops', herror⟩, -⟩ | ⟨ops', hops', -, hrun⟩ :=
        collection_cases hc hp hm hs hget hrecords
      · rw [hops] at herror
        cases herror
      · rw [hops, Except.ok.injEq] at hops'
        rw [← hops', hflush] at herror
        cases herror
      · rw [hops, Except.ok.injEq] at hops'
        rw [hops', hrun]
    obtain ⟨hdays, hothers⟩ := written_daily hc hops hnodup (env.clock records.length)
    obtain ⟨hcreated, hcounts⟩ := collectionReport_counts p.id m.id ops
    constructor
    case report =>
      refine ⟨_, by rw [hrun], rfl, fun hne => ?_, ?_⟩
      · have hlength := length_upsertAll hops
        have hops' : ops ≠ [] := fun h => hne (List.length_eq_zero_iff.mp (by rw [← hlength, h]; rfl))
        rw [hcounts, if_neg hops', hlength, Nat.add_zero]
      · rw [hrun, collectedDb_metrics, writeSamples_metrics, if_pos rfl, List.length_append, length_updateSamples,
          length_newSamples, hcreated]
    case days =>
      rw [hrun]
      simp only [collectedDb_metrics]
      exact hdays
    case others =>
      rw [hrun]
      simp only [collectedDb_metrics]
      exact hothers

end Run

/-! ## Two samples of a day -/

/-- A connector that answers with some records. -/
def answering (records : List MetricRecord) : CollectionEnv where
  unicode := Unicode.ascii
  settings := Settings.default
  mock _ _ := .ok records
  clock k := k
  integrityMessage _ := "the database refuses the row"

/-- A sample of a day, without a machine id. -/
def hostnameSample (day : Int) (value : MetricValue) : MetricRecord := ⟨value, some day, none, none, some "h1"⟩

/-- A provider and a machine with a sample on day 0. -/
def dailyProvider : MachineProvider := ⟨1, 1, "metrics", "mock", .cpu, "{}", true, none, none, none⟩
def dailyMachine : Machine := ⟨1, 1, none, none, none, "H1", none, none, some 2, none, none, "{}", 0⟩
def dailyDatabase : Database :=
  { Database.empty with
    providers := [dailyProvider], machines := [dailyMachine], cpuMetrics := [⟨1, 1, 1, 0, 5⟩], nextId := 2 }

theorem dailyDatabase_sees : Sees dailyDatabase dailyProvider dailyMachine :=
  ⟨rfl, .inl (provisionerIds_eq_nil_iff.mp rfl)⟩

/-- The stored day is written twice, first with a value out of range, and a new day once; a record of no machine has no
number. -/
def writtenTwice : List MetricRecord :=
  [hostnameSample 0 100000000000000000000, hostnameSample 1 3, ⟨.nan, some 1, none, none, some "h9"⟩,
    hostnameSample 0 9]

theorem daily_upserted_writtenTwice :
    DailyUpserted (answering writtenTwice) dailyDatabase dailyProvider dailyMachine writtenTwice :=
  (daily_upserted_iff (answering writtenTwice) dailyDatabase (by decide +kernel) dailyProvider (by decide) dailyMachine
    (by decide) dailyDatabase_sees _ rfl writtenTwice rfl (by decide +kernel)).mpr
    ⟨by decide +kernel, by decide +kernel, by decide +kernel⟩

/-- Two samples of a day without a row: the run raises the violation of the unique constraint, and stores nothing. -/
theorem two_samples_of_a_day :
    let records := [hostnameSample 1 3, hostnameSample 1 4]
    let run := runProviderMachineCollection (answering records) dailyDatabase 1 1
    run.2 = .error ⟨.integrityError, "the database refuses the row"⟩ ∧ run.1.cpuMetrics = dailyDatabase.cpuMetrics ∧
      ¬ DailyUpserted (answering records) dailyDatabase dailyProvider dailyMachine records := by
  intro records run
  have herror : run.2 = .error ⟨.integrityError, "the database refuses the row"⟩ := by decide +kernel
  refine ⟨herror, by decide +kernel, fun h => ?_⟩
  obtain ⟨report, hreport, -⟩ := h.report
  exact absurd (herror.symm.trans hreport) nofun

example : (runProviderMachineCollection (answering [hostnameSample 1 .nan]) dailyDatabase 1 1).2 =
    .error ⟨.valueError, "cannot convert float NaN to integer"⟩ := by decide +kernel

example : (runProviderMachineCollection (answering [hostnameSample 1 2147483648]) dailyDatabase 1 1).2 =
    .error ⟨.dataError, "the database refuses the row"⟩ := by decide +kernel

end Washing
