import Washing.Metrics.Daily

/-!
# What a collection touches

A record designates a machine by its id, and without one by its external id or its hostname. The last two are looked up
among the machines that the run collects from, the id is not: a record with the id of another machine writes a sample
of that machine (`record_of_another_machine`). Without such a record a run touches nothing but the samples of its
provider and machine and the optimization of this machine, and skips what does not designate it (`touches_own_iff`).
-/

namespace Washing

/-- The record is about the machine. -/
def MetricRecord.Designates (U : Unicode) (record : MetricRecord) (m : Machine) : Prop :=
  record.machineId = some m.id ∨ record.machineId = none ∧
    ((∃ e ∈ normalizeExternalId U record.machineExternalId, m.externalId = some e) ∨
      normalizeHostname U record.hostname = some m.hostname)

instance (U : Unicode) (record : MetricRecord) (m : Machine) : Decidable (record.Designates U m) :=
  inferInstanceAs (Decidable (_ ∨ _))

/-- Without an id a record is resolved to the machine that it designates. -/
theorem resolveMachineId_none {U : Unicode} {record : MetricRecord} {m : Machine} (h : record.machineId = none) :
    resolveMachineId U record [m] = if record.Designates U m then some m.id else none := by
  unfold resolveMachineId MetricRecord.Designates
  simp only [h, reduceCtorEq, false_or, true_and]
  cases hexternal : normalizeExternalId U record.machineExternalId with
  | none =>
    cases hhostname : normalizeHostname U record.hostname with
    | none => simp
    | some hostname => by_cases hm : m.hostname = hostname <;> simp [hm, eq_comm]
  | some e =>
    cases hhostname : normalizeHostname U record.hostname with
    | none => by_cases he : m.externalId = some e <;> simp [he]
    | some hostname =>
      by_cases he : m.externalId = some e <;> by_cases hm : m.hostname = hostname <;> simp [he, hm, eq_comm]

/-- A record that does not name another machine by its id is resolved to the machine that it designates. -/
theorem resolveMachineId_designates {U : Unicode} {record : MetricRecord} {m : Machine}
    (h : ∀ i ∈ record.machineId, i = m.id) :
    resolveMachineId U record [m] = if record.Designates U m then some m.id else none := by
  cases hid : record.machineId with
  | none => exact resolveMachineId_none hid
  | some i =>
    cases h i hid
    simp [resolveMachineId, MetricRecord.Designates, hid]

section Loop

variable {env : CollectionEnv} {rows : List MachineMetric} {p : MachineProvider} {machines : List Machine} {next : Nat}

/-- A record has no columns exactly when it is resolved to no machine. -/
theorem recordValues_none_iff (p : MachineProvider) (record : MetricRecord) (now : Time) :
    recordValues env.unicode p record machines now = .ok none ↔
      resolveMachineId env.unicode record machines = none := by
  unfold recordValues
  cases resolveMachineId env.unicode record machines with
  | none => simp
  | some machineId => cases hvalue : record.value.toInt <;> simp

/-- A record is skipped exactly when it is resolved to no machine. -/
theorem upsertDailyMetric_skipped_iff (h : Indexed MachineMetric.day next rows) {record : MetricRecord} {now : Time}
    {op : SampleOp} (hop : upsertDailyMetric env.unicode rows p record machines now = .ok op) :
    op = .skipped ↔ resolveMachineId env.unicode record machines = none := by
  have hvalues := ((upsertDailyMetric_iff h).mp hop).2
  rw [← recordValues_none_iff p record now, hvalues, Except.ok.injEq]
  cases op with
  | skipped => exact iff_of_true rfl rfl
  | created v | updated id v => exact iff_of_false (by rintro ⟨⟩) (by rintro ⟨⟩)

/-- The number of skipped records. -/
theorem countP_skipped (h : Indexed MachineMetric.day next rows) {k : Nat} {records : List MetricRecord}
    {ops : List SampleOp} (hops : upsertAll env rows p machines k records = .ok ops) :
    ops.countP (· = .skipped) = records.countP fun r => resolveMachineId env.unicode r machines = none := by
  induction records generalizing k ops with
  | nil =>
    cases hops
    rfl
  | cons record records ih =>
    obtain ⟨op, ops', rfl, hop, hrest⟩ := upsertAll_cons.mp hops
    simp only [List.countP_cons, ih hrest, decide_eq_true_eq, upsertDailyMetric_skipped_iff h hop]

end Loop

/-! ## A run -/

/-- A run touches the samples of its provider and machine and the optimization of this machine only; a record that does
not designate this machine is skipped, and counted as such. -/
structure TouchesOwn (env : CollectionEnv) (db : Database) (p : MachineProvider) (m : Machine)
    (records : List MetricRecord) : Prop where
  samples : ∀ scope, ((runProviderMachineCollection env db p.id m.id).1.metrics scope).filter
      (fun r => ¬ (scope = p.scope ∧ r.providerId = p.id ∧ r.machineId = m.id)) =
    (db.metrics scope).filter fun r => ¬ (scope = p.scope ∧ r.providerId = p.id ∧ r.machineId = m.id)
  optimizations : (runProviderMachineCollection env db p.id m.id).1.optimizations.filter (fun r => r.machineId ≠ m.id) =
    db.optimizations.filter fun r => r.machineId ≠ m.id
  skipped : ∀ record ∈ records, ¬ record.Designates env.unicode m → ∀ now,
    upsertDailyMetric env.unicode (db.metrics p.scope) p record [m] now = .ok .skipped
  counted : ∀ report, (runProviderMachineCollection env db p.id m.id).2 = .ok report → records ≠ [] →
    report.skipped = records.countP fun record => ¬ record.Designates env.unicode m

section Run

variable {env : CollectionEnv} {db : Database} {p : MachineProvider} {m : Machine} {records : List MetricRecord}
  {ops : List SampleOp}

theorem collectionReport_skipped (providerId machineId : Nat) (hne : ops ≠ []) :
    (collectionReport providerId machineId ops).skipped = ops.countP (· = .skipped) := by
  simp only [collectionReport, if_neg hne, Nat.zero_add]
  refine List.countP_congr fun op _ => ?_
  cases op <;> simp

/-- The samples of other pairs stay as they are. -/
theorem written_others (hc : db.Consistent) (hown : ∀ r ∈ records, ∀ i ∈ r.machineId, i = m.id)
    (hops : upsertAll env (db.metrics p.scope) p [m] 0 records = .ok ops) (now : Time) (scope : ScopeName) :
    ((writeSamples db p ops now).metrics scope).filter
        (fun r => ¬ (scope = p.scope ∧ r.providerId = p.id ∧ r.machineId = m.id)) =
      (db.metrics scope).filter fun r => ¬ (scope = p.scope ∧ r.providerId = p.id ∧ r.machineId = m.id) := by
  rw [writeSamples_metrics]
  split_ifs with hscope
  · subst hscope
    have hpair : ∀ op ∈ ops, ∀ v ∈ op.values, v.providerId = p.id ∧ v.machineId = m.id := by
      intro op hop v hv
      obtain ⟨hprovider, record, hrecord, hresolve⟩ := (upsertAll_values hops hop).1 v hv
      exact ⟨hprovider, resolveMachineId_own (hown record hrecord) hresolve⟩
    rw [List.filter_append, filter_updateSamples, filter_newSamples, List.append_nil]
    · intro v hop i
      obtain ⟨hprovider, hmachine⟩ := hpair _ hop v rfl
      simp [hprovider, hmachine]
    · intro id v hop r
      obtain ⟨hprovider, hmachine⟩ := hpair _ hop v rfl
      simp [SampleValues.assign, hprovider, hmachine]
    · intro id v hop r hr hid
      obtain ⟨hprovider, hmachine⟩ := hpair _ hop v rfl
      obtain ⟨r', hr', hid', hday⟩ := (upsertAll_ok (hc.indexed p.scope) hops).1 _ hop
      rw [(hc.indexed p.scope).keyed.eq_of_id hr hr' (hid.trans hid'.symm)]
      simp [hday.1.trans hprovider, hday.2.1.trans hmachine]
  · rfl

/-- A run touches its own samples and optimization only exactly when no record names another machine by its id. -/
theorem touches_own_iff (env : CollectionEnv) (db : Database) (hc : db.Consistent) (p : MachineProvider)
    (hp : p ∈ db.providers) (m : Machine) (hm : m ∈ db.machines) (hs : Sees db p m) (connector : MetricCollector)
    (hget : getMetricCollector env.mock p.type = .ok connector) (records : List MetricRecord)
    (hrecords : connector p [m] = .ok records) :
    TouchesOwn env db p m records ↔ ∀ r ∈ records, ∀ i ∈ r.machineId, i = m.id := by
  have hrun := collection_cases hc hp hm hs hget hrecords
  constructor
  · intro h r hr i hi
    by_contra hne
    have hnot : ¬ r.Designates env.unicode m := by
      rintro (hid | ⟨hnone, -⟩)
      · exact hne (Option.some.inj (hi.symm.trans hid))
      · exact absurd (hi.symm.trans hnone) nofun
    have hskipped := h.skipped r hr hnot 0
    have hnone := (upsertDailyMetric_skipped_iff (hc.indexed p.scope) hskipped).mp rfl
    simp [resolveMachineId, show r.machineId = some i from hi] at hnone
  · intro hown
    have hresolve : ∀ r ∈ records, resolveMachineId env.unicode r [m] = none ↔ ¬ r.Designates env.unicode m := by
      intro r hr
      rw [resolveMachineId_designates (hown r hr)]
      split_ifs with hdesignates
      · exact iff_of_false nofun (not_not.mpr hdesignates)
      · exact iff_of_true rfl hdesignates
    constructor
    case samples =>
      intro scope
      obtain ⟨e, -, hrun⟩ | ⟨ops, hops, -, hrun⟩ := hrun
      · rw [hrun]
        cases scope <;> rfl
      · rw [hrun]
        simp only [collectedDb_metrics]
        exact written_others hc hown hops _ scope
    case optimizations =>
      obtain ⟨e, -, hrun⟩ | ⟨ops, -, -, hrun⟩ := hrun
      · rw [hrun]
      · rw [hrun]
        obtain ⟨-, -, -, hoptimizations, -⟩ := writeSamples_frame db p ops (env.clock records.length)
        have hkeyed : Table.Keyed (writeSamples db p ops (env.clock records.length)).optimizations :=
          hoptimizations.symm ▸ hc.optimizations_keyed
        have hothers := writeOptimization_others hkeyed m.id
          (buildOptimizationSnapshot env.settings (writeSamples db p ops (env.clock records.length)) m
            (env.clock (records.length + 1)))
        rw [hoptimizations] at hothers
        exact hothers
    case skipped =>
      intro r hr hnot now
      rw [upsertDailyMetric, (recordValues_none_iff p r now).mpr ((hresolve r hr).mpr hnot)]
    case counted =>
      intro report hreport hne
      obtain ⟨e, -, hrun⟩ | ⟨ops, hops, -, hrun⟩ := hrun
      · rw [hrun] at hreport
        cases hreport
      · rw [hrun] at hreport
        cases hreport
        have hops' : ops ≠ [] := by
          intro h
          have hlength := length_upsertAll hops
          rw [h] at hlength
          exact hne (List.length_eq_zero_iff.mp hlength.symm)
        rw [collectionReport_skipped _ _ hops', countP_skipped (hc.indexed p.scope) hops]
        refine List.countP_congr fun r hr => ?_
        rw [decide_eq_true_eq, decide_eq_true_eq, hresolve r hr]

end Run

/-! ## A record of another machine -/

/-- Another machine on another platform, which the provider does not see. -/
def twoMachines : Database :=
  { dailyDatabase with
    machines := [dailyMachine, { dailyMachine with id := 2, platformId := 2, hostname := "H2" }], nextId := 3 }

theorem twoMachines_sees : Sees twoMachines dailyProvider dailyMachine :=
  ⟨rfl, .inl (provisionerIds_eq_nil_iff.mp rfl)⟩

/-- A record with the id of the machine, one with its hostname, and one with the hostname of the other machine. -/
def mixedRecords : List MetricRecord :=
  [⟨7, some 1, some 1, none, some "h2"⟩, hostnameSample 0 9, ⟨4, some 1, none, none, some "h2"⟩]

theorem touches_own_mixedRecords :
    TouchesOwn (answering mixedRecords) twoMachines dailyProvider dailyMachine mixedRecords :=
  (touches_own_iff (answering mixedRecords) twoMachines (by decide +kernel) dailyProvider (by decide) dailyMachine
    (by decide) twoMachines_sees _ rfl mixedRecords rfl).mpr (by decide +kernel)

/-- The id of the other machine is taken as it is: a sample of it is stored, and nothing is skipped. -/
theorem record_of_another_machine :
    let records := [⟨9, some 0, some 2, none, none⟩]
    let run := runProviderMachineCollection (answering records) twoMachines 1 1
    run.1.cpuMetrics = [⟨1, 1, 1, 0, 5⟩, ⟨3, 1, 2, 0, 9⟩] ∧ run.2 = .ok ⟨1, 1, 1, 0, 0, none⟩ ∧
      ¬ TouchesOwn (answering records) twoMachines dailyProvider dailyMachine records := by
  intro records run
  refine ⟨by decide +kernel, by decide +kernel, fun h => ?_⟩
  have hsamples := h.samples .cpu
  revert hsamples
  decide +kernel

end Washing
