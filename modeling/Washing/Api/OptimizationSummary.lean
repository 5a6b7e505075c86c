import Washing.Lib.Columns
import Washing.Api.Common
import Washing.Applications.Sync

/-!
# Optimization summary of an application

For each scope the summary adds up the current capacities and the recommended ones, each over the rows where it is
present, and reports the difference of the two totals (`resourceSummary`). A row without a recommendation still counts
on the current side, so the difference is the recommended change less the capacity of those rows (`unrecommended`);
`summary_counts_recommended_iff` says when that does not matter.
-/

namespace Washing

/-! ## The public form of one optimization -/

/-- The text of a reason code. -/
def ReasonCode.str : ReasonCode → String
  | .withinHysteresis => "within_hysteresis"
  | .noProvider => "no_provider"
  | .ambiguousProvider => "ambiguous_provider"
  | .missingCurrentCapacity => "missing_current_capacity"
  | .noSamples => "no_samples"
  | .limitedHistory => "limited_history"
  | .pressureHigh => "pressure_high"
  | .pressureLow => "pressure_low"
  | .raisedToMinCpu => "raised_to_min_cpu"
  | .raisedToMinRam => "raised_to_min_ram"
  | .aboveMaxCpu => "above_max_cpu"
  | .aboveMaxRam => "above_max_ram"

/-- `RESOURCE_UNITS`. -/
def resourceUnits : ScopeName → String
  | .cpu => "cores"
  | .ram | .disk => "mb"

structure MachineOptimizationResourceRead where
  status : ScopeStatus
  action : ScopeAction
  current : Option ℚ
  recommended : Option ℚ
  unit : String
  utilizationPercent : Option ℚ
  reason : String
  deriving DecidableEq, Repr

/-- Build the public summary for one optimized resource. -/
def optimizationResourceSummary (optimization : MachineOptimization) (scope : ScopeName) :
    MachineOptimizationResourceRead :=
  let details := optimization.details.get scope
  { status := (details.map (·.status)).getD .insufficientData
    action := (details.map (·.action)).getD .insufficientData
    current := optimization.current scope
    recommended := optimization.target scope
    unit := resourceUnits scope
    utilizationPercent := details.bind (·.utilizationPercent)
    reason := (details.map (·.reasonCode.str)).getD "unavailable" }

structure MachineOptimizationRead where
  id : Nat
  machineId : Nat
  status : OptimizationStatus
  action : OptimizationAction
  computedAt : Time
  resources : ScopeName → MachineOptimizationResourceRead

/-- Build the simplified public optimization response. -/
def serializeMachineOptimization (optimization : MachineOptimization) : MachineOptimizationRead where
  id := optimization.id
  machineId := optimization.machineId
  status := optimization.status
  action := optimization.action
  computedAt := optimization.computedAt
  resources := optimizationResourceSummary optimization

/-! ## The summary -/

/-- Machine ids represented by one application projection row. -/
def applicationMachineIds (db : Database) (application : Application) : List Nat :=
  (selectWhere (fun m => Cond.eq (some (m.region.getD "UNKNOWN")) (some application.region))
    (selectWhere (fun m => Cond.eq (some (m.environment.getD "UNKNOWN")) (some application.environment))
      (selectWhere (fun m => Cond.eq m.application (some application.name)) db.machines))).map (·.id)

/-- The optimizations of an application, the latest first. -/
def applicationOptimizations (db : Database) (application : Application) : List MachineOptimization :=
  let machineIds := applicationMachineIds db application
  if machineIds = [] then []
  else orderBy (fun a b => b.computedAt < a.computedAt ∨ a.computedAt = b.computedAt ∧ b.id ≤ a.id)
    (selectWhere (fun r => Cond.inList (some r.machineId) machineIds) db.optimizations)

/-- Derive deterministic confidence from the aggregated optimization statuses. -/
def optimizationConfidence (statuses : List OptimizationStatus) (optimizationCount : Nat) : String × ℚ × String :=
  if optimizationCount = 0 then
    ("none", 0, "No current optimization recommendation is available for this application.")
  else if 0 < statuses.count .error then ("low", 3 / 10, "At least one current recommendation is in error.")
  else if 0 < statuses.count .partial_ then
    ("medium", 6 / 10, "Some current recommendations are partial because supporting data is incomplete.")
  else ("high", 9 / 10, "All current recommendations are ready.")

structure ResourceSummary where
  unit : String
  currentTotal : Option ℚ
  recommendedTotal : Option ℚ
  delta : Option ℚ
  reclaimableCapacity : ℚ
  additionalCapacity : ℚ
  recommendationsByStatus : List (ScopeStatus × Nat)
  recommendationsByAction : List (ScopeAction × Nat)
  averageUtilizationPercent : Option ℚ
  reasons : List String
  deriving DecidableEq, Repr

/-- `float(sum(values)) if values else None`. -/
def sumOrNone (values : List ℚ) : Option ℚ := if values = [] then none else some values.sum

/-- The aggregated sizing of one scope. -/
def resourceSummary (optimizations : List MachineOptimizationRead) (scope : ScopeName) : ResourceSummary :=
  let resourceReads := optimizations.map fun optimization => optimization.resources scope
  let currentTotal := sumOrNone (resourceReads.filterMap (·.current))
  let recommendedTotal := sumOrNone (resourceReads.filterMap (·.recommended))
  let delta := recommendedTotal.bind fun r => currentTotal.map fun c => r - c
  let utilizationValues := resourceReads.filterMap (·.utilizationPercent)
  { unit := resourceUnits scope
    currentTotal := currentTotal
    recommendedTotal := recommendedTotal
    delta := delta
    reclaimableCapacity := match delta with | some d => max 0 (-d) | none => 0
    additionalCapacity := match delta with | some d => max 0 d | none => 0
    recommendationsByStatus := counter (resourceReads.map (·.status))
    recommendationsByAction := counter (resourceReads.map (·.action))
    averageUtilizationPercent :=
      if utilizationValues = [] then none else some (utilizationValues.sum / utilizationValues.length)
    reasons := ((resourceReads.map (·.reason)).filter (· ≠ "")).eraseDups.insertionSort (· ≤ ·) }

structure ApplicationOptimizationSummary where
  application : Application
  machineCount : Nat
  optimizationCount : Nat
  recommendationsByStatus : List (OptimizationStatus × Nat)
  recommendationsByAction : List (OptimizationAction × Nat)
  resources : ScopeName → ResourceSummary
  confidence : String
  confidenceScore : ℚ
  justification : String

/-- Return aggregated current optimization recommendations for one application. -/
def getApplicationOptimizationsSummary (U : Unicode) (db : Database) (applicationId : Nat) :
    Except HttpException ApplicationOptimizationSummary := do
  let application ← getOr404 db.applications applicationId "application not found"
  let optimizations := (applicationOptimizations db application).map serializeMachineOptimization
  let statuses := optimizations.map (·.status)
  let (confidence, confidenceScore, justification) := optimizationConfidence statuses optimizations.length
  return {
    application := { application with syncError := ApplicationRead.syncError U application }
    machineCount := (applicationMachineIds db application).length
    optimizationCount := optimizations.length
    recommendationsByStatus := counter statuses
    recommendationsByAction := counter (optimizations.map (·.action))
    resources := resourceSummary optimizations
    confidence, confidenceScore, justification }

theorem mem_applicationOptimizations {db : Database} {a : Application} {r : MachineOptimization} :
    r ∈ applicationOptimizations db a ↔ r ∈ db.optimizations ∧ r.machineId ∈ applicationMachineIds db a := by
  unfold applicationOptimizations
  extract_lets machineIds
  split_ifs with h
  · have hnil : applicationMachineIds db a = [] := h
    simp [hnil]
  · simp [machineIds]

/-! ## What the summary should count -/

/-- The recommended change of a row, null where it recommends nothing. -/
def recommendedChange (scope : ScopeName) : MachineOptimization → Option ℚ :=
  difference (fun r => r.target scope) (fun r => r.current scope)

/-- The summary of a scope counts the recommended changes: the delta is their sum, reported whenever there is one, and
the capacities are its two parts. -/
structure CountsRecommended (rows : List MachineOptimization) (scope : ScopeName) (summary : ResourceSummary) :
    Prop where
  delta : ∀ d, summary.delta = some d → d = total (recommendedChange scope) rows
  reported : summary.delta = none → ∀ r ∈ rows, r.target scope = none
  reclaimable : summary.reclaimableCapacity = max 0 (-total (recommendedChange scope) rows)
  additional : summary.additionalCapacity = max 0 (total (recommendedChange scope) rows)

/-- The current capacity of the rows without a recommendation. -/
def unrecommended (rows : List MachineOptimization) (scope : ScopeName) : ℚ :=
  total (fun r => r.current scope) (rows.filter fun r => (r.target scope).isNone)

/-- A row as a refresh writes it: a target presupposes a current capacity. -/
def MachineOptimization.TargetHasCurrent (r : MachineOptimization) : Prop :=
  ∀ scope, r.target scope ≠ none → r.current scope ≠ none

instance (r : MachineOptimization) : Decidable r.TargetHasCurrent :=
  decidable_of_iff (∀ scope ∈ ScopeName.all, r.target scope ≠ none → r.current scope ≠ none)
    ⟨fun h scope => h scope (by simp), fun h scope _ => h scope⟩

/-- Every row that a refresh writes has this form. -/
theorem build_targetHasCurrent (s : Settings) (db : Database) (m : Machine) (now : Time) (r : MachineOptimization)
    (h : r.toOptimizationSnapshot = buildOptimizationSnapshot s db m now) : r.TargetHasCurrent := by
  intro scope
  rw [h, build_target, build_current]
  cases m.capacity scope <;> simp [effectiveTarget]

/-- A refresh keeps this form of the stored rows. -/
theorem refresh_targetHasCurrent {s : Settings} {db db' : Database} {machineId : Nat} {now : Time}
    {report : RefreshReport} (h : refreshMachineOptimization s db machineId now = .ok (db', report))
    (hrows : ∀ r ∈ db.optimizations, r.TargetHasCurrent) : ∀ r ∈ db'.optimizations, r.TargetHasCurrent := by
  unfold refreshMachineOptimization at h
  split at h
  · cases h
  · split at h
    · cases h
    · cases h
      intro r hr
      rcases List.mem_append.mp hr with hr | hr
      · exact hrows r hr
      · rw [List.mem_singleton] at hr
        subst hr
        exact build_targetHasCurrent s db _ now _ rfl
    · cases h
      intro r hr
      obtain ⟨q, hq, rfl⟩ := Table.mem_modify.mp hr
      split_ifs
      · rw [updateOptimization_eq]
        exact build_targetHasCurrent s db _ now _ rfl
      · exact hrows q hq

/-! ## The totals -/

section Totals

variable {rows : List MachineOptimization} {scope : ScopeName}

/-- The two columns that a summary adds up. -/
theorem columns_serialize (rows : List MachineOptimization) (scope : ScopeName) :
    (((rows.map serializeMachineOptimization).map (·.resources scope)).filterMap (·.current) =
      rows.filterMap fun r => r.current scope) ∧
    (((rows.map serializeMachineOptimization).map (·.resources scope)).filterMap (·.recommended) =
      rows.filterMap fun r => r.target scope) := by
  simp only [List.map_map, List.filterMap_map]
  exact ⟨rfl, rfl⟩

/-- The reported delta is the recommended change less the capacity without a recommendation. -/
theorem delta_eq (scope : ScopeName) (hrows : ∀ r ∈ rows, r.TargetHasCurrent) :
    (resourceSummary (rows.map serializeMachineOptimization) scope).delta =
      if ∀ r ∈ rows, r.target scope = none then none
      else some (total (recommendedChange scope) rows - unrecommended rows scope) := by
  obtain ⟨hcurrent, hrecommended⟩ := columns_serialize rows scope
  have hsub := total_sub_total (f := fun r : MachineOptimization => r.target scope) (g := fun r => r.current scope)
    (fun r hr => hrows r hr scope)
  simp only [resourceSummary, hcurrent, hrecommended]
  split_ifs with hnone
  · have hnil : rows.filterMap (fun r => r.target scope) = [] := List.filterMap_eq_nil_iff.mpr hnone
    simp [hnil, sumOrNone]
  · push Not at hnone
    obtain ⟨r, hr, ht⟩ := hnone
    obtain ⟨t, ht'⟩ := Option.ne_none_iff_exists'.mp ht
    obtain ⟨c, hc⟩ := Option.ne_none_iff_exists'.mp (hrows r hr scope ht)
    have htargets : rows.filterMap (fun r => r.target scope) ≠ [] :=
      List.ne_nil_of_mem (List.mem_filterMap.mpr ⟨r, hr, ht'⟩)
    have hcurrents : rows.filterMap (fun r => r.current scope) ≠ [] :=
      List.ne_nil_of_mem (List.mem_filterMap.mpr ⟨r, hr, hc⟩)
    simp only [sumOrNone, htargets, hcurrents, if_false, Option.bind_some, Option.map_some, Option.some.injEq]
    exact hsub

/-- Without recommendations there is no recommended change. -/
theorem total_change_of_none (h : ∀ r ∈ rows, r.target scope = none) : total (recommendedChange scope) rows = 0 :=
  total_of_none fun r hr => by simp [recommendedChange, difference, h r hr]

theorem countsRecommended_iff (hrows : ∀ r ∈ rows, r.TargetHasCurrent) :
    CountsRecommended rows scope (resourceSummary (rows.map serializeMachineOptimization) scope) ↔
      (∀ r ∈ rows, r.target scope = none) ∨ unrecommended rows scope = 0 := by
  have hdelta := delta_eq scope hrows
  have hreclaimable : (resourceSummary (rows.map serializeMachineOptimization) scope).reclaimableCapacity =
      match (resourceSummary (rows.map serializeMachineOptimization) scope).delta with
      | some d => max 0 (-d) | none => 0 := rfl
  have hadditional : (resourceSummary (rows.map serializeMachineOptimization) scope).additionalCapacity =
      match (resourceSummary (rows.map serializeMachineOptimization) scope).delta with
      | some d => max 0 d | none => 0 := rfl
  split_ifs at hdelta with hnone
  · rw [hdelta] at hreclaimable hadditional
    have hzero := total_change_of_none hnone
    exact iff_of_true ⟨by simp [hdelta], fun _ => hnone, by simp [hreclaimable, hzero], by simp [hadditional, hzero]⟩
      (.inl hnone)
  · rw [hdelta] at hreclaimable hadditional
    rw [or_iff_right hnone]
    constructor
    · intro h
      have hd := h.delta _ hdelta
      linarith
    · intro hzero
      rw [hzero, sub_zero] at hdelta hreclaimable hadditional
      exact ⟨by simp [hdelta], by simp [hdelta], hreclaimable, hadditional⟩

end Totals

/-- The summary of a stored application counts, in a scope, exactly what is recommended if and only if nothing is
recommended there or the rows without a recommendation have no current capacity. -/
theorem summary_counts_recommended_iff (U : Unicode) (db : Database) (a : Application)
    (ha : Table.get db.applications a.id = some a) (hrows : ∀ r ∈ db.optimizations, r.TargetHasCurrent) :
    ∃ summary, getApplicationOptimizationsSummary U db a.id = .ok summary ∧ ∀ scope,
      (CountsRecommended (applicationOptimizations db a) scope (summary.resources scope) ↔
        (∀ r ∈ applicationOptimizations db a, r.target scope = none) ∨
          unrecommended (applicationOptimizations db a) scope = 0) := by
  have happlication : getOr404 db.applications a.id "application not found" = .ok a := by simp [getOr404, ha]
  refine ⟨_, by rw [getApplicationOptimizationsSummary, happlication]; rfl, fun scope => ?_⟩
  exact countsRecommended_iff fun r hr => hrows r (mem_applicationOptimizations.mp hr).1

/-- An application with two machines that have the same CPU provider: the first has a sample and keeps its 4 cores, the
second has 8 cores and no sample yet. -/
def partialFleet : Database :=
  let db : Database :=
    { Database.empty with
      providers := [⟨1, 1, "cpu", "mock", .cpu, "{}", true, none, none, none⟩]
      machines := [⟨1, 1, some "A", none, none, "H1", none, none, some 4, none, none, "{}", 0⟩,
        ⟨2, 1, some "A", none, none, "H2", none, none, some 8, none, none, "{}", 0⟩]
      cpuMetrics := [⟨1, 1, 1, 0, 60⟩]
      applications := [⟨1, "A", "UNKNOWN", "UNKNOWN", none, none, none⟩] }
  { db with
    optimizations := db.machines.map fun m =>
      { toOptimizationSnapshot := buildOptimizationSnapshot Settings.default db m 0, id := m.id, machineId := m.id }
    nextId := 3 }

theorem summary_counts_partialFleet :
    ∃ summary, getApplicationOptimizationsSummary Unicode.ascii partialFleet 1 = .ok summary ∧ ∀ scope,
      (CountsRecommended (applicationOptimizations partialFleet ⟨1, "A", "UNKNOWN", "UNKNOWN", none, none, none⟩) scope
          (summary.resources scope) ↔
        (∀ r ∈ applicationOptimizations partialFleet ⟨1, "A", "UNKNOWN", "UNKNOWN", none, none, none⟩,
          r.target scope = none) ∨
          unrecommended (applicationOptimizations partialFleet ⟨1, "A", "UNKNOWN", "UNKNOWN", none, none, none⟩)
            scope = 0) :=
  summary_counts_recommended_iff Unicode.ascii partialFleet ⟨1, "A", "UNKNOWN", "UNKNOWN", none, none, none⟩ rfl
    (by decide +kernel)

/-- The 8 cores of the machine without a recommendation are reported as reclaimable; no change is recommended. -/
theorem unrecommended_machine_reported_reclaimable :
    ∃ summary, getApplicationOptimizationsSummary Unicode.ascii partialFleet 1 = .ok summary ∧
      (summary.resources .cpu).reclaimableCapacity = 8 ∧
      ¬ CountsRecommended (applicationOptimizations partialFleet ⟨1, "A", "UNKNOWN", "UNKNOWN", none, none, none⟩) .cpu
        (summary.resources .cpu) := by
  refine ⟨_, rfl, by decide +kernel, fun h => ?_⟩
  have hreclaimable := h.reclaimable
  revert hreclaimable
  decide +kernel

end Washing
