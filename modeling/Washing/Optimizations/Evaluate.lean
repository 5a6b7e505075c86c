import Washing.Settings
import Washing.Lib.Rounding
import Washing.Connectors.Visibility

/-!
# Evaluation of one scope

`evaluateScope` follows `_evaluate_scope`: a scope without exactly one visible provider, without a current capacity or
without samples is not calculable; otherwise the average utilization gives a target (`recommend`), which is rounded to
the units of the scope and held against the catalog bounds (`boundedTarget`). `Sound` is what every evaluation
guarantees of its action and its target; the aggregation over the scopes uses nothing else.
-/

namespace Washing

/-! ## Targets -/

/-- `TARGET_UTILIZATION_PERCENT`. -/
def targetUtilizationPercent : ℚ := 65

/-- `UPSCALE_UTILIZATION_THRESHOLD`. -/
def upscaleUtilizationThreshold : ℚ := 85

/-- `DOWNSCALE_UTILIZATION_THRESHOLD`. -/
def downscaleUtilizationThreshold : ℚ := 40

/-- `UPSCALE_CAPACITY_MARGIN`. -/
def upscaleCapacityMargin : ℚ := 11 / 10

/-- `DOWNSCALE_CAPACITY_MARGIN`. -/
def downscaleCapacityMargin : ℚ := 8 / 10

/-- `CAPACITY_STEP_MB`. -/
def capacityStepMb : ℚ := 1024

/-- The unit that the targets of a scope are rounded to. -/
def capacityStep : ScopeName → ℚ
  | .cpu => 1
  | .ram | .disk => capacityStepMb

/-- The catalog bounds given to a scope. CPU and RAM have both bounds, as `_bounded_target` asserts. -/
structure ScopeBounds (scope : ScopeName) where
  minCapacity : Option Int
  maxCapacity : Option Int
  asserted : scope ≠ .disk → minCapacity.isSome ∧ maxCapacity.isSome

/-- The reason codes for a target below and above the catalog; the disk has no catalog. -/
def catalogReasons : ScopeName → Option (ReasonCode × ReasonCode)
  | .cpu => some (.raisedToMinCpu, .aboveMaxCpu)
  | .ram => some (.raisedToMinRam, .aboveMaxRam)
  | .disk => none

/-- Round a raw target to the capacity units used by the scope. -/
def roundedTarget (scope : ScopeName) (rawTarget : ℚ) : Option ℚ :=
  if rawTarget ≤ 0 then none else some (max (capacityStep scope) (roundUp (capacityStep scope) rawTarget))

/-- Round a raw target and apply catalog-bound recommendation rules. -/
def boundedTarget {scope : ScopeName} (rawTarget : ℚ) (bounds : ScopeBounds scope) : Option ℚ × Option ReasonCode :=
  match roundedTarget scope rawTarget with
  | none => (none, none)
  | some rounded =>
    match catalogReasons scope, bounds.minCapacity, bounds.maxCapacity with
    | some (raisedToMin, aboveMax), some lo, some hi =>
      if rounded < lo then (some lo, some raisedToMin)
      else if rounded > hi then (none, some aboveMax)
      else (some rounded, none)
    | _, _, _ => (some rounded, none)

/-- The average utilization percent for one metric window. -/
def averageMetricValue (values : List ℚ) : ℚ := if values = [] then 0 else values.sum / values.length

/-! ## Recommendation -/

/-- The minimum that a CPU or RAM capacity below the catalog is raised to at once, with its reason. -/
def raisedMinimum {scope : ScopeName} (capacity : ℚ) (bounds : ScopeBounds scope) : Option (Int × ReasonCode) :=
  match catalogReasons scope, bounds.minCapacity with
  | some (raisedToMin, _), some lo => if capacity < lo then some (lo, raisedToMin) else none
  | _, _ => none

/-- The decision by pressure: a change must exceed the margin. -/
def weigh (scope : ScopeName) (details : ScopeDetails) (capacity utilizationPercent : ℚ) (limitedHistory : Bool)
    (target : Option ℚ) (boundReason : Option ReasonCode) : ScopeDetails :=
  let reason (r : ReasonCode) := boundReason.getD (if limitedHistory then .limitedHistory else r)
  let details := { details with boundedTargetCapacity := target }
  let pressureHigh := upscaleUtilizationThreshold ≤ utilizationPercent
  let pressureLow := scope ≠ .disk ∧ utilizationPercent ≤ downscaleUtilizationThreshold
  if pressureHigh ∧ ∃ t ∈ target, capacity * upscaleCapacityMargin < t ∧ capacity < t then
    { details with action := .scaleUp, reasonCode := reason .pressureHigh }
  else if pressureLow ∧ ∃ t ∈ target, t < capacity * downscaleCapacityMargin ∧ t < capacity then
    { details with action := .scaleDown, reasonCode := reason .pressureLow }
  else { details with reasonCode := reason .withinHysteresis }

/-- The part of `_evaluate_scope` that follows the average. -/
def recommend {scope : ScopeName} (details : ScopeDetails) (capacity utilizationPercent : ℚ) (limitedHistory : Bool)
    (bounds : ScopeBounds scope) : ScopeDetails :=
  let rawTarget := capacity * utilizationPercent / targetUtilizationPercent
  let bounded := boundedTarget rawTarget bounds
  let details := { details with utilizationPercent := some utilizationPercent, rawTargetCapacity := some rawTarget }
  match raisedMinimum capacity bounds with
  | some (lo, reason) =>
    { details with boundedTargetCapacity := some (lo : ℚ), action := .scaleUp, reasonCode := reason }
  | none => weigh scope details capacity utilizationPercent limitedHistory bounded.1 bounded.2

/-- The latest stored metric samples for one scope. -/
def loadMetricSamples (db : Database) (scope : ScopeName) (providerId machineId : Nat) (limit : Int) :
    List MachineMetric :=
  (orderBy (fun a b => b.date < a.date ∨ a.date = b.date ∧ b.id ≤ a.id)
    (selectWhere (fun r => Cond.eq (some r.machineId) (some machineId))
      (selectWhere (fun r => Cond.eq (some r.providerId) (some providerId)) (db.metrics scope)))).take limit.toNat

/-- Evaluate one scope optimization from the latest stored metrics. -/
def evaluateScope (db : Database) (machine : Machine) (scope : ScopeName) (currentCapacity : Option ℚ)
    (windowSize : Int) (bounds : ScopeBounds scope) : ScopeDetails :=
  let providers := visibleEnabledProvidersForScope db machine scope
  let details : ScopeDetails := {
    providerId := match providers with | [provider] => some provider.id | _ => none
    status := .ok, samplesUsed := 0, windowSize := windowSize, lastMetricDate := none, utilizationPercent := none
    currentCapacity := currentCapacity, rawTargetCapacity := none, boundedTargetCapacity := none
    action := .keep, reasonCode := .withinHysteresis }
  match providers with
  | [] => { details with status := .missingProvider, action := .unavailable, reasonCode := .noProvider }
  | _ :: _ :: _ =>
    { details with status := .ambiguousProvider, action := .unavailable, reasonCode := .ambiguousProvider }
  | [provider] =>
    match currentCapacity with
    | none =>
      { details with
        status := .missingCurrentCapacity, action := .unavailable, reasonCode := .missingCurrentCapacity }
    | some capacity =>
      let samples := loadMetricSamples db scope provider.id machine.id windowSize
      let details := { details with samplesUsed := samples.length, lastMetricDate := samples.head?.map (·.date) }
      if samples = [] then
        { details with status := .insufficientData, action := .insufficientData, reasonCode := .noSamples }
      else
        recommend details capacity (averageMetricValue (samples.map fun s => (s.value : ℚ)))
          (decide (samples.length < windowSize)) bounds

/-- The actionable target capacity for one scope. -/
def effectiveTarget (currentCapacity : Option ℚ) (details : ScopeDetails) : Option ℚ :=
  match currentCapacity with
  | none => none
  | some capacity =>
    if details.status ≠ .ok then none
    else if details.action = .scaleUp ∨ details.action = .scaleDown then details.boundedTargetCapacity
    else some capacity

/-! ## Bounds of the settings -/

/-- The bounds that `_build_optimization_snapshot` passes for each scope. -/
def Settings.bounds (s : Settings) : (scope : ScopeName) → ScopeBounds scope
  | .cpu => ⟨some s.flavorOptimizationMinCpu, some s.flavorOptimizationMaxCpu, by simp⟩
  | .ram => ⟨some s.flavorOptimizationMinRamMb, some s.flavorOptimizationMaxRamMb, by simp⟩
  | .disk => ⟨none, none, by simp⟩

/-- A capacity that can be recommended: a multiple of the unit of the scope, within the configured bounds. -/
structure InCatalog (s : Settings) (scope : ScopeName) (t : ℚ) : Prop where
  multiple : IsMultiple (capacityStep scope) t
  min_le : ∀ lo ∈ (s.bounds scope).minCapacity, (lo : ℚ) ≤ t
  le_max : ∀ hi ∈ (s.bounds scope).maxCapacity, t ≤ (hi : ℚ)

theorem capacityStep_pos (scope : ScopeName) : 0 < capacityStep scope := by
  cases scope <;> simp [capacityStep, capacityStepMb]

theorem roundedTarget_some {scope : ScopeName} {raw t : ℚ} (h : roundedTarget scope raw = some t) :
    t = roundUp (capacityStep scope) raw := by
  unfold roundedTarget at h
  split_ifs at h with hr
  have hs := step_le_roundUp (capacityStep_pos scope) (not_le.mp hr)
  simpa [max_eq_right hs, eq_comm] using h

/-- An aligned integer is a multiple of the RAM unit. -/
theorem isMultiple_of_aligned {n : Int} (h : n % 1024 = 0) : IsMultiple capacityStepMb (n : ℚ) := by
  obtain ⟨k, rfl⟩ := Int.dvd_of_emod_eq_zero h
  exact ⟨k, by simp [capacityStepMb, mul_comm]⟩

/-- The configured minimum can be recommended. -/
theorem inCatalog_min {s : Settings} {scope : ScopeName} {lo : Int} (h : (s.bounds scope).minCapacity = some lo) :
    InCatalog s scope lo := by
  have hv := s.valid
  cases scope with
  | cpu =>
    cases h
    refine ⟨⟨s.flavorOptimizationMinCpu, by simp [capacityStep]⟩, ?_, ?_⟩
    · simp [Settings.bounds]
    · simpa [Settings.bounds] using hv.cpu_order
  | ram =>
    cases h
    refine ⟨isMultiple_of_aligned hv.minRam_aligned, ?_, ?_⟩
    · simp [Settings.bounds]
    · simpa [Settings.bounds] using hv.ram_order
  | disk => cases h

/-- Whatever passes the catalog rules can be recommended. -/
theorem boundedTarget_inCatalog {s : Settings} {scope : ScopeName} {raw t : ℚ} {r : Option ReasonCode}
    (h : boundedTarget raw (s.bounds scope) = (some t, r)) : InCatalog s scope t := by
  unfold boundedTarget at h
  cases hr : roundedTarget scope raw with
  | none => simp [hr] at h
  | some rounded =>
    have hm : IsMultiple (capacityStep scope) rounded := roundedTarget_some hr ▸ isMultiple_roundUp _ _
    cases scope <;> simp only [hr, catalogReasons, Settings.bounds] at h
    case disk =>
      cases h
      exact ⟨hm, by simp [Settings.bounds], by simp [Settings.bounds]⟩
    all_goals
      split_ifs at h with hlo hhi
      · cases h
        exact inCatalog_min rfl
      · cases h
      · cases h
        exact ⟨hm, by simpa [Settings.bounds] using hlo, by simpa [Settings.bounds] using hhi⟩

/-! ## What an evaluation can say -/

/-- The possible evaluations of a scope with a given current capacity. -/
inductive Sound (s : Settings) (scope : ScopeName) (current : Option ℚ) (d : ScopeDetails) : Prop
  | notCalculable (status : d.status ≠ .ok) (action : d.action = .unavailable ∨ d.action = .insufficientData)
  | scaleUp (c t : ℚ) (current : current = some c) (status : d.status = .ok) (action : d.action = .scaleUp)
      (target : d.boundedTargetCapacity = some t) (above : c < t) (catalog : InCatalog s scope t)
  | scaleDown (c t : ℚ) (current : current = some c) (status : d.status = .ok) (action : d.action = .scaleDown)
      (target : d.boundedTargetCapacity = some t) (below : t < c) (catalog : InCatalog s scope t)
      (scope : scope ≠ .disk)
  | keep (c : ℚ) (current : current = some c) (status : d.status = .ok) (action : d.action = .keep)

theorem raisedMinimum_some {scope : ScopeName} {bounds : ScopeBounds scope} {c : ℚ} {lo : Int} {r : ReasonCode}
    (h : raisedMinimum c bounds = some (lo, r)) : bounds.minCapacity = some lo ∧ c < lo := by
  unfold raisedMinimum at h
  split at h
  · split_ifs at h with hlt
    cases h
    exact ⟨‹_›, hlt⟩
  · cases h

theorem weigh_sound {s : Settings} {scope : ScopeName} {d : ScopeDetails} {c : ℚ} (hs : d.status = .ok)
    (ha : d.action = .keep) {target : Option ℚ} (ht : ∀ t ∈ target, InCatalog s scope t) (utilization : ℚ)
    (limited : Bool) (r : Option ReasonCode) :
    Sound s scope (some c) (weigh scope d c utilization limited target r) := by
  unfold weigh
  extract_lets reason details pressureHigh pressureLow
  split_ifs with hup hdown
  · obtain ⟨-, t, htarget, -, hlt⟩ := hup
    exact .scaleUp c t rfl hs rfl htarget hlt (ht t htarget)
  · obtain ⟨⟨hdisk, -⟩, t, htarget, -, hlt⟩ := hdown
    exact .scaleDown c t rfl hs rfl htarget hlt (ht t htarget) hdisk
  · exact .keep c rfl hs ha

theorem recommend_sound {s : Settings} {scope : ScopeName} {d : ScopeDetails} {c : ℚ} (hs : d.status = .ok)
    (ha : d.action = .keep) (utilization : ℚ) (limited : Bool) :
    Sound s scope (some c) (recommend d c utilization limited (s.bounds scope)) := by
  unfold recommend
  extract_lets rawTarget bounded details
  cases hmin : raisedMinimum c (s.bounds scope) with
  | some raised =>
    obtain ⟨hlo, hlt⟩ := raisedMinimum_some hmin
    exact .scaleUp c raised.1 rfl hs rfl rfl hlt (inCatalog_min hlo)
  | none =>
    have hcatalog : ∀ t ∈ bounded.1, InCatalog s scope t := fun t ht => boundedTarget_inCatalog (Prod.ext ht rfl)
    exact weigh_sound (d := details) hs ha hcatalog utilization limited bounded.2

theorem evaluateScope_sound (s : Settings) (db : Database) (m : Machine) (scope : ScopeName) (current : Option ℚ)
    (windowSize : Int) : Sound s scope current (evaluateScope db m scope current windowSize (s.bounds scope)) := by
  unfold evaluateScope
  simp only
  split
  · exact .notCalculable (by simp) (.inl rfl)
  · exact .notCalculable (by simp) (.inl rfl)
  · split
    · exact .notCalculable (by simp) (.inl rfl)
    · split_ifs
      · exact .notCalculable (by simp) (.inr rfl)
      · exact recommend_sound rfl rfl _ _

end Washing
