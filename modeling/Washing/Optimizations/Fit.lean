import Washing.Optimizations.Evaluate

/-!
# Recommended sizes and the observed load

A recommended size should carry the observed load at no more than the target utilization (`FitsLoad`). Whatever
`boundedTarget` returns does: rounding and the configured minimum only raise the raw target. The early return for a
machine below the configured minimum recommends that minimum without looking at the raw target, and this is the only
way to recommend a size that is too small (`recommended_fits_iff`).
-/

namespace Washing

/-! ## The observed load -/

/-- The samples that the evaluation of a scope reads: none unless exactly one enabled provider sees the machine. -/
def observedSamples (db : Database) (machine : Machine) (scope : ScopeName) (windowSize : Int) : List MachineMetric :=
  match visibleEnabledProvidersForScope db machine scope with
  | [provider] => loadMetricSamples db scope provider.id machine.id windowSize
  | _ => []

/-- Their average. -/
def observedAverage (db : Database) (machine : Machine) (scope : ScopeName) (windowSize : Int) : ℚ :=
  averageMetricValue ((observedSamples db machine scope windowSize).map fun s => (s.value : ℚ))

/-- `current_capacity * average / 65`, exactly. -/
def rawTarget (capacity average : ℚ) : ℚ := capacity * average / targetUtilizationPercent

/-- A size for the load that `average` percent of `capacity` stands for. -/
structure FitsLoad (scope : ScopeName) (capacity average size : ℚ) : Prop where
  covers : rawTarget capacity average ≤ size
  utilization : capacity * average / size ≤ targetUtilizationPercent
  calculated : ∀ rounded ∈ roundedTarget scope (rawTarget capacity average), rounded ≤ size

/-- Every change that an evaluation recommends fits the load. -/
def RecommendsFitting (scope : ScopeName) (current : Option ℚ) (average : ℚ) (details : ScopeDetails) : Prop :=
  details.status = .ok → details.action = .scaleUp ∨ details.action = .scaleDown →
    ∃ capacity ∈ current, ∃ size ∈ effectiveTarget current details, FitsLoad scope capacity average size

/-- A capacity that can be recommended fits as soon as it covers the raw target. -/
theorem fitsLoad_of_covers {scope : ScopeName} {capacity average size : ℚ}
    (hcovers : rawTarget capacity average ≤ size) (hmultiple : IsMultiple (capacityStep scope) size)
    (hpos : 0 < size) : FitsLoad scope capacity average size := by
  refine ⟨hcovers, ?_, fun rounded hr => ?_⟩
  · have htarget : (0 : ℚ) < targetUtilizationPercent := by norm_num [targetUtilizationPercent]
    have hload : capacity * average ≤ size * targetUtilizationPercent := (div_le_iff₀ htarget).mp hcovers
    exact (div_le_iff₀ hpos).mpr (by linarith only [hload, mul_comm size targetUtilizationPercent])
  · rw [roundedTarget_some hr]
    exact (roundUp_le_iff (capacityStep_pos scope) hmultiple).mpr hcovers

/-! ## What the code recommends -/

/-- Rounding only raises a raw target, and only positive targets are rounded. -/
theorem roundedTarget_covers {scope : ScopeName} {raw t : ℚ} (h : roundedTarget scope raw = some t) :
    0 < raw ∧ raw ≤ t := by
  have ht := roundedTarget_some h
  unfold roundedTarget at h
  split_ifs at h with hraw
  exact ⟨not_le.mp hraw, ht ▸ le_roundUp (capacityStep_pos scope) raw⟩

/-- The catalog rules only raise a raw target. -/
theorem boundedTarget_covers {scope : ScopeName} {bounds : ScopeBounds scope} {raw t : ℚ} {r : Option ReasonCode}
    (h : boundedTarget raw bounds = (some t, r)) : 0 < raw ∧ raw ≤ t := by
  unfold boundedTarget at h
  cases hr : roundedTarget scope raw with
  | none => simp [hr] at h
  | some rounded =>
    obtain ⟨hpos, hcovers⟩ := roundedTarget_covers hr
    simp only [hr] at h
    split at h
    · split_ifs at h with hlo hhi
      · cases h
        exact ⟨hpos, hcovers.trans hlo.le⟩
      · cases h
      · cases h
        exact ⟨hpos, hcovers⟩
    · cases h
      exact ⟨hpos, hcovers⟩

/-- The configured minimums are positive. -/
theorem minCapacity_pos {s : Settings} {scope : ScopeName} {lo : Int} (h : (s.bounds scope).minCapacity = some lo) :
    (0 : ℚ) < lo := by
  have hcpu := s.valid.minCpu_pos
  have hram := s.valid.minRam_pos
  cases scope <;> cases h
  · exact_mod_cast hcpu
  · exact_mod_cast hram

/-- A change recommended by pressure is to the bounded target. -/
theorem weigh_cases {d : ScopeDetails} (hd : d.action = .keep) (scope : ScopeName) (c utilization : ℚ)
    (limited : Bool) (target : Option ℚ) (r : Option ReasonCode) :
    (weigh scope d c utilization limited target r).action = .keep ∨
      ∃ t ∈ target, (weigh scope d c utilization limited target r).boundedTargetCapacity = some t := by
  unfold weigh
  extract_lets reason details pressureHigh pressureLow
  split_ifs with hup hdown
  · obtain ⟨-, t, ht, -⟩ := hup
    exact .inr ⟨t, ht, ht⟩
  · obtain ⟨-, t, ht, -⟩ := hdown
    exact .inr ⟨t, ht, ht⟩
  · exact .inl hd

theorem weigh_recommends {scope : ScopeName} {d : ScopeDetails} {c utilization : ℚ} {limited : Bool}
    {target : Option ℚ} {r : Option ReasonCode} (hd : d.action = .keep) {average : ℚ}
    (ht : ∀ t ∈ target, FitsLoad scope c average t) :
    RecommendsFitting scope (some c) average (weigh scope d c utilization limited target r) := by
  intro hstatus haction
  obtain hkeep | ⟨t, htarget, hbounded⟩ := weigh_cases hd scope c utilization limited target r
  · simp [hkeep] at haction
  · exact ⟨c, rfl, t, by simp [effectiveTarget, hstatus, haction, hbounded], ht t htarget⟩

/-- Only the early return for a machine below the minimum can recommend a size that is too small. -/
theorem recommend_fits_iff {s : Settings} {scope : ScopeName} {d : ScopeDetails} {c average : ℚ} {limited : Bool}
    (hs : d.status = .ok) (ha : d.action = .keep) :
    RecommendsFitting scope (some c) average (recommend d c average limited (s.bounds scope)) ↔
      ∀ lo ∈ (s.bounds scope).minCapacity, c < lo → rawTarget c average ≤ lo := by
  unfold recommend
  extract_lets raw bounded details
  cases hmin : raisedMinimum c (s.bounds scope) with
  | some raised =>
    obtain ⟨lo, reason⟩ := raised
    obtain ⟨hlo, hlt⟩ := raisedMinimum_some hmin
    constructor
    · intro h lo' hlo' _
      obtain ⟨c', hc', size, hsize, hfits⟩ := h hs (.inl rfl)
      cases hc'
      cases hlo.symm.trans hlo'
      have heq : size = lo := by simpa [effectiveTarget, hs, details, eq_comm] using hsize
      exact heq ▸ hfits.covers
    · intro h _ _
      have hcovers := h lo hlo hlt
      refine ⟨c, rfl, lo, by simp [effectiveTarget, hs, details], ?_⟩
      exact fitsLoad_of_covers hcovers (inCatalog_min hlo).multiple (minCapacity_pos hlo)
  | none =>
    have hfits : RecommendsFitting scope (some c) average
        (weigh scope details c average limited bounded.1 bounded.2) := by
      refine weigh_recommends (d := details) ha fun t ht => ?_
      have hbounded : boundedTarget raw (s.bounds scope) = (some t, bounded.2) := Prod.ext ht rfl
      obtain ⟨hpos, hcovers⟩ := boundedTarget_covers hbounded
      exact fitsLoad_of_covers hcovers (boundedTarget_inCatalog hbounded).multiple (hpos.trans_le hcovers)
    refine iff_of_true hfits fun lo hlo hlt => absurd hmin ?_
    cases scope <;> cases hlo <;> simp [raisedMinimum, catalogReasons, Settings.bounds, hlt]

/-! ## The evaluation of a scope -/

/-- A scope is evaluated when it has a current capacity and samples; otherwise nothing is recommended. -/
theorem evaluateScope_cases (db : Database) (m : Machine) (scope : ScopeName) (current : Option ℚ) (windowSize : Int)
    (bounds : ScopeBounds scope) :
    ((current = none ∨ observedSamples db m scope windowSize = []) ∧
      (evaluateScope db m scope current windowSize bounds).status ≠ .ok) ∨
    ∃ c d limited, current = some c ∧ observedSamples db m scope windowSize ≠ [] ∧ d.status = .ok ∧ d.action = .keep ∧
      evaluateScope db m scope current windowSize bounds =
        recommend d c (observedAverage db m scope windowSize) limited bounds := by
  unfold observedAverage observedSamples evaluateScope
  obtain hproviders | ⟨provider, hproviders⟩ | ⟨p, q, rest, hproviders⟩ :
      visibleEnabledProvidersForScope db m scope = [] ∨
        (∃ provider, visibleEnabledProvidersForScope db m scope = [provider]) ∨
        ∃ p q rest, visibleEnabledProvidersForScope db m scope = p :: q :: rest := by
    rcases visibleEnabledProvidersForScope db m scope with _ | ⟨p, _ | ⟨q, rest⟩⟩ <;> simp
  · exact .inl ⟨.inr (by simp [hproviders]), by simp [hproviders]⟩
  · cases current with
    | none => exact .inl ⟨.inl rfl, by simp [hproviders]⟩
    | some c =>
      simp only [hproviders]
      split_ifs with hsamples
      · exact .inl ⟨.inr hsamples, by simp⟩
      · exact .inr ⟨_, _, _, rfl, hsamples, rfl, rfl, rfl⟩
  · exact .inl ⟨.inr (by simp [hproviders]), by simp [hproviders]⟩

/-- Every recommended size fits the observed load exactly when the machine is not below a minimum that is itself too
small for the load. -/
theorem recommended_fits_iff (s : Settings) (db : Database) (m : Machine) (scope : ScopeName) (current : Option ℚ)
    (windowSize : Int) :
    RecommendsFitting scope current (observedAverage db m scope windowSize)
        (evaluateScope db m scope current windowSize (s.bounds scope)) ↔
      (observedSamples db m scope windowSize ≠ [] → ∀ c ∈ current, ∀ lo ∈ (s.bounds scope).minCapacity,
        c < lo → rawTarget c (observedAverage db m scope windowSize) ≤ lo) := by
  obtain ⟨hnone, hstatus⟩ | ⟨c, d, limited, rfl, hsamples, hs, ha, heq⟩ :=
    evaluateScope_cases db m scope current windowSize (s.bounds scope)
  · refine iff_of_true (fun hok => absurd hok hstatus) fun hsamples c hc => ?_
    obtain rfl | hempty := hnone
    · cases hc
    · exact absurd hempty hsamples
  · rw [heq, recommend_fits_iff hs ha]
    simp [hsamples]

/-! ## A machine below the minimum under pressure -/

/-- Settings whose CPU minimum is 4. -/
def fourCores : Settings := ⟨⟨1, 4, 64, 2048, 262144⟩, rfl⟩

/-- A machine with 3 cores that are all in use. -/
def busyMachine : Machine := ⟨1, 1, none, none, none, "H1", none, none, some 3, none, none, "{}", 0⟩

/-- Its sample. -/
def busyDatabase : Database :=
  { Database.empty with
    providers := [⟨1, 1, "cpu", "mock", .cpu, "{}", true, none, none, none⟩]
    machines := [busyMachine]
    cpuMetrics := [⟨1, 1, 1, 0, 100⟩]
    nextId := 2 }

/-- The machine is given 4 cores, which are used at 75 percent; the raw target is above 4.6. -/
theorem minimum_replaces_larger_target :
    ¬ RecommendsFitting .cpu busyMachine.cpu (observedAverage busyDatabase busyMachine .cpu 1)
      (evaluateScope busyDatabase busyMachine .cpu busyMachine.cpu 1 (fourCores.bounds .cpu)) := by
  intro h
  have hok : (evaluateScope busyDatabase busyMachine .cpu busyMachine.cpu 1 (fourCores.bounds .cpu)).status = .ok ∧
      (evaluateScope busyDatabase busyMachine .cpu busyMachine.cpu 1 (fourCores.bounds .cpu)).action = .scaleUp := by
    decide +kernel
  obtain ⟨c, hc, size, hsize, hfits⟩ := h hok.1 (.inl hok.2)
  have heffective : effectiveTarget busyMachine.cpu
      (evaluateScope busyDatabase busyMachine .cpu busyMachine.cpu 1 (fourCores.bounds .cpu)) = some 4 := by
    decide +kernel
  cases hc
  cases heffective.symm.trans hsize
  have hraw : ¬ rawTarget 3 (observedAverage busyDatabase busyMachine .cpu 1) ≤ 4 := by decide +kernel
  exact hraw hfits.covers

end Washing
