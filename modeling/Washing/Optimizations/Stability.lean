import Washing.Optimizations.Fit

/-!
# How recommendations respond to the load

- In the low-pressure range the recommended capacity is the bounded target, if that is more than 20 percent below the
  current capacity (`lowTarget`). It grows with the load as long as there is some load (`lowTarget_mono`); without any
  load there is no target, and the current capacity is kept (`idle_machine_kept`). This is the only way in which less
  load can lead to a bigger recommendation (`recommended_mono_iff`).
- The raw target of a load does not depend on the capacity that the load is measured on, so that a recommended capacity
  is kept once it is taken (`recommendation_settles`).
-/

namespace Washing

/-- The recommended capacity of a scope. -/
def recommendedCapacity (s : Settings) (db : Database) (machine : Machine) (scope : ScopeName) (current : Option ℚ)
    (windowSize : Int) : Option ℚ :=
  effectiveTarget current (evaluateScope db machine scope current windowSize (s.bounds scope))

/-! ## Low pressure -/

/-- The recommended capacity at low pressure. -/
def lowTarget {scope : ScopeName} (bounds : ScopeBounds scope) (capacity average : ℚ) : ℚ :=
  match (boundedTarget (rawTarget capacity average) bounds).1 with
  | some t => if t < capacity * downscaleCapacityMargin then t else capacity
  | none => capacity

theorem roundedTarget_pos {scope : ScopeName} {raw : ℚ} (h : 0 < raw) :
    roundedTarget scope raw = some (roundUp (capacityStep scope) raw) := by
  have hstep := step_le_roundUp (capacityStep_pos scope) h
  rw [roundedTarget, if_neg (not_le.mpr h), max_eq_right hstep]

/-- A positive target within the catalog, for CPU and RAM. -/
theorem boundedTarget_pos {s : Settings} {scope : ScopeName} {lo hi : Int} {raw : ℚ}
    (hlo : (s.bounds scope).minCapacity = some lo) (hhi : (s.bounds scope).maxCapacity = some hi) (h : 0 < raw) :
    (boundedTarget raw (s.bounds scope)).1 =
      if roundUp (capacityStep scope) raw < lo then some (lo : ℚ)
      else if hi < roundUp (capacityStep scope) raw then none
      else some (roundUp (capacityStep scope) raw) := by
  unfold boundedTarget
  rw [roundedTarget_pos h]
  cases scope with
  | cpu | ram =>
    simp only [catalogReasons, hlo, hhi, gt_iff_lt]
    split_ifs <;> rfl
  | disk => cases hlo

/-- With some load, a bounded target for more load bounds the one for less. -/
theorem boundedTarget_mono {s : Settings} {scope : ScopeName} {lo hi : Int} {raw raw' t' : ℚ}
    (hlo : (s.bounds scope).minCapacity = some lo) (hhi : (s.bounds scope).maxCapacity = some hi) (hpos : 0 < raw)
    (hle : raw ≤ raw') (h : (boundedTarget raw' (s.bounds scope)).1 = some t') :
    ∃ t, (boundedTarget raw (s.bounds scope)).1 = some t ∧ t ≤ t' := by
  have hrounded := roundUp_mono (capacityStep_pos scope) hle
  rw [boundedTarget_pos hlo hhi (hpos.trans_le hle)] at h
  rw [boundedTarget_pos hlo hhi hpos]
  by_cases hraised : roundUp (capacityStep scope) raw < lo
  · refine ⟨lo, if_pos hraised, ?_⟩
    split_ifs at h with hlo' hhi'
    · exact (Option.some.inj h).le
    · exact Option.some.inj h ▸ not_lt.mp hlo'
  · have hraised' := fun h' => hraised (hrounded.trans_lt h')
    rw [if_neg hraised'] at h
    split_ifs at h with hhi'
    refine ⟨roundUp (capacityStep scope) raw, ?_, Option.some.inj h ▸ hrounded⟩
    rw [if_neg hraised, if_neg fun h' => hhi' (h'.trans_le hrounded)]

theorem rawTarget_mono {c u u' : ℚ} (hc : 0 ≤ c) (h : u ≤ u') : rawTarget c u ≤ rawTarget c u' := by
  unfold rawTarget targetUtilizationPercent
  gcongr

theorem rawTarget_pos {c u : ℚ} (hc : 0 < c) (hu : 0 < u) : 0 < rawTarget c u := by
  unfold rawTarget targetUtilizationPercent
  positivity

/-- Nothing above the current capacity is recommended at low pressure. -/
theorem lowTarget_le {scope : ScopeName} (bounds : ScopeBounds scope) {c : ℚ} (hc : 0 ≤ c) (u : ℚ) :
    lowTarget bounds c u ≤ c := by
  unfold lowTarget
  have hmargin : c * downscaleCapacityMargin ≤ c := by
    unfold downscaleCapacityMargin
    linarith
  split
  · split_ifs with h
    · exact (h.trans_le hmargin).le
    · exact le_rfl
  · exact le_rfl

/-- With some load, less load leads to no bigger recommendation. -/
theorem lowTarget_mono {s : Settings} {scope : ScopeName} {lo hi : Int} {c u u' : ℚ}
    (hlo : (s.bounds scope).minCapacity = some lo) (hhi : (s.bounds scope).maxCapacity = some hi) (hc : 0 < c)
    (hu : 0 < u) (hle : u ≤ u') : lowTarget (s.bounds scope) c u ≤ lowTarget (s.bounds scope) c u' := by
  cases htarget : (boundedTarget (rawTarget c u') (s.bounds scope)).1 with
  | none =>
    rw [lowTarget.eq_def _ c u', htarget]
    exact lowTarget_le _ hc.le u
  | some t' =>
    obtain ⟨t, ht, hle'⟩ := boundedTarget_mono hlo hhi (rawTarget_pos hc hu) (rawTarget_mono hc.le hle) htarget
    by_cases hbelow : t' < c * downscaleCapacityMargin
    · simp only [lowTarget, htarget, ht, if_pos hbelow, if_pos (hle'.trans_lt hbelow)]
      exact hle'
    · rw [lowTarget.eq_def _ c u', htarget]
      simp only [if_neg hbelow]
      exact lowTarget_le _ hc.le u

/-- The current capacity is kept exactly when no bounded target is more than 20 percent below it. -/
theorem le_lowTarget_iff {scope : ScopeName} (bounds : ScopeBounds scope) {c : ℚ} (hc : 0 < c) (u : ℚ) :
    c ≤ lowTarget bounds c u ↔ ∀ t ∈ (boundedTarget (rawTarget c u) bounds).1, c * downscaleCapacityMargin ≤ t := by
  have hmargin : c * downscaleCapacityMargin < c := by
    unfold downscaleCapacityMargin
    linarith
  unfold lowTarget
  cases (boundedTarget (rawTarget c u) bounds).1 with
  | none => simp
  | some t =>
    simp only [Option.mem_some_iff, forall_eq']
    split_ifs with hbelow
    · exact iff_of_false (not_le.mpr (hbelow.trans hmargin)) (not_le.mpr hbelow)
    · exact iff_of_true le_rfl (not_lt.mp hbelow)

/-- Without load there is no target. -/
theorem lowTarget_zero {scope : ScopeName} (bounds : ScopeBounds scope) (c : ℚ) : lowTarget bounds c 0 = c := by
  have hraw : rawTarget c 0 = 0 := by simp [rawTarget]
  simp [lowTarget, boundedTarget, roundedTarget, hraw]

/-! ## What is recommended -/

section Recommend

variable {s : Settings} {scope : ScopeName} {d : ScopeDetails} {c u : ℚ} {limited : Bool}

/-- CPU and RAM have both bounds. -/
theorem bounds_of_ne_disk (s : Settings) (hscope : scope ≠ .disk) :
    ∃ lo hi, (s.bounds scope).minCapacity = some lo ∧ (s.bounds scope).maxCapacity = some hi := by
  obtain ⟨hlo, hhi⟩ := (s.bounds scope).asserted hscope
  exact ⟨_, _, (Option.some_get hlo).symm, (Option.some_get hhi).symm⟩

theorem raisedMinimum_of_lt {lo : Int} (hlo : (s.bounds scope).minCapacity = some lo) (h : c < lo) :
    ∃ reason, raisedMinimum c (s.bounds scope) = some (lo, reason) := by
  cases scope <;> cases hlo <;> simp [raisedMinimum, catalogReasons, Settings.bounds, h]

theorem raisedMinimum_of_le (h : ∀ lo ∈ (s.bounds scope).minCapacity, (lo : ℚ) ≤ c) :
    raisedMinimum c (s.bounds scope) = none := by
  cases hraised : raisedMinimum c (s.bounds scope) with
  | none => rfl
  | some raised =>
    obtain ⟨hlo, hlt⟩ := raisedMinimum_some hraised
    exact absurd hlt (not_lt.mpr (h raised.1 hlo))

/-- Below the catalog the minimum is recommended, whatever the load. -/
theorem recommend_below {lo : Int} (hs : d.status = .ok) (hlo : (s.bounds scope).minCapacity = some lo) (hc : c < lo) :
    effectiveTarget (some c) (recommend d c u limited (s.bounds scope)) = some (lo : ℚ) := by
  obtain ⟨reason, hraised⟩ := raisedMinimum_of_lt hlo hc
  simp [recommend, hraised, effectiveTarget, hs]

/-- Within the catalog the low target is recommended at low pressure. -/
theorem recommend_low (hs : d.status = .ok) (ha : d.action = .keep) (hscope : scope ≠ .disk) (hpos : 0 < c)
    (hmin : ∀ lo ∈ (s.bounds scope).minCapacity, (lo : ℚ) ≤ c) (hu : u ≤ downscaleUtilizationThreshold) :
    effectiveTarget (some c) (recommend d c u limited (s.bounds scope)) = some (lowTarget (s.bounds scope) c u) := by
  have hhigh : ¬ upscaleUtilizationThreshold ≤ u := by
    unfold upscaleUtilizationThreshold
    unfold downscaleUtilizationThreshold at hu
    linarith
  have hmargin : c * downscaleCapacityMargin < c := by
    unfold downscaleCapacityMargin
    linarith
  simp only [recommend, raisedMinimum_of_le hmin, lowTarget, rawTarget, weigh, hhigh, false_and, if_false, ne_eq,
    hscope,
    not_false_eq_true, hu, and_self, true_and]
  cases (boundedTarget (c * u / targetUtilizationPercent) (s.bounds scope)).1 with
  | none => simp [effectiveTarget, hs, ha]
  | some t =>
    by_cases hbelow : t < c * downscaleCapacityMargin
    · simp [effectiveTarget, hs, hbelow, hbelow.trans hmargin]
    · simp [effectiveTarget, hs, ha, hbelow]

end Recommend

/-- A scope with samples is evaluated from their average. -/
theorem recommendedCapacity_eq (s : Settings) {db : Database} {m : Machine} {scope : ScopeName} {windowSize : Int}
    (c : ℚ)
    (hsamples : observedSamples db m scope windowSize ≠ []) : ∃ d limited, d.status = .ok ∧ d.action = .keep ∧
      evaluateScope db m scope (some c) windowSize (s.bounds scope) =
        recommend d c (observedAverage db m scope windowSize) limited (s.bounds scope) := by
  obtain ⟨hnone, -⟩ | ⟨_, d, limited, ⟨⟩, -, hs, ha, heq⟩ :=
    evaluateScope_cases db m scope (some c) windowSize (s.bounds scope)
  · exact absurd hnone (by simp [hsamples])
  · exact ⟨d, limited, hs, ha, heq⟩

/-- Less load leads to no bigger recommendation exactly when there is some load, or there is no bounded target for the
larger load that is more than 20 percent below a current capacity within the catalog. -/
theorem recommended_mono_iff (s : Settings) (scope : ScopeName) (hscope : scope ≠ .disk) (c : ℚ) (db db' : Database)
    (m m' : Machine) (windowSize : Int) (hsamples : observedSamples db m scope windowSize ≠ [])
    (hsamples' : observedSamples db' m' scope windowSize ≠ []) (h0 : 0 ≤ observedAverage db m scope windowSize)
    (hle : observedAverage db m scope windowSize ≤ observedAverage db' m' scope windowSize)
    (h40 : observedAverage db' m' scope windowSize ≤ downscaleUtilizationThreshold) :
    (∃ t t', recommendedCapacity s db m scope (some c) windowSize = some t ∧
      recommendedCapacity s db' m' scope (some c) windowSize = some t' ∧ t ≤ t') ↔
    (0 < observedAverage db m scope windowSize ∨ ∀ lo ∈ (s.bounds scope).minCapacity, (lo : ℚ) ≤ c →
      ∀ t ∈ (boundedTarget (rawTarget c (observedAverage db' m' scope windowSize)) (s.bounds scope)).1,
        c * downscaleCapacityMargin ≤ t) := by
  obtain ⟨lo, hi, hlo, hhi⟩ := bounds_of_ne_disk s hscope
  obtain ⟨d, limited, hs, ha, heq⟩ := recommendedCapacity_eq s c hsamples
  obtain ⟨d', limited', hs', ha', heq'⟩ := recommendedCapacity_eq s c hsamples'
  unfold recommendedCapacity
  rw [heq, heq']
  generalize observedAverage db m scope windowSize = u at h0 hle
  generalize observedAverage db' m' scope windowSize = u' at hle h40
  by_cases hbelow : c < lo
  · refine iff_of_true ⟨lo, lo, recommend_below hs hlo hbelow, recommend_below hs' hlo hbelow, le_rfl⟩ (.inr ?_)
    intro lo' hlo' hle' t ht
    cases hlo.symm.trans hlo'
    exact absurd hbelow (not_lt.mpr hle')
  · have hmin : ∀ lo' ∈ (s.bounds scope).minCapacity, (lo' : ℚ) ≤ c := by
      intro lo' hlo'
      cases hlo.symm.trans hlo'
      exact not_lt.mp hbelow
    have hpos : 0 < c := (minCapacity_pos hlo).trans_le (hmin lo hlo)
    rw [recommend_low hs ha hscope hpos hmin (hle.trans h40), recommend_low hs' ha' hscope hpos hmin h40]
    have hmono : (∃ t t', some (lowTarget (s.bounds scope) c u) = some t ∧
        some (lowTarget (s.bounds scope) c u') = some t' ∧ t ≤ t') ↔
        lowTarget (s.bounds scope) c u ≤ lowTarget (s.bounds scope) c u' := by simp
    rw [hmono]
    obtain hu | hu := h0.lt_or_eq
    · exact iff_of_true (lowTarget_mono hlo hhi hpos hu hle) (.inl hu)
    · subst hu
      rw [lowTarget_zero, le_lowTarget_iff _ hpos]
      constructor
      · exact fun h => .inr fun _ _ _ => h
      · exact fun h => h.resolve_left (lt_irrefl 0) lo hlo (hmin lo hlo)

/-- A machine with 8 cores. -/
def eightCores : Machine := ⟨1, 1, none, none, none, "H1", none, none, some 8, none, none, "{}", 0⟩

/-- It is seen by one CPU provider, with one sample. -/
def sampled (value : Int) : Database :=
  { Database.empty with
    providers := [⟨1, 1, "cpu", "mock", .cpu, "{}", true, none, none, none⟩]
    machines := [eightCores]
    cpuMetrics := [⟨1, 1, 1, 0, value⟩]
    nextId := 2 }

theorem recommended_mono_twenty :
    ∃ t t', recommendedCapacity .default (sampled 20) eightCores .cpu (some 8) 30 = some t ∧
      recommendedCapacity .default (sampled 30) eightCores .cpu (some 8) 30 = some t' ∧ t ≤ t' :=
  (recommended_mono_iff .default .cpu nofun 8 (sampled 20) (sampled 30) eightCores eightCores 30 (by decide +kernel)
    (by decide +kernel) (by decide +kernel) (by decide +kernel) (by decide +kernel)).mpr (.inl (by decide +kernel))

/-- Without load the 8 cores are kept; at 10 percent 2 cores are recommended. -/
theorem idle_machine_kept : observedAverage (sampled 0) eightCores .cpu 30 = 0 ∧
    observedAverage (sampled 10) eightCores .cpu 30 = 10 ∧
    ¬ ∃ t t', recommendedCapacity .default (sampled 0) eightCores .cpu (some 8) 30 = some t ∧
      recommendedCapacity .default (sampled 10) eightCores .cpu (some 8) 30 = some t' ∧ t ≤ t' := by
  have hidle : recommendedCapacity .default (sampled 0) eightCores .cpu (some 8) 30 = some 8 := by decide +kernel
  have hloaded : recommendedCapacity .default (sampled 10) eightCores .cpu (some 8) 30 = some 2 := by decide +kernel
  refine ⟨by decide +kernel, by decide +kernel, ?_⟩
  rintro ⟨t, t', ht, ht', hle⟩
  cases hidle.symm.trans ht
  cases hloaded.symm.trans ht'
  norm_num at hle

/-! ## Taking a recommendation -/

section Settle

variable {s : Settings} {scope : ScopeName} {d : ScopeDetails} {c u : ℚ} {limited : Bool}

/-- Within the catalog the pressure decides. -/
theorem recommend_weigh (d : ScopeDetails) (u : ℚ) (limited : Bool)
    (hmin : ∀ lo ∈ (s.bounds scope).minCapacity, (lo : ℚ) ≤ c) :
    ∃ details reason, details.status = d.status ∧ details.action = d.action ∧ recommend d c u limited (s.bounds scope) =
      weigh scope details c u limited (boundedTarget (rawTarget c u) (s.bounds scope)).1 reason :=
  ⟨{ d with utilizationPercent := some u, rawTargetCapacity := some (rawTarget c u) }, _, rfl, rfl, by
    simp only [recommend, raisedMinimum_of_le hmin]; rfl⟩

/-- The target of a change within the catalog is the bounded target. -/
theorem recommend_bounded {t : ℚ} (ha : d.action = .keep) (hmin : ∀ lo ∈ (s.bounds scope).minCapacity, (lo : ℚ) ≤ c)
    (haction : (recommend d c u limited (s.bounds scope)).action = .scaleUp ∨
      (recommend d c u limited (s.bounds scope)).action = .scaleDown)
    (ht : effectiveTarget (some c) (recommend d c u limited (s.bounds scope)) = some t) :
    (boundedTarget (rawTarget c u) (s.bounds scope)).1 = some t := by
  simp only [effectiveTarget, haction, if_true] at ht
  obtain ⟨details, reason, -, hkept, heq⟩ := recommend_weigh d u limited hmin
  rw [heq] at haction ht
  obtain hkeep | ⟨t', ht', hbounded⟩ := weigh_cases (hkept.trans ha) scope c u limited
    (boundedTarget (rawTarget c u) (s.bounds scope)).1 reason
  · simp [hkeep] at haction
  · split_ifs at ht
    rw [ht', hbounded.symm.trans ht]

/-- A capacity that is its own bounded target is kept. -/
theorem recommend_self {t : ℚ} (hs : d.status = .ok) (ha : d.action = .keep) (hpos : 0 < t)
    (hmin : ∀ lo ∈ (s.bounds scope).minCapacity, (lo : ℚ) ≤ t)
    (ht : (boundedTarget (rawTarget t u) (s.bounds scope)).1 = some t) :
    (recommend d t u limited (s.bounds scope)).action = .keep ∧
      effectiveTarget (some t) (recommend d t u limited (s.bounds scope)) = some t := by
  have hup : ¬ t * upscaleCapacityMargin < t := by
    unfold upscaleCapacityMargin
    linarith
  have hdown : ¬ t < t * downscaleCapacityMargin := by
    unfold downscaleCapacityMargin
    linarith
  obtain ⟨details, reason, hok, hkept, heq⟩ := recommend_weigh d u limited hmin
  rw [heq, ht]
  simp [weigh, effectiveTarget, hok, hkept, hs, ha, hup, hdown]

end Settle

/-- The load on a capacity has the same raw target on another one. -/
theorem rawTarget_load {c u t : ℚ} (ht : 0 < t) : rawTarget t (c * u / t) = rawTarget c u := by
  rw [rawTarget, rawTarget, mul_div_cancel₀ _ ht.ne']

/-- A recommended capacity is kept by the next evaluation, when the load stays the same. -/
theorem recommendation_settles (s : Settings) (scope : ScopeName) (c : ℚ)
    (hmin : ∀ lo ∈ (s.bounds scope).minCapacity, (lo : ℚ) ≤ c) (db db' : Database) (m m' : Machine)
    (windowSize windowSize' : Int) (t : ℚ)
    (haction : (evaluateScope db m scope (some c) windowSize (s.bounds scope)).action = .scaleUp ∨
      (evaluateScope db m scope (some c) windowSize (s.bounds scope)).action = .scaleDown)
    (ht : recommendedCapacity s db m scope (some c) windowSize = some t)
    (hsamples : observedSamples db' m' scope windowSize' ≠ [])
    (hload : observedAverage db' m' scope windowSize' = c * observedAverage db m scope windowSize / t) :
    (evaluateScope db' m' scope (some t) windowSize' (s.bounds scope)).action = .keep ∧
      recommendedCapacity s db' m' scope (some t) windowSize' = some t := by
  obtain ⟨-, hstatus⟩ | ⟨_, d, limited, ⟨⟩, -, -, ha, heq⟩ :=
    evaluateScope_cases db m scope (some c) windowSize (s.bounds scope)
  · rw [recommendedCapacity, effectiveTarget, if_pos hstatus] at ht
    cases ht
  · rw [heq] at haction
    rw [recommendedCapacity, heq] at ht
    have hbounded := recommend_bounded ha hmin haction ht
    have hpair : boundedTarget (rawTarget c (observedAverage db m scope windowSize)) (s.bounds scope) = (some t, _) :=
      Prod.ext hbounded rfl
    obtain ⟨hraw, hcovers⟩ := boundedTarget_covers hpair
    have hpos : 0 < t := hraw.trans_le hcovers
    obtain ⟨d', limited', hs', ha', heq'⟩ := recommendedCapacity_eq s t hsamples
    rw [recommendedCapacity, heq', hload]
    refine recommend_self hs' ha' hpos (boundedTarget_inCatalog hpair).min_le ?_
    rw [rawTarget_load hpos, hbounded]

/-- The 8 cores at 10 percent: 2 cores are recommended, and kept at 40 percent. -/
theorem recommendation_settles_two :
    (evaluateScope (sampled 40) eightCores .cpu (some 2) 30 (Settings.default.bounds .cpu)).action = .keep ∧
      recommendedCapacity .default (sampled 40) eightCores .cpu (some 2) 30 = some 2 :=
  recommendation_settles .default .cpu 8 (by decide +kernel) (sampled 10) (sampled 40) eightCores
    eightCores 30 30 2 (.inr (by decide +kernel)) (by decide +kernel) (by decide +kernel) (by decide +kernel)

end Washing
