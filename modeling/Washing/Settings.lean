import Washing.Lib.Sql

/-!
# Settings

The optimization settings of `internal/infra/config/settings.py` and their validators. `Settings` is a value that the
validators accept.
-/

namespace Washing

/-- The settings as they are read from the environment. -/
structure RawSettings where
  flavorOptimizationWindowSize : Int
  flavorOptimizationMinCpu : Int
  flavorOptimizationMaxCpu : Int
  flavorOptimizationMinRamMb : Int
  flavorOptimizationMaxRamMb : Int
  deriving DecidableEq, Repr

/-- Require positive optimization windows and capacity bounds. -/
def validatePositiveOptimizationSettings (value : Int) : Except String Int :=
  if value ≤ 0 then .error "optimization settings must be greater than 0" else .ok value

/-- Require RAM bounds to stay aligned on GiB-sized capacities. -/
def validateRamBoundsAreGibAligned (value : Int) : Except String Int :=
  if value % 1024 ≠ 0 then .error "RAM optimization bounds must be multiples of 1024" else .ok value

/-- Keep optimization minimums below or equal to their maximums. -/
def validateOptimizationBoundOrder (s : RawSettings) : Except String RawSettings :=
  if s.flavorOptimizationMinCpu > s.flavorOptimizationMaxCpu then
    .error "flavor_optimization_min_cpu must be less than or equal to flavor_optimization_max_cpu"
  else if s.flavorOptimizationMinRamMb > s.flavorOptimizationMaxRamMb then
    .error "flavor_optimization_min_ram_mb must be less than or equal to flavor_optimization_max_ram_mb"
  else .ok s

/-- The field validators, then the model validator. -/
def RawSettings.validate (s : RawSettings) : Except String RawSettings := do
  let windowSize ← validatePositiveOptimizationSettings s.flavorOptimizationWindowSize
  let minCpu ← validatePositiveOptimizationSettings s.flavorOptimizationMinCpu
  let maxCpu ← validatePositiveOptimizationSettings s.flavorOptimizationMaxCpu
  let minRamMb ← validatePositiveOptimizationSettings s.flavorOptimizationMinRamMb
  let minRamMb ← validateRamBoundsAreGibAligned minRamMb
  let maxRamMb ← validatePositiveOptimizationSettings s.flavorOptimizationMaxRamMb
  let maxRamMb ← validateRamBoundsAreGibAligned maxRamMb
  validateOptimizationBoundOrder ⟨windowSize, minCpu, maxCpu, minRamMb, maxRamMb⟩

/-- What the validators require. -/
structure RawSettings.Valid (s : RawSettings) : Prop where
  windowSize_pos : 0 < s.flavorOptimizationWindowSize
  minCpu_pos : 0 < s.flavorOptimizationMinCpu
  minRam_pos : 0 < s.flavorOptimizationMinRamMb
  minRam_aligned : s.flavorOptimizationMinRamMb % 1024 = 0
  maxRam_aligned : s.flavorOptimizationMaxRamMb % 1024 = 0
  cpu_order : s.flavorOptimizationMinCpu ≤ s.flavorOptimizationMaxCpu
  ram_order : s.flavorOptimizationMinRamMb ≤ s.flavorOptimizationMaxRamMb

theorem validatePositive_ok_iff {v w : Int} : validatePositiveOptimizationSettings v = .ok w ↔ 0 < v ∧ w = v := by
  unfold validatePositiveOptimizationSettings
  split_ifs with h
  · simp; omega
  · simp [eq_comm]; omega

theorem validateAligned_ok_iff {v w : Int} : validateRamBoundsAreGibAligned v = .ok w ↔ v % 1024 = 0 ∧ w = v := by
  unfold validateRamBoundsAreGibAligned
  split_ifs with h
  · simp; omega
  · simp [eq_comm]; omega

theorem validateOrder_ok_iff {s t : RawSettings} : validateOptimizationBoundOrder s = .ok t ↔
    (s.flavorOptimizationMinCpu ≤ s.flavorOptimizationMaxCpu ∧
      s.flavorOptimizationMinRamMb ≤ s.flavorOptimizationMaxRamMb) ∧ t = s := by
  unfold validateOptimizationBoundOrder
  split_ifs with h1 h2
  · simp; omega
  · simp; omega
  · simp [eq_comm]; omega

/-- The validators accept a value, unchanged, exactly when it is valid. -/
theorem RawSettings.validate_ok_iff (s t : RawSettings) : s.validate = .ok t ↔ s.Valid ∧ t = s := by
  unfold validate
  simp only [bind_ok_iff, validatePositive_ok_iff, validateAligned_ok_iff, validateOrder_ok_iff]
  constructor
  · rintro ⟨_, ⟨h1, rfl⟩, _, ⟨h2, rfl⟩, _, ⟨h3, rfl⟩, _, ⟨h4, rfl⟩, _, ⟨h5, rfl⟩, _, ⟨h6, rfl⟩, _, ⟨h7, rfl⟩,
      ⟨h8, h9⟩, rfl⟩
    exact ⟨⟨h1, h2, h4, h5, h7, h8, h9⟩, rfl⟩
  · rintro ⟨h, rfl⟩
    have hc := h.minCpu_pos.trans_le h.cpu_order
    have hr := h.minRam_pos.trans_le h.ram_order
    exact ⟨_, ⟨h.windowSize_pos, rfl⟩, _, ⟨h.minCpu_pos, rfl⟩, _, ⟨hc, rfl⟩, _, ⟨h.minRam_pos, rfl⟩,
      _, ⟨h.minRam_aligned, rfl⟩, _, ⟨hr, rfl⟩, _, ⟨h.maxRam_aligned, rfl⟩, ⟨h.cpu_order, h.ram_order⟩, rfl⟩

/-- Settings that the validators accept. -/
structure Settings extends RawSettings where
  accepted : toRawSettings.validate = .ok toRawSettings

theorem Settings.valid (s : Settings) : s.toRawSettings.Valid := ((RawSettings.validate_ok_iff _ _).mp s.accepted).1

/-- The default settings are accepted. -/
def Settings.default : Settings := ⟨⟨30, 1, 64, 2048, 262144⟩, rfl⟩

end Washing
