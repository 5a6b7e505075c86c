import Mathlib

/-!
# Rounding up to a step

`roundUp step x` is the least multiple of `step` that is not below `x` (`le_roundUp`, `roundUp_le_iff`).
-/

namespace Washing

variable {K : Type} [Field K] [LinearOrder K] [FloorRing K]

/-- `ceil(x / step) * step`. -/
def roundUp (step x : K) : K := ⌈x / step⌉ * step

/-- The value is a multiple of the step. -/
def IsMultiple (step x : K) : Prop := ∃ k : ℤ, x = k * step

theorem isMultiple_roundUp (step x : K) : IsMultiple step (roundUp step x) := ⟨⌈x / step⌉, rfl⟩

variable [IsStrictOrderedRing K]

theorem le_roundUp {step : K} (hs : 0 < step) (x : K) : x ≤ roundUp step x := by
  have h := Int.le_ceil (x / step)
  calc x = x / step * step := (div_mul_cancel₀ x hs.ne').symm
    _ ≤ ⌈x / step⌉ * step := mul_le_mul_of_nonneg_right h hs.le

/-- A multiple of the step bounds the rounded value exactly when it bounds the value. -/
theorem roundUp_le_iff {step x y : K} (hs : 0 < step) (hy : IsMultiple step y) : roundUp step x ≤ y ↔ x ≤ y := by
  obtain ⟨k, rfl⟩ := hy
  unfold roundUp
  rw [mul_le_mul_iff_left₀ hs, Int.cast_le, Int.ceil_le, div_le_iff₀ hs]

theorem roundUp_mono {step x y : K} (hs : 0 < step) (h : x ≤ y) : roundUp step x ≤ roundUp step y :=
  (roundUp_le_iff hs (isMultiple_roundUp step y)).mpr (h.trans (le_roundUp hs y))

/-- A positive value is rounded up to at least one step. -/
theorem step_le_roundUp {step x : K} (hs : 0 < step) (hx : 0 < x) : step ≤ roundUp step x := by
  have h : (1 : ℤ) ≤ ⌈x / step⌉ := Int.one_le_ceil_iff.mpr (div_pos hx hs)
  calc step = (1 : ℤ) * step := by simp
    _ ≤ ⌈x / step⌉ * step := mul_le_mul_of_nonneg_right (Int.cast_le.mpr h) hs.le

end Washing
