import Mathlib

/-!
# Sums over nullable columns

A nullable column of a table is a function to `Option`; its sum is taken over the rows where it is not null. The
difference of two such sums is the sum of the differences only over the rows where both columns are present: the rows
with one of them alone contribute to one side (`total_sub_total`).
-/

namespace Washing

variable {α M : Type}

/-- The sum of a column over the rows where it is not null. -/
def total [AddMonoid M] (column : α → Option M) (rows : List α) : M := (rows.filterMap column).sum

/-- The difference of two columns, null where one of them is. -/
def difference [Sub M] (f g : α → Option M) (r : α) : Option M := (f r).bind fun x => (g r).map fun y => x - y

section Total

variable [AddCommGroup M]

@[simp] theorem total_nil (f : α → Option M) : total f [] = 0 := rfl

@[simp] theorem total_cons (f : α → Option M) (r : α) (rows : List α) :
    total f (r :: rows) = (f r).getD 0 + total f rows := by
  cases h : f r <;> simp [total, h]

/-- Null everywhere, the column sums to zero. -/
theorem total_of_none {f : α → Option M} {rows : List α} (h : ∀ r ∈ rows, f r = none) : total f rows = 0 := by
  have hnil : rows.filterMap f = [] := List.filterMap_eq_nil_iff.mpr h
  simp [total, hnil]

/-- Where `f` is present `g` is: the totals differ by the differences and by what `g` counts where `f` is null. -/
theorem total_sub_total {f g : α → Option M} : ∀ {rows : List α}, (∀ r ∈ rows, f r ≠ none → g r ≠ none) →
    total f rows - total g rows = total (difference f g) rows - total g (rows.filter fun r => (f r).isNone)
  | [], _ => by simp
  | r :: rows, h => by
    have ih := total_sub_total (fun s hs => h s (List.mem_cons_of_mem r hs))
    have hr := h r List.mem_cons_self
    cases hf : f r with
    | none =>
      simp only [total_cons, hf, difference, List.filter_cons, Option.isNone_none, if_true, Option.bind_none,
        Option.getD_none, zero_add]
      rw [sub_add_eq_sub_sub_swap, ih, sub_sub, add_comm]
    | some x =>
      cases hg : g r with
      | none => exact absurd hg (hr (by simp [hf]))
      | some y =>
        simp only [total_cons, hf, hg, difference, List.filter_cons, Option.isNone_some, Option.bind_some,
          Option.map_some, Option.getD_some, Bool.false_eq_true, if_false]
        rw [add_sub_add_comm, ih, add_sub_assoc]

end Total

end Washing
