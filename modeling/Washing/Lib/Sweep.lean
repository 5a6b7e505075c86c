import Mathlib

/-!
# Batched sweeps

A sweep visits the items of a finite list in rounds. The candidates of a round are the items that were not visited yet
(`fresh`) and, ahead of them, visited items that are candidates again (`again`); the round visits the first `batch` of
them. A repeated item takes a slot and brings nothing new, so that after each round the number of items left has fallen
by the slots that no repetition took (`SweepRound.length_unvisited`), and the sweep is complete exactly when the slots
without a repetition are enough for all items (`Sweep.covers_iff`).
-/

namespace Washing

variable {α : Type} [DecidableEq α]

/-- The items of a list that were not visited. -/
def unvisited (all visited : List α) : List α := all.filter (· ∉ visited)

@[simp] theorem mem_unvisited {all visited : List α} {a : α} : a ∈ unvisited all visited ↔ a ∈ all ∧ a ∉ visited := by
  simp [unvisited]

omit [DecidableEq α] in
/-- A list in which the items with a property come first. -/
theorem filter_append_filter_not {p : α → Bool} : ∀ {l : List α}, l.Pairwise (fun a b => p b → p a) →
    l.filter p ++ l.filter (fun a => ! p a) = l
  | [], _ => rfl
  | a :: l, h => by
    obtain ⟨hfirst, hrest⟩ := List.pairwise_cons.mp h
    cases hp : p a with
    | true => simp [hp, filter_append_filter_not hrest]
    | false =>
      have hnone : ∀ b ∈ l, p b = false := by
        intro b hb
        by_contra hpb
        have hpa := hfirst b hb (Bool.not_eq_false _ ▸ hpb)
        rw [hp] at hpa
        cases hpa
      have hempty : l.filter p = [] := List.filter_eq_nil_iff.mpr fun b hb => by simp [hnone b hb]
      have hall : l.filter (fun b => ! p b) = l := List.filter_eq_self.mpr fun b hb => by simp [hnone b hb]
      simp [hp, hempty, hall]

/-- One round: its candidates and the items visited after it. -/
structure SweepRound (all : List α) (batch : Nat) (visited again fresh visited' : List α) : Prop where
  again_visited : ∀ a ∈ again, a ∈ visited
  fresh_perm : fresh.Perm (unvisited all visited)
  visited_eq : visited' = visited ++ (again ++ fresh).take batch

/-- Without duplicates, what is not among the first items comes after them. -/
theorem filter_notMem_take {l : List α} (hl : l.Nodup) (k : Nat) : l.filter (· ∉ l.take k) = l.drop k := by
  have hdisjoint : (l.take k).Disjoint (l.drop k) := List.disjoint_take_drop hl le_rfl
  have hfirst : (l.take k).filter (· ∉ l.take k) = [] := List.filter_eq_nil_iff.mpr fun a ha => by simpa using ha
  have hlast : (l.drop k).filter (· ∉ l.take k) = l.drop k :=
    List.filter_eq_self.mpr fun a ha => by simpa using fun hmem => hdisjoint hmem ha
  calc l.filter (· ∉ l.take k) = (l.take k ++ l.drop k).filter (· ∉ l.take k) := by rw [List.take_append_drop]
    _ = l.drop k := by rw [List.filter_append, hfirst, hlast, List.nil_append]

/-- A round leaves the unvisited items that find no slot behind the repetitions. -/
theorem SweepRound.length_unvisited {all visited again fresh visited' : List α} {batch : Nat} (hn : all.Nodup)
    (h : SweepRound all batch visited again fresh visited') :
    (unvisited all visited').length = (unvisited all visited).length - (batch - again.length) := by
  have hfresh : fresh.Nodup := h.fresh_perm.nodup_iff.mpr (hn.filter _)
  have hpicked : ∀ a ∈ fresh, (a ∉ (again ++ fresh).take batch ↔ a ∉ fresh.take (batch - again.length)) := by
    intro a ha
    have hnew : a ∉ visited := (mem_unvisited.mp (h.fresh_perm.mem_iff.mp ha)).2
    have hagain : a ∉ again.take batch := fun hmem => hnew (h.again_visited a (List.mem_of_mem_take hmem))
    rw [List.take_append, List.mem_append, or_iff_right hagain]
  have hrest : unvisited all visited' = (unvisited all visited).filter (· ∉ (again ++ fresh).take batch) := by
    rw [h.visited_eq, unvisited, unvisited, List.filter_filter]
    refine List.filter_congr fun a _ => ?_
    simp [Bool.and_comm]
  calc (unvisited all visited').length
      = (fresh.filter (· ∉ (again ++ fresh).take batch)).length := by rw [hrest, (h.fresh_perm.filter _).length_eq]
    _ = (fresh.filter (· ∉ fresh.take (batch - again.length))).length := by
      refine congrArg List.length (List.filter_congr fun a ha => ?_)
      simp only [hpicked a ha]
    _ = (unvisited all visited).length - (batch - again.length) := by
      rw [filter_notMem_take hfresh, List.length_drop, h.fresh_perm.length_eq]

/-- A sweep: the items visited before each round, and the repetitions of each round. -/
structure Sweep (all : List α) (batch : Nat) (visited : Nat → List α) (repeats : Nat → Nat) (rounds : Nat) : Prop where
  nodup : all.Nodup
  start : visited 0 = []
  round : ∀ i < rounds, ∃ again fresh, again.length = repeats i ∧
    SweepRound all batch (visited i) again fresh (visited (i + 1))

namespace Sweep

variable {all : List α} {batch rounds : Nat} {visited : Nat → List α} {repeats : Nat → Nat}

theorem remaining (h : Sweep all batch visited repeats rounds) : ∀ i ≤ rounds,
    (unvisited all (visited i)).length = all.length - ∑ j ∈ Finset.range i, (batch - repeats j) := by
  intro i
  induction i with
  | zero => simp [h.start, unvisited]
  | succ i ih =>
    intro hi
    obtain ⟨again, fresh, hagain, hround⟩ := h.round i hi
    rw [hround.length_unvisited h.nodup, ih (Nat.le_of_succ_le hi), hagain, Finset.sum_range_succ, Nat.sub_sub]

/-- A sweep visits every item exactly when the repetitions leave enough slots. -/
theorem covers_iff (h : Sweep all batch visited repeats rounds) : (∀ a ∈ all, a ∈ visited rounds) ↔
    all.length + ∑ j ∈ Finset.range rounds, min batch (repeats j) ≤ rounds * batch := by
  have hslots : ∑ j ∈ Finset.range rounds, (batch - repeats j) + ∑ j ∈ Finset.range rounds, min batch (repeats j) =
      rounds * batch := by
    rw [← Finset.sum_add_distrib, Finset.sum_congr rfl fun j _ =>
      show batch - repeats j + min batch (repeats j) = batch by omega]
    simp
  have hcovers : (∀ a ∈ all, a ∈ visited rounds) ↔ (unvisited all (visited rounds)).length = 0 := by
    rw [List.length_eq_zero_iff, List.eq_nil_iff_forall_not_mem]
    simp
  have hremaining := h.remaining rounds le_rfl
  rw [hcovers, hremaining]
  omega

end Sweep

end Washing
