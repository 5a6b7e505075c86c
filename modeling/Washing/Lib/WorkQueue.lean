import Mathlib

/-!
# Work queues

A queue holds tasks in no order. A worker takes any of them off, and the task publishes further tasks while it is
executed (`Takes`). Nothing else is assumed about the state around the queue.

- **Work ends** (`work_ends`): when tasks publish tasks of lower rank only, a run in which nobody else publishes
  executes finitely many tasks, whichever task is taken at each step. The queues descend in the Dershowitz–Manna order.
- **Work is conserved** (`Takes.conserved`): when a task stands for what it does itself and for what its published tasks
  stand for, then what was done and what the queue stands for add up to the same at every step, and an empty queue
  leaves what was done.
-/

namespace Washing

section WorkQueue

variable {α : Type}

/-- A task is taken off the queue, and its published tasks are added. -/
def Takes (task : α) (published : List α) (queue queue' : Multiset α) : Prop :=
  ∃ rest, queue = task ::ₘ rest ∧ queue' = rest + ↑published

theorem takes_erase [DecidableEq α] {task : α} {queue : Multiset α} (h : task ∈ queue) (published : List α) :
    Takes task published queue (queue.erase task + ↑published) :=
  ⟨queue.erase task, (Multiset.cons_erase h).symm, rfl⟩

/-! ## Work ends -/

section Rank

variable {β : Type} [Preorder β] {rank : α → β} {task : α} {published : List α} {queue queue' : Multiset α}

/-- A step that publishes tasks of lower rank descends. -/
theorem Takes.lt (h : Takes task published queue queue') (hlower : ∀ t ∈ published, rank t < rank task) :
    Multiset.IsDershowitzMannaLT (queue'.map rank) (queue.map rank) := by
  obtain ⟨rest, rfl, rfl⟩ := h
  refine ⟨rest.map rank, (published : Multiset α).map rank, {rank task}, by simp, by simp, ?_, fun y hy => ?_⟩
  · rw [Multiset.map_cons, ← Multiset.singleton_add, add_comm]
  · obtain ⟨t, ht, rfl⟩ := Multiset.mem_map.mp hy
    exact ⟨rank task, Multiset.mem_singleton_self _, hlower t ht⟩

/-- Losing tasks descends, or nothing was lost. -/
theorem lt_or_eq_of_le (rank : α → β) (h : queue' ≤ queue) :
    Multiset.IsDershowitzMannaLT (queue'.map rank) (queue.map rank) ∨ queue' = queue := by
  obtain ⟨lost, rfl⟩ := Multiset.le_iff_exists_add.mp h
  by_cases hlost : lost = 0
  · exact .inr (by rw [hlost, add_zero])
  · refine .inl ⟨queue'.map rank, 0, lost.map rank, ?_, by simp, by simp, fun y hy => ?_⟩
    · exact fun hnil => hlost (Multiset.map_eq_zero.mp hnil)
    · exact absurd hy (Multiset.notMem_zero y)

variable [WellFoundedLT β]

/-- A run of queues each of which is lower than the one before, or the same, stays the same from some point on. -/
theorem eventually_same (queues : ℕ → Multiset β)
    (h : ∀ n, Multiset.IsDershowitzMannaLT (queues (n + 1)) (queues n) ∨ queues (n + 1) = queues n) :
    ∃ N, ∀ n, N ≤ n → queues n = queues N := by
  obtain ⟨_, ⟨N, rfl⟩, hmin⟩ := Multiset.wellFounded_isDershowitzMannaLT.has_min (Set.range queues)
    ⟨queues 0, 0, rfl⟩
  refine ⟨N, fun n hn => ?_⟩
  induction n, hn using Nat.le_induction with
  | base => rfl
  | succ n _ ih =>
    obtain hlt | heq := h n
    · exact absurd (ih ▸ hlt) (hmin _ ⟨n + 1, rfl⟩)
    · exact heq.trans ih

/-- From some point on no task is taken any more, if from some point on tasks are only taken or lost. -/
theorem work_ends {queues : ℕ → Multiset α} {rank : α → β} {takes : ℕ → Prop} {start : ℕ}
    (htakes : ∀ n, start ≤ n → takes n → ∃ task published, Takes task published (queues n) (queues (n + 1)) ∧
      ∀ t ∈ published, rank t < rank task)
    (hloses : ∀ n, start ≤ n → ¬ takes n → queues (n + 1) ≤ queues n) :
    ∃ N, ∀ n, N ≤ n → ¬ takes n := by
  have hdescends : ∀ n, start ≤ n → takes n →
      Multiset.IsDershowitzMannaLT ((queues (n + 1)).map rank) ((queues n).map rank) := by
    intro n hn ht
    obtain ⟨task, published, htake, hlower⟩ := htakes n hn ht
    exact htake.lt hlower
  obtain ⟨N, hN⟩ := eventually_same (fun n => (queues (start + n)).map rank) fun n => by
    by_cases ht : takes (start + n)
    · exact .inl (hdescends _ (Nat.le_add_right _ _) ht)
    · exact (lt_or_eq_of_le rank (hloses _ (Nat.le_add_right _ _) ht)).imp id (congrArg _)
  refine ⟨start + N, fun n hn ht => ?_⟩
  obtain ⟨k, rfl⟩ := Nat.exists_eq_add_of_le ((Nat.le_add_right start N).trans hn)
  have hk : N ≤ k := Nat.le_of_add_le_add_left hn
  have hlt := hdescends _ (Nat.le_add_right _ _) ht
  have hsame : (queues (start + k + 1)).map rank = (queues (start + k)).map rank :=
    (hN (k + 1) (hk.trans (Nat.le_succ k))).trans (hN k hk).symm
  rw [hsame] at hlt
  exact Multiset.wellFounded_isDershowitzMannaLT.irrefl.irrefl _ hlt

end Rank

/-! ## Work is conserved -/

/-- What a task does and what its published tasks stand for is what the task stands for, so nothing is lost and nothing
is done twice. -/
theorem Takes.conserved {M : Type} [AddCommMonoid M] {work : α → M} {task : α} {published : List α}
    {queue queue' : Multiset α} {done does : M} (h : Takes task published queue queue')
    (htask : work task = does + (published.map work).sum) :
    done + does + (queue'.map work).sum = done + (queue.map work).sum := by
  obtain ⟨rest, rfl, rfl⟩ := h
  rw [Multiset.map_add, Multiset.sum_add, Multiset.map_cons, Multiset.sum_cons, htask, Multiset.map_coe,
    Multiset.sum_coe]
  abel

end WorkQueue

end Washing
