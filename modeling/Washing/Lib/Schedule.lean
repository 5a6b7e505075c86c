import Mathlib

/-!
# Interleaved runs

Processes share a state; a schedule says which of them makes the next step. `exec` runs a schedule, `AllSteps` says
that a condition holds before each of its steps, and `exec_invariant` is the rule for what such steps preserve. The
processes exclude each other with locks (`Locks`), and `Since` speaks of what happened in a log after some event.
-/

namespace Washing

/-! ## Schedules -/

section Exec

variable {S A : Type}

/-- The state after a schedule, unless one of its steps is blocked. -/
def exec (step : S → A → Option S) : S → List A → Option S
  | s, [] => some s
  | s, a :: schedule => (step s a).bind fun s' => exec step s' schedule

/-- A condition holds before each step of a schedule. -/
def AllSteps (step : S → A → Option S) (condition : S → A → Prop) : S → List A → Prop
  | _, [] => True
  | s, a :: schedule => condition s a ∧ ∀ s' ∈ step s a, AllSteps step condition s' schedule

instance decidableAllSteps {step : S → A → Option S} {condition : S → A → Prop}
    [hdec : ∀ s a, Decidable (condition s a)] :
    ∀ (s : S) (schedule : List A), Decidable (AllSteps step condition s schedule)
  | _, [] => inferInstanceAs (Decidable True)
  | s, a :: schedule =>
    have : DecidablePred fun s' => AllSteps step condition s' schedule := fun s' => decidableAllSteps s' schedule
    inferInstanceAs (Decidable (condition s a ∧ ∀ s' ∈ step s a, AllSteps step condition s' schedule))

variable {step : S → A → Option S} {condition : S → A → Prop}

theorem AllSteps.and {condition' : S → A → Prop} {s : S} {schedule : List A} (h : AllSteps step condition s schedule)
    (h' : AllSteps step condition' s schedule) :
    AllSteps step (fun s a => condition s a ∧ condition' s a) s schedule := by
  induction schedule generalizing s with
  | nil => trivial
  | cons a schedule ih => exact ⟨⟨h.1, h'.1⟩, fun s' hs' => ih (h.2 s' hs') (h'.2 s' hs')⟩

/-- A condition on the steps alone. -/
theorem allSteps_of_forall {P : A → Prop} {schedule : List A} (h : ∀ a ∈ schedule, P a) (s : S) :
    AllSteps step (fun _ a => P a) s schedule := by
  induction schedule generalizing s with
  | nil => trivial
  | cons a schedule ih =>
    exact ⟨h a List.mem_cons_self, fun s' _ => ih (fun b hb => h b (List.mem_cons_of_mem a hb)) s'⟩

/-- No condition at all holds before each step. -/
theorem allSteps_true (s : S) (schedule : List A) : AllSteps step (fun _ _ => True) s schedule :=
  allSteps_of_forall (fun _ _ => trivial) s

/-- What every step under the condition preserves holds at the end. -/
theorem exec_invariant {I : S → Prop} (hstep : ∀ s a s', I s → condition s a → step s a = some s' → I s')
    {schedule : List A} {s s' : S} (hs : I s) (hall : AllSteps step condition s schedule)
    (hexec : exec step s schedule = some s') : I s' := by
  induction schedule generalizing s with
  | nil =>
    cases hexec
    exact hs
  | cons a schedule ih =>
    obtain ⟨s₁, hs₁, hrest⟩ := Option.bind_eq_some_iff.mp hexec
    exact ih (hstep s a s₁ hs hall.1 hs₁) (hall.2 s₁ hs₁) hrest

/-- The condition holds of the first part of a schedule, and of the rest from where the first part ends. -/
theorem AllSteps.append {first rest : List A} {s : S} (h : AllSteps step condition s (first ++ rest)) :
    AllSteps step condition s first ∧ ∀ s', exec step s first = some s' → AllSteps step condition s' rest := by
  induction first generalizing s with
  | nil =>
    refine ⟨trivial, fun s' hs' => ?_⟩
    cases hs'
    exact h
  | cons a first ih =>
    refine ⟨⟨h.1, fun s₁ hs₁ => (ih (h.2 s₁ hs₁)).1⟩, fun s' hs' => ?_⟩
    obtain ⟨s₁, hs₁, hrest⟩ := Option.bind_eq_some_iff.mp hs'
    exact (ih (h.2 s₁ hs₁)).2 s' hrest

/-- Every step is made in a state that satisfies the invariant, under the condition. -/
theorem AllSteps.invariant_at {I : S → Prop} (hstep : ∀ s a s', I s → condition s a → step s a = some s' → I s')
    {first rest : List A} {a : A} {s s' : S} (hs : I s) (hall : AllSteps step condition s (first ++ a :: rest))
    (hexec : exec step s first = some s') : I s' ∧ condition s' a := by
  obtain ⟨hfirst, hrest⟩ := hall.append
  exact ⟨exec_invariant hstep hs hfirst hexec, (hrest s' hexec).1⟩

/-- What the invariant and the condition imply holds before each step. -/
theorem AllSteps.imp {I : S → Prop} {condition' : S → A → Prop}
    (hstep : ∀ s a s', I s → condition s a → step s a = some s' → I s')
    (h : ∀ s a, I s → condition s a → condition' s a) {schedule : List A} {s : S} (hs : I s)
    (hall : AllSteps step condition s schedule) : AllSteps step condition' s schedule := by
  induction schedule generalizing s with
  | nil => trivial
  | cons a schedule ih =>
    exact ⟨h s a hs hall.1, fun s' hs' => ih (hstep s a s' hs hall.1 hs') (hall.2 s' hs')⟩

/-- Steps that never block. -/
theorem exec_total (f : S → A → S) (s : S) (schedule : List A) :
    exec (fun s a => some (f s a)) s schedule = some (schedule.foldl f s) := by
  induction schedule generalizing s with
  | nil => rfl
  | cons a schedule ih => exact ih (f s a)

/-- The rule for steps that never block. -/
theorem foldl_invariant {f : S → A → S} {I : S → Prop} (hstep : ∀ s a, I s → condition s a → I (f s a))
    {schedule : List A} {s : S} (hs : I s) (hall : AllSteps (fun s a => some (f s a)) condition s schedule) :
    I (schedule.foldl f s) := by
  refine exec_invariant (fun s a s' hs ha hs' => ?_) hs hall (exec_total f s schedule)
  cases hs'
  exact hstep s a hs ha

/-- A property that each step keeps exactly under a condition holds all along a run exactly if every step meets it. -/
theorem foldl_always_iff {f : S → A → S} {I : S → Prop} (hstep : ∀ s a, I s → (I (f s a) ↔ condition s a)) :
    ∀ (schedule : List A) (s : S), (∀ n, I ((schedule.take n).foldl f s)) ↔
      I s ∧ AllSteps (fun s a => some (f s a)) condition s schedule
  | [], s => by simp [AllSteps]
  | a :: schedule, s => by
    have ih := foldl_always_iff hstep schedule (f s a)
    constructor
    · intro h
      have hs : I s := h 0
      obtain ⟨hnext, hrest⟩ := ih.mp fun n => h (n + 1)
      refine ⟨hs, (hstep s a hs).mp hnext, fun s' hs' => ?_⟩
      cases hs'
      exact hrest
    · rintro ⟨hs, ha, hrest⟩ n
      cases n with
      | zero => exact hs
      | succ n => exact ih.mpr ⟨(hstep s a hs).mpr ha, hrest (f s a) rfl⟩ n

end Exec

/-! ## Locks -/

/-- Who holds each lock. -/
abbrev Locks (κ : Type) := κ → Option Nat

namespace Locks

variable {κ : Type} [DecidableEq κ] {locks : Locks κ} {x y : κ} {owner other : Nat}

/-- Take a lock. -/
def acquire (locks : Locks κ) (x : κ) (owner : Nat) : Locks κ := Function.update locks x (some owner)

/-- Give back all locks of an owner. -/
def release (locks : Locks κ) (owner : Nat) : Locks κ := fun x => if locks x = some owner then none else locks x

@[simp] theorem acquire_self (locks : Locks κ) (x : κ) (owner : Nat) : locks.acquire x owner x = some owner :=
  Function.update_self ..

/-- A lock that was free is nobody else's. -/
theorem held_acquire (hfree : locks y = none) (h : locks x = some other) : locks.acquire y owner x = some other := by
  have hne : x ≠ y := by
    rintro rfl
    rw [hfree] at h
    cases h
  rwa [acquire, Function.update_of_ne hne]

omit [DecidableEq κ] in
theorem held_release (hne : other ≠ owner) (h : locks x = some other) : locks.release owner x = some other := by
  have howner : ¬ locks x = some owner := by
    rw [h]
    exact fun e => hne (Option.some.inj e)
  rw [release, if_neg howner, h]

end Locks

/-! ## Logs -/

section Since

variable {E : Type} {p q : E → Prop}

/-- Some event of the log satisfies `q`, and all later ones satisfy `p`; the newest event comes first. -/
def Since (p q : E → Prop) : List E → Prop
  | [] => False
  | e :: log => q e ∨ p e ∧ Since p q log

instance decidableSince [DecidablePred p] [DecidablePred q] : ∀ log : List E, Decidable (Since p q log)
  | [] => inferInstanceAs (Decidable False)
  | e :: log =>
    have : Decidable (Since p q log) := decidableSince log
    inferInstanceAs (Decidable (q e ∨ p e ∧ Since p q log))

/-- The event, with what came after it and before it. -/
theorem since_iff {log : List E} :
    Since p q log ↔ ∃ later e earlier, log = later ++ e :: earlier ∧ q e ∧ ∀ e' ∈ later, p e' := by
  induction log with
  | nil =>
    refine iff_of_false id ?_
    rintro ⟨later, e, earlier, heq, -⟩
    cases later <;> cases heq
  | cons a log ih =>
    constructor
    · rintro (hq | ⟨hp, hsince⟩)
      · exact ⟨[], a, log, rfl, hq, fun _ h => absurd h List.not_mem_nil⟩
      · obtain ⟨later, e, earlier, rfl, hq, hlater⟩ := ih.mp hsince
        exact ⟨a :: later, e, earlier, rfl, hq, List.forall_mem_cons.mpr ⟨hp, hlater⟩⟩
    · rintro ⟨later, e, earlier, heq, hq, hlater⟩
      cases later with
      | nil =>
        cases heq
        exact .inl hq
      | cons b later =>
        cases heq
        obtain ⟨hp, hlater⟩ := List.forall_mem_cons.mp hlater
        exact .inr ⟨hp, ih.mpr ⟨later, e, earlier, rfl, hq, hlater⟩⟩

theorem since_cons {e : E} {log : List E} (hq : ¬ q e) : Since p q (e :: log) ↔ p e ∧ Since p q log := or_iff_right hq

end Since

end Washing
