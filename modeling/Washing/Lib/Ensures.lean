import Washing.Lib.Sql

/-!
# Postconditions of fallible computations

`Ensures x Q` says that every value which `x` returns satisfies `Q`; nothing is said about errors. `Raises x E` says
that every error which `x` raises satisfies `E`; nothing is said about values. `Agrees R x y` says that both raise the
same error, or return values that `R` relates. The rules follow the constructs of a `do` block: a sequence is proved
step by step (`Ensures.bind`, `Raises.bind`, `Agrees.bind`), a guard gives its condition to what follows
(`Ensures.guard`).
-/

namespace Washing

variable {ε α β : Type}

/-- Every returned value satisfies the postcondition. -/
def Ensures (x : Except ε α) (Q : α → Prop) : Prop := ∀ a, x = .ok a → Q a

namespace Ensures

variable {x : Except ε α} {Q R : α → Prop}

theorem ok {a : α} (h : Q a) : Ensures (.ok a : Except ε α) Q := fun _ hb => Except.ok.inj hb ▸ h

theorem error (e : ε) : Ensures (.error e) Q := fun _ h => by cases h

theorem pure {a : α} (h : Q a) : Ensures (Pure.pure a : Except ε α) Q := ok h

theorem mono (hx : Ensures x Q) (h : ∀ a, Q a → R a) : Ensures x R := fun a ha => h a (hx a ha)

/-- A step, and then the rest from what the step ensures. -/
theorem bind {f : α → Except ε β} {P : β → Prop} (hx : Ensures x Q) (hf : ∀ a, Q a → Ensures (f a) P) :
    Ensures (x >>= f) P := by
  rintro b hb
  obtain ⟨a, ha, hrest⟩ := bind_ok_iff.mp hb
  exact hf a (hx a ha) b hrest

/-- A step of whose value nothing need be known. -/
theorem skip {f : α → Except ε β} {P : β → Prop} (hf : ∀ a, Ensures (f a) P) : Ensures (x >>= f) P := by
  intro b hb
  obtain ⟨a, -, hrest⟩ := bind_ok_iff.mp hb
  exact hf a b hrest

theorem map {f : α → β} {P : β → Prop} (hx : Ensures x fun a => P (f a)) : Ensures (x.map f) P := by
  intro b hb
  cases x with
  | error e => cases hb
  | ok a =>
    cases hb
    exact hx a rfl

/-- A guard that raises. -/
theorem guard {c : Prop} [Decidable c] {e : ε} (hx : ¬ c → Ensures x Q) : Ensures (if c then .error e else x) Q := by
  split_ifs with h
  · exact error e
  · exact hx h

/-- A guard that must hold to go on. -/
theorem require {c : Prop} [Decidable c] {e : ε} (hx : c → Ensures x Q) : Ensures (if c then x else .error e) Q := by
  split_ifs with h
  · exact hx h
  · exact error e

end Ensures

/-- Every raised error satisfies the condition. -/
def Raises (x : Except ε α) (E : ε → Prop) : Prop := ∀ e, x = .error e → E e

namespace Raises

variable {x : Except ε α} {E : ε → Prop}

theorem ok (a : α) : Raises (.ok a) E := fun _ h => by cases h

theorem error {e : ε} (h : E e) : Raises (.error e : Except ε α) E := fun _ he => Except.error.inj he ▸ h

theorem bind {f : α → Except ε β} (hx : Raises x E) (hf : ∀ a, Raises (f a) E) : Raises (x >>= f) E := by
  intro e he
  cases x with
  | error e' =>
    cases he
    exact hx _ rfl
  | ok a => exact hf a e he

theorem map {f : α → β} (hx : Raises x E) : Raises (x.map f) E := by
  intro e he
  cases x with
  | error e' =>
    cases he
    exact hx _ rfl
  | ok a => cases he

/-- Both branches of a guard. -/
theorem ite {c : Prop} [Decidable c] {y : Except ε α} (hx : Raises x E) (hy : Raises y E) :
    Raises (if c then x else y) E := by
  split_ifs
  · exact hx
  · exact hy

end Raises

/-- Both raise the same error, or both return and the values are related. -/
def Agrees {γ : Type} (R : α → γ → Prop) : Except ε α → Except ε γ → Prop
  | .ok a, .ok c => R a c
  | .error e, .error e' => e = e'
  | _, _ => False

namespace Agrees

variable {γ δ : Type} {R : α → γ → Prop} {Q : β → δ → Prop} {x : Except ε α} {y : Except ε γ}

theorem mono {R' : α → γ → Prop} (h : Agrees R x y) (hR : ∀ a c, R a c → R' a c) : Agrees R' x y := by
  cases x with
  | error e =>
    cases y with
    | error e' => exact h
    | ok c => exact h
  | ok a =>
    cases y with
    | error e' => exact h
    | ok c => exact hR a c h

theorem bind {f : α → Except ε β} {g : γ → Except ε δ} (h : Agrees R x y)
    (hrest : ∀ a c, R a c → Agrees Q (f a) (g c)) : Agrees Q (x >>= f) (y >>= g) := by
  cases x with
  | error e =>
    cases y with
    | error e' => exact h
    | ok c => exact h.elim
  | ok a =>
    cases y with
    | error e' => exact h.elim
    | ok c => exact hrest a c h

/-- The same computation, with what it returns. -/
theorem same (x : Except ε α) : Agrees (fun a c => a = c ∧ x = .ok a) x x := by
  cases x with
  | error e => exact rfl
  | ok a => exact ⟨rfl, rfl⟩

/-- A guard that raises the same in both. -/
theorem guard {c c' : Prop} [Decidable c] [Decidable c'] {e : ε} (hc : c ↔ c') (h : ¬ c → Agrees R x y) :
    Agrees R (if c then .error e else x) (if c' then .error e else y) := by
  by_cases hx : c
  · rw [if_pos hx, if_pos (hc.mp hx)]
    exact rfl
  · rw [if_neg hx, if_neg fun h' => hx (hc.mpr h')]
    exact h hx

theorem eq {z : Except ε α} (h : Agrees (fun a c => a = c) x z) : x = z := by
  cases x with
  | error e =>
    cases z with
    | error e' => exact congrArg Except.error h
    | ok c => exact h.elim
  | ok a =>
    cases z with
    | error e' => exact h.elim
    | ok c => exact congrArg Except.ok h

end Agrees

/-- A list of computations that return. -/
theorem mapM_returns {f : α → Except ε β} {l : List α} (h : ∀ a ∈ l, ∃ b, f a = .ok b) : ∃ bs, l.mapM f = .ok bs := by
  induction l with
  | nil => exact ⟨[], rfl⟩
  | cons a l ih =>
    obtain ⟨b, hb⟩ := h a List.mem_cons_self
    obtain ⟨bs, hbs⟩ := ih fun a' ha' => h a' (List.mem_cons_of_mem a ha')
    exact ⟨b :: bs, by rw [List.mapM_cons, hb, hbs]; rfl⟩

end Washing
