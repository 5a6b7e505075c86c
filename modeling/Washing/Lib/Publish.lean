import Washing.Lib.Sql

/-!
# Publishing a list of messages

The jobs publish one message per item of a list, in order, and stop at the first call that raises. `call k a` is the
outcome of the `k`-th call, on the item `a`. The published items are a prefix of the list (`publishAll_isPrefix`), and
the whole of it exactly when no call raised (`publishAll_ok_iff`). `PublishedUntil` says where the prefix ends.
-/

namespace Washing

variable {α : Type}

/-- Publish the items in order until one call raises: the items published, and the exception if there was one. -/
def publishAll (call : Nat → α → Option Exc) : Nat → List α → List α × Option Exc
  | _, [] => ([], none)
  | k, a :: l =>
    match call k a with
    | some e => ([], some e)
    | none => (a :: (publishAll call (k + 1) l).1, (publishAll call (k + 1) l).2)

theorem publishAll_isPrefix (call : Nat → α → Option Exc) : ∀ (k : Nat) (l : List α), (publishAll call k l).1 <+: l
  | _, [] => List.prefix_rfl
  | k, a :: l => by
    unfold publishAll
    cases call k a with
    | some e => exact List.nil_prefix
    | none => exact (List.prefix_cons_inj a).mpr (publishAll_isPrefix call (k + 1) l)

theorem publishAll_ok_iff (call : Nat → α → Option Exc) : ∀ (k : Nat) (l : List α),
    (publishAll call k l).2 = none ↔ (publishAll call k l).1 = l
  | _, [] => by simp [publishAll]
  | k, a :: l => by
    unfold publishAll
    cases call k a with
    | some e => simp
    | none => simpa using publishAll_ok_iff call (k + 1) l

/-- Calls that do not raise publish everything. -/
theorem publishAll_all {call : Nat → α → Option Exc} (h : ∀ k a, call k a = none) : ∀ (k : Nat) (l : List α),
    publishAll call k l = (l, none)
  | _, [] => rfl
  | k, a :: l => by rw [publishAll, h k a, publishAll_all h (k + 1) l]

/-- What a computation raised. -/
def raised {β : Type} : Except Exc β → Option Exc
  | .ok _ => none
  | .error e => some e

/-- The items published, and the exception raised, when the calls are made in order from the `k`-th one on: those before
the first call that raises, and what it raises. -/
def PublishedUntil (call : Nat → α → Option Exc) (k : Nat) (l published : List α) (failure : Option Exc) : Prop :=
  ∃ n ≤ l.length, published = l.take n ∧ (∀ i < n, ∀ a ∈ l[i]?, call (k + i) a = none) ∧
    ((n = l.length ∧ failure = none) ∨ ∃ a ∈ l[n]?, failure = call (k + n) a ∧ failure ≠ none)

theorem publishAll_until (call : Nat → α → Option Exc) : ∀ (k : Nat) (l : List α),
    PublishedUntil call k l (publishAll call k l).1 (publishAll call k l).2
  | _, [] => ⟨0, le_rfl, rfl, nofun, .inl ⟨rfl, rfl⟩⟩
  | k, a :: l => by
    unfold publishAll
    cases hcall : call k a with
    | some e => exact ⟨0, Nat.zero_le _, rfl, nofun, .inr ⟨a, rfl, hcall.symm, nofun⟩⟩
    | none =>
      obtain ⟨n, hn, hpublished, hnone, hend⟩ := publishAll_until call (k + 1) l
      refine ⟨n + 1, Nat.succ_le_succ hn, by rw [hpublished, List.take_succ_cons], ?_, ?_⟩
      · intro i hi b hb
        cases i with
        | zero =>
          cases hb
          exact hcall
        | succ i =>
          rw [show k + (i + 1) = k + 1 + i by omega]
          exact hnone i (Nat.lt_of_succ_lt_succ hi) b hb
      · refine hend.imp (fun ⟨hlast, hraised⟩ => ⟨congrArg Nat.succ hlast, hraised⟩) ?_
        rintro ⟨b, hb, hraised, hsome⟩
        exact ⟨b, hb, by rw [hraised, show k + (n + 1) = k + 1 + n by omega], hsome⟩

/-- Calls that never raise publish everything. -/
theorem PublishedUntil.all {k : Nat} {l published : List α} {failure : Option Exc}
    (h : PublishedUntil (fun _ _ => none) k l published failure) : published = l := by
  obtain ⟨n, -, hpublished, -, ⟨rfl, -⟩ | ⟨a, -, hfailure, hsome⟩⟩ := h
  · rw [hpublished, List.take_length]
  · exact absurd hfailure hsome

end Washing
