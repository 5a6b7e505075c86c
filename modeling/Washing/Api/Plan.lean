import Washing.Api.Resources

/-!
# Plans

A route that writes works on the rows its session loaded: it checks them and changes them in memory, and its only commit
comes last. Its result is an error or a plan: the statement that the commit emits, the answer to an integrity error, and
the representation that is read back for the response.
-/

namespace Washing

/-- The representation that a response is built from. -/
inductive View
  | platform (id : Nat)
  | provider (id : Nat)
  | prometheusProvider (id : Nat)
  | dynatraceProvider (id : Nat)
  | mockProvider (id : Nat)
  | provisioner (id : Nat)
  | capsuleProvisioner (id : Nat)
  | dynatraceProvisioner (id : Nat)
  | mockProvisioner (id : Nat)
  | noContent
  deriving DecidableEq, Repr

/-- What a route does once its checks have passed. Without a change nothing is emitted; `commit_or_409` has a detail for
integrity errors, `db.commit()` has none. -/
structure Plan where
  statement : Option Statement
  conflict : Option String
  view : View
  deriving DecidableEq, Repr

/-- The answer to an error of the commit. -/
def Plan.answer (plan : Plan) (error : DbError) : HttpException :=
  match error, plan.conflict with
  | .integrityError, some detail => ⟨409, detail⟩
  | _, _ => internalServerError

/-- Emit the statement. -/
def Plan.commit (storable : Storable) (plan : Plan) (s : Store) : Except HttpException Store :=
  match plan.statement with
  | none => .ok s
  | some statement =>
    match statement.execute storable s with
    | .ok s' => .ok s'
    | .error e => .error (plan.answer e)

/-- A commit emits the statement or changes nothing. -/
theorem Plan.commit_cases {storable : Storable} {plan : Plan} {s s' : Store} (h : plan.commit storable s = .ok s') :
    (plan.statement = none ∧ s' = s) ∨
      ∃ statement, plan.statement = some statement ∧ statement.execute storable s = .ok s' := by
  unfold commit at h
  cases hstatement : plan.statement with
  | none =>
    rw [hstatement] at h
    exact .inl ⟨rfl, (Except.ok.inj h).symm⟩
  | some statement =>
    simp only [hstatement] at h
    split at h
    · next hexecute =>
      cases h
      exact .inr ⟨statement, rfl, hexecute⟩
    · cases h

end Washing
