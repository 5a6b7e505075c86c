import Washing.Queue.Tracking

/-!
# Results of tracked tasks

The finish handler stores the sanitized return value of a task, and the read model sanitizes what is stored once more.
Nothing changes the second time, and nothing outside the allowlist gets through (`ReducedResult`). Only numbers that are
not finite pass into the result although they are no JSON values (`reducedResult_iff`).
-/

namespace Washing

/-- `TaskExecutionRead.result`. -/
def TaskExecutionRead.result (stored : Option PyDict) : Option PyDict := sanitizeTaskResult (resultValue stored)

/-- The result of a return value has keys of the allowlist only, depends on nothing under other keys, is a JSON value,
and is shown as it was stored. -/
structure ReducedResult (v : PyValue) : Prop where
  safe : ∀ key, KeyIn key (resultValue (sanitizeTaskResult v)) → ∃ s ∈ safeTaskResultKeys, key = .str s
  unaffected : ∀ w, Relation.EqvGen Edits v w → sanitizeTaskResult w = sanitizeTaskResult v
  json : IsJson (resultValue (sanitizeTaskResult v))
  idempotent : sanitizeTaskResult (resultValue (sanitizeTaskResult v)) = sanitizeTaskResult v
  shown : ∀ (now : Time) (execution : TaskExecution),
    TaskExecutionRead.result (finishExecution "SUCCESS" v now execution).result =
      (finishExecution "SUCCESS" v now execution).result

/-- The result of a return value is as described exactly when the numbers that reach it are finite. -/
theorem reducedResult_iff (v : PyValue) : ReducedResult v ↔ ∀ repr, Kept (.float repr) v → FiniteRepr repr := by
  constructor
  · exact fun h => (isJson_result v).mp h.json
  · intro h
    have htwice := sanitizeTaskResult_twice v
    have hstored : ∀ (now : Time) (execution : TaskExecution),
        (finishExecution "SUCCESS" v now execution).result = sanitizeTaskResult v := fun _ _ => rfl
    refine ⟨fun key => key_of_result, fun w hw => (sanitizeTaskResult_edits hw).symm, (isJson_result v).mpr h, htwice,
      fun now execution => ?_⟩
    rw [hstored]
    exact htwice

/-- A total that is not a number is passed on. -/
theorem nan_passed_on : ¬ ReducedResult (.mapping [(.str "total", .float "nan")]) := by
  intro h
  have hjson : IsJson (.mapping [(.str "total", .float "nan")]) := h.json
  cases hjson with
  | object _ _ hvalues =>
    have hnumber := hvalues (.str "total", .float "nan") List.mem_cons_self
    cases hnumber with
    | number hfinite => exact absurd hfinite (by decide)

end Washing
