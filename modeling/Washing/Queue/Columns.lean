import Washing.Db.Models
import Washing.Security.TaskResult

/-!
# The columns of the task history

A row of `celery_task_executions` holds texts of bounded length, a number and a JSONB value, and nothing checks
beforehand whether its columns can hold what the handlers write (`TaskExecution.Fits`). A sanitized result is stored
exactly when every leaf that is left of the return value can be (`jsonb_result_iff`).
-/

namespace Washing

/-! ## JSONB -/

/-- How many digits of an integer `json.dumps` writes. -/
def maxIntDigits : Nat := 4300

/-- The key is a text that PostgreSQL reads; results have no other keys. -/
def PyKey.jsonb : PyKey → Bool
  | .str s => decide (FitsText s)
  | .other _ => false

mutual

/-- A column of type `JSONB` can hold the value: `json.dumps` writes it, and PostgreSQL reads what it wrote. -/
def PyValue.jsonb : PyValue → Bool
  | .none | .bool _ => true
  | .int n => decide (n.natAbs < 10 ^ maxIntDigits)
  | .float repr => decide (FiniteRepr repr)
  | .str s => decide (FitsText s)
  | .mapping items => jsonbItems items
  | .sequence items => jsonbElements items
  | .bytes _ | .datetime _ | .object _ => false

def jsonbItems : List (PyKey × PyValue) → Bool
  | [] => true
  | (key, item) :: items => key.jsonb && item.jsonb && jsonbItems items

def jsonbElements : List PyValue → Bool
  | [] => true
  | item :: items => item.jsonb && jsonbElements items

end

theorem jsonbItems_iff : ∀ items : PyDict, jsonbItems items = true ↔ ∀ e ∈ items, e.1.jsonb = true ∧ e.2.jsonb = true
  | [] => by simp [jsonbItems]
  | (key, item) :: items => by
    rw [jsonbItems, Bool.and_eq_true, Bool.and_eq_true, jsonbItems_iff items, List.forall_mem_cons]

theorem jsonbElements_iff : ∀ items : List PyValue, jsonbElements items = true ↔ ∀ v ∈ items, v.jsonb = true
  | [] => by simp [jsonbElements]
  | item :: items => by
    rw [jsonbElements, Bool.and_eq_true, jsonbElements_iff items, List.forall_mem_cons]

/-- The keys on the allowlist are no obstacle. -/
theorem jsonb_mapping {items : PyDict} (hkeys : AllowedKeys items) :
    (PyValue.mapping items).jsonb = true ↔ ∀ e ∈ items, e.2.jsonb = true := by
  have hsafe : ∀ s ∈ safeTaskResultKeys, FitsText s := by decide
  have hkey : ∀ e ∈ items, e.1.jsonb = true := by
    intro e he
    obtain ⟨s, hs, hkey⟩ := hkeys.safe e he
    rw [hkey]
    exact decide_eq_true (hsafe s hs)
  rw [PyValue.jsonb, jsonbItems_iff]
  exact forall₂_congr fun e he => and_iff_right (hkey e he)

/-- A leaf of a return value that is stored in its sanitized form: a number with few enough digits, a finite one, or
something with a text that has no zero character. -/
def PyValue.Plain : PyValue → Prop
  | .float repr => FiniteRepr repr
  | .int n => n.natAbs < 10 ^ maxIntDigits
  | .str text | .bytes text | .datetime text | .object text => FitsText text
  | .none | .bool _ | .mapping _ | .sequence _ => True

theorem jsonb_leaf {w : PyValue} (hleaf : w.IsLeaf) : (sanitizeJsonValue w).jsonb = true ↔ w.Plain := by
  cases w with
  | none | bool => exact iff_of_true rfl trivial
  | int | float | str | bytes | datetime | object =>
    all_goals simp only [sanitizeJsonValue, PyValue.jsonb, PyValue.Plain, decide_eq_true_iff]
  | mapping items => cases hleaf.1
  | sequence items => cases hleaf.2

/-- A sanitized result is stored exactly when every leaf that is left of the value can be. -/
theorem jsonb_result_iff (v : PyValue) :
    (resultValue (sanitizeTaskResult v)).jsonb = true ↔ ∀ w, Kept w v → w.Plain := by
  have hsequence : ∀ items, (PyValue.sequence items).jsonb = true ↔ ∀ v ∈ items, v.jsonb = true := by
    intro items
    rw [PyValue.jsonb, jsonbElements_iff]
  rw [result_iff (Q := fun v => v.jsonb = true) rfl (fun _ => jsonb_mapping) hsequence]
  constructor
  · intro h w hkept
    cases w with
    | mapping items => trivial
    | sequence items => trivial
    | _ => exact (jsonb_leaf ⟨rfl, rfl⟩).mp (h _ hkept ⟨rfl, rfl⟩)
  · exact fun h w hkept hleaf => (jsonb_leaf hleaf).mpr (h w hkept)

/-! ## Rows -/

/-- The columns of `celery_task_executions` besides the primary key. -/
structure TaskExecution where
  taskId : String
  taskName : String
  status : String
  resourceType : Option String
  resourceId : Option Int
  queuedAt : Time
  startedAt : Option Time
  finishedAt : Option Time
  durationSeconds : Option ℚ
  result : Option PyDict
  error : Option String

/-- The columns can hold the row. -/
structure TaskExecution.Fits (e : TaskExecution) : Prop where
  taskId : FitsVarchar 255 e.taskId
  taskName : FitsVarchar 255 e.taskName
  status : FitsVarchar 32 e.status
  resourceType : ∀ t ∈ e.resourceType, FitsVarchar 64 t
  resourceId : ∀ n ∈ e.resourceId, FitsInteger n
  result : (resultValue e.result).jsonb = true
  error : ∀ m ∈ e.error, FitsText m

theorem TaskExecution.fits_iff (e : TaskExecution) : e.Fits ↔ FitsVarchar 255 e.taskId ∧ FitsVarchar 255 e.taskName ∧
    FitsVarchar 32 e.status ∧ (∀ t ∈ e.resourceType, FitsVarchar 64 t) ∧ (∀ n ∈ e.resourceId, FitsInteger n) ∧
    (resultValue e.result).jsonb = true ∧ ∀ m ∈ e.error, FitsText m := by
  constructor
  · exact fun h => ⟨h.taskId, h.taskName, h.status, h.resourceType, h.resourceId, h.result, h.error⟩
  · rintro ⟨h₁, h₂, h₃, h₄, h₅, h₆, h₇⟩
    exact ⟨h₁, h₂, h₃, h₄, h₅, h₆, h₇⟩

instance (e : TaskExecution) : Decidable e.Fits := decidable_of_iff _ e.fits_iff.symm

end Washing
