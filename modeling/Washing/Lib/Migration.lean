import Washing.Lib.Sql

/-!
# Migrations

A table is a schema (columns, constraints, indexes) with rows that satisfy it. A migration is a list of changes: a
constraint can be dropped, a column can be dropped, and a constraint can be created, which is refused when the rows
present at that moment violate it. Whether a migration goes through splits into a question about the schema alone and
one question about the original rows for each constraint that it creates (`run_ok_iff`); a migration that goes through
leaves a table that satisfies its new schema (`Valid.run`).
-/

namespace Washing

/-- A row: a value for every column, `none` for `NULL`. -/
abbrev Tuple (C V : Type) := C → Option V

/-- The values of boolean columns among the values. -/
class SqlTruth (V : Type) where
  truth : V → Cond

namespace Migration

variable {C V : Type} [DecidableEq C]

/-! ## Constraints -/

/-- The conditions of check constraints and partial indexes. -/
inductive Condition (C : Type)
  | column (c : C)
  | isNull (c : C)
  | isNotNull (c : C)
  | eq (c d : C)
  | not (p : Condition C)
  | and (p q : Condition C)
  | or (p q : Condition C)
  deriving DecidableEq, Repr

namespace Condition

/-- The value of a condition on a row. -/
def eval [DecidableEq V] [SqlTruth V] (r : Tuple C V) : Condition C → Cond
  | column c => (r c).bind SqlTruth.truth
  | isNull c => Cond.isNull (r c)
  | isNotNull c => Cond.isNotNull (r c)
  | eq c d => Cond.eq (r c) (r d)
  | not p => (p.eval r).map Bool.not
  | and p q => Cond.and (p.eval r) (q.eval r)
  | or p q => Cond.or (p.eval r) (q.eval r)

/-- The columns that a condition reads. -/
def columns : Condition C → List C
  | column c | isNull c | isNotNull c => [c]
  | eq c d => [c, d]
  | not p => p.columns
  | and p q | or p q => p.columns ++ q.columns

end Condition

/-- A constraint or an index: `CHECK`, `UNIQUE` (a primary key, or partial with a condition), or a plain index. -/
inductive Constraint (C : Type)
  | check (p : Condition C)
  | unique (key : List C) (where_ : Option (Condition C))
  | index (key : List C)
  deriving DecidableEq, Repr

/-- Two rows with the same key; a `NULL` differs from everything. -/
def SameKey (key : List C) (r s : Tuple C V) : Prop := ∀ c ∈ key, r c = s c ∧ r c ≠ none

instance [DecidableEq V] (key : List C) (r s : Tuple C V) : Decidable (SameKey key r s) :=
  inferInstanceAs (Decidable (∀ c ∈ key, r c = s c ∧ r c ≠ none))

variable [DecidableEq V] [SqlTruth V]

/-- The rows of a partial index. -/
def selected (where_ : Option (Condition C)) (r : Tuple C V) : Bool := where_.all fun p => (p.eval r).isTrue

namespace Constraint

/-- The rows satisfy the constraint: a check that is unknown is satisfied. -/
def Holds (rows : List (Tuple C V)) : Constraint C → Prop
  | check p => ∀ r ∈ rows, p.eval r ≠ some false
  | unique key where_ => (rows.filter (selected where_)).Pairwise fun r s => ¬ SameKey key r s
  | index _ => True

instance (rows : List (Tuple C V)) : (k : Constraint C) → Decidable (k.Holds rows)
  | check p => inferInstanceAs (Decidable (∀ r ∈ rows, p.eval r ≠ some false))
  | unique key where_ =>
    inferInstanceAs (Decidable ((rows.filter (selected where_)).Pairwise fun r s => ¬ SameKey key r s))
  | index _ => inferInstanceAs (Decidable True)

/-- The columns that a constraint reads. -/
def columns : Constraint C → List C
  | check p => p.columns
  | unique key where_ => key ++ where_.elim [] Condition.columns
  | index key => key

end Constraint

/-! ## Tables and changes -/

/-- A column: whether it is nullable, and the values of its type. -/
structure Column (C V : Type) where
  name : C
  nullable : Bool
  admits : V → Bool

structure Schema (C V : Type) where
  columns : List (Column C V)
  constraints : List (String × Constraint C)

structure SqlTable (C V : Type) where
  schema : Schema C V
  rows : List (Tuple C V)

/-- A value that a column can hold. -/
def Column.Holds (column : Column C V) : Option V → Prop
  | none => column.nullable = true
  | some v => column.admits v = true

instance (column : Column C V) : (v : Option V) → Decidable (column.Holds v)
  | none => inferInstanceAs (Decidable (column.nullable = true))
  | some v => inferInstanceAs (Decidable (column.admits v = true))

/-- The rows satisfy the schema. -/
structure SqlTable.Valid (t : SqlTable C V) : Prop where
  typed : ∀ r ∈ t.rows, ∀ column ∈ t.schema.columns, column.Holds (r column.name)
  constrained : ∀ k ∈ t.schema.constraints, k.2.Holds t.rows

inductive Change (C : Type)
  | drop (name : String)
  | dropColumn (c : C)
  | create (name : String) (constraint : Constraint C)
  deriving DecidableEq, Repr

inductive DdlError (C : Type)
  | undefinedObject (name : String)
  | undefinedColumn (c : C)
  | duplicateObject (name : String)
  | violated (name : String)
  deriving DecidableEq, Repr

/-- A row without the value of a column. -/
def forget (c : C) (r : Tuple C V) : Tuple C V := Function.update r c none

/-- What a change makes of the schema. The constraints that read a dropped column go with it. -/
def Schema.apply (s : Schema C V) : Change C → Except (DdlError C) (Schema C V)
  | .drop name =>
    if name ∈ s.constraints.map Prod.fst then
      .ok { s with constraints := s.constraints.filter fun k => k.1 ≠ name }
    else .error (.undefinedObject name)
  | .dropColumn c =>
    if c ∈ s.columns.map Column.name then
      .ok ⟨s.columns.filter fun column => column.name ≠ c, s.constraints.filter fun k => c ∉ k.2.columns⟩
    else .error (.undefinedColumn c)
  | .create name k =>
    if name ∈ s.constraints.map Prod.fst then .error (.duplicateObject name)
    else
      match k.columns.find? (· ∉ s.columns.map Column.name) with
      | some c => .error (.undefinedColumn c)
      | none => .ok { s with constraints := s.constraints ++ [(name, k)] }

/-- What a change makes of the rows. -/
def Change.onRows (rows : List (Tuple C V)) : Change C → Except (DdlError C) (List (Tuple C V))
  | .drop _ => .ok rows
  | .dropColumn c => .ok (rows.map (forget c))
  | .create name k => if k.Holds rows then .ok rows else .error (.violated name)

/-- One change of a table. -/
def SqlTable.apply (t : SqlTable C V) (change : Change C) : Except (DdlError C) (SqlTable C V) := do
  let schema ← t.schema.apply change
  let rows ← change.onRows t.rows
  .ok ⟨schema, rows⟩

/-- A whole migration. -/
def SqlTable.run (t : SqlTable C V) (changes : List (Change C)) : Except (DdlError C) (SqlTable C V) :=
  changes.foldlM SqlTable.apply t

def Schema.run (s : Schema C V) (changes : List (Change C)) : Except (DdlError C) (Schema C V) :=
  changes.foldlM Schema.apply s

/-- The columns that a migration drops. -/
def dropped : List (Change C) → List C
  | [] => []
  | .dropColumn c :: changes => c :: dropped changes
  | .drop _ :: changes | .create _ _ :: changes => dropped changes

/-- The constraints that a migration creates. -/
def created : List (Change C) → List (Constraint C)
  | [] => []
  | .create _ k :: changes => k :: created changes
  | .drop _ :: changes | .dropColumn _ :: changes => created changes

/-- A row without the values of the columns. -/
def forgetAll (columns : List C) (r : Tuple C V) : Tuple C V := fun c => if c ∈ columns then none else r c

/-! ## Changes of the schema -/

section Schema

variable {C V : Type} [DecidableEq C]

@[simp] theorem Schema.run_nil (s : Schema C V) : s.run [] = .ok s := rfl

theorem Schema.run_cons {s s' : Schema C V} {change : Change C} {changes : List (Change C)} :
    s.run (change :: changes) = .ok s' ↔ ∃ s₁, s.apply change = .ok s₁ ∧ s₁.run changes = .ok s' := by
  rw [run, List.foldlM_cons]
  exact bind_ok_iff

/-- A column that is there after a change was there before, and was not dropped. -/
theorem Schema.apply_columns {s s' : Schema C V} {change : Change C} (h : s.apply change = .ok s') :
    s'.columns ⊆ s.columns ∧ ∀ c, change = .dropColumn c → c ∉ s'.columns.map Column.name := by
  cases change with
  | drop name =>
    simp only [apply] at h
    split_ifs at h
    cases h
    exact ⟨List.Subset.refl _, fun _ hc => by cases hc⟩
  | dropColumn c =>
    simp only [apply] at h
    split_ifs at h
    cases h
    refine ⟨fun _ hcolumn => List.mem_of_mem_filter hcolumn, fun d hd => ?_⟩
    cases hd
    simp
  | create name k =>
    simp only [apply] at h
    split_ifs at h
    split at h
    · cases h
    · cases h
      exact ⟨List.Subset.refl _, fun _ hc => by cases hc⟩

/-- A created constraint reads columns of the table. -/
theorem Schema.create_columns {s s' : Schema C V} {name : String} {k : Constraint C}
    (h : s.apply (.create name k) = .ok s') : ∀ c ∈ k.columns, c ∈ s.columns.map Column.name := by
  simp only [apply] at h
  split_ifs at h
  split at h
  · cases h
  · next hfind =>
    intro c hc
    simpa using List.find?_eq_none.mp hfind c hc

theorem Schema.created_columns {changes : List (Change C)} {s s' : Schema C V} (h : s.run changes = .ok s') :
    ∀ k ∈ created changes, ∀ c ∈ k.columns, c ∈ s.columns.map Column.name := by
  induction changes generalizing s with
  | nil => simp [created]
  | cons change changes ih =>
    obtain ⟨s₁, happly, hrun⟩ := run_cons.mp h
    have hsub := List.map_subset Column.name (apply_columns happly).1
    have hrest : ∀ k ∈ created changes, ∀ c ∈ k.columns, c ∈ s.columns.map Column.name :=
      fun k hk c hc => hsub (ih hrun k hk c hc)
    cases change with
    | drop name | dropColumn c => exact hrest
    | create name k =>
      intro k' hk'
      obtain rfl | hk' := List.mem_cons.mp hk'
      · exact create_columns happly
      · exact hrest k' hk'

@[simp] theorem forget_of_ne {c d : C} (h : d ≠ c) (r : Tuple C V) : forget c r d = r d := Function.update_of_ne h _ _

theorem forgetAll_nil : (forgetAll [] : Tuple C V → Tuple C V) = id := by
  funext r c
  simp [forgetAll]

theorem forgetAll_cons (c : C) (columns : List C) :
    (forgetAll (c :: columns) : Tuple C V → Tuple C V) = forgetAll columns ∘ forget c := by
  funext r d
  by_cases hd : d = c
  · simp [forgetAll, forget, hd]
  · simp [forgetAll, hd]

theorem forgetAll_dropped_cons (change : Change C) (changes : List (Change C)) :
    (forgetAll (dropped (change :: changes)) : Tuple C V → Tuple C V) =
      forgetAll (dropped changes) ∘ forgetAll (dropped [change]) := by
  cases change <;> simp [dropped, forgetAll_cons, forgetAll_nil]

theorem created_cons {C : Type} (change : Change C) (changes : List (Change C)) :
    created (change :: changes) = created [change] ++ created changes := by
  cases change <;> rfl

theorem sameKey_forget {c : C} {key : List C} (h : c ∉ key) (r s : Tuple C V) :
    SameKey key (forget c r) (forget c s) ↔ SameKey key r s := by
  refine forall₂_congr fun d hd => ?_
  have hne : d ≠ c := fun he => h (he ▸ hd)
  rw [forget_of_ne hne, forget_of_ne hne]

end Schema

/-! ## Changes of the rows -/

omit [DecidableEq C] in
/-- A constraint that is not partial is about all rows. -/
@[simp] theorem Constraint.holds_unique_none (key : List C) (rows : List (Tuple C V)) :
    (unique key none).Holds rows ↔ rows.Pairwise fun r s => ¬ SameKey key r s := by
  have hall : rows.filter (selected none) = rows := List.filter_eq_self.mpr fun _ _ => rfl
  rw [Holds, hall]

theorem Condition.eval_forget {c : C} {p : Condition C} (h : c ∉ p.columns) (r : Tuple C V) :
    p.eval (forget c r) = p.eval r := by
  induction p with
  | column d | isNull d | isNotNull d =>
    have hd : d ≠ c := fun he => h (by simp [columns, he])
    simp [eval, hd]
  | eq d e =>
    have hd : d ≠ c := fun he => h (by simp [columns, he])
    have he : e ≠ c := fun he => h (by simp [columns, he])
    simp [eval, hd, he]
  | not p ih => simp only [eval, ih h]
  | and p q ihp ihq | or p q ihp ihq =>
    obtain ⟨hp, hq⟩ := not_or.mp fun ho => h (List.mem_append.mpr ho)
    simp only [eval, ihp hp, ihq hq]

/-- A constraint does not depend on the columns that it does not read. -/
theorem Constraint.holds_forget {c : C} {k : Constraint C} (h : c ∉ k.columns) (rows : List (Tuple C V)) :
    k.Holds (rows.map (forget c)) ↔ k.Holds rows := by
  cases k with
  | check p =>
    have hp : c ∉ p.columns := h
    simp [Holds, Condition.eval_forget hp]
  | unique key where_ =>
    obtain ⟨hkey, hwhere⟩ := not_or.mp fun ho => h (List.mem_append.mpr ho)
    have hselected : (selected where_ ∘ forget c : Tuple C V → Bool) = selected where_ := by
      funext r
      cases where_ with
      | none => rfl
      | some p =>
        have hp : c ∉ p.columns := hwhere
        simp [selected, Condition.eval_forget hp]
    simp only [Holds, List.filter_map, hselected, List.pairwise_map, sameKey_forget hkey]
  | index key => exact Iff.rfl

/-- One change of the rows: the constraint that it creates must hold, and the column that it drops is lost. -/
theorem Change.onRows_ok_iff {change : Change C} {rows rows' : List (Tuple C V)} :
    change.onRows rows = .ok rows' ↔
      (∀ k ∈ created [change], k.Holds rows) ∧ rows' = rows.map (forgetAll (dropped [change])) := by
  cases change with
  | drop name => simp [onRows, created, dropped, forgetAll_nil, eq_comm]
  | dropColumn c => simp [onRows, created, dropped, forgetAll_nil, forgetAll_cons, eq_comm]
  | create name k =>
    by_cases hk : k.Holds rows
    · simp [onRows, created, dropped, forgetAll_nil, hk, eq_comm]
    · simp [onRows, created, hk]

/-- A change of the rows does not matter to a constraint on columns that the table still has. -/
theorem Constraint.holds_onRows {s s' : Schema C V} {change : Change C} (hs : s.apply change = .ok s')
    {rows rows' : List (Tuple C V)} (hrows : change.onRows rows = .ok rows') {k : Constraint C}
    (hk : ∀ c ∈ k.columns, c ∈ s'.columns.map Column.name) : k.Holds rows' ↔ k.Holds rows := by
  cases change with
  | drop name =>
    cases hrows
    exact Iff.rfl
  | dropColumn c =>
    cases hrows
    exact holds_forget (fun hc => (Schema.apply_columns hs).2 c rfl (hk c hc)) rows
  | create name k' =>
    obtain ⟨-, rfl⟩ := Change.onRows_ok_iff.mp hrows
    simp [dropped, forgetAll_nil]

/-! ## Migrations -/

@[simp] theorem SqlTable.run_nil (t : SqlTable C V) : t.run [] = .ok t := rfl

theorem SqlTable.run_cons {t t' : SqlTable C V} {change : Change C} {changes : List (Change C)} :
    t.run (change :: changes) = .ok t' ↔ ∃ t₁, t.apply change = .ok t₁ ∧ t₁.run changes = .ok t' := by
  rw [run, List.foldlM_cons]
  exact bind_ok_iff

/-- A change goes through when the schema and the rows allow it. -/
theorem SqlTable.apply_ok_iff {t t' : SqlTable C V} {change : Change C} :
    t.apply change = .ok t' ↔ t.schema.apply change = .ok t'.schema ∧ change.onRows t.rows = .ok t'.rows := by
  unfold apply
  rw [bind_ok_iff]
  constructor
  · rintro ⟨schema, hschema, h⟩
    obtain ⟨rows, hrows, h⟩ := bind_ok_iff.mp h
    cases h
    exact ⟨hschema, hrows⟩
  · rintro ⟨hschema, hrows⟩
    exact ⟨_, hschema, bind_ok_iff.mpr ⟨_, hrows, rfl⟩⟩

/-- A migration goes through exactly when the schema allows it and the original rows satisfy every constraint that it
creates; the rows only lose the dropped columns. -/
theorem SqlTable.run_ok_iff {changes : List (Change C)} {t t' : SqlTable C V} :
    t.run changes = .ok t' ↔ t.schema.run changes = .ok t'.schema ∧ (∀ k ∈ created changes, k.Holds t.rows) ∧
      t'.rows = t.rows.map (forgetAll (dropped changes)) := by
  induction changes generalizing t with
  | nil =>
    obtain ⟨schema, rows⟩ := t
    obtain ⟨schema', rows'⟩ := t'
    simp [created, dropped, forgetAll_nil, eq_comm]
  | cons change changes ih =>
    rw [run_cons, Schema.run_cons, created_cons, forgetAll_dropped_cons, ← List.map_map, List.forall_mem_append]
    constructor
    · rintro ⟨t₁, happly, hrun⟩
      obtain ⟨hschema, hrows⟩ := apply_ok_iff.mp happly
      obtain ⟨hcreate, hmap⟩ := Change.onRows_ok_iff.mp hrows
      obtain ⟨hrun, hcreated, hrest⟩ := ih.mp hrun
      refine ⟨⟨t₁.schema, hschema, hrun⟩, ⟨hcreate, fun k hk => ?_⟩, hmap ▸ hrest⟩
      exact (Constraint.holds_onRows hschema hrows (Schema.created_columns hrun k hk)).mp (hcreated k hk)
    · rintro ⟨⟨s₁, hschema, hrun⟩, ⟨hcreate, hcreated⟩, hrest⟩
      have hrows := Change.onRows_ok_iff.mpr ⟨hcreate, rfl⟩
      refine ⟨⟨s₁, _⟩, apply_ok_iff.mpr ⟨hschema, hrows⟩, ih.mpr ⟨hrun, fun k hk => ?_, hrest⟩⟩
      exact (Constraint.holds_onRows hschema hrows (Schema.created_columns hrun k hk)).mpr (hcreated k hk)

/-- One change leaves a table that satisfies its new schema. -/
theorem SqlTable.Valid.apply {t t' : SqlTable C V} {change : Change C} (ht : t.Valid) (h : t.apply change = .ok t') :
    t'.Valid := by
  obtain ⟨hschema, hrows⟩ := apply_ok_iff.mp h
  obtain ⟨schema', rows'⟩ := t'
  cases change with
  | drop name =>
    cases hrows
    simp only [Schema.apply] at hschema
    split_ifs at hschema
    cases hschema
    exact ⟨ht.typed, fun k hk => ht.constrained k (List.mem_of_mem_filter hk)⟩
  | dropColumn c =>
    cases hrows
    simp only [Schema.apply] at hschema
    split_ifs at hschema
    cases hschema
    refine ⟨fun r hr column hcolumn => ?_, fun k hk => ?_⟩
    · obtain ⟨hmem, hne⟩ := List.mem_filter.mp hcolumn
      obtain ⟨r₀, hr₀, rfl⟩ := List.mem_map.mp hr
      rw [forget_of_ne (of_decide_eq_true hne)]
      exact ht.typed r₀ hr₀ column hmem
    · obtain ⟨hmem, hunread⟩ := List.mem_filter.mp hk
      exact (Constraint.holds_forget (of_decide_eq_true hunread) t.rows).mpr (ht.constrained k hmem)
  | create name k =>
    simp only [Change.onRows] at hrows
    split_ifs at hrows with hholds
    cases hrows
    simp only [Schema.apply] at hschema
    split_ifs at hschema
    split at hschema
    · cases hschema
    · cases hschema
      refine ⟨ht.typed, fun k' hk' => ?_⟩
      obtain hmem | hmem := List.mem_append.mp hk'
      · exact ht.constrained k' hmem
      · cases List.mem_singleton.mp hmem
        exact hholds

/-- A migration that goes through leaves a table that satisfies its new schema. -/
theorem SqlTable.Valid.run {changes : List (Change C)} {t t' : SqlTable C V} (ht : t.Valid)
    (h : t.run changes = .ok t') : t'.Valid := by
  induction changes generalizing t with
  | nil =>
    cases h
    exact ht
  | cons change changes ih =>
    obtain ⟨t₁, happly, hrun⟩ := run_cons.mp h
    exact ih (ht.apply happly) hrun

end Migration

end Washing
