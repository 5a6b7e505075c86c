import Mathlib

/-!
# Queries

Conditions of SQL queries are three-valued: a comparison with `NULL` is unknown (`none`), and a `WHERE` clause keeps
the rows whose condition is true (`some true`), not the rows whose condition is not false. The lemmas `*_isTrue` say
when a condition is true; the queries of the models are reasoned about through them and `mem_selectWhere` only.
-/

namespace Washing

/-! ## Exceptions -/

/-- The exception classes the modelled code tells apart. -/
inductive ExcKind
  | valueError
  | jsonDecodeError
  | integrityError
  | dataError
  | multipleResultsFound
  | other (name : String)
  deriving DecidableEq, Repr

/-- A raised exception: its class and its `str()`. -/
structure Exc where
  kind : ExcKind
  str : String
  deriving DecidableEq, Repr

instance {β : Type} [DecidableEq β] : DecidableEq (Except Exc β)
  | .ok a, .ok b => if h : a = b then isTrue (by rw [h]) else isFalse fun e => h (by cases e; rfl)
  | .error a, .error b => if h : a = b then isTrue (by rw [h]) else isFalse fun e => h (by cases e; rfl)
  | .ok _, .error _ => isFalse fun e => by cases e
  | .error _, .ok _ => isFalse fun e => by cases e

/-- The result of a successful bind. -/
theorem bind_ok_iff {ε α β : Type} {x : Except ε α} {f : α → Except ε β} {b : β} :
    (x >>= f) = .ok b ↔ ∃ a, x = .ok a ∧ f a = .ok b := by
  cases x <;> simp [bind, Except.bind]

/-! ## Conditions -/

/-- A condition of a query: true, false or unknown. -/
abbrev Cond := Option Bool

namespace Cond

variable {α : Type}

/-- `x = y`. -/
def eq [DecidableEq α] (x y : Option α) : Cond := x.bind fun a => y.map fun b => decide (a = b)

/-- `x <= y`. -/
def le [LE α] [DecidableRel (α := α) (· ≤ ·)] (x y : Option α) : Cond :=
  x.bind fun a => y.map fun b => decide (a ≤ b)

/-- `x < y`. -/
def lt [LT α] [DecidableRel (α := α) (· < ·)] (x y : Option α) : Cond :=
  x.bind fun a => y.map fun b => decide (a < b)

/-- `x IN l`, for a list without `NULL`. -/
def inList [DecidableEq α] (x : Option α) (l : List α) : Cond := x.map fun a => decide (a ∈ l)

/-- `x IS NULL`. -/
def isNull (x : Option α) : Cond := some x.isNone

/-- `x IS NOT NULL`. -/
def isNotNull (x : Option α) : Cond := some x.isSome

/-- `x IS TRUE` for a column that is never null. -/
def ofBool (b : Bool) : Cond := some b

/-- `p AND q`. -/
def and : Cond → Cond → Cond
  | some false, _ | _, some false => some false
  | some true, some true => some true
  | _, _ => none

/-- `p OR q`. -/
def or : Cond → Cond → Cond
  | some true, _ | _, some true => some true
  | some false, some false => some false
  | _, _ => none

/-- The condition is true, not merely not false. -/
def isTrue (c : Cond) : Bool := c == some true

@[simp] theorem isTrue_eq [DecidableEq α] (x y : Option α) : (eq x y).isTrue ↔ ∃ a, x = some a ∧ y = some a := by
  cases x <;> cases y <;> simp [eq, isTrue, eq_comm]

@[simp] theorem isTrue_le [LE α] [DecidableRel (α := α) (· ≤ ·)] (x y : Option α) :
    (le x y).isTrue ↔ ∃ a b, x = some a ∧ y = some b ∧ a ≤ b := by
  cases x <;> cases y <;> simp [le, isTrue]

@[simp] theorem isTrue_lt [LT α] [DecidableRel (α := α) (· < ·)] (x y : Option α) :
    (lt x y).isTrue ↔ ∃ a b, x = some a ∧ y = some b ∧ a < b := by
  cases x <;> cases y <;> simp [lt, isTrue]

@[simp] theorem isTrue_inList [DecidableEq α] (x : Option α) (l : List α) :
    (inList x l).isTrue ↔ ∃ a ∈ l, x = some a := by
  cases x <;> simp [inList, isTrue]

/-- Comparisons of columns that are never null. -/
@[simp high] theorem isTrue_eq_some [DecidableEq α] (a b : α) : (eq (some a) (some b)).isTrue ↔ a = b := by
  simp [eq, isTrue]

@[simp high] theorem isTrue_le_some [LE α] [DecidableRel (α := α) (· ≤ ·)] (a b : α) :
    (le (some a) (some b)).isTrue ↔ a ≤ b := by
  simp [le, isTrue]

/-- Comparison with a constant. -/
@[simp high] theorem isTrue_eq_const [DecidableEq α] (x : Option α) (b : α) : (eq x (some b)).isTrue ↔ x = some b := by
  cases x <;> simp [eq, isTrue]

@[simp high] theorem isTrue_inList_some [DecidableEq α] (a : α) (l : List α) : (inList (some a) l).isTrue ↔ a ∈ l := by
  simp [inList, isTrue]

@[simp] theorem isTrue_isNull (x : Option α) : (isNull x).isTrue ↔ x = none := by
  cases x <;> simp [isNull, isTrue]

@[simp] theorem isTrue_isNotNull (x : Option α) : (isNotNull x).isTrue ↔ x ≠ none := by
  cases x <;> simp [isNotNull, isTrue]

@[simp] theorem isTrue_ofBool (b : Bool) : (ofBool b).isTrue ↔ b = true := by
  cases b <;> simp [ofBool, isTrue]

@[simp] theorem isTrue_and (p q : Cond) : (and p q).isTrue ↔ p.isTrue ∧ q.isTrue := by
  rcases p with _ | _ | _ <;> rcases q with _ | _ | _ <;> simp [and, isTrue]

@[simp] theorem isTrue_or (p q : Cond) : (or p q).isTrue ↔ p.isTrue ∨ q.isTrue := by
  rcases p with _ | _ | _ <;> rcases q with _ | _ | _ <;> simp [or, isTrue]

end Cond

/-! ## Rows -/

section Rows

variable {α : Type}

/-- `SELECT … WHERE p`. -/
def selectWhere (p : α → Cond) (rows : List α) : List α := rows.filter fun r => (p r).isTrue

@[simp] theorem mem_selectWhere {p : α → Cond} {rows : List α} {r : α} :
    r ∈ selectWhere p rows ↔ r ∈ rows ∧ (p r).isTrue := by simp [selectWhere]

/-- `Query.filter` with a condition on an argument, when the argument is given. -/
def filterGiven {β : Type} (argument : Option β) (p : β → α → Cond) (rows : List α) : List α :=
  match argument with
  | none => rows
  | some b => selectWhere (p b) rows

@[simp] theorem mem_filterGiven {β : Type} {argument : Option β} {p : β → α → Cond} {rows : List α} {r : α} :
    r ∈ filterGiven argument p rows ↔ r ∈ rows ∧ ∀ b ∈ argument, (p b r).isTrue := by
  cases argument <;> simp [filterGiven]

/-- `… JOIN … ON p`. -/
def innerJoin {β : Type} (p : α → β → Cond) (rows : List α) (others : List β) : List (α × β) :=
  rows.flatMap fun r => (others.filter fun o => (p r o).isTrue).map fun o => (r, o)

@[simp] theorem mem_innerJoin {β : Type} {p : α → β → Cond} {rows : List α} {others : List β} {r : α} {o : β} :
    (r, o) ∈ innerJoin p rows others ↔ r ∈ rows ∧ o ∈ others ∧ (p r o).isTrue := by
  simp only [innerJoin, List.mem_flatMap, List.mem_map, List.mem_filter, Prod.mk.injEq]
  constructor
  · rintro ⟨r', hr', o', ⟨ho', hp⟩, rfl, rfl⟩
    exact ⟨hr', ho', hp⟩
  · rintro ⟨hr, ho, hp⟩
    exact ⟨r, hr, o, ⟨ho, hp⟩, rfl, rfl⟩

/-- `Query.one_or_none()`. -/
def oneOrNone : List α → Except Exc (Option α)
  | [] => .ok none
  | [r] => .ok (some r)
  | _ => .error ⟨.multipleResultsFound, "Multiple rows were found when one or none was required"⟩

theorem oneOrNone_some : ∀ {l : List α} {r : α}, oneOrNone l = .ok (some r) → l = [r]
  | [_], _, h => by cases h; rfl
  | [], _, h | _ :: _ :: _, _, h => by cases h

/-- A list whose elements are all equal and that has no duplicates has one element at most. -/
theorem oneOrNone_ok {l : List α} (hn : l.Nodup) (he : ∀ a ∈ l, ∀ b ∈ l, a = b) : oneOrNone l = .ok l.head? := by
  match l, hn, he with
  | [], _, _ | [_], _, _ => rfl
  | a :: b :: l, hn, he =>
    have hab := he a (by simp) b (by simp)
    simp [hab] at hn

/-- A query whose condition holds of one row at most returns that row. -/
theorem oneOrNone_selectWhere {p : α → Cond} {rows : List α} (hn : rows.Nodup)
    (hu : ∀ a ∈ rows, ∀ b ∈ rows, (p a).isTrue → (p b).isTrue → a = b) :
    oneOrNone (selectWhere p rows) = .ok (rows.find? fun r => (p r).isTrue) := by
  have hone : ∀ a ∈ selectWhere p rows, ∀ b ∈ selectWhere p rows, a = b := by
    intro a ha b hb
    rw [mem_selectWhere] at ha hb
    exact hu a ha.1 b hb.1 ha.2 hb.2
  rw [oneOrNone_ok (by unfold selectWhere; exact hn.filter _) hone, selectWhere, List.head?_filter]

/-- The row with a given value of a column whose values are distinct. -/
theorem oneOrNone_eq {κ : Type} [DecidableEq κ] {key : α → κ} {rows : List α} (hn : (rows.map key).Nodup) (k : κ) :
    oneOrNone (selectWhere (fun r => Cond.eq (some (key r)) (some k)) rows) =
      .ok (rows.find? fun r => key r = k) := by
  rw [oneOrNone_selectWhere (List.Nodup.of_map _ hn)]
  · congr 2
    funext r
    rw [Bool.eq_iff_iff]
    simp
  · intro a ha b hb hak hbk
    rw [Cond.isTrue_eq_some] at hak hbk
    exact List.inj_on_of_nodup_map hn ha hb (hak.trans hbk.symm)

end Rows

/-! ## Order -/

section Order

variable {α : Type}

/-- `ORDER BY key`, a stable sort on the listed keys. -/
def orderBy (le : α → α → Prop) [DecidableRel le] (rows : List α) : List α := rows.insertionSort le

theorem orderBy_perm (le : α → α → Prop) [DecidableRel le] (rows : List α) : (orderBy le rows).Perm rows :=
  List.perm_insertionSort le rows

@[simp] theorem mem_orderBy {le : α → α → Prop} [DecidableRel le] {rows : List α} {r : α} :
    r ∈ orderBy le rows ↔ r ∈ rows := (orderBy_perm le rows).mem_iff

/-- The rows come in the order of their keys. -/
theorem orderBy_pairwise {κ : Type} [LinearOrder κ] (key : α → κ) (rows : List α) :
    (orderBy (fun a b => key a ≤ key b) rows).Pairwise fun a b => key a ≤ key b := by
  have : Std.Total fun a b : α => key a ≤ key b := ⟨fun a b => le_total (key a) (key b)⟩
  have : IsTrans α fun a b : α => key a ≤ key b := ⟨fun _ _ _ => le_trans⟩
  exact List.pairwise_insertionSort (fun a b : α => key a ≤ key b) rows

theorem mem_take_of_sorted {κ : Type} [LinearOrder κ] {key : α → κ} {r : α} : ∀ {l : List α} {n : Nat},
    (l.Pairwise fun a b => key a < key b) → (r ∈ l.take n ↔ r ∈ l ∧ l.countP (fun s => key s < key r) < n)
  | [], _, _ => by simp
  | _ :: _, 0, _ => by simp
  | a :: l, n + 1, h => by
    obtain ⟨hfirst, hrest⟩ := List.pairwise_cons.mp h
    have ih := mem_take_of_sorted (r := r) (n := n) hrest
    rw [List.take_succ_cons, List.mem_cons, List.mem_cons, List.countP_cons]
    constructor
    · rintro (rfl | hr)
      · have hnone : l.countP (fun s => key s < key r) = 0 := by
          refine List.countP_eq_zero.mpr fun s hs => ?_
          simpa using (hfirst s hs).le
        exact ⟨.inl rfl, by simp [hnone]⟩
      · obtain ⟨hmem, hcount⟩ := ih.mp hr
        refine ⟨.inr hmem, ?_⟩
        split_ifs <;> omega
    · rintro ⟨rfl | hr, hcount⟩
      · exact .inl rfl
      · have hbefore : key a < key r := hfirst r hr
        rw [if_pos (by simpa using hbefore)] at hcount
        exact .inr (ih.mpr ⟨hr, Nat.lt_of_succ_lt_succ hcount⟩)

/-- `ORDER BY key LIMIT n`, the keys being distinct: the rows with fewer than `n` rows before them. -/
theorem mem_take_orderBy {κ : Type} [LinearOrder κ] {key : α → κ} {rows : List α} (hn : (rows.map key).Nodup) {n : Nat}
    {r : α} : r ∈ (orderBy (fun a b => key a ≤ key b) rows).take n ↔
      r ∈ rows ∧ rows.countP (fun s => key s < key r) < n := by
  have hperm := orderBy_perm (fun a b => key a ≤ key b) rows
  have hkeys : ((orderBy (fun a b => key a ≤ key b) rows).map key).Nodup := (hperm.map key).nodup_iff.mpr hn
  have hsorted : (orderBy (fun a b => key a ≤ key b) rows).Pairwise fun a b => key a < key b :=
    (orderBy_pairwise key rows).imp₂ (fun _ _ hle hne => lt_of_le_of_ne hle hne) (List.pairwise_map.mp hkeys)
  rw [mem_take_of_sorted hsorted, mem_orderBy, hperm.countP_eq]

end Order

end Washing
