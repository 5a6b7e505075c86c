import Washing.Lib.Sql

/-!
# Timelines

A log with entries about several subjects keeps the values of each of them (`valuesOf`). A subject is tracked when the
last entry about it has its current value and no entry repeats the value before it (`Tracks`). When the log is in the
order of a key, sorting the entries of a subject by this key gives its values in the order of the log
(`timeline_tracks`).
-/

namespace Washing

variable {α β : Type}

/-- The values of the entries about a subject, in the order of the log. -/
def valuesOf (subject : α → Nat) (value : α → β) (log : List α) (i : Nat) : List β :=
  (log.filter fun a => subject a = i).map value

/-- The values end with the current one, and no value is the one before it. -/
structure Tracks (values : List β) (current : β) : Prop where
  latest : values.getLast? = some current
  changes : values.IsChain (· ≠ ·)

theorem tracks_singleton (v : β) : Tracks [v] v := ⟨rfl, .singleton v⟩

/-- A change is appended. -/
theorem Tracks.append {values : List β} {v w : β} (h : Tracks values v) (hne : v ≠ w) : Tracks (values ++ [w]) w := by
  refine ⟨List.getLast?_concat, h.changes.append (.singleton w) fun x hx y hy => ?_⟩
  rw [h.latest] at hx
  cases hx
  cases hy
  exact hne

section Log

variable {subject : α → Nat} {value : α → β} {log : List α} {i : Nat}

/-- An entry about the subject. -/
theorem valuesOf_concat_self {a : α} (h : subject a = i) :
    valuesOf subject value (log ++ [a]) i = valuesOf subject value log i ++ [value a] := by
  simp [valuesOf, h]

/-- An entry about another subject. -/
theorem valuesOf_concat_ne {a : α} (h : subject a ≠ i) :
    valuesOf subject value (log ++ [a]) i = valuesOf subject value log i := by
  simp [valuesOf, h]

theorem valuesOf_eq_nil (h : ∀ a ∈ log, subject a ≠ i) : valuesOf subject value log i = [] := by
  have hnone : log.filter (fun a => subject a = i) = [] := List.filter_eq_nil_iff.mpr fun a ha => by simpa using h a ha
  rw [valuesOf, hnone, List.map_nil]

/-- Entries about other subjects are removed. -/
theorem valuesOf_filter {P : Nat → Prop} [DecidablePred P] (h : P i) :
    valuesOf subject value (log.filter fun a => P (subject a)) i = valuesOf subject value log i := by
  unfold valuesOf
  rw [List.filter_filter]
  refine congrArg _ (List.filter_congr fun a _ => ?_)
  by_cases ha : subject a = i
  · simp [ha, h]
  · simp [ha]

/-- Columns other than the subject and the value are rewritten. -/
theorem valuesOf_map {g : α → α} (hsubject : ∀ a, subject (g a) = subject a) (hvalue : ∀ a, value (g a) = value a)
    (log : List α) (i : Nat) : valuesOf subject value (log.map g) i = valuesOf subject value log i := by
  simp only [valuesOf, List.filter_map, List.map_map, Function.comp_def, hsubject, hvalue]

/-- A log in the order of a key is sorted by this key already. -/
theorem orderBy_of_pairwise {κ : Type} [LinearOrder κ] {key : α → κ} (h : log.Pairwise fun a b => key a < key b) :
    orderBy (fun a b => key a ≤ key b) log = log :=
  List.Pairwise.insertionSort_eq (h.imp le_of_lt)

/-- The timeline of a tracked subject ends with its current value, and consecutive entries differ. -/
theorem timeline_tracks {κ : Type} [LinearOrder κ] {key : α → κ} (hlog : log.Pairwise fun a b => key a < key b)
    {current : β} (h : Tracks (valuesOf subject value log i) current) :
    ((orderBy (fun a b => key a ≤ key b) (log.filter fun a => subject a = i)).getLast?.map value = some current) ∧
    (orderBy (fun a b => key a ≤ key b) (log.filter fun a => subject a = i)).IsChain fun a b => value a ≠ value b := by
  rw [orderBy_of_pairwise (hlog.sublist List.filter_sublist), ← List.getLast?_map]
  exact ⟨h.latest, (List.isChain_map value).mp h.changes⟩

end Log

end Washing
