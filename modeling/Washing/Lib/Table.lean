import Mathlib

/-!
# Tables with a primary key

A table is the list of its rows. `get` looks a row up by its primary key, `modify` rewrites one row. On a table whose
keys are distinct (`Keyed`) a row is determined by its key, so that `get` returns every row (`get_of_mem`) and `modify`
changes one row and no other (`get_modify`).
-/

namespace Washing

/-- Rows with an integer primary key. -/
class Row (α : Type) where
  id : α → Nat

namespace Table

variable {α : Type} [Row α]

/-- The primary keys of a table, in storage order. -/
def ids (rows : List α) : List Nat := rows.map Row.id

/-- The primary keys are distinct. -/
def Keyed (rows : List α) : Prop := (ids rows).Nodup

instance (rows : List α) : Decidable (Keyed rows) := inferInstanceAs (Decidable (List.Nodup _))

/-- `Session.get(Model, id)`. -/
def get (rows : List α) (id : Nat) : Option α := rows.find? fun r => Row.id r = id

/-- Rewrite the row with a given key. -/
def modify (rows : List α) (id : Nat) (f : α → α) : List α := rows.map fun r => if Row.id r = id then f r else r

@[simp] theorem mem_ids {rows : List α} {i : Nat} : i ∈ ids rows ↔ ∃ r ∈ rows, Row.id r = i := by simp [ids]

theorem ids_append (rows rows' : List α) : ids (rows ++ rows') = ids rows ++ ids rows' := List.map_append

theorem get_some {rows : List α} {i : Nat} {r : α} (h : get rows i = some r) : r ∈ rows ∧ Row.id r = i := by
  refine ⟨List.mem_of_find?_eq_some h, ?_⟩
  simpa using List.find?_some h

theorem get_none {rows : List α} {i : Nat} (h : get rows i = none) : ∀ r ∈ rows, Row.id r ≠ i := by
  simpa [get] using h

/-- Rows of a keyed table with the same key are the same row. -/
theorem Keyed.eq_of_id {rows : List α} (hk : Keyed rows) {r s : α} (hr : r ∈ rows) (hs : s ∈ rows)
    (h : Row.id r = Row.id s) : r = s := List.inj_on_of_nodup_map hk hr hs h

theorem get_of_mem {rows : List α} (hk : Keyed rows) {r : α} (hr : r ∈ rows) : get rows (Row.id r) = some r := by
  cases h : get rows (Row.id r) with
  | none => exact absurd rfl (get_none h r hr)
  | some s =>
    obtain ⟨hs, hid⟩ := get_some h
    rw [hk.eq_of_id hs hr hid]

theorem get_eq_some_iff {rows : List α} (hk : Keyed rows) {i : Nat} {r : α} :
    get rows i = some r ↔ r ∈ rows ∧ Row.id r = i := by
  constructor
  · exact get_some
  · rintro ⟨hr, rfl⟩
    exact get_of_mem hk hr

/-- A transformation of the rows that keeps the keys commutes with the lookup. -/
theorem get_map {β : Type} [Row β] {g : α → β} (hg : ∀ r, Row.id (g r) = Row.id r) (rows : List α) (i : Nat) :
    get (rows.map g) i = (get rows i).map g := by
  unfold get
  rw [List.find?_map]
  congr 2
  funext r
  simp [hg]

/-- The rows with the key of a row, when the key is unique: that row. -/
theorem filter_key {β κ : Type} [DecidableEq κ] {key : β → κ} {rows : List β} (hn : (rows.map key).Nodup) {r : β}
    (hr : r ∈ rows) : rows.filter (fun s => key s = key r) = [r] := by
  induction rows with
  | nil => cases hr
  | cons s rows ih =>
    obtain ⟨hs, hn⟩ := List.nodup_cons.mp hn
    rcases List.mem_cons.mp hr with rfl | hr
    · have hrest : rows.filter (fun s => key s = key r) = [] := by
        refine List.filter_eq_nil_iff.mpr fun t ht hkey => hs ?_
        exact List.mem_map.mpr ⟨t, ht, by simpa using hkey⟩
      rw [List.filter_cons_of_pos (by simp), hrest]
    · have hne : ¬ key s = key r := fun h => hs (h ▸ List.mem_map_of_mem hr)
      rw [List.filter_cons_of_neg (by simpa using hne), ih hn hr]

/-- Tables that agree in a projection have the same rows up to that projection. -/
theorem exists_of_map_eq {β γ : Type} {g : β → γ} {rows rows' : List β} (h : rows'.map g = rows.map g) {r : β}
    (hr : r ∈ rows) : ∃ r' ∈ rows', g r' = g r := List.mem_map.mp (h ▸ List.mem_map_of_mem hr)

theorem ids_of_map_eq {g : α → α} (hg : ∀ r, Row.id (g r) = Row.id r) {rows rows' : List α}
    (h : rows'.map g = rows.map g) : ids rows' = ids rows := by
  have hids : ∀ rows : List α, ids (rows.map g) = ids rows := fun rows => by
    simp only [ids, List.map_map]
    exact List.map_congr_left fun r _ => hg r
  rw [← hids rows', h, hids]

/-! ## Rewriting one row -/

section Modify

variable {f : α → α}

theorem ids_modify (hf : ∀ r, Row.id (f r) = Row.id r) (rows : List α) (i : Nat) :
    ids (modify rows i f) = ids rows := by
  simp only [ids, modify, List.map_map]
  refine List.map_congr_left fun r _ => ?_
  by_cases h : Row.id r = i <;> simp [h, hf]

theorem Keyed.modify {rows : List α} (hk : Keyed rows) (hf : ∀ r, Row.id (f r) = Row.id r) (i : Nat) :
    Keyed (Table.modify rows i f) := by
  unfold Keyed
  rw [ids_modify hf]
  exact hk

theorem mem_modify {rows : List α} {i : Nat} {s : α} :
    s ∈ modify rows i f ↔ ∃ r ∈ rows, s = if Row.id r = i then f r else r := by
  simp [modify, eq_comm]

/-- Looking up after a rewrite: the rewritten row under its key, the old rows under the others. -/
theorem get_modify (hf : ∀ r, Row.id (f r) = Row.id r) (rows : List α) (i j : Nat) :
    get (modify rows i f) j = (get rows j).map fun r => if j = i then f r else r := by
  induction rows with
  | nil => rfl
  | cons r rows ih =>
    unfold get modify at ih ⊢
    by_cases hi : Row.id r = i <;> by_cases hj : Row.id r = j <;> simp_all

theorem modify_map {β : Type} [Row β] {g : β → α} (hg : ∀ r, Row.id (g r) = Row.id r) (rows : List β) (i : Nat) :
    modify (rows.map g) i f = rows.map fun r => if Row.id r = i then f (g r) else g r := by
  simp [modify, hg, Function.comp_def]

/-- Two rewrites of one row. -/
theorem modify_modify (hf : ∀ r, Row.id (f r) = Row.id r) {g : α → α} (rows : List α) (i : Nat) :
    modify (modify rows i f) i g = modify rows i fun r => g (f r) := by
  simp only [modify, List.map_map]
  refine List.map_congr_left fun r _ => ?_
  by_cases hi : Row.id r = i <;> simp [hi, hf]

/-- A missing row is not rewritten. -/
theorem modify_of_get_none {rows : List α} {i : Nat} (h : get rows i = none) (f : α → α) : modify rows i f = rows := by
  refine (List.map_congr_left fun r hr => ?_).trans (List.map_id rows)
  exact if_neg (get_none h r hr)

/-- A rewrite that keeps the key of the rewritten row. -/
theorem ids_modify_row {rows : List α} {i : Nat} (hf : ∀ r ∈ rows, Row.id r = i → Row.id (f r) = i) :
    ids (modify rows i f) = ids rows := by
  simp only [ids, modify, List.map_map]
  refine List.map_congr_left fun r hr => ?_
  by_cases hi : Row.id r = i
  · simp [hi, hf r hr hi]
  · simp [hi]

/-- A rewrite of columns that a projection does not read. -/
theorem map_modify {β : Type} {g : α → β} (hg : ∀ r, g (f r) = g r) (rows : List α) (i : Nat) :
    (modify rows i f).map g = rows.map g := by
  simp only [modify, List.map_map]
  refine List.map_congr_left fun r _ => ?_
  by_cases hi : Row.id r = i <;> simp [hi, hg]

/-- The rows after one row was replaced. -/
theorem mem_replace {rows : List α} {i : Nat} {r s : α} (h : s ∈ modify rows i fun _ => r) :
    s = r ∨ s ∈ rows ∧ Row.id s ≠ i := by
  obtain ⟨t, ht, hs⟩ := mem_modify.mp h
  split_ifs at hs with hi
  · exact .inl hs
  · exact .inr ⟨hs ▸ ht, hs ▸ hi⟩

theorem get_replace {rows : List α} {i : Nat} {r s : α} (h : get rows i = some r) (hs : Row.id s = i) :
    get (modify rows i fun _ => s) i = some s := by
  induction rows with
  | nil => cases h
  | cons r' rows ih =>
    unfold get at h ih ⊢
    unfold modify at ih ⊢
    by_cases hi : Row.id r' = i
    · simp [hi, hs]
    · rw [List.find?_cons_of_neg (by simpa using hi)] at h
      simpa [hi] using ih h

end Modify

/-! ## Identity columns -/

/-- The keys are distinct and below the next value of the identity column. -/
structure Numbered (rows : List α) (next : Nat) : Prop where
  keyed : Keyed rows
  fresh : ∀ r ∈ rows, Row.id r < next

namespace Numbered

variable {rows : List α} {next : Nat}

theorem nil : Numbered ([] : List α) next := ⟨List.nodup_nil, by simp⟩

theorem mono (h : Numbered rows next) {next' : Nat} (hle : next ≤ next') : Numbered rows next' :=
  ⟨h.keyed, fun r hr => (h.fresh r hr).trans_le hle⟩

/-- Being numbered only depends on the keys. -/
theorem sublist (h : Numbered rows next) {β : Type} [Row β] {rows' : List β} (hids : (ids rows').Sublist (ids rows)) :
    Numbered rows' next := by
  refine ⟨h.keyed.sublist hids, fun r hr => ?_⟩
  obtain ⟨s, hs, hid⟩ := mem_ids.mp (hids.subset (mem_ids.mpr ⟨r, hr, rfl⟩))
  exact hid ▸ h.fresh s hs

theorem of_ids (h : Numbered rows next) {β : Type} [Row β] {rows' : List β} (hids : ids rows' = ids rows) :
    Numbered rows' next := h.sublist (hids ▸ .refl _)

/-- The next key is added. -/
theorem insert (h : Numbered rows next) {β : Type} [Row β] {rows' : List β} (hids : ids rows' = ids rows ++ [next]) :
    Numbered rows' (next + 1) := by
  have hnew : next ∉ ids rows := by
    intro hmem
    obtain ⟨s, hs, hid⟩ := mem_ids.mp hmem
    exact (h.fresh s hs).ne hid
  constructor
  · have hnodup : (ids rows ++ [next]).Nodup :=
      h.keyed.append (List.nodup_singleton next) (List.disjoint_singleton.mpr hnew)
    unfold Keyed
    rwa [hids]
  · intro r hr
    have hmem : Row.id r ∈ ids rows ++ [next] := hids ▸ mem_ids.mpr ⟨r, hr, rfl⟩
    obtain hold | hlast := List.mem_append.mp hmem
    · obtain ⟨s, hs, hid⟩ := mem_ids.mp hold
      exact hid ▸ (h.fresh s hs).trans (Nat.lt_succ_self next)
    · rw [List.mem_singleton.mp hlast]
      exact Nat.lt_succ_self next

/-- Insert a row with the next key. -/
theorem append (h : Numbered rows next) {r : α} (hr : Row.id r = next) : Numbered (rows ++ [r]) (next + 1) := by
  refine h.insert ?_
  rw [ids_append, ← hr]
  rfl

theorem get_append (h : Numbered rows next) {r : α} (hr : Row.id r = next) : get (rows ++ [r]) next = some r := by
  rw [← hr]
  exact get_of_mem (h.append hr).keyed (List.mem_append_right _ (List.mem_singleton_self r))

theorem modify (h : Numbered rows next) {i : Nat} {f : α → α} (hf : ∀ r ∈ rows, Row.id r = i → Row.id (f r) = i) :
    Numbered (Table.modify rows i f) next :=
  h.of_ids (ids_modify_row hf)

end Numbered

end Table

end Washing
