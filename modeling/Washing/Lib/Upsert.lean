import Washing.Lib.Table

/-!
# Upserts

A table with a unique key besides its primary key is a map from that key to a value (`valueAt`). Rewriting the row of a
key and appending a row with a new key both put a value into the map and remove nothing (`Indexed.modify`,
`Indexed.append`); a sequence of upserts is a sequence of puts (`Upserted.trans`).
-/

namespace Washing

variable {α κ ν : Type} [Row α] [DecidableEq κ]

/-! ## Maps -/

/-- The value stored under a key. -/
def valueAt (key : α → κ) (val : α → ν) (rows : List α) (k : κ) : Option ν := (rows.find? fun r => key r = k).map val

/-- Put values into a map, one after the other. -/
def putAll (f : κ → Option ν) (entries : List (κ × ν)) : κ → Option ν :=
  entries.foldl (fun f e => Function.update f e.1 (some e.2)) f

@[simp] theorem putAll_nil (f : κ → Option ν) : putAll f [] = f := rfl

theorem putAll_append (f : κ → Option ν) (first rest : List (κ × ν)) :
    putAll f (first ++ rest) = putAll (putAll f first) rest := List.foldl_append ..

/-- The last value that is put under a key. -/
def lastValue (entries : List (κ × ν)) (k : κ) : Option ν := (entries.reverse.find? fun e => e.1 = k).map Prod.snd

/-- After all puts a key has the last value that was put under it. -/
theorem putAll_apply (f : κ → Option ν) (entries : List (κ × ν)) (k : κ) :
    putAll f entries k = (lastValue entries k).or (f k) := by
  induction entries generalizing f with
  | nil => rfl
  | cons e entries ih =>
    rw [putAll, List.foldl_cons]
    refine (ih _).trans ?_
    rw [lastValue, lastValue, List.reverse_cons, List.find?_append, Function.update_apply]
    cases entries.reverse.find? fun e => e.1 = k with
    | some e' => rfl
    | none => by_cases hk : k = e.1 <;> simp [hk, eq_comm]

theorem lastValue_cons (e : κ × ν) (entries : List (κ × ν)) (k : κ) :
    lastValue (e :: entries) k = (lastValue entries k).or (if e.1 = k then some e.2 else none) := by
  rw [lastValue, lastValue, List.reverse_cons, List.find?_append]
  cases entries.reverse.find? fun e => e.1 = k with
  | some e' => rfl
  | none => by_cases hk : e.1 = k <;> simp [hk]

theorem lastValue_eq_none_iff {entries : List (κ × ν)} {k : κ} :
    lastValue entries k = none ↔ ∀ e ∈ entries, e.1 ≠ k := by
  simp [lastValue]

theorem lastValue_isSome {entries : List (κ × ν)} {e : κ × ν} (h : e ∈ entries) :
    ∃ v, lastValue entries e.1 = some v := by
  cases hfind : entries.reverse.find? fun e' => e'.1 = e.1 with
  | none => exact absurd (List.find?_eq_none.mp hfind e (List.mem_reverse.mpr h)) (by simp)
  | some e' => exact ⟨e'.2, by rw [lastValue, hfind]; rfl⟩

/-! ## Tables -/

/-- Both keys are unique, and the identity column has not reached `next`. -/
structure Indexed (key : α → κ) (next : Nat) (rows : List α) : Prop where
  keyed : Table.Keyed rows
  unique : (rows.map key).Nodup
  fresh : ∀ r ∈ rows, Row.id r < next

/-- The second table is the first one after the entries were put: no row is lost, and no other key is new. -/
structure Upserted (key : α → κ) (val : α → ν) (rows : List α) (entries : List (κ × ν)) (rows' : List α) : Prop where
  lookup : valueAt key val rows' = putAll (valueAt key val rows) entries
  persists : ∀ r ∈ rows, ∃ r' ∈ rows', Row.id r' = Row.id r ∧ key r' = key r
  keys : ∀ r' ∈ rows', (∃ r ∈ rows, key r' = key r) ∨ ∃ e ∈ entries, key r' = e.1

variable {key : α → κ} {val : α → ν} {next : Nat} {rows rows' rows'' : List α}

theorem Upserted.refl (rows : List α) : Upserted key val rows [] rows :=
  ⟨rfl, fun r hr => ⟨r, hr, rfl, rfl⟩, fun r hr => .inl ⟨r, hr, rfl⟩⟩

theorem Upserted.trans {first rest : List (κ × ν)} (h : Upserted key val rows first rows')
    (h' : Upserted key val rows' rest rows'') : Upserted key val rows (first ++ rest) rows'' := by
  refine ⟨by rw [h'.lookup, h.lookup, putAll_append], fun r hr => ?_, fun r hr => ?_⟩
  · obtain ⟨r', hr', hid', hkey'⟩ := h.persists r hr
    obtain ⟨r'', hr'', hid'', hkey''⟩ := h'.persists r' hr'
    exact ⟨r'', hr'', hid''.trans hid', hkey''.trans hkey'⟩
  · rcases h'.keys r hr with ⟨r', hr', hkey'⟩ | ⟨e, he, hkey'⟩
    · rcases h.keys r' hr' with ⟨r'', hr'', hkey''⟩ | ⟨e, he, hkey''⟩
      · exact .inl ⟨r'', hr'', hkey'.trans hkey''⟩
      · exact .inr ⟨e, List.mem_append_left _ he, hkey'.trans hkey''⟩
    · exact .inr ⟨e, List.mem_append_right _ he, hkey'⟩

omit [DecidableEq κ] in
/-- Rows with the same key are the same row. -/
theorem Indexed.eq_of_key (h : Indexed key next rows) {r s : α} (hr : r ∈ rows) (hs : s ∈ rows) (hkey : key r = key s) :
    r = s := List.inj_on_of_nodup_map h.unique hr hs hkey

/-- The value under the key of a row. -/
theorem Indexed.valueAt_key (h : Indexed key next rows) (val : α → ν) {r : α} (hr : r ∈ rows) :
    valueAt key val rows (key r) = some (val r) := by
  unfold valueAt
  cases hfind : rows.find? fun s => key s = key r with
  | none =>
    have hno := List.find?_eq_none.mp hfind r hr
    simp at hno
  | some s =>
    have hkey : key s = key r := by simpa using List.find?_some hfind
    rw [h.eq_of_key (List.mem_of_find?_eq_some hfind) hr hkey, Option.map_some]

omit [Row α] in
/-- A key that no row has. -/
theorem valueAt_of_no_key {k : κ} (h : ∀ r ∈ rows, key r ≠ k) : valueAt key val rows k = none := by
  have hnone : rows.find? (fun r => key r = k) = none := List.find?_eq_none.mpr fun r hr => by simpa using h r hr
  rw [valueAt, hnone, Option.map_none]

/-- A row whose key is not put keeps its value. -/
theorem Upserted.kept {entries : List (κ × ν)} {next' : Nat} (hput : Upserted key val rows entries rows')
    (h : Indexed key next rows) (h' : Indexed key next' rows') {r : α} (hr : r ∈ rows)
    (hother : ∀ e ∈ entries, e.1 ≠ key r) : ∃ r' ∈ rows', Row.id r' = Row.id r ∧ val r' = val r := by
  obtain ⟨r', hr', hid, hkey⟩ := hput.persists r hr
  refine ⟨r', hr', hid, Option.some.inj ?_⟩
  calc some (val r') = valueAt key val rows' (key r) := by rw [← h'.valueAt_key val hr', hkey]
    _ = valueAt key val rows (key r) := by
      rw [hput.lookup, putAll_apply, lastValue_eq_none_iff.mpr hother, Option.none_or]
    _ = some (val r) := h.valueAt_key val hr

/-- Rewrite the value of a row. -/
theorem Indexed.modify (h : Indexed key next rows) (val : α → ν) {r : α} (hr : r ∈ rows) {f : α → α} {v : ν}
    (hid : ∀ s, Row.id (f s) = Row.id s) (hkey : key (f r) = key r) (hval : val (f r) = v) :
    Indexed key next (Table.modify rows (Row.id r) f) ∧
      Upserted key val rows [(key r, v)] (Table.modify rows (Row.id r) f) := by
  have hrow : ∀ s ∈ rows, Row.id s = Row.id r → s = r := fun s hs hsid => h.keyed.eq_of_id hs hr hsid
  have hkeys : ∀ s ∈ rows, key (if Row.id s = Row.id r then f s else s) = key s := by
    intro s hs
    split_ifs with hsid
    · rw [hrow s hs hsid, hkey]
    · rfl
  have hmap : (Table.modify rows (Row.id r) f).map key = rows.map key := by
    rw [Table.modify, List.map_map]
    exact List.map_congr_left hkeys
  have hmem : ∀ s ∈ rows, (if Row.id s = Row.id r then f s else s) ∈ Table.modify rows (Row.id r) f :=
    fun s hs => List.mem_map_of_mem hs
  have hindexed : Indexed key next (Table.modify rows (Row.id r) f) := by
    refine ⟨h.keyed.modify hid _, hmap ▸ h.unique, fun s hs => ?_⟩
    obtain ⟨t, ht, rfl⟩ := Table.mem_modify.mp hs
    split_ifs
    · rw [hid]
      exact h.fresh t ht
    · exact h.fresh t ht
  refine ⟨hindexed, ?_, fun s hs => ⟨_, hmem s hs, ?_, hkeys s hs⟩, fun s hs => ?_⟩
  · funext k
    rw [putAll, List.foldl_cons, List.foldl_nil]
    by_cases hk : ∃ s ∈ rows, key s = k
    · obtain ⟨s, hs, rfl⟩ := hk
      have hnew := hindexed.valueAt_key val (hmem s hs)
      rw [hkeys s hs] at hnew
      rw [hnew]
      by_cases hsr : s = r
      · subst hsr
        rw [if_pos rfl, Function.update_self, hval]
      · have hsid : ¬ Row.id s = Row.id r := fun e => hsr (hrow s hs e)
        have hskey : key s ≠ key r := fun e => hsr (h.eq_of_key hs hr e)
        rw [if_neg hsid, Function.update_of_ne hskey, h.valueAt_key val hs]
    · have hno : ∀ s ∈ rows, key s ≠ k := fun s hs e => hk ⟨s, hs, e⟩
      have hno' : ∀ s ∈ Table.modify rows (Row.id r) f, key s ≠ k := by
        intro s hs
        obtain ⟨t, ht, rfl⟩ := Table.mem_modify.mp hs
        rw [hkeys t ht]
        exact hno t ht
      rw [valueAt_of_no_key hno', Function.update_of_ne (hno r hr).symm, valueAt_of_no_key hno]
  · split_ifs
    · exact hid s
    · rfl
  · obtain ⟨t, ht, rfl⟩ := Table.mem_modify.mp hs
    exact .inl ⟨t, ht, hkeys t ht⟩

/-- Append a row with a new key, under the next identity. -/
theorem Indexed.append (h : Indexed key next rows) (val : α → ν) {r : α} (hid : Row.id r = next)
    (hkey : ∀ s ∈ rows, key s ≠ key r) :
    Indexed key (next + 1) (rows ++ [r]) ∧ Upserted key val rows [(key r, val r)] (rows ++ [r]) := by
  constructor
  · refine ⟨?_, ?_, fun s hs => ?_⟩
    · rw [Table.Keyed, Table.ids, List.map_append, List.map_singleton]
      refine List.nodup_append'.mpr ⟨h.keyed, List.nodup_singleton _, ?_⟩
      rw [List.disjoint_singleton]
      intro hmem
      obtain ⟨s, hs, hsid⟩ := List.mem_map.mp hmem
      exact absurd (hsid.trans hid) (h.fresh s hs).ne
    · rw [List.map_append, List.map_singleton]
      refine List.nodup_append'.mpr ⟨h.unique, List.nodup_singleton _, ?_⟩
      rw [List.disjoint_singleton]
      intro hmem
      obtain ⟨s, hs, hskey⟩ := List.mem_map.mp hmem
      exact hkey s hs hskey
    · rcases List.mem_append.mp hs with hs | hs
      · exact (h.fresh s hs).trans (Nat.lt_succ_self next)
      · rw [List.mem_singleton.mp hs, hid]
        exact Nat.lt_succ_self next
  · refine ⟨?_, fun s hs => ⟨s, List.mem_append_left _ hs, rfl, rfl⟩, fun s hs => ?_⟩
    · funext k
      rw [putAll, List.foldl_cons, List.foldl_nil, valueAt, List.find?_append, List.find?_singleton]
      by_cases hk : key r = k
      · subst hk
        have hnone : rows.find? (fun s => key s = key r) = none :=
          List.find?_eq_none.mpr fun s hs => by simpa using hkey s hs
        simp [hnone]
      · rw [Function.update_of_ne (Ne.symm hk), valueAt]
        simp [hk]
    · rcases List.mem_append.mp hs with hs | hs
      · exact .inl ⟨s, hs, rfl⟩
      · rw [List.mem_singleton.mp hs]
        exact .inr ⟨_, List.mem_singleton_self _, rfl⟩

end Washing
