import Mathlib

/-!
# Paths into JSON values

A path is a list of segments: a literal one leads from an object to the value under that key, and the wildcard from an
object or an array to each of its values (`Move`, `Reaches`). What a path reaches can only become more when keys and
elements are added to a value (`Adds`): the node that was reached is still there, possibly with additions
(`Reaches.adds`).
-/

namespace Washing

/-- A JSON value. A number is kept as its text, an object as its entries in order. -/
inductive Json
  | null
  | bool (b : Bool)
  | number (text : String)
  | string (s : String)
  | array (items : List Json)
  | object (entries : List (String × Json))

namespace Json

/-! ## Reachability -/

/-- The wildcard. -/
def wildcard : String := "*"

/-- A segment leads from a value to another. -/
inductive Move : String → Json → Json → Prop
  | literal {key : String} {entries : List (String × Json)} {v : Json} (hkey : key ≠ wildcard)
      (h : entries.lookup key = some v) : Move key (.object entries) v
  | value {key : String} {entries : List (String × Json)} {v : Json} (h : (key, v) ∈ entries) :
      Move wildcard (.object entries) v
  | element {items : List Json} {v : Json} (h : v ∈ items) : Move wildcard (.array items) v

/-- The values that a segment leads to. -/
def children (segment : String) : Json → List Json
  | .object entries => if segment = wildcard then entries.map Prod.snd else (entries.lookup segment).toList
  | .array items => if segment = wildcard then items else []
  | _ => []

theorem mem_children {segment : String} {v w : Json} : w ∈ v.children segment ↔ Move segment v w := by
  constructor
  · intro h
    unfold children at h
    split at h
    · split_ifs at h with hwild
      · subst hwild
        obtain ⟨⟨key, _⟩, he, rfl⟩ := List.mem_map.mp h
        exact .value he
      · exact .literal hwild (Option.mem_toList.mp h)
    · split_ifs at h with hwild
      · subst hwild
        exact .element h
      · cases h
    · cases h
  · rintro (⟨hkey, h⟩ | h | h)
    · rw [children, if_neg hkey]
      exact Option.mem_toList.mpr h
    · exact List.mem_map_of_mem h
    · exact h

/-- The segments lead from a value to another, one by one. -/
inductive Reaches : List String → Json → Json → Prop
  | here (v : Json) : Reaches [] v v
  | step {segment : String} {segments : List String} {v w u : Json} (h : Move segment v w)
      (hrest : Reaches segments w u) :
      Reaches (segment :: segments) v u

theorem reaches_nil {v u : Json} : Reaches [] v u ↔ u = v := by
  constructor
  · rintro ⟨⟩
    rfl
  · rintro rfl
    exact .here u

theorem reaches_cons {segment : String} {segments : List String} {v u : Json} :
    Reaches (segment :: segments) v u ↔ ∃ w, Move segment v w ∧ Reaches segments w u := by
  constructor
  · rintro (_ | ⟨h, hrest⟩)
    exact ⟨_, h, hrest⟩
  · rintro ⟨w, h, hrest⟩
    exact .step h hrest

/-- The value is a text, or an array with that text among its elements. -/
def Holds (v : Json) (s : String) : Prop := v = .string s ∨ ∃ items, v = .array items ∧ .string s ∈ items

/-! ## Additions -/

/-- One key is added to an object, or one element to an array, at the top or further down. -/
inductive Adds : Json → Json → Prop
  | key {before after : List (String × Json)} {key : String} (v : Json) (hnew : ∀ e ∈ before ++ after, e.1 ≠ key) :
      Adds (.object (before ++ after)) (.object (before ++ (key, v) :: after))
  | element {before after : List Json} (v : Json) : Adds (.array (before ++ after)) (.array (before ++ v :: after))
  | under {before after : List (String × Json)} {key : String} {v w : Json} (h : Adds v w) :
      Adds (.object (before ++ (key, v) :: after)) (.object (before ++ (key, w) :: after))
  | inside {before after : List Json} {v w : Json} (h : Adds v w) :
      Adds (.array (before ++ v :: after)) (.array (before ++ w :: after))

/-- The value is the same or has one addition. -/
def Grows (v w : Json) : Prop := w = v ∨ Adds v w

theorem Grows.refl (v : Json) : Grows v v := .inl rfl

/-- Replacing one element leaves the others. -/
theorem mem_replaced {α : Type} {before after : List α} {v w x : α} (hx : x ∈ before ++ v :: after) :
    x = v ∨ x ∈ before ++ w :: after := by
  rcases List.mem_append.mp hx with h | h
  · exact .inr (List.mem_append_left _ h)
  · exact (List.mem_cons.mp h).imp_right fun h => List.mem_append_right _ (List.mem_cons_of_mem _ h)

theorem mem_inserted {α : Type} {before after : List α} {v x : α} (hx : x ∈ before ++ after) :
    x ∈ before ++ v :: after := by
  rcases List.mem_append.mp hx with h | h
  · exact List.mem_append_left _ h
  · exact List.mem_append_right _ (List.mem_cons_of_mem _ h)

/-- A new key hides no other. -/
theorem lookup_inserted {before after : List (String × Json)} {key s : String} {v x : Json}
    (hnew : ∀ e ∈ before ++ after, e.1 ≠ key) (h : (before ++ after).lookup s = some x) :
    (before ++ (key, v) :: after).lookup s = some x := by
  have hne : s ≠ key := by
    rintro rfl
    obtain ⟨l, l', hsplit, -⟩ := List.lookup_eq_some_iff.mp h
    exact hnew (s, x) (hsplit ▸ List.mem_append_right l List.mem_cons_self) rfl
  rw [List.lookup_append] at h ⊢
  rw [List.lookup_cons, beq_false_of_ne hne]
  exact h

/-- What is found after the value of a key is replaced. -/
theorem lookup_replaced {before after : List (String × Json)} {key s : String} {v x : Json} (w : Json)
    (h : (before ++ (key, v) :: after).lookup s = some x) :
    (before ++ (key, w) :: after).lookup s = some x ∨ x = v ∧ (before ++ (key, w) :: after).lookup s = some w := by
  rw [List.lookup_append, List.lookup_cons] at h ⊢
  cases hbefore : before.lookup s with
  | some y =>
    rw [hbefore] at h
    exact .inl h
  | none =>
    rw [hbefore] at h
    by_cases hs : s = key
    · subst hs
      rw [beq_self_eq_true] at h ⊢
      exact .inr ⟨(Option.some.inj h).symm, rfl⟩
    · rw [beq_false_of_ne hs] at h ⊢
      exact .inl h

/-- A move is still possible after an addition. -/
theorem Move.adds {segment : String} {v w u : Json} (h : Move segment v u) (hadds : Adds v w) :
    ∃ u', Move segment w u' ∧ Grows u u' := by
  cases hadds with
  | key x hnew =>
    cases h with
    | literal hkey h => exact ⟨u, .literal hkey (lookup_inserted hnew h), .refl u⟩
    | value h => exact ⟨u, .value (mem_inserted h), .refl u⟩
  | element x =>
    cases h with
    | element h => exact ⟨u, .element (mem_inserted h), .refl u⟩
  | @under _ _ _ x y hx =>
    cases h with
    | literal hkey h =>
      rcases lookup_replaced y h with hold | ⟨rfl, hnew⟩
      · exact ⟨u, .literal hkey hold, .refl u⟩
      · exact ⟨y, .literal hkey hnew, .inr hx⟩
    | value h =>
      rcases mem_replaced (w := (_, y)) h with heq | hold
      · cases heq
        exact ⟨y, .value (List.mem_append_right _ List.mem_cons_self), .inr hx⟩
      · exact ⟨u, .value hold, .refl u⟩
  | @inside _ _ x y hx =>
    cases h with
    | element h =>
      rcases mem_replaced (w := y) h with rfl | hold
      · exact ⟨y, .element (List.mem_append_right _ List.mem_cons_self), .inr hx⟩
      · exact ⟨u, .element hold, .refl u⟩

/-- The node that a path reaches is still there after an addition. -/
theorem Reaches.adds {segments : List String} {v u : Json} (h : Reaches segments v u) {w : Json} (hgrows : Grows v w) :
    ∃ u', Reaches segments w u' ∧ Grows u u' := by
  induction h generalizing w with
  | here v => exact ⟨w, .here w, hgrows⟩
  | step hmove _ ih =>
    rcases hgrows with rfl | hadds
    · obtain ⟨u', hu', hgrown⟩ := ih (.refl _)
      exact ⟨u', .step hmove hu', hgrown⟩
    · obtain ⟨x, hx, hgrown⟩ := hmove.adds hadds
      obtain ⟨u', hu', hend⟩ := ih hgrown
      exact ⟨u', .step hx hu', hend⟩

/-- A value still holds its texts after an addition. -/
theorem Holds.grows {v w : Json} {s : String} (h : v.Holds s) (hgrows : Grows v w) : w.Holds s := by
  rcases hgrows with rfl | hadds
  · exact h
  · rcases h with rfl | ⟨items, rfl, hmem⟩
    · cases hadds
    · cases hadds with
      | element x => exact .inr ⟨_, rfl, mem_inserted hmem⟩
      | @inside _ _ x y hx =>
        rcases mem_replaced (w := y) hmem with heq | hold
        · cases heq
          cases hx
        · exact .inr ⟨_, rfl, hold⟩

end Json

end Washing
