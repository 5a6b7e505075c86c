import Washing.Lib.JsonText

/-!
# Equal JSON values and their text

Two values are equal, as dictionaries and lists are, when their objects have the same keys with equal values, in
whatever order (`Same`). The writer of canonical texts (`dumps`) puts the keys of each object in order: the reader gives
back a value equal to what was written (`loads_dumps`, `same_sortKeys`), and two values have one text exactly if they
are equal (`dumps_eq_iff`).

Numbers are their texts. So `1` and `1.0`, which Python takes for equal, are not the same here, and `NaN` is the same as
itself, which it is not for Python. Strings are sequences of scalar values: a lone surrogate, which Python allows in a
string, is no character here.
-/

namespace Washing

namespace Json

/-! ## Definitions -/

/-- The order of the entries in a canonical text. -/
def KeyLE (d e : String × Json) : Prop := d.1 ≤ e.1

instance : DecidableRel KeyLE := fun d e => inferInstanceAs (Decidable (d.1 ≤ e.1))

instance : Std.Total KeyLE := ⟨fun d e => le_total d.1 e.1⟩

instance : IsTrans (String × Json) KeyLE := ⟨fun _ _ _ h h' => le_trans (α := String) h h'⟩

mutual

/-- The keys of every object in order. -/
def sortKeys : Json → Json
  | null => null
  | bool b => bool b
  | number s => number s
  | string s => string s
  | array items => array (sortItems items)
  | object entries => object ((sortEntries entries).insertionSort KeyLE)

def sortItems : List Json → List Json
  | [] => []
  | v :: items => sortKeys v :: sortItems items

def sortEntries : List (String × Json) → List (String × Json)
  | [] => []
  | (key, v) :: entries => (key, sortKeys v) :: sortEntries entries

end

/-- The canonical text. -/
def dumps (v : Json) : String := String.ofList (render (sortKeys v))

/-- Equal values, whatever the order of the keys. -/
inductive Same : Json → Json → Prop
  | null : Same null null
  | bool (b : Bool) : Same (bool b) (bool b)
  | number (s : String) : Same (number s) (number s)
  | string (s : String) : Same (string s) (string s)
  | array {items items' : List Json} (hlength : items.length = items'.length)
      (h : ∀ (i : Nat) (v w : Json), items[i]? = some v → items'[i]? = some w → Same v w) :
      Same (array items) (array items')
  | object {entries entries' : List (String × Json)}
      (hkeys : ∀ key, (entries.lookup key).isSome = (entries'.lookup key).isSome)
      (h : ∀ (key : String) (v w : Json), entries.lookup key = some v → entries'.lookup key = some w → Same v w) :
      Same (object entries) (object entries')

/-! ## Sorting -/

theorem sortItems_eq_map : ∀ items : List Json, sortItems items = items.map sortKeys
  | [] => rfl
  | v :: items => congrArg (sortKeys v :: ·) (sortItems_eq_map items)

theorem sortEntries_eq_map : ∀ entries : List (String × Json),
    sortEntries entries = entries.map fun e => (e.1, sortKeys e.2)
  | [] => rfl
  | (key, v) :: entries => congrArg ((key, sortKeys v) :: ·) (sortEntries_eq_map entries)

theorem keys_sortEntries (entries : List (String × Json)) :
    (sortEntries entries).map Prod.fst = entries.map Prod.fst := by
  rw [sortEntries_eq_map, List.map_map]
  rfl

theorem lookup_sortEntries (key : String) : ∀ entries : List (String × Json),
    (sortEntries entries).lookup key = (entries.lookup key).map sortKeys
  | [] => rfl
  | (k, v) :: entries => by
    rw [sortEntries, List.lookup_cons, List.lookup_cons, lookup_sortEntries key entries]
    split <;> rfl

/-- The entries of distinct keys are what is found under their keys. -/
theorem mem_iff_lookup {entries : List (String × Json)} (h : (entries.map Prod.fst).Nodup) {key : String} {v : Json} :
    (key, v) ∈ entries ↔ entries.lookup key = some v := by
  refine ⟨fun hmem => ?_, mem_of_lookup⟩
  induction entries with
  | nil => cases hmem
  | cons e entries ih =>
    rw [List.map_cons, List.nodup_cons] at h
    rcases List.mem_cons.mp hmem with rfl | hmem
    · rw [List.lookup_cons, beq_self_eq_true]
    · have hne : key ≠ e.1 := by
        rintro rfl
        exact h.1 (List.mem_map.mpr ⟨_, hmem, rfl⟩)
      rw [List.lookup_cons, beq_false_of_ne hne]
      exact ih h.2 hmem

/-- What is found under a key does not depend on the order of the entries. -/
theorem lookup_perm {entries entries' : List (String × Json)} (hperm : entries.Perm entries')
    (h : (entries.map Prod.fst).Nodup) (key : String) : entries.lookup key = entries'.lookup key := by
  have h' : (entries'.map Prod.fst).Nodup := (hperm.map Prod.fst).nodup_iff.mp h
  refine Option.ext fun v => ?_
  rw [← mem_iff_lookup h, ← mem_iff_lookup h', hperm.mem_iff]

section Sorted

variable {entries : List (String × Json)}

theorem keys_sorted_nodup (h : (entries.map Prod.fst).Nodup) :
    (((sortEntries entries).insertionSort KeyLE).map Prod.fst).Nodup := by
  rw [((List.perm_insertionSort KeyLE (sortEntries entries)).map Prod.fst).nodup_iff, keys_sortEntries]
  exact h

theorem lookup_sorted (h : (entries.map Prod.fst).Nodup) (key : String) :
    ((sortEntries entries).insertionSort KeyLE).lookup key = (entries.lookup key).map sortKeys := by
  rw [lookup_perm (List.perm_insertionSort KeyLE _) (keys_sorted_nodup h), lookup_sortEntries]

end Sorted

theorem WellFormed.sortKeys {v : Json} (h : WellFormed v) : WellFormed (sortKeys v) := by
  induction h with
  | null => exact .null
  | bool b => exact .bool b
  | number h => exact .number h
  | string s => exact .string s
  | array h ih =>
    rw [Json.sortKeys, sortItems_eq_map]
    refine .array fun w hw => ?_
    obtain ⟨v, hv, rfl⟩ := List.mem_map.mp hw
    exact ih v hv
  | object hkeys h ih =>
    refine .object (keys_sorted_nodup hkeys) fun e he => ?_
    rw [(List.perm_insertionSort KeyLE _).mem_iff, sortEntries_eq_map] at he
    obtain ⟨d, hd, rfl⟩ := List.mem_map.mp he
    exact ih d hd

/-! ## Equality -/

theorem Same.symm {v w : Json} (h : Same v w) : Same w v := by
  induction h with
  | null => exact .null
  | bool b => exact .bool b
  | number s => exact .number s
  | string s => exact .string s
  | array hlength h ih => exact .array hlength.symm fun i v w hv hw => ih i w v hw hv
  | object hkeys h ih => exact .object (fun key => (hkeys key).symm) fun key v w hv hw => ih key w v hw hv

theorem Same.trans {v w u : Json} (h : Same v w) (h' : Same w u) : Same v u := by
  induction h generalizing u with
  | null | bool | number | string => exact h'
  | @array items items' hlength h ih =>
    cases h' with
    | @array _ items'' hlength' h' =>
      refine .array (hlength.trans hlength') fun i v u hv hu => ?_
      obtain ⟨hi, -⟩ := List.getElem?_eq_some_iff.mp hv
      have hw : items'[i]? = some items'[i] := List.getElem?_eq_getElem (hlength ▸ hi)
      exact ih i v _ hv hw (h' i _ u hw hu)
  | @object entries entries' hkeys h ih =>
    cases h' with
    | @object _ entries'' hkeys' h' =>
      refine .object (fun key => (hkeys key).trans (hkeys' key)) fun key v u hv hu => ?_
      obtain ⟨w, hw⟩ : ∃ w, entries'.lookup key = some w := by
        rw [← Option.isSome_iff_exists, ← hkeys, hv, Option.isSome_some]
      exact ih key v w hv hw (h' key w u hw hu)

/-- Putting the keys in order gives an equal value. -/
theorem same_sortKeys {v : Json} (h : WellFormed v) : Same v (sortKeys v) := by
  induction h with
  | null => exact .null
  | bool b => exact .bool b
  | @number s h => exact .number s
  | string s => exact .string s
  | @array items h ih =>
    rw [sortKeys, sortItems_eq_map]
    refine .array (List.length_map _).symm fun i v w hv hw => ?_
    rw [List.getElem?_map, hv, Option.map_some, Option.some.injEq] at hw
    exact hw ▸ ih v (List.mem_of_getElem? hv)
  | @object entries hkeys h ih =>
    refine .object (fun key => ?_) fun key v w hv hw => ?_
    · rw [lookup_sorted hkeys, Option.isSome_map]
    · rw [lookup_sorted hkeys, hv, Option.map_some, Option.some.injEq] at hw
      exact hw ▸ ih (key, v) (mem_of_lookup hv)

/-- Equal objects have the same entries once the keys within their values are in order. -/
theorem perm_sortEntries {entries entries' : List (String × Json)} (h : (entries.map Prod.fst).Nodup)
    (h' : (entries'.map Prod.fst).Nodup)
    (hlookup : ∀ key, (entries.lookup key).map sortKeys = (entries'.lookup key).map sortKeys) :
    (sortEntries entries).Perm (sortEntries entries') := by
  rw [← keys_sortEntries] at h h'
  refine (List.perm_ext_iff_of_nodup h.of_map h'.of_map).mpr fun e => ?_
  rw [mem_iff_lookup h, mem_iff_lookup h', lookup_sortEntries, lookup_sortEntries, hlookup]

theorem sort_perm {entries entries' : List (String × Json)} (h : (entries.map Prod.fst).Nodup)
    (hperm : entries.Perm entries') : entries.insertionSort KeyLE = entries'.insertionSort KeyLE := by
  have hsorted := (List.perm_insertionSort KeyLE entries).trans
    (hperm.trans (List.perm_insertionSort KeyLE entries').symm)
  refine hsorted.eq_of_pairwise (fun d e hd he hde hed => ?_) (List.pairwise_insertionSort KeyLE entries)
    (List.pairwise_insertionSort KeyLE entries')
  have hd' : d ∈ entries := (List.mem_insertionSort KeyLE).mp hd
  have he' : e ∈ entries := hperm.mem_iff.mpr ((List.mem_insertionSort KeyLE).mp he)
  exact List.inj_on_of_nodup_map h hd' he' (le_antisymm hde hed)

/-- Equal values are the same once their keys are in order. -/
theorem Same.sortKeys_eq {v w : Json} (h : Same v w) (hv : WellFormed v) (hw : WellFormed w) :
    sortKeys v = sortKeys w := by
  induction h with
  | null | bool | number | string => rfl
  | @array items items' hlength h ih =>
    cases hv with
    | array hv =>
      cases hw with
      | array hw =>
        rw [sortKeys, sortKeys, sortItems_eq_map, sortItems_eq_map]
        refine congrArg Json.array (List.ext_getElem (by simpa using hlength) fun i hi hi' => ?_)
        rw [List.length_map] at hi hi'
        rw [List.getElem_map, List.getElem_map]
        exact ih i _ _ (List.getElem?_eq_getElem hi) (List.getElem?_eq_getElem hi') (hv _ (List.getElem_mem hi))
          (hw _ (List.getElem_mem hi'))
  | @object entries entries' hkeys h ih =>
    cases hv with
    | object hnodup hv =>
      cases hw with
      | object hnodup' hw =>
        have hlookup : ∀ key, (entries.lookup key).map sortKeys = (entries'.lookup key).map sortKeys := by
          intro key
          have hsome := hkeys key
          cases hx : entries.lookup key with
          | none =>
            rw [hx, Option.isSome_none, eq_comm, Option.isSome_eq_false_iff, Option.isNone_iff_eq_none] at hsome
            rw [hsome]
          | some x =>
            rw [hx, Option.isSome_some, eq_comm, Option.isSome_iff_exists] at hsome
            obtain ⟨y, hy⟩ := hsome
            rw [hy, Option.map_some, Option.map_some,
              ih key x y hx hy (hv _ (mem_of_lookup hx)) (hw _ (mem_of_lookup hy))]
        rw [sortKeys, sortKeys,
          sort_perm ((keys_sortEntries entries).symm ▸ hnodup) (perm_sortEntries hnodup hnodup' hlookup)]

/-! ## Canonical texts -/

/-- The reader gives back a value equal to what was written. -/
theorem loads_dumps {v : Json} (h : WellFormed v) : loads (dumps v) = .ok (sortKeys v) := loads_render h.sortKeys

/-- Two values have one canonical text exactly if they are equal. -/
theorem dumps_eq_iff {v w : Json} (hv : WellFormed v) (hw : WellFormed w) : dumps v = dumps w ↔ Same v w := by
  constructor
  · intro h
    have hsort : sortKeys v = sortKeys w := by
      have hread := loads_dumps hv
      rw [h, loads_dumps hw] at hread
      exact (Except.ok.inj hread).symm
    exact (same_sortKeys hv).trans (hsort ▸ (same_sortKeys hw).symm)
  · intro h
    rw [dumps, dumps, h.sortKeys_eq hv hw]

end Json

end Washing
