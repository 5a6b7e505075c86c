import Mathlib

/-!
# Python values

The values that reach code through an untyped `object`: text, numbers, dates, mappings and sequences nested to any
depth, and objects known through `str()` only. A mapping is the list of its entries in insertion order. A dictionary
made of pairs (`PyDict.ofPairs`) keeps the last value of each key (`PyDict.mem_ofPairs`), and `PyValue.nested` is the
induction over values that the functions on them follow.
-/

namespace Washing

/-- A key of a mapping: a string, or something else with its `str()`. -/
inductive PyKey
  | str (s : String)
  | other (text : String)
  deriving DecidableEq, Repr

/-- `str(key)`. -/
def PyKey.text : PyKey → String
  | .str s => s
  | .other text => text

/-- A value. A float is kept as its `repr`, a datetime as its ISO form. -/
inductive PyValue
  | none
  | bool (b : Bool)
  | int (n : Int)
  | float (repr : String)
  | str (s : String)
  | bytes (text : String)
  | datetime (isoformat : String)
  | mapping (items : List (PyKey × PyValue))
  | sequence (items : List PyValue)
  | object (text : String)
  deriving Repr

/-- The entries of a mapping. -/
abbrev PyDict := List (PyKey × PyValue)

namespace PyValue

/-- The string, if `isinstance(value, str)`. -/
def asStr : PyValue → Option String
  | .str s => some s
  | _ => Option.none

/-- The entries, if `isinstance(value, Mapping)`. -/
def asMapping : PyValue → Option PyDict
  | .mapping items => some items
  | _ => Option.none

/-- The elements, if the value is a sequence other than text. -/
def asSequence : PyValue → Option (List PyValue)
  | .sequence items => some items
  | _ => Option.none

/-- The value is no mapping and no sequence. -/
def IsLeaf (v : PyValue) : Prop := v.asMapping = Option.none ∧ v.asSequence = Option.none

/-- Induction over a value: what holds of the parts of mappings and sequences holds of them. -/
theorem nested {P : PyValue → Prop}
    (leaf : ∀ v, v.asMapping = Option.none → v.asSequence = Option.none → P v)
    (mapping : ∀ items : PyDict, (∀ e ∈ items, P e.2) → P (.mapping items))
    (sequence : ∀ items : List PyValue, (∀ v ∈ items, P v) → P (.sequence items)) (v : PyValue) : P v := by
  refine @PyValue.rec P (fun items => ∀ e ∈ items, P e.2) (fun items => ∀ v ∈ items, P v) (fun e => P e.2)
    ?none ?bool ?int ?float ?str ?bytes ?datetime mapping sequence ?object ?noItems ?items ?noElements ?elements
    (fun _ _ h => h) v
  case none | bool | int | float | str | bytes | datetime | object => all_goals intros; exact leaf _ rfl rfl
  case noItems | noElements => all_goals exact fun _ h => absurd h List.not_mem_nil
  case items | elements =>
    all_goals
      intro _ _ hhead htail e he
      rcases List.mem_cons.mp he with rfl | he
      · exact hhead
      · exact htail e he

end PyValue

namespace PyDict

/-- `mapping.get(key)`. -/
def get (items : PyDict) (key : String) : PyValue := ((items.find? fun e => e.1 = .str key).map (·.2)).getD .none

/-- `mapping[key] = value`: an old key keeps its place. -/
def set (items : PyDict) (key : String) (value : PyValue) : PyDict :=
  if items.any fun e => e.1 = .str key then items.map fun e => if e.1 = .str key then (e.1, value) else e
  else items ++ [(.str key, value)]

/-- The dictionary of a comprehension whose keys are strings: the last value of a key counts. -/
def ofPairs (pairs : List (String × PyValue)) : PyDict := pairs.foldl (fun items e => items.set e.1 e.2) []

theorem ofPairs_append (pairs : List (String × PyValue)) (e : String × PyValue) :
    ofPairs (pairs ++ [e]) = (ofPairs pairs).set e.1 e.2 := by
  simp [ofPairs]

theorem mem_set {items : PyDict} {key : String} {value : PyValue} {e : PyKey × PyValue} :
    e ∈ items.set key value ↔ e = (.str key, value) ∨ e ∈ items ∧ e.1 ≠ .str key := by
  unfold set
  split_ifs with hany
  · obtain ⟨old, hold, hkey⟩ := List.any_eq_true.mp hany
    simp only [List.mem_map]
    constructor
    · rintro ⟨d, hd, rfl⟩
      split_ifs with hd'
      · exact .inl (by rw [hd'])
      · exact .inr ⟨hd, hd'⟩
    · rintro (rfl | ⟨he, hne⟩)
      · have hkey' : old.1 = .str key := of_decide_eq_true hkey
        exact ⟨old, hold, by rw [if_pos hkey', hkey']⟩
      · exact ⟨e, he, if_neg hne⟩
  · have hnew : ∀ d ∈ items, d.1 ≠ .str key := fun d hd hkey =>
      hany (List.any_eq_true.mpr ⟨d, hd, decide_eq_true hkey⟩)
    rw [List.mem_append, List.mem_singleton]
    constructor
    · rintro (he | rfl)
      · exact .inr ⟨he, hnew e he⟩
      · exact .inl rfl
    · rintro (rfl | ⟨he, -⟩)
      · exact .inr rfl
      · exact .inl he

theorem mem_ofPairs {pairs : List (String × PyValue)} {e : PyKey × PyValue} :
    e ∈ ofPairs pairs ↔ ∃ s, e.1 = .str s ∧ pairs.reverse.lookup s = some e.2 := by
  induction pairs using List.reverseRecOn with
  | nil => simp [ofPairs]
  | append_singleton pairs p ih =>
    rw [ofPairs_append, mem_set, ih, List.reverse_append, List.reverse_singleton, List.singleton_append]
    constructor
    · rintro (rfl | ⟨⟨s, hs, hlookup⟩, hne⟩)
      · exact ⟨p.1, rfl, by rw [List.lookup_cons, beq_self_eq_true]⟩
      · have hother : s ≠ p.1 := fun h => hne (h ▸ hs)
        exact ⟨s, hs, by rw [List.lookup_cons, beq_false_of_ne hother]; exact hlookup⟩
    · rintro ⟨s, hs, hlookup⟩
      rw [List.lookup_cons] at hlookup
      by_cases hsame : s = p.1
      · subst hsame
        rw [beq_self_eq_true] at hlookup
        exact .inl (Prod.ext hs (Option.some.inj hlookup).symm)
      · rw [beq_false_of_ne hsame] at hlookup
        refine .inr ⟨⟨s, hs, hlookup⟩, fun h => hsame ?_⟩
        rw [hs] at h
        exact PyKey.str.inj h

/-- A new key comes last. -/
theorem set_of_notMem {items : PyDict} {key : String} (h : .str key ∉ items.map Prod.fst) (value : PyValue) :
    items.set key value = items ++ [(.str key, value)] := by
  refine if_neg fun hany => h ?_
  obtain ⟨d, hd, hkey⟩ := List.any_eq_true.mp hany
  exact List.mem_map.mpr ⟨d, hd, of_decide_eq_true hkey⟩

theorem keys_set_of_mem {items : PyDict} {key : String} (h : .str key ∈ items.map Prod.fst) (value : PyValue) :
    (items.set key value).map Prod.fst = items.map Prod.fst := by
  obtain ⟨d, hd, hkey⟩ := List.mem_map.mp h
  have hany : (items.any fun e => e.1 = .str key) = true := List.any_eq_true.mpr ⟨d, hd, decide_eq_true hkey⟩
  rw [set, if_pos hany, List.map_map]
  refine List.map_congr_left fun e _ => ?_
  rw [Function.comp_apply]
  split_ifs <;> rfl

/-- The keys of a dictionary are distinct. -/
theorem nodup_ofPairs (pairs : List (String × PyValue)) : ((ofPairs pairs).map Prod.fst).Nodup := by
  induction pairs using List.reverseRecOn with
  | nil => exact List.nodup_nil
  | append_singleton pairs p ih =>
    rw [ofPairs_append]
    by_cases hmem : .str p.1 ∈ (ofPairs pairs).map Prod.fst
    · rw [keys_set_of_mem hmem]
      exact ih
    · rw [set_of_notMem hmem, List.map_append]
      exact ih.append (List.nodup_singleton _) (List.disjoint_singleton.mpr hmem)

/-- Pairs with distinct keys are the entries. -/
theorem ofPairs_nodup {pairs : List (String × PyValue)} (h : (pairs.map Prod.fst).Nodup) :
    ofPairs pairs = pairs.map fun e => (.str e.1, e.2) := by
  induction pairs using List.reverseRecOn with
  | nil => rfl
  | append_singleton pairs p ih =>
    rw [List.map_append, List.nodup_append] at h
    obtain ⟨hpairs, -, hdisjoint⟩ := h
    have hnew : .str p.1 ∉ (ofPairs pairs).map Prod.fst := by
      rw [ih hpairs, List.map_map]
      intro hmem
      obtain ⟨e, he, hkey⟩ := List.mem_map.mp hmem
      exact hdisjoint e.1 (List.mem_map_of_mem he) p.1 (by simp) (PyKey.str.inj hkey)
    rw [ofPairs_append, set_of_notMem hnew, ih hpairs, List.map_append]
    rfl

end PyDict

end Washing
