import Washing.Lib.PyValue

/-!
# Task results

`sanitize_task_result` reduces the return value of a task to a JSON object whose keys are on an allowlist. What it
leaves of a value is `Reduced`, and reduced values stay as they are (`sanitizeJsonValue_reduced`). It cannot tell
values apart that differ under other keys only (`Edits.sanitized`). What a result is like depends on the leaves that are
left of the value (`result_iff`); numbers pass as they are, so that it is JSON exactly when the ones that are left are
finite (`isJson_result`).
-/

namespace Washing

/-- `SAFE_TASK_RESULT_KEYS`. -/
def safeTaskResultKeys : List String :=
  ["application_id", "applications", "batch_size", "created", "deleted", "flavor_changes", "machine_id", "machines",
    "provider_id", "providers", "provisioners", "skipped", "status", "synced", "total", "updated"]

mutual

/-- Convert arbitrary task payload values to safe JSON-compatible primitives. -/
def sanitizeJsonValue : PyValue → PyValue
  | .none => .none
  | .bool b => .bool b
  | .int n => .int n
  | .float repr => .float repr
  | .str s => .str s
  | .datetime isoformat => .str isoformat
  | .mapping items => .mapping (PyDict.ofPairs (sanitizeItems items))
  | .sequence items => .sequence (sanitizeElements items)
  | .bytes text => .str text
  | .object text => .str text

/-- The entries on the allowlist, sanitized. -/
def sanitizeItems : List (PyKey × PyValue) → List (String × PyValue)
  | [] => []
  | (key, item) :: items =>
    if key.text ∈ safeTaskResultKeys then (key.text, sanitizeJsonValue item) :: sanitizeItems items
    else sanitizeItems items

def sanitizeElements : List PyValue → List PyValue
  | [] => []
  | item :: items => sanitizeJsonValue item :: sanitizeElements items

end

/-- Reduce task return values to a small, predictable JSON object. -/
def sanitizeTaskResult : PyValue → Option PyDict
  | .none => none
  | .mapping items =>
    let result := PyDict.ofPairs (sanitizeItems items)
    if result.isEmpty then none else some result
  | value => some [(.str "status", sanitizeJsonValue value)]

example : sanitizeTaskResult (.mapping [(.str "created", .int 1), (.str "token", .str "x")]) =
    some [(.str "created", .int 1)] := rfl

theorem sanitizeItems_eq : ∀ items : PyDict, sanitizeItems items =
    (items.filter fun e => e.1.text ∈ safeTaskResultKeys).map fun e => (e.1.text, sanitizeJsonValue e.2)
  | [] => rfl
  | (key, item) :: items => by
    rw [sanitizeItems, List.filter_cons]
    by_cases hsafe : key.text ∈ safeTaskResultKeys
    · simp [hsafe, sanitizeItems_eq items]
    · simp [hsafe, sanitizeItems_eq items]

theorem sanitizeElements_eq : ∀ items : List PyValue, sanitizeElements items = items.map sanitizeJsonValue
  | [] => rfl
  | item :: items => by rw [sanitizeElements, sanitizeElements_eq items, List.map_cons]

/-! ## Reduced values -/

/-- The keys of a mapping are texts on the allowlist, once each. -/
structure AllowedKeys (items : PyDict) : Prop where
  safe : ∀ e ∈ items, ∃ s ∈ safeTaskResultKeys, e.1 = .str s
  nodup : (items.map Prod.fst).Nodup

/-- What is left of a value: primitives, and sequences and mappings of such, with allowed keys. -/
inductive Reduced : PyValue → Prop
  | none : Reduced .none
  | bool (b : Bool) : Reduced (.bool b)
  | int (n : Int) : Reduced (.int n)
  | float (repr : String) : Reduced (.float repr)
  | str (s : String) : Reduced (.str s)
  | mapping {items : PyDict} (hkeys : AllowedKeys items) (h : ∀ e ∈ items, Reduced e.2) : Reduced (.mapping items)
  | sequence {items : List PyValue} (h : ∀ v ∈ items, Reduced v) : Reduced (.sequence items)

/-- The value of the last entry whose key has a given text. -/
def lastOf (items : PyDict) (text : String) : Option PyValue :=
  (items.reverse.find? fun e => e.1.text = text).map (·.2)

theorem lookup_sanitizeItems {s : String} : ∀ items : PyDict,
    ((items.filter fun e => e.1.text ∈ safeTaskResultKeys).map fun e => (e.1.text, sanitizeJsonValue e.2)).lookup s =
      if s ∈ safeTaskResultKeys then (items.find? fun e => e.1.text = s).map fun e => sanitizeJsonValue e.2 else none
  | [] => by simp
  | e :: items => by
    have ih := lookup_sanitizeItems (s := s) items
    rw [List.filter_cons, List.find?_cons]
    by_cases hsame : e.1.text = s
    · subst hsame
      by_cases hsafe : e.1.text ∈ safeTaskResultKeys
      · simp [hsafe]
      · simpa [hsafe] using ih
    · have hne : (s == e.1.text) = false := beq_false_of_ne fun h => hsame h.symm
      by_cases hsafe : e.1.text ∈ safeTaskResultKeys
      · simpa [hsafe, hsame, List.lookup_cons, hne] using ih
      · simpa [hsafe, hsame] using ih

/-- The entries of a sanitized mapping are those under the keys on the allowlist, the last one under each. -/
theorem mem_sanitized {items : PyDict} {e : PyKey × PyValue} : e ∈ PyDict.ofPairs (sanitizeItems items) ↔
    ∃ s ∈ safeTaskResultKeys, ∃ v, lastOf items s = some v ∧ e = (.str s, sanitizeJsonValue v) := by
  rw [PyDict.mem_ofPairs]
  refine exists_congr fun s => ?_
  rw [sanitizeItems_eq, ← List.map_reverse, ← List.filter_reverse, lookup_sanitizeItems]
  by_cases hsafe : s ∈ safeTaskResultKeys
  · rw [if_pos hsafe, and_iff_right hsafe, Option.map_eq_some_iff]
    constructor
    · rintro ⟨hkey, d, hd, hvalue⟩
      exact ⟨d.2, by rw [lastOf, hd, Option.map_some], Prod.ext hkey hvalue.symm⟩
    · rintro ⟨v, hlast, rfl⟩
      obtain ⟨d, hd, rfl⟩ := Option.map_eq_some_iff.mp hlast
      exact ⟨rfl, d, hd, rfl⟩
  · rw [if_neg hsafe]
    exact ⟨fun h => absurd h.2 nofun, fun h => absurd h.1 hsafe⟩

/-- What is left of the entries of a mapping. -/
theorem allowedKeys_sanitized (items : PyDict) : AllowedKeys (PyDict.ofPairs (sanitizeItems items)) := by
  refine ⟨fun e he => ?_, PyDict.nodup_ofPairs _⟩
  obtain ⟨s, hs, _, -, rfl⟩ := mem_sanitized.mp he
  exact ⟨s, hs, rfl⟩

theorem lastOf_mem {items : PyDict} {s : String} {v : PyValue} (h : lastOf items s = some v) :
    ∃ e ∈ items, e.1.text = s ∧ e.2 = v := by
  obtain ⟨e, he, rfl⟩ := Option.map_eq_some_iff.mp h
  exact ⟨e, List.mem_reverse.mp (List.mem_of_find?_eq_some he), by simpa using List.find?_some he, rfl⟩

/-- Every value is reduced. -/
theorem reduced_sanitizeJsonValue (v : PyValue) : Reduced (sanitizeJsonValue v) := by
  induction v using PyValue.nested with
  | leaf v hmapping hsequence =>
    cases v with
    | mapping items => cases hmapping
    | sequence items => cases hsequence
    | none => exact .none
    | bool b => exact .bool b
    | int n => exact .int n
    | float repr => exact .float repr
    | str s | bytes s | datetime s | object s => all_goals exact .str s
  | mapping items ih =>
    refine .mapping (allowedKeys_sanitized items) fun e he => ?_
    obtain ⟨s, -, v, hlast, rfl⟩ := mem_sanitized.mp he
    obtain ⟨d, hd, -, rfl⟩ := lastOf_mem hlast
    exact ih d hd
  | sequence items ih =>
    rw [sanitizeJsonValue, sanitizeElements_eq]
    refine .sequence fun w hw => ?_
    obtain ⟨v, hv, rfl⟩ := List.mem_map.mp hw
    exact ih v hv

/-- The entries of a mapping with allowed keys and reduced values stay as they are. -/
theorem sanitizeItems_reduced {items : PyDict} (hkeys : AllowedKeys items)
    (h : ∀ e ∈ items, sanitizeJsonValue e.2 = e.2) : PyDict.ofPairs (sanitizeItems items) = items := by
  have hentry : ∀ e ∈ items, (.str e.1.text, sanitizeJsonValue e.2) = e := by
    intro e he
    obtain ⟨s, -, hs⟩ := hkeys.safe e he
    rw [h e he]
    exact Prod.ext (by rw [hs]; rfl) rfl
  have hall : items.filter (fun e => e.1.text ∈ safeTaskResultKeys) = items := by
    refine List.filter_eq_self.mpr fun e he => decide_eq_true ?_
    obtain ⟨s, hs, hkey⟩ := hkeys.safe e he
    rw [hkey]
    exact hs
  have hentries : items.map (fun e => (PyKey.str e.1.text, sanitizeJsonValue e.2)) = items :=
    (List.map_congr_left hentry).trans (List.map_id' items)
  have hnodup : (items.map fun e => e.1.text).Nodup := by
    refine List.Nodup.of_map PyKey.str ?_
    have htexts : (items.map fun e => e.1.text).map PyKey.str = items.map Prod.fst := by
      rw [List.map_map]
      exact List.map_congr_left fun e he => congrArg Prod.fst (hentry e he)
    rw [htexts]
    exact hkeys.nodup
  rw [sanitizeItems_eq, hall, PyDict.ofPairs_nodup (by rw [List.map_map]; exact hnodup), List.map_map]
  exact hentries

/-- A reduced value stays as it is. -/
theorem sanitizeJsonValue_reduced {v : PyValue} (h : Reduced v) : sanitizeJsonValue v = v := by
  induction h with
  | none | bool | int | float | str => rfl
  | mapping hkeys _ ih => rw [sanitizeJsonValue, sanitizeItems_reduced hkeys ih]
  | sequence _ ih =>
    rw [sanitizeJsonValue, sanitizeElements_eq, List.map_congr_left ih, List.map_id']

/-! ## Keys and numbers in a value -/

/-- The key of an entry somewhere in the value. -/
inductive KeyIn (key : PyKey) : PyValue → Prop
  | here {items : PyDict} {e : PyKey × PyValue} (he : e ∈ items) (hkey : e.1 = key) : KeyIn key (.mapping items)
  | under {items : PyDict} {e : PyKey × PyValue} (he : e ∈ items) (h : KeyIn key e.2) : KeyIn key (.mapping items)
  | inside {items : List PyValue} {v : PyValue} (hv : v ∈ items) (h : KeyIn key v) : KeyIn key (.sequence items)

theorem Reduced.key_safe {v : PyValue} (h : Reduced v) {key : PyKey} (hkey : KeyIn key v) :
    ∃ s ∈ safeTaskResultKeys, key = .str s := by
  induction hkey with
  | here he hkey =>
    cases h with
    | mapping hkeys _ => exact hkey ▸ hkeys.safe _ he
  | under he _ ih =>
    cases h with
    | mapping _ hvalues => exact ih (hvalues _ he)
  | inside hv _ ih =>
    cases h with
    | sequence hvalues => exact ih (hvalues _ hv)

/-- The `repr` of a finite number. -/
def FiniteRepr (repr : String) : Prop := repr ∉ ["nan", "inf", "-inf"]

instance (repr : String) : Decidable (FiniteRepr repr) := inferInstanceAs (Decidable (_ ∉ _))

/-- The value is a JSON value: its numbers are finite, and its mappings are objects. -/
inductive IsJson : PyValue → Prop
  | null : IsJson .none
  | bool (b : Bool) : IsJson (.bool b)
  | int (n : Int) : IsJson (.int n)
  | number {repr : String} (h : FiniteRepr repr) : IsJson (.float repr)
  | string (s : String) : IsJson (.str s)
  | array {items : List PyValue} (h : ∀ v ∈ items, IsJson v) : IsJson (.sequence items)
  | object {items : PyDict} (hkeys : ∀ e ∈ items, ∃ s, e.1 = .str s) (hnodup : (items.map Prod.fst).Nodup)
      (h : ∀ e ∈ items, IsJson e.2) : IsJson (.mapping items)

/-- A value that sanitizing leaves: it is reached through keys on the allowlist, the last entry under each. -/
inductive Kept (w : PyValue) : PyValue → Prop
  | here : Kept w w
  | entry {items : PyDict} {s : String} {v : PyValue} (hs : s ∈ safeTaskResultKeys) (hlast : lastOf items s = some v)
      (h : Kept w v) : Kept w (.mapping items)
  | element {items : List PyValue} {v : PyValue} (hv : v ∈ items) (h : Kept w v) : Kept w (.sequence items)

/-- What holds of mappings with allowed keys and of sequences when it holds of their parts, holds of what is left of a
value exactly when it holds of the leaves that are left. -/
theorem sanitized_iff {Q : PyValue → Prop}
    (hmapping : ∀ items, AllowedKeys items → (Q (.mapping items) ↔ ∀ e ∈ items, Q e.2))
    (hsequence : ∀ items, Q (.sequence items) ↔ ∀ v ∈ items, Q v) (v : PyValue) :
    Q (sanitizeJsonValue v) ↔ ∀ w, Kept w v → w.IsLeaf → Q (sanitizeJsonValue w) := by
  induction v using PyValue.nested with
  | leaf v hm hs =>
    constructor
    · intro h w hkept _
      cases hkept with
      | here => exact h
      | entry => cases hm
      | element => cases hs
    · exact fun h => h v .here ⟨hm, hs⟩
  | mapping items ih =>
    rw [sanitizeJsonValue, hmapping _ (allowedKeys_sanitized items)]
    constructor
    · intro h w hkept hleaf
      cases hkept with
      | here => cases hleaf.1
      | entry hs hlast hkept =>
        obtain ⟨d, hd, -, rfl⟩ := lastOf_mem hlast
        exact (ih d hd).mp (h _ (mem_sanitized.mpr ⟨_, hs, _, hlast, rfl⟩)) w hkept hleaf
    · intro h e he
      obtain ⟨s, hs, v, hlast, rfl⟩ := mem_sanitized.mp he
      obtain ⟨d, hd, -, rfl⟩ := lastOf_mem hlast
      exact (ih d hd).mpr fun w hkept hleaf => h w (.entry hs hlast hkept) hleaf
  | sequence items ih =>
    rw [sanitizeJsonValue, sanitizeElements_eq, hsequence]
    constructor
    · intro h w hkept hleaf
      cases hkept with
      | here => cases hleaf.2
      | element hv hkept => exact (ih _ hv).mp (h _ (List.mem_map_of_mem hv)) w hkept hleaf
    · intro h w hw
      obtain ⟨v, hv, rfl⟩ := List.mem_map.mp hw
      exact (ih v hv).mpr fun w hkept hleaf => h w (.element hv hkept) hleaf

theorem isJson_mapping {items : PyDict} (hkeys : AllowedKeys items) :
    IsJson (.mapping items) ↔ ∀ e ∈ items, IsJson e.2 := by
  constructor
  · intro h
    cases h with
    | object _ _ hvalues => exact hvalues
  · intro h
    refine .object (fun e he => ?_) hkeys.nodup h
    obtain ⟨s, -, hkey⟩ := hkeys.safe e he
    exact ⟨s, hkey⟩

theorem isJson_sequence (items : List PyValue) : IsJson (.sequence items) ↔ ∀ v ∈ items, IsJson v := by
  constructor
  · intro h
    cases h with
    | array hitems => exact hitems
  · exact .array

/-- The leaves that are left of a value are JSON exactly when the numbers among them are finite. -/
theorem isJson_leaves (v : PyValue) : (∀ w, Kept w v → w.IsLeaf → IsJson (sanitizeJsonValue w)) ↔
    ∀ repr, Kept (.float repr) v → FiniteRepr repr := by
  constructor
  · intro h repr hkept
    have hjson : IsJson (.float repr) := h (.float repr) hkept ⟨rfl, rfl⟩
    cases hjson with
    | number hfinite => exact hfinite
  · intro h w hkept hleaf
    cases w with
    | none => exact .null
    | bool b => exact .bool b
    | int n => exact .int n
    | float repr => exact .number (h repr hkept)
    | str s | bytes s | datetime s | object s => all_goals exact .string s
    | mapping items => cases hleaf.1
    | sequence items => cases hleaf.2

/-! ## Changes under other keys -/

/-- An entry under a key outside the allowlist is removed, at the top or further down. -/
inductive Edits : PyValue → PyValue → Prop
  | remove {before after : PyDict} {e : PyKey × PyValue} (h : e.1.text ∉ safeTaskResultKeys) :
      Edits (.mapping (before ++ e :: after)) (.mapping (before ++ after))
  | under {before after : PyDict} {key : PyKey} {v w : PyValue} (h : Edits v w) :
      Edits (.mapping (before ++ (key, v) :: after)) (.mapping (before ++ (key, w) :: after))
  | inside {before after : List PyValue} {v w : PyValue} (h : Edits v w) :
      Edits (.sequence (before ++ v :: after)) (.sequence (before ++ w :: after))

theorem sanitizeItems_remove {before after : PyDict} {e : PyKey × PyValue} (h : e.1.text ∉ safeTaskResultKeys) :
    sanitizeItems (before ++ e :: after) = sanitizeItems (before ++ after) := by
  simp only [sanitizeItems_eq, List.filter_append, List.filter_cons, h, decide_false, Bool.false_eq_true, if_false]

theorem sanitizeItems_under {before after : PyDict} {key : PyKey} {v w : PyValue}
    (h : sanitizeJsonValue v = sanitizeJsonValue w) :
    sanitizeItems (before ++ (key, v) :: after) = sanitizeItems (before ++ (key, w) :: after) := by
  simp only [sanitizeItems_eq, List.filter_append, List.filter_cons, List.map_append]
  by_cases hsafe : key.text ∈ safeTaskResultKeys
  · simp [hsafe, h]
  · simp [hsafe]

/-- A change under other keys leaves the same. -/
theorem Edits.sanitized {v w : PyValue} (h : Edits v w) : sanitizeJsonValue v = sanitizeJsonValue w := by
  induction h with
  | remove h => rw [sanitizeJsonValue, sanitizeJsonValue, sanitizeItems_remove h]
  | under _ ih => rw [sanitizeJsonValue, sanitizeJsonValue, sanitizeItems_under ih]
  | inside _ ih =>
    rw [sanitizeJsonValue, sanitizeJsonValue, sanitizeElements_eq, sanitizeElements_eq]
    simp only [List.map_append, List.map_cons, ih]

/-- Any changes under other keys leave the same result. -/
theorem sanitizeTaskResult_edits {v w : PyValue} (h : Relation.EqvGen Edits v w) :
    sanitizeTaskResult v = sanitizeTaskResult w := by
  induction h with
  | rel v w h =>
    cases h with
    | remove h => rw [sanitizeTaskResult, sanitizeTaskResult, sanitizeItems_remove h]
    | under h => rw [sanitizeTaskResult, sanitizeTaskResult, sanitizeItems_under h.sanitized]
    | inside h => exact congrArg (fun v => some [(PyKey.str "status", v)]) (Edits.inside h).sanitized
  | refl v => rfl
  | symm _ _ _ ih => exact ih.symm
  | trans _ _ _ _ _ ih ih' => exact ih.trans ih'

/-! ## Results -/

/-- The value of a stored result. -/
def resultValue (result : Option PyDict) : PyValue :=
  match result with
  | none => .none
  | some items => .mapping items

/-- The entries that the result is made of: a value that is no mapping goes under `status`. -/
def resultEntries : PyValue → PyDict
  | .none => []
  | .mapping items => items
  | value => [(.str "status", value)]

theorem sanitizeTaskResult_eq (v : PyValue) : sanitizeTaskResult v =
    if PyDict.ofPairs (sanitizeItems (resultEntries v)) = [] then none
    else some (PyDict.ofPairs (sanitizeItems (resultEntries v))) := by
  cases v with
  | mapping items =>
    rw [sanitizeTaskResult, resultEntries]
    simp only [List.isEmpty_iff]
  | none | bool | int | float | str | bytes | datetime | sequence | object => rfl

/-- The result is nothing, or a mapping that is reduced. -/
theorem sanitizeTaskResult_cases (v : PyValue) :
    (sanitizeTaskResult v = none ∧ PyDict.ofPairs (sanitizeItems (resultEntries v)) = []) ∨
    ∃ items, sanitizeTaskResult v = some items ∧ items ≠ [] ∧ PyDict.ofPairs (sanitizeItems (resultEntries v)) = items ∧
      Reduced (.mapping items) := by
  have hreduced := reduced_sanitizeJsonValue (.mapping (resultEntries v))
  rw [sanitizeJsonValue] at hreduced
  rw [sanitizeTaskResult_eq]
  split_ifs with hempty
  · exact .inl ⟨rfl, hempty⟩
  · exact .inr ⟨_, rfl, hempty, rfl, hreduced⟩

/-- A result stays as it is. -/
theorem sanitizeTaskResult_twice (v : PyValue) :
    sanitizeTaskResult (resultValue (sanitizeTaskResult v)) = sanitizeTaskResult v := by
  obtain ⟨hnone, -⟩ | ⟨items, hsome, hne, -, hreduced⟩ := sanitizeTaskResult_cases v
  · rw [hnone]
    rfl
  · have hfixed : PyDict.ofPairs (sanitizeItems items) = items := by
      have hvalue := sanitizeJsonValue_reduced hreduced
      rw [sanitizeJsonValue] at hvalue
      exact PyValue.mapping.inj hvalue
    rw [hsome, resultValue, sanitizeTaskResult_eq, resultEntries, hfixed, if_neg hne]

/-- The keys of a result are on the allowlist, at every depth. -/
theorem key_of_result {v : PyValue} {key : PyKey} (h : KeyIn key (resultValue (sanitizeTaskResult v))) :
    ∃ s ∈ safeTaskResultKeys, key = .str s := by
  obtain ⟨hnone, -⟩ | ⟨items, hsome, -, -, hreduced⟩ := sanitizeTaskResult_cases v
  · rw [hnone] at h
    cases h
  · rw [hsome] at h
    exact hreduced.key_safe h

theorem lastOf_singleton {key : String} {v w : PyValue} {s : String} :
    lastOf [(.str key, v)] s = some w ↔ s = key ∧ w = v := by
  by_cases hs : key = s
  · simp [lastOf, PyKey.text, hs, eq_comm]
  · have hne : ¬ s = key := fun h => hs h.symm
    simp [lastOf, PyKey.text, hs, hne]

/-- A leaf that is kept of the value is kept of its entries. -/
theorem kept_resultEntries {v w : PyValue} (hleaf : w.IsLeaf) (hw : w ≠ .none) :
    Kept w (.mapping (resultEntries v)) ↔ Kept w v := by
  have hwrapped : Kept w (.mapping [(.str "status", v)]) ↔ Kept w v := by
    constructor
    · intro h
      cases h with
      | here => cases hleaf.1
      | entry hs hlast h =>
        obtain ⟨-, rfl⟩ := lastOf_singleton.mp hlast
        exact h
    · exact fun h => .entry (by decide) (lastOf_singleton.mpr ⟨rfl, rfl⟩) h
  cases v with
  | mapping items => rfl
  | none =>
    refine iff_of_false (fun h => ?_) fun h => ?_
    · cases h with
      | here => cases hleaf.1
      | entry _ hlast _ => cases hlast
    · cases h
      exact hw rfl
  | bool | int | float | str | bytes | datetime | sequence | object => exact hwrapped

/-- What holds of a result is decided by the leaves that are left of the value. -/
theorem result_iff {Q : PyValue → Prop} (hnone : Q .none)
    (hmapping : ∀ items, AllowedKeys items → (Q (.mapping items) ↔ ∀ e ∈ items, Q e.2))
    (hsequence : ∀ items, Q (.sequence items) ↔ ∀ v ∈ items, Q v) (v : PyValue) :
    Q (resultValue (sanitizeTaskResult v)) ↔ ∀ w, Kept w v → w.IsLeaf → Q (sanitizeJsonValue w) := by
  have hentries := sanitized_iff hmapping hsequence (.mapping (resultEntries v))
  have hleaves : (∀ w, Kept w (.mapping (resultEntries v)) → w.IsLeaf → Q (sanitizeJsonValue w)) ↔
      ∀ w, Kept w v → w.IsLeaf → Q (sanitizeJsonValue w) := by
    refine forall_congr' fun w => ?_
    by_cases hw : w = .none
    · subst hw
      exact iff_of_true (fun _ _ => hnone) fun _ _ => hnone
    · constructor
      · exact fun h hkept hleaf => h ((kept_resultEntries hleaf hw).mpr hkept) hleaf
      · exact fun h hkept hleaf => h ((kept_resultEntries hleaf hw).mp hkept) hleaf
  rw [← hleaves, ← hentries, sanitizeJsonValue]
  obtain ⟨hresult, hempty⟩ | ⟨items, hresult, -, hitems, -⟩ := sanitizeTaskResult_cases v
  · have hallowed : AllowedKeys [] := hempty ▸ allowedKeys_sanitized (resultEntries v)
    rw [hresult, hempty]
    exact iff_of_true hnone ((hmapping [] hallowed).mpr fun _ he => absurd he List.not_mem_nil)
  · rw [hresult, hitems]
    rfl

/-- The result is JSON exactly when the numbers that are left of the value are finite. -/
theorem isJson_result (v : PyValue) :
    IsJson (resultValue (sanitizeTaskResult v)) ↔ ∀ repr, Kept (.float repr) v → FiniteRepr repr := by
  rw [result_iff .null (fun _ => isJson_mapping) isJson_sequence]
  exact isJson_leaves v

end Washing
