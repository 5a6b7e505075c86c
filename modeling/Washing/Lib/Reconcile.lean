import Mathlib

/-!
# Reconciling a table with a set of keys

A derived table has one row for each key of a snapshot. `reconcile` brings it to another snapshot: rows whose key is
gone are removed, the other rows stay as they are, and a row is made for each key without one.

- afterwards the keys of the table are the snapshot, each once (`mem_reconcile_keys`, `reconcile_nodup`);
- the rows of surviving keys are the old rows (`reconcile_kept`, `reconcile_surviving`);
- the made and the removed rows are the differences of the two key sets (`reconcile_added`, `reconcile_removed`);
- reconciling again changes nothing (`reconcile_again`).
-/

namespace Washing

section Reconcile

variable {α κ : Type} [DecidableEq κ] (key : α → κ) (make : Nat → κ → α)

/-- The keys of one table that are not keys of another. -/
def keysWithout (keys others : List κ) : List κ := keys.filter fun k => k ∉ others

/-- The keys without a row. -/
def missingKeys (rows : List α) (keys : List κ) : List κ := keysWithout keys (rows.map key)

/-- The rows whose key is gone. -/
def staleRows (rows : List α) (keys : List κ) : List α := rows.filter fun r => key r ∉ keys

/-- One row for each key, with identities drawn in order. -/
def makeRows : Nat → List κ → List α
  | _, [] => []
  | next, k :: keys => make next k :: makeRows (next + 1) keys

/-- Remove the rows whose key is gone, and make the rows of the keys without one. -/
def reconcile (next : Nat) (rows : List α) (keys : List κ) : List α :=
  (rows.filter fun r => key r ∈ keys) ++ makeRows make next (missingKeys key rows keys)

variable {key make}

omit [DecidableEq κ] in
/-- The made rows have the keys they were made for. -/
theorem makeRows_keys : ∀ (next : Nat) (keys : List κ), (∀ i, ∀ k ∈ keys, key (make i k) = k) →
    (makeRows make next keys).map key = keys
  | _, [], _ => rfl
  | next, k :: keys, h => by
    rw [makeRows, List.map_cons, h next k List.mem_cons_self,
      makeRows_keys (next + 1) keys fun i l hl => h i l (List.mem_cons_of_mem _ hl)]

omit [DecidableEq κ] in
/-- The identities of the made rows are drawn one after the other. -/
theorem makeRows_ids {id : α → Nat} (hid : ∀ i k, id (make i k) = i) : ∀ (next : Nat) (keys : List κ),
    (makeRows make next keys).map id = List.range' next keys.length
  | _, [] => rfl
  | next, k :: keys => by
    rw [makeRows, List.map_cons, hid, makeRows_ids hid (next + 1) keys, List.length_cons, List.range'_succ]

omit [DecidableEq κ] in
/-- A made row was made for one of the keys. -/
theorem mem_makeRows {r : α} : ∀ {next : Nat} {keys : List κ}, r ∈ makeRows make next keys →
    ∃ i, ∃ k ∈ keys, r = make i k
  | next, k :: keys, h => by
    obtain rfl | h := List.mem_cons.mp h
    · exact ⟨next, k, List.mem_cons_self, rfl⟩
    · obtain ⟨i, l, hl, hr⟩ := mem_makeRows h
      exact ⟨i, l, List.mem_cons_of_mem _ hl, hr⟩

/-- Identities stay distinct when the made rows draw theirs above those in use. -/
theorem reconcile_ids {id : α → Nat} (hid : ∀ i k, id (make i k) = i) {next : Nat} {rows : List α}
    (hrows : (rows.map id).Nodup) (hfresh : ∀ r ∈ rows, id r < next) (keys : List κ) :
    ((reconcile key make next rows keys).map id).Nodup := by
  rw [reconcile, List.map_append, makeRows_ids hid]
  refine List.Nodup.append (hrows.sublist (List.filter_sublist.map id)) (List.nodup_range' 1) ?_
  intro i hold hnew
  obtain ⟨r, hr, rfl⟩ := List.mem_map.mp hold
  have hlt := hfresh r (List.mem_filter.mp hr).1
  have hle := (List.mem_range'_1.mp hnew).1
  omega

theorem mem_missingKeys {rows : List α} {keys : List κ} {k : κ} :
    k ∈ missingKeys key rows keys ↔ k ∈ keys ∧ k ∉ rows.map key := by
  simp [missingKeys, keysWithout]

section Keys

variable {rows : List α} {keys : List κ} (hmake : ∀ i, ∀ k ∈ keys, key (make i k) = k) (next : Nat)

include hmake

theorem reconcile_keys : (reconcile key make next rows keys).map key =
    (rows.filter fun r => key r ∈ keys).map key ++ missingKeys key rows keys := by
  rw [reconcile, List.map_append, makeRows_keys]
  exact fun i k hk => hmake i k (mem_missingKeys.mp hk).1

/-- The table has a row for exactly the keys of the snapshot. -/
theorem mem_reconcile_keys {k : κ} : k ∈ (reconcile key make next rows keys).map key ↔ k ∈ keys := by
  rw [reconcile_keys hmake, List.mem_append, mem_missingKeys]
  constructor
  · rintro (hk | hk)
    · obtain ⟨r, hr, rfl⟩ := List.mem_map.mp hk
      exact of_decide_eq_true (List.mem_filter.mp hr).2
    · exact hk.1
  · intro hk
    by_cases hold : k ∈ rows.map key
    · obtain ⟨r, hr, rfl⟩ := List.mem_map.mp hold
      exact .inl (List.mem_map_of_mem (List.mem_filter.mpr ⟨hr, decide_eq_true hk⟩))
    · exact .inr ⟨hk, hold⟩

/-- No key has two rows. -/
theorem reconcile_nodup (hrows : (rows.map key).Nodup) (hkeys : keys.Nodup) :
    ((reconcile key make next rows keys).map key).Nodup := by
  rw [reconcile_keys hmake]
  refine List.Nodup.append (hrows.sublist (List.filter_sublist.map key)) (hkeys.filter _) ?_
  intro k hk hmissing
  obtain ⟨r, hr, rfl⟩ := List.mem_map.mp hk
  exact (mem_missingKeys.mp hmissing).2 (List.mem_map_of_mem (List.mem_filter.mp hr).1)

/-- The keys that the table gained are the missing ones. -/
theorem reconcile_added : keysWithout ((reconcile key make next rows keys).map key) (rows.map key) =
    missingKeys key rows keys := by
  have hold : ((rows.filter fun r => key r ∈ keys).map key).filter (fun k => k ∉ rows.map key) = [] := by
    refine List.filter_eq_nil_iff.mpr fun k hk => ?_
    obtain ⟨r, hr, rfl⟩ := List.mem_map.mp hk
    simpa using ⟨r, (List.mem_filter.mp hr).1, rfl⟩
  have hnew : (missingKeys key rows keys).filter (fun k => k ∉ rows.map key) = missingKeys key rows keys :=
    List.filter_eq_self.mpr fun k hk => decide_eq_true (mem_missingKeys.mp hk).2
  rw [keysWithout, reconcile_keys hmake, List.filter_append, hold, hnew, List.nil_append]

/-- The keys that the table lost are those of the stale rows. -/
theorem reconcile_removed : keysWithout (rows.map key) ((reconcile key make next rows keys).map key) =
    (staleRows key rows keys).map key := by
  rw [keysWithout, List.filter_map, staleRows]
  congr 1
  refine List.filter_congr fun r _ => ?_
  simp only [Function.comp_apply, mem_reconcile_keys hmake]

/-- Reconciling with a snapshot of the same keys again makes no row and removes none. -/
theorem reconcile_again {keys' : List κ} (h : ∀ k, k ∈ keys' ↔ k ∈ keys) :
    missingKeys key (reconcile key make next rows keys) keys' = [] ∧
      staleRows key (reconcile key make next rows keys) keys' = [] := by
  constructor
  · refine List.filter_eq_nil_iff.mpr fun k hk => ?_
    simpa only [decide_eq_true_eq, not_not, mem_reconcile_keys hmake] using (h k).mp hk
  · refine List.filter_eq_nil_iff.mpr fun r hr => ?_
    have hk := (mem_reconcile_keys hmake next).mp (List.mem_map_of_mem hr)
    simpa only [decide_eq_true_eq, not_not] using (h _).mpr hk

/-- A row whose key is in the table stays. -/
theorem reconcile_kept {r : α} (hr : r ∈ rows) (hk : key r ∈ (reconcile key make next rows keys).map key) :
    r ∈ reconcile key make next rows keys := by
  have hkey := (mem_reconcile_keys hmake next).mp hk
  exact List.mem_append_left _ (List.mem_filter.mpr ⟨hr, decide_eq_true hkey⟩)

/-- A row whose key was in the table was there before. -/
theorem reconcile_surviving {r : α} (hr : r ∈ reconcile key make next rows keys) (hk : key r ∈ rows.map key) :
    r ∈ rows := by
  rcases List.mem_append.mp hr with hr | hr
  · exact (List.mem_filter.mp hr).1
  · have hmap : (makeRows make next (missingKeys key rows keys)).map key = missingKeys key rows keys :=
      makeRows_keys next _ fun i k hk => hmake i k (mem_missingKeys.mp hk).1
    have hmissing : key r ∈ missingKeys key rows keys := hmap ▸ List.mem_map_of_mem hr
    exact absurd hk (mem_missingKeys.mp hmissing).2

end Keys

end Reconcile

end Washing
