import Washing.Lib.Table

/-!
# A unit of work

A session keeps, for each stored row, the object that the program assigns to (`Tracked`). Nothing reaches the table
until the session flushes: then the rows whose object differs are updated one by one in the order of their keys, each
update being checked at once against the unique constraints, and stamped with a reading of the clock.

`Orderly` is the condition on the session before a flush under which no update of it violates a constraint: no changed
object may conflict with what the table holds when its turn comes, that is the objects of the rows with smaller keys and
the stored rows of the others. `flush_cases` says that a flush succeeds exactly then, and what it leaves behind. The
proof follows the loop over the keys (`flushIds_cases`), each step of which is `emitUpdate_cases`.
-/

namespace Washing

/-- How rows conflict, and what an update writes besides the assigned columns. -/
structure Mapper (α : Type) [Row α] where
  conflicts : α → α → Prop
  decidable : DecidableRel conflicts
  stamp : Nat → α → α
  id_stamp : ∀ k r, Row.id (stamp k r) = Row.id r
  conflicts_symm : ∀ a b, conflicts a b → conflicts b a
  conflicts_stamp : ∀ k a b, conflicts (stamp k a) b ↔ conflicts a b

instance {α : Type} [Row α] (M : Mapper α) : DecidableRel M.conflicts := M.decidable

/-- A stored row and the object of the session for it. -/
structure Tracked (α : Type) [Row α] where
  stored : α
  object : α
  same_id : Row.id object = Row.id stored

variable {α : Type} [Row α]

instance : Row (Tracked α) := ⟨fun t => Row.id t.stored⟩

namespace Tracked

/-- The object of a row that was not assigned to. -/
def clean (r : α) : Tracked α := ⟨r, r, rfl⟩

/-- The object differs from the stored row: the next flush updates the row. -/
def Pending (t : Tracked α) : Prop := t.object ≠ t.stored

instance [DecidableEq α] (t : Tracked α) : Decidable t.Pending := inferInstanceAs (Decidable (_ ≠ _))

/-- The row after an update. -/
def sync (M : Mapper α) (k : Nat) (t : Tracked α) : Tracked α := clean (M.stamp k t.object)

@[simp] theorem stored_clean (r : α) : (clean r).stored = r := rfl

@[simp] theorem object_clean (r : α) : (clean r).object = r := rfl

theorem not_pending_clean (r : α) : ¬ (clean r).Pending := fun h => h rfl

theorem id_sync (M : Mapper α) (k : Nat) (t : Tracked α) : Row.id (t.sync M k) = Row.id t :=
  (M.id_stamp k t.object).trans t.same_id

end Tracked

/-- The rows of a session, the number of readings of the clock, and the keys of the rows it has written so far. -/
structure Session (α : Type) [Row α] where
  rows : List (Tracked α)
  ticks : Nat
  emitted : List Nat

namespace Session

/-- A session that has loaded a table. -/
def load (rows : List α) (ticks : Nat) : Session α := ⟨rows.map Tracked.clean, ticks, []⟩

/-- The table as queries see it. -/
def stored (s : Session α) : List α := s.rows.map (·.stored)

/-- The objects of the session. -/
def objects (s : Session α) : List α := s.rows.map (·.object)

/-- Assign to the object of a row. -/
def assign (s : Session α) (i : Nat) (f : α → α) (hf : ∀ r, Row.id (f r) = Row.id r) : Session α :=
  { s with rows := Table.modify s.rows i fun t => ⟨t.stored, f t.object, (hf _).trans t.same_id⟩ }

theorem ids_assign (s : Session α) (i : Nat) (f : α → α) (hf : ∀ r, Row.id (f r) = Row.id r) :
    Table.ids (s.assign i f hf).rows = Table.ids s.rows := by
  refine Table.ids_modify (fun t => ?_) s.rows i
  rfl

/-- An assignment reaches the object of its row, and no stored row. -/
theorem mem_assign {s : Session α} {i : Nat} {f : α → α} {hf : ∀ r, Row.id (f r) = Row.id r} {u : Tracked α}
    (hu : u ∈ (s.assign i f hf).rows) : ∃ t ∈ s.rows, u.stored = t.stored ∧
      (Row.id t = i ∧ u.object = f t.object ∨ Row.id t ≠ i ∧ u = t) := by
  obtain ⟨t, ht, rfl⟩ := Table.mem_modify.mp hu
  by_cases hi : Row.id t = i
  · exact ⟨t, ht, by simp [hi], .inl ⟨hi, by simp [hi]⟩⟩
  · exact ⟨t, ht, by simp [hi], .inr ⟨hi, by simp [hi]⟩⟩

variable [DecidableEq α]

/-- Update one row if its object differs; an update that violates a constraint reports the two rows. -/
def emitUpdate (M : Mapper α) (s : Session α) (i : Nat) : Except (α × α) (Session α) :=
  match Table.get s.rows i with
  | none => .ok s
  | some t =>
    if t.Pending then
      match s.rows.find? fun r => Row.id r ≠ i ∧ M.conflicts t.object r.stored with
      | some r => .error (t.object, r.stored)
      | none => .ok ⟨Table.modify s.rows i (Tracked.sync M s.ticks), s.ticks + 1, s.emitted ++ [i]⟩
    else .ok s

/-- The loop of a flush over the keys of the rows. -/
def flushIds (M : Mapper α) : List Nat → Session α → Except (α × α) (Session α)
  | [], s => .ok s
  | i :: is, s =>
    match emitUpdate M s i with
    | .error e => .error e
    | .ok s => flushIds M is s

/-- Write the pending updates, in the order of the keys. -/
def flush (M : Mapper α) (s : Session α) : Except (α × α) (Session α) :=
  flushIds M ((Table.ids s.rows).insertionSort (· ≤ ·)) s

/-- Add a row: the pending updates are written first, then the new row. -/
def insert (M : Mapper α) (s : Session α) (r : α) : Except (α × α) (Session α) :=
  match flush M s with
  | .error e => .error e
  | .ok s =>
    match s.rows.find? fun t => M.conflicts r t.stored with
    | some t => .error (r, t.stored)
    | none => .ok ⟨s.rows ++ [Tracked.clean (M.stamp s.ticks r)], s.ticks + 1, s.emitted ++ [Row.id r]⟩

/-! ## When a flush succeeds -/

/-- The update of row `i` finds no conflict, the rows with smaller keys having been written. -/
def Free (M : Mapper α) (rows : List (Tracked α)) (i : Nat) : Prop :=
  ∀ t ∈ rows, Row.id t = i → t.Pending → ∀ r ∈ rows, Row.id r ≠ i →
    ¬ M.conflicts t.object (if Row.id r < i then r.object else r.stored)

/-- No update of the next flush conflicts with the table at its turn. -/
def Orderly (M : Mapper α) (rows : List (Tracked α)) : Prop :=
  ∀ t ∈ rows, t.Pending → ∀ r ∈ rows, Row.id r ≠ Row.id t →
    ¬ M.conflicts t.object (if Row.id r < Row.id t then r.object else r.stored)

instance (M : Mapper α) (rows : List (Tracked α)) : Decidable (Orderly M rows) :=
  inferInstanceAs (Decidable (∀ t ∈ rows, _))

/-- A row in the middle of a flush: updated if its key is no longer to come and it was pending. -/
def settle (M : Mapper α) (tick : Nat → Nat) (todo : List Nat) (t : Tracked α) : Tracked α :=
  if Row.id t ∉ todo ∧ t.Pending then t.sync M (tick (Row.id t)) else t

section Flush

variable (M : Mapper α) {tick : Nat → Nat} {todo : List Nat} {rows : List (Tracked α)}

@[simp] theorem id_settle (t : Tracked α) : Row.id (settle M tick todo t) = Row.id t := by
  unfold settle
  split_ifs
  · exact t.id_sync M _
  · rfl

/-- What the table holds for a row in the middle of a flush conflicts as its object does, or as the stored row. -/
theorem conflicts_settle (a : α) (t : Tracked α) : M.conflicts a (settle M tick todo t).stored ↔
    M.conflicts a (if Row.id t ∈ todo then t.stored else t.object) := by
  have hstamp : ∀ k, M.conflicts a (M.stamp k t.object) ↔ M.conflicts a t.object := fun k =>
    ⟨fun h => M.conflicts_symm _ _ ((M.conflicts_stamp k _ _).mp (M.conflicts_symm _ _ h)),
      fun h => M.conflicts_symm _ _ ((M.conflicts_stamp k _ _).mpr (M.conflicts_symm _ _ h))⟩
  unfold settle
  by_cases htodo : Row.id t ∈ todo
  · simp [htodo]
  · by_cases hp : t.Pending
    · simp only [htodo, hp, not_false_eq_true, and_self, if_true, if_false, Tracked.sync, Tracked.stored_clean]
      exact hstamp _
    · have heq : t.object = t.stored := not_not.mp hp
      simp [htodo, hp, heq]

/-- Finishing a key that is not pending changes nothing. -/
theorem settle_cons_of_not_pending {i : Nat} (h : ∀ t ∈ rows, Row.id t = i → ¬ t.Pending) :
    rows.map (settle M tick (i :: todo)) = rows.map (settle M tick todo) := by
  refine List.map_congr_left fun t ht => ?_
  unfold settle
  by_cases hi : Row.id t = i
  · simp [h t ht hi]
  · simp [hi]

/-- Updating the row of a key finishes it. -/
theorem modify_settle {i k : Nat} (hi : i ∉ todo) (h : ∀ t ∈ rows, Row.id t = i → t.Pending) :
    Table.modify (rows.map (settle M tick (i :: todo))) i (Tracked.sync M k) =
      rows.map (settle M (Function.update tick i k) todo) := by
  rw [Table.modify_map (id_settle M)]
  refine List.map_congr_left fun t ht => ?_
  by_cases hti : Row.id t = i
  · have hp := h t ht hti
    simp [settle, hti, hi, hp]
  · simp [settle, hti]

variable (rows todo)

/-- A flush of `rows` that has the keys `todo` still to come; `lo` bounds the readings of the clock it has used. -/
structure Progress (lo : Nat) (emitted : List Nat) (s : Session α) : Prop where
  lo_le : lo ≤ s.ticks
  rows_eq : ∃ tick, s.rows = rows.map (settle M tick todo) ∧ ∀ j, lo ≤ tick j
  mem_emitted : ∀ j, j ∈ s.emitted ↔ j ∈ emitted ∨ j ∉ todo ∧ ∃ t ∈ rows, Row.id t = j ∧ t.Pending

variable {rows todo}

/-- One step of the loop: it fails exactly when the row is not free. -/
theorem emitUpdate_cases {s : Session α} (hk : Table.Keyed rows) {i : Nat} (hi : i ∉ todo)
    (hlt : ∀ r ∈ rows, Row.id r ≠ i → (Row.id r ∉ todo ↔ Row.id r < i)) {lo : Nat} {emitted : List Nat}
    (h : Progress M (i :: todo) rows lo emitted s) :
    (Free M rows i ∧ ∃ s', emitUpdate M s i = .ok s' ∧ Progress M todo rows lo emitted s') ∨
    (¬ Free M rows i ∧ ∃ e, emitUpdate M s i = .error e) := by
  obtain ⟨hlo, ⟨tick, hrows, htick⟩, hemitted⟩ := h
  have hget : Table.get s.rows i = (Table.get rows i).map (settle M tick (i :: todo)) := by
    rw [hrows, Table.get_map (id_settle M)]
  by_cases hpending : ∃ t ∈ rows, Row.id t = i ∧ t.Pending
  · obtain ⟨t, ht, hid, hp⟩ := hpending
    have hall : ∀ r ∈ rows, Row.id r = i → r.Pending := fun r hr hri => hk.eq_of_id hr ht (hri.trans hid.symm) ▸ hp
    have hsome : Table.get s.rows i = some t := by
      rw [hget, (Table.get_eq_some_iff hk).mpr ⟨ht, hid⟩]
      simp [settle, hid]
    have hconflict : ∀ r ∈ rows, Row.id r ≠ i →
        (M.conflicts t.object (settle M tick (i :: todo) r).stored ↔
          M.conflicts t.object (if Row.id r < i then r.object else r.stored)) := by
      intro r hr hri
      rw [conflicts_settle]
      by_cases hlt' : Row.id r < i
      · have hnot := (hlt r hr hri).mpr hlt'
        simp [hri, hnot, hlt']
      · have hmem : Row.id r ∈ todo := not_not.mp ((hlt r hr hri).not.mpr hlt')
        simp [hmem, hlt']
    unfold emitUpdate
    simp only [hsome, hp, if_true]
    cases hfind : s.rows.find? fun r => Row.id r ≠ i ∧ M.conflicts t.object r.stored with
    | some r =>
      refine .inr ⟨fun hfree => ?_, _, rfl⟩
      have hr := List.mem_of_find?_eq_some hfind
      have hbad := List.find?_some hfind
      rw [hrows] at hr
      obtain ⟨q, hq, rfl⟩ := List.mem_map.mp hr
      simp only [id_settle, ne_eq, decide_eq_true_eq] at hbad
      exact hfree t ht hid hp q hq hbad.1 ((hconflict q hq hbad.1).mp hbad.2)
    | none =>
      refine .inl ⟨fun u hu hui _ r hr hri hc => ?_, _, rfl, ?_, ?_, ?_⟩
      · cases hk.eq_of_id hu ht (hui.trans hid.symm)
        have hno := List.find?_eq_none.mp hfind (settle M tick (i :: todo) r)
          (hrows ▸ List.mem_map_of_mem hr)
        simp only [id_settle, ne_eq, decide_eq_true_eq] at hno
        exact hno ⟨hri, (hconflict r hr hri).mpr hc⟩
      · exact hlo.trans (Nat.le_succ _)
      · refine ⟨Function.update tick i s.ticks, ?_, fun j => ?_⟩
        · rw [hrows, modify_settle M hi hall]
        · by_cases hj : j = i
          · simpa [hj] using hlo
          · simpa [hj] using htick j
      · intro j
        rw [List.mem_append, List.mem_singleton, hemitted j]
        by_cases hj : j = i
        · subst hj
          exact iff_of_true (.inr rfl) (.inr ⟨hi, t, ht, hid, hp⟩)
        · simp [hj]
  · -- the row is not pending: nothing is written, and nothing can conflict
    have hclean : ∀ t ∈ rows, Row.id t = i → ¬ t.Pending := fun t ht hid hp => hpending ⟨t, ht, hid, hp⟩
    refine .inl ⟨fun t ht hid hp => absurd hp (hclean t ht hid), s, ?_, hlo, ⟨tick, ?_, htick⟩, fun j => ?_⟩
    · unfold emitUpdate
      rw [hget]
      cases hg : Table.get rows i with
      | none => rfl
      | some t =>
        obtain ⟨ht, hid⟩ := Table.get_some hg
        have hs : settle M tick (i :: todo) t = t := by simp [settle, hid]
        simp [hs, hclean t ht hid]
    · rw [hrows, settle_cons_of_not_pending M hclean]
    · rw [hemitted j]
      by_cases hj : j = i
      · subst hj
        simp [hpending]
      · simp [hj]

/-- The loop over the remaining keys, which are listed in increasing order. -/
theorem flushIds_cases (hk : Table.Keyed rows) : ∀ {todo : List Nat} {s : Session α} {lo : Nat} {emitted : List Nat},
    todo.Pairwise (· < ·) → (∀ r ∈ rows, ∀ i ∈ todo, Row.id r ∉ todo → Row.id r < i) →
    Progress M todo rows lo emitted s →
    ((∀ i ∈ todo, Free M rows i) ∧ ∃ s', flushIds M todo s = .ok s' ∧ Progress M [] rows lo emitted s') ∨
    (¬ (∀ i ∈ todo, Free M rows i) ∧ ∃ e, flushIds M todo s = .error e)
  | [], s, _, _, _, _, h => .inl ⟨by simp, s, rfl, h⟩
  | i :: todo, s, lo, emitted, hsorted, hdone, h => by
    obtain ⟨hfirst, hsorted⟩ := List.pairwise_cons.mp hsorted
    have hi : i ∉ todo := fun hmem => absurd (hfirst i hmem) (lt_irrefl i)
    have hlt : ∀ r ∈ rows, Row.id r ≠ i → (Row.id r ∉ todo ↔ Row.id r < i) := by
      intro r hr hri
      constructor
      · exact fun hnot => hdone r hr i List.mem_cons_self (by simp [hri, hnot])
      · exact fun hlt hmem => absurd (hfirst _ hmem) hlt.not_gt
    have hdone' : ∀ r ∈ rows, ∀ j ∈ todo, Row.id r ∉ todo → Row.id r < j := by
      intro r hr j hj hnot
      by_cases hri : Row.id r = i
      · exact hri ▸ hfirst j hj
      · exact ((hlt r hr hri).mp hnot).trans (hfirst j hj)
    rcases emitUpdate_cases M hk hi hlt h with ⟨hfree, s', hs', hprogress⟩ | ⟨hnot, e, he⟩
    · rcases flushIds_cases hk hsorted hdone' hprogress with ⟨hall, s'', hs'', hfinal⟩ | ⟨hnot, e, he⟩
      · refine .inl ⟨List.forall_mem_cons.mpr ⟨hfree, hall⟩, s'', ?_, hfinal⟩
        simp [flushIds, hs', hs'']
      · refine .inr ⟨fun hall => hnot fun j hj => hall j (List.mem_cons_of_mem i hj), e, ?_⟩
        simp [flushIds, hs', he]
    · refine .inr ⟨fun hall => hnot (hall i List.mem_cons_self), e, ?_⟩
      simp [flushIds, he]

/-- A session after a successful flush: pending rows are stored with a stamp of this flush, the others are untouched. -/
structure Flushed (s s' : Session α) : Prop where
  ticks_le : s.ticks ≤ s'.ticks
  rows_eq : ∃ tick : Nat → Nat, (∀ j, s.ticks ≤ tick j) ∧
    s'.rows = s.rows.map fun t => if t.Pending then t.sync M (tick (Row.id t)) else t
  mem_emitted : ∀ j, j ∈ s'.emitted ↔ j ∈ s.emitted ∨ ∃ t ∈ s.rows, Row.id t = j ∧ t.Pending

/-- A flush succeeds exactly when the pending updates are orderly. -/
theorem flush_cases {s : Session α} (hk : Table.Keyed s.rows) :
    (Orderly M s.rows ∧ ∃ s', flush M s = .ok s' ∧ Flushed M s s') ∨
      (¬ Orderly M s.rows ∧ ∃ e, flush M s = .error e) := by
  have hmem : ∀ {i}, i ∈ (Table.ids s.rows).insertionSort (· ≤ ·) ↔ ∃ t ∈ s.rows, Row.id t = i := by
    intro i
    rw [List.mem_insertionSort, Table.mem_ids]
  have hnodup : ((Table.ids s.rows).insertionSort (· ≤ ·)).Nodup :=
    (List.perm_insertionSort _ _).nodup_iff.mpr hk
  have hsorted : ((Table.ids s.rows).insertionSort (· ≤ ·)).Pairwise (· < ·) :=
    ((List.pairwise_insertionSort (· ≤ ·) _).and hnodup).imp fun h => lt_of_le_of_ne h.1 h.2
  have hstart : Progress M ((Table.ids s.rows).insertionSort (· ≤ ·)) s.rows s.ticks s.emitted s := by
    refine ⟨le_rfl, ⟨fun _ => s.ticks, ?_, fun _ => le_rfl⟩, fun j => ?_⟩
    · refine (List.map_id s.rows).symm.trans (List.map_congr_left fun t ht => ?_)
      simp [settle, hmem.mpr ⟨t, ht, rfl⟩]
    · refine (or_iff_left ?_).symm
      rintro ⟨hnot, t, ht, hid, -⟩
      exact hnot (hmem.mpr ⟨t, ht, hid⟩)
  have hfree : (∀ i ∈ (Table.ids s.rows).insertionSort (· ≤ ·), Free M s.rows i) ↔ Orderly M s.rows := by
    constructor
    · exact fun h t ht hp r hr hne => h (Row.id t) (hmem.mpr ⟨t, ht, rfl⟩) t ht rfl hp r hr hne
    · rintro h i - t ht rfl hp r hr hne
      exact h t ht hp r hr hne
  have hdone : ∀ r ∈ s.rows, ∀ i ∈ (Table.ids s.rows).insertionSort (· ≤ ·),
      Row.id r ∉ (Table.ids s.rows).insertionSort (· ≤ ·) → Row.id r < i :=
    fun r hr _ _ hnot => absurd (hmem.mpr ⟨r, hr, rfl⟩) hnot
  rcases flushIds_cases M hk hsorted hdone hstart with ⟨hall, s', hs', hfinal⟩ | ⟨hnot, e, he⟩
  · refine .inl ⟨hfree.mp hall, s', hs', hfinal.lo_le, ?_, fun j => ?_⟩
    · obtain ⟨tick, hrows, htick⟩ := hfinal.rows_eq
      exact ⟨tick, htick, hrows.trans (List.map_congr_left fun t _ => by simp [settle])⟩
    · simpa using hfinal.mem_emitted j
  · exact .inr ⟨fun h => hnot (hfree.mpr h), e, he⟩

theorem flush_ok {s s' : Session α} (hk : Table.Keyed s.rows) (h : flush M s = .ok s') :
    Orderly M s.rows ∧ Flushed M s s' := by
  rcases flush_cases M hk with ⟨ho, s'', hs'', hf⟩ | ⟨-, e, he⟩
  · rw [h] at hs''
    cases hs''
    exact ⟨ho, hf⟩
  · rw [h] at he
    cases he

/-- After a flush no row is pending, and every row is stored as its object was, up to the stamp. -/
theorem Flushed.row {s s' : Session α} (h : Flushed M s s') {t' : Tracked α} (ht' : t' ∈ s'.rows) :
    ¬ t'.Pending ∧ ∃ t ∈ s.rows, Row.id t' = Row.id t ∧
      (t.Pending ∧ (∃ k, s.ticks ≤ k ∧ t'.stored = M.stamp k t.object) ∨
      ¬ t.Pending ∧ t' = t) := by
  obtain ⟨tick, htick, hrows⟩ := h.rows_eq
  rw [hrows, List.mem_map] at ht'
  obtain ⟨t, ht, rfl⟩ := ht'
  by_cases hp : t.Pending
  · rw [if_pos hp]
    exact ⟨Tracked.not_pending_clean _, t, ht, t.id_sync M _, .inl ⟨hp, _, htick _, rfl⟩⟩
  · rw [if_neg hp]
    exact ⟨hp, t, ht, rfl, .inr ⟨hp, rfl⟩⟩

/-- The constraints hold after a flush if they held before. -/
theorem Flushed.unique {s s' : Session α} (h : Flushed M s s') (ho : Orderly M s.rows)
    (hu : ∀ t ∈ s.rows, ∀ u ∈ s.rows, M.conflicts t.stored u.stored → Row.id t = Row.id u) :
    ∀ t ∈ s'.rows, ∀ u ∈ s'.rows, M.conflicts t.stored u.stored → Row.id t = Row.id u := by
  have hview : ∀ t' ∈ s'.rows, ∃ t ∈ s.rows, Row.id t' = Row.id t ∧
      ∀ a, (M.conflicts a t'.stored ↔ M.conflicts a t.object) ∧ (M.conflicts t'.stored a ↔ M.conflicts t.object a) := by
    intro t' ht'
    obtain ⟨-, t, ht, hid, ⟨-, k, -, hstored⟩ | ⟨hp, rfl⟩⟩ := h.row M ht'
    · refine ⟨t, ht, hid, fun a => ?_⟩
      rw [hstored]
      have hleft := M.conflicts_stamp k t.object a
      exact ⟨⟨fun hc => M.conflicts_symm _ _ (hleft.mp (M.conflicts_symm _ _ hc)),
        fun hc => M.conflicts_symm _ _ (hleft.mpr (M.conflicts_symm _ _ hc))⟩, hleft⟩
    · have heq : t'.object = t'.stored := not_not.mp hp
      exact ⟨t', ht, rfl, fun a => by rw [heq]; exact ⟨Iff.rfl, Iff.rfl⟩⟩
  intro t' ht' u' hu' hc
  obtain ⟨t, ht, htid, htview⟩ := hview t' ht'
  obtain ⟨u, hum, huid, huview⟩ := hview u' hu'
  rw [htid, huid]
  have hobjects : M.conflicts t.object u.object := (htview _).2.mp ((huview _).1.mp hc)
  by_contra hne
  by_cases htp : t.Pending
  · have hfree := ho t ht htp u hum (Ne.symm hne)
    split_ifs at hfree with hlt
    · exact hfree hobjects
    · by_cases hup : u.Pending
      · have hfree' := ho u hum hup t ht hne
        rw [if_pos (lt_of_le_of_ne (not_lt.mp hlt) hne)] at hfree'
        exact hfree' (M.conflicts_symm _ _ hobjects)
      · exact hfree (not_not.mp hup ▸ hobjects)
  · have heq : t.object = t.stored := not_not.mp htp
    by_cases hup : u.Pending
    · have hfree' := ho u hum hup t ht hne
      rw [heq, ite_self] at hfree'
      exact hfree' (M.conflicts_symm _ _ (heq ▸ hobjects))
    · have heq' : u.object = u.stored := not_not.mp hup
      exact hne (hu t ht u hum (heq ▸ heq' ▸ hobjects))

theorem Flushed.ids {s s' : Session α} (h : Flushed M s s') : Table.ids s'.rows = Table.ids s.rows := by
  obtain ⟨tick, -, hrows⟩ := h.rows_eq
  rw [hrows, Table.ids, List.map_map]
  refine List.map_congr_left fun t _ => ?_
  by_cases hp : t.Pending
  · simpa [hp] using t.id_sync M _
  · simp [hp]

/-- A creation succeeds exactly when the flush before it does and the new row conflicts with no row. -/
theorem insert_eq_ok_iff {s s' : Session α} {r : α} : insert M s r = .ok s' ↔ ∃ s₁, flush M s = .ok s₁ ∧
    (∀ t ∈ s₁.rows, ¬ M.conflicts r t.stored) ∧
      s' = ⟨s₁.rows ++ [Tracked.clean (M.stamp s₁.ticks r)], s₁.ticks + 1, s₁.emitted ++ [Row.id r]⟩ := by
  unfold insert
  cases hflush : flush M s with
  | error e => simp
  | ok s₁ =>
    simp only [Except.ok.injEq, exists_eq_left']
    cases hfind : s₁.rows.find? fun t => M.conflicts r t.stored with
    | some t =>
      have ht := List.mem_of_find?_eq_some hfind
      have hconflict : M.conflicts r t.stored := by simpa using List.find?_some hfind
      simp only [reduceCtorEq, false_iff]
      rintro ⟨hno, -⟩
      exact hno t ht hconflict
    | none =>
      have hno : ∀ t ∈ s₁.rows, ¬ M.conflicts r t.stored := by simpa using hfind
      simp only [Except.ok.injEq]
      constructor
      · rintro rfl
        exact ⟨hno, rfl⟩
      · rintro ⟨-, rfl⟩
        rfl

/-- A creation keeps the constraints. -/
theorem unique_insert {s s' : Session α} {r : α} (hk : Table.Keyed s.rows)
    (hu : ∀ t ∈ s.rows, ∀ u ∈ s.rows, M.conflicts t.stored u.stored → Row.id t = Row.id u)
    (hs : insert M s r = .ok s') :
    ∀ t ∈ s'.rows, ∀ u ∈ s'.rows, M.conflicts t.stored u.stored → Row.id t = Row.id u := by
  obtain ⟨s₁, hflush, hno, rfl⟩ := (insert_eq_ok_iff M).mp hs
  obtain ⟨horderly, hflushed⟩ := flush_ok M hk hflush
  have hfree : ∀ t ∈ s₁.rows, ¬ M.conflicts (M.stamp s₁.ticks r) t.stored :=
    fun t ht hc => hno t ht ((M.conflicts_stamp _ _ _).mp hc)
  intro t ht u hu' hc
  obtain ht | ht := List.mem_append.mp ht <;> obtain hu' | hu' := List.mem_append.mp hu'
  · exact hflushed.unique M horderly hu t ht u hu' hc
  · rw [List.mem_singleton.mp hu'] at hc
    exact absurd (M.conflicts_symm _ _ hc) (hfree t ht)
  · rw [List.mem_singleton.mp ht] at hc
    exact absurd hc (hfree u hu')
  · rw [List.mem_singleton.mp ht, List.mem_singleton.mp hu']

/-! ## What holds of every row and its object -/

/-- A relation between every stored row and the object of the session for it. -/
def Each (Q : α → α → Prop) (s : Session α) : Prop := ∀ t ∈ s.rows, Q t.stored t.object

omit [DecidableEq α] in
theorem each_load {Q : α → α → Prop} {rows : List α} (h : ∀ r ∈ rows, Q r r) (ticks : Nat) :
    (load rows ticks).Each Q := by
  intro t ht
  obtain ⟨r, hr, rfl⟩ := List.mem_map.mp ht
  exact h r hr

omit [DecidableEq α] in
/-- An assignment that keeps the relation of its row keeps the relation of all rows. -/
theorem Each.assign {Q : α → α → Prop} {s : Session α} (h : s.Each Q) {i : Nat} {f : α → α}
    {hf : ∀ r, Row.id (f r) = Row.id r} (hQ : ∀ t ∈ s.rows, Row.id t = i → Q t.stored (f t.object)) :
    (s.assign i f hf).Each Q := by
  intro u hu
  obtain ⟨t, ht, hstored, ⟨hi, hobject⟩ | ⟨-, rfl⟩⟩ := mem_assign hu
  · rw [hstored, hobject]
    exact hQ t ht hi
  · exact h u ht

variable {M}

/-- After a flush every object is stored, up to the stamp. -/
theorem Each.flush {Q : α → α → Prop} {s s' : Session α} (h : s.Each Q) (hk : Table.Keyed s.rows)
    (hstamp : ∀ k a b, Q a b → Q (M.stamp k b) (M.stamp k b)) (hs : s.flush M = .ok s') : s'.Each Q := by
  intro u hu
  obtain ⟨hclean, t, ht, -, ⟨-, k, -, hstored⟩ | ⟨-, rfl⟩⟩ := (flush_ok M hk hs).2.row M hu
  · rw [not_not.mp hclean, hstored]
    exact hstamp k _ _ (h t ht)
  · exact h u ht

/-- A creation flushes, and adds a row of which the relation holds. -/
theorem Each.insert {Q : α → α → Prop} {s s' : Session α} {r : α} (h : s.Each Q) (hk : Table.Keyed s.rows)
    (hstamp : ∀ k a b, Q a b → Q (M.stamp k b) (M.stamp k b)) (hr : Q r r) (hs : s.insert M r = .ok s') :
    s'.Each Q := by
  obtain ⟨s₁, hflush, -, rfl⟩ := (insert_eq_ok_iff M).mp hs
  intro u hu
  obtain hu | hu := List.mem_append.mp hu
  · exact h.flush hk hstamp hflush u hu
  · rw [List.mem_singleton.mp hu]
    exact hstamp _ _ _ hr

/-- A creation adds one key. -/
theorem ids_insert {s s' : Session α} {r : α} (hk : Table.Keyed s.rows) (hs : s.insert M r = .ok s') :
    Table.ids s'.rows = Table.ids s.rows ++ [Row.id r] := by
  obtain ⟨s₁, hflush, -, rfl⟩ := (insert_eq_ok_iff M).mp hs
  have hnew : Table.ids [Tracked.clean (M.stamp s₁.ticks r)] = [Row.id r] := by
    simp only [Table.ids, List.map_cons, List.map_nil, List.cons.injEq, and_true]
    exact M.id_stamp _ r
  rw [Table.ids_append, (flush_ok M hk hflush).2.ids M, hnew]

end Flush

end Session

end Washing
