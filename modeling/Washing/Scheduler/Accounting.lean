import Washing.Lib.Sweep
import Washing.Scheduler.Interleaving

/-!
# Accounting for a dispatch

A dispatch that fails midway accounts for every row. The rows are selected and stamped first (`firstDue`,
`dueProvisioners`); the ones published before the failure keep their stamp and are no longer due, the others are
released and are due again, and no other row changes (`Accounted`). Another dispatch at the same time publishes, among
the selected rows, those that the first one did not (`dispatches_accounted`).
-/

namespace Washing

/-! ## Accounts -/

section Accounts

variable {α : Type} [Row α] {due : α → Prop} {stamp release : α → α} {selected published : List Nat} {rows : List α}

/-- A row after a dispatch: stamped when published, released when selected only, else as it was. -/
def dispatchedRow (stamp release : α → α) (selected published : List Nat) (r : α) : α :=
  if Row.id r ∈ published then stamp r else if Row.id r ∈ selected then release r else r

/-- A dispatch accounts for every row of its table. -/
structure Accounted (due : α → Prop) (stamp release : α → α) (selected published : List Nat) (rows rows' : List α) :
    Prop where
  once : published.Nodup
  rows_eq : rows' = rows.map (dispatchedRow stamp release selected published)
  not_due : ∀ r ∈ rows', Row.id r ∈ published → ¬ due r
  due_again : ∀ r ∈ rows', Row.id r ∈ selected → Row.id r ∉ published → due r

/-- A dispatcher selects due rows; its stamp ends their being due, and its release does not. -/
structure Dispatching (due : α → Prop) (stamp release : α → α) (selected : List Nat) (rows : List α) : Prop where
  id_stamp : ∀ r, Row.id (stamp r) = Row.id r
  id_release : ∀ r, Row.id (release r) = Row.id r
  selected_due : ∀ r ∈ rows, Row.id r ∈ selected → due r
  stamp_ended : ∀ r, ¬ due (stamp r)
  release_kept : ∀ r, due r → due (release r)

namespace Dispatching

variable (h : Dispatching due stamp release selected rows)
include h

theorem id_row (r : α) : Row.id (dispatchedRow stamp release selected published r) = Row.id r := by
  unfold dispatchedRow
  split_ifs
  · exact h.id_stamp r
  · exact h.id_release r
  · rfl

theorem accounted (hpublished : published.Nodup) :
    Accounted due stamp release selected published rows
      (rows.map (dispatchedRow stamp release selected published)) := by
  refine ⟨hpublished, rfl, fun r' hr' hid => ?_, fun r' hr' hid hno => ?_⟩
  all_goals
    obtain ⟨r, hr, rfl⟩ := List.mem_map.mp hr'
    rw [h.id_row] at hid
  · rw [dispatchedRow, if_pos hid]
    exact h.stamp_ended r
  · rw [h.id_row] at hno
    rw [dispatchedRow, if_neg hno, if_pos hid]
    exact h.release_kept r (h.selected_due r hr hid)

/-- The due rows after a dispatch are the due rows that it did not publish. -/
theorem due_row (published : List Nat) {r : α} (hr : r ∈ rows) :
    due (dispatchedRow stamp release selected published r) ↔ due r ∧ Row.id r ∉ published := by
  unfold dispatchedRow
  split_ifs with hpublished hin
  · exact iff_of_false (h.stamp_ended r) fun hdue => hdue.2 hpublished
  · have hdue := h.selected_due r hr hin
    exact iff_of_true (h.release_kept r hdue) ⟨hdue, hpublished⟩
  · exact (and_iff_left hpublished).symm

/-- Another selection of the due rows finds those that the dispatch did not publish. -/
theorem mem_due [DecidablePred due] {i : Nat} :
    i ∈ ((rows.map (dispatchedRow stamp release selected published)).filter fun r => due r).map Row.id ↔
      i ∈ (rows.filter fun r => due r).map Row.id ∧ i ∉ published := by
  simp only [List.mem_map, List.mem_filter, decide_eq_true_eq]
  constructor
  · rintro ⟨-, ⟨⟨r, hr, rfl⟩, hdue⟩, rfl⟩
    rw [h.id_row]
    obtain ⟨hold, hno⟩ := (h.due_row published hr).mp hdue
    exact ⟨⟨r, ⟨hr, hold⟩, rfl⟩, hno⟩
  · rintro ⟨⟨r, ⟨hr, hold⟩, rfl⟩, hno⟩
    exact ⟨_, ⟨⟨r, hr, rfl⟩, (h.due_row published hr).mpr ⟨hold, hno⟩⟩, h.id_row r⟩

end Dispatching

end Accounts

/-- Without duplicates, the first items are those that are not among the others. -/
theorem mem_take_iff {l : List Nat} (hl : l.Nodup) (n : Nat) {i : Nat} : i ∈ l.take n ↔ i ∈ l ∧ i ∉ l.drop n := by
  have hdisjoint : (l.take n).Disjoint (l.drop n) := List.disjoint_take_drop hl le_rfl
  constructor
  · exact fun h => ⟨List.mem_of_mem_take h, hdisjoint h⟩
  · rintro ⟨h, hno⟩
    rw [← List.take_append_drop n l, List.mem_append] at h
    exact h.resolve_right hno

/-- A row after a dispatch that published the first of the selected rows. -/
theorem dispatchedRow_take {α : Type} [Row α] {stamp release : α → α} {selected : List Nat} (hselected : selected.Nodup)
    (n : Nat) (r : α) : dispatchedRow stamp release selected (selected.take n) r =
      if Row.id r ∈ selected.drop n then release r else if Row.id r ∈ selected then stamp r else r := by
  have htake := mem_take_iff hselected n (i := Row.id r)
  unfold dispatchedRow
  by_cases hrest : Row.id r ∈ selected.drop n
  · rw [if_neg fun h => (htake.mp h).2 hrest, if_pos (List.mem_of_mem_drop hrest), if_pos hrest]
  · rw [if_neg hrest]
    by_cases hin : Row.id r ∈ selected
    · rw [if_pos (htake.mpr ⟨hin, hrest⟩), if_pos hin]
    · have hunpublished : Row.id r ∉ selected.take n := fun h => hin (htake.mp h).1
      rw [if_neg hunpublished, if_neg hin, if_neg hin]

/-! ## Provisioners -/

/-- An enabled provisioner whose cron is due. -/
def MachineProvisioner.Due (c : CronSlots) (now : Time) (p : MachineProvisioner) : Prop :=
  p.enabled = true ∧ isDue c p.cron p.lastScheduledAt now = true

instance (c : CronSlots) (now : Time) (p : MachineProvisioner) : Decidable (p.Due c now) :=
  inferInstanceAs (Decidable (_ ∧ _))

/-- The ids of the provisioners that are due. -/
def dueProvisioners (c : CronSlots) (db : Database) (now : Time) : List Nat :=
  (db.provisioners.filter fun p => p.Due c now).map (·.id)

section Jobs

variable {c : CronSlots} {db : Database} {call : Nat → Nat → Option Exc} {now : Time}

/-- A stamped provisioner is not due at the time of its stamp. -/
theorem not_due_stamped (p : MachineProvisioner) : ¬ (p.stamped (some now)).Due c now := by
  rintro ⟨-, hdue⟩
  have hnext : c.next p.cron now ≤ now := of_decide_eq_true hdue
  exact absurd hnext (c.lt_next p.cron now).not_ge

theorem reserveProvisioners_eq (c : CronSlots) (db : Database) (now : Time) :
    reserveProvisioners c db now [] =
      ({ db with
          provisioners := db.provisioners.map fun p =>
            if p.id ∈ dueProvisioners c db now then p.stamped (some now) else p },
        (db.provisioners.filter fun p => p.Due c now).map fun p => (p.id, p.lastScheduledAt)) := by
  have hrows : (((selectWhere (fun p => Cond.ofBool p.enabled) db.provisioners).filter fun p => p.id ∉ []).filter
      fun p => isDue c p.cron p.lastScheduledAt now) = db.provisioners.filter fun p => p.Due c now := by
    simp only [selectWhere, List.filter_filter]
    refine List.filter_congr fun p _ => ?_
    rw [Bool.eq_iff_iff, decide_eq_true_iff, MachineProvisioner.Due]
    simp [and_comm]
  unfold reserveProvisioners
  simp only [hrows, List.map_map, Function.comp_def]
  rfl

/-- A release restores the remembered stamps, row by row. -/
theorem releaseProvisioners_stamped (hk : Table.Keyed db.provisioners) : ∀ (remaining : List MachineProvisioner)
    (stamped : List Nat), (∀ p ∈ remaining, p ∈ db.provisioners) →
    releaseProvisioners
        { db with provisioners := db.provisioners.map fun p => if p.id ∈ stamped then p.stamped (some now) else p }
        (remaining.map fun p => (p.id, p.lastScheduledAt)) =
      { db with
        provisioners := db.provisioners.map fun p =>
          if p.id ∈ remaining.map (·.id) then p else if p.id ∈ stamped then p.stamped (some now) else p }
  | [], stamped, _ => by simp [releaseProvisioners]
  | q :: remaining, stamped, h => by
    obtain ⟨hq, hrest⟩ := List.forall_mem_cons.mp h
    have hstep : (Table.modify (db.provisioners.map fun p => if p.id ∈ stamped then p.stamped (some now) else p) q.id
        fun p => p.stamped q.lastScheduledAt) =
          db.provisioners.map fun p => if p.id ∈ stamped.filter (· ≠ q.id) then p.stamped (some now) else p := by
      rw [Table.modify, List.map_map]
      refine List.map_congr_left fun p hp => ?_
      simp only [Function.comp_apply, List.mem_filter, decide_eq_true_eq]
      have hid : Row.id (if p.id ∈ stamped then p.stamped (some now) else p) = p.id := by split_ifs <;> rfl
      rw [hid]
      by_cases hsame : p.id = q.id
      · cases hk.eq_of_id hp hq hsame
        have hremoved : ¬ (q.id ∈ stamped ∧ q.id ≠ q.id) := fun h => h.2 rfl
        rw [if_pos rfl, if_neg hremoved]
        by_cases hin : q.id ∈ stamped
        · rw [if_pos hin]
          rfl
        · rw [if_neg hin]
          rfl
      · simp [hsame]
    rw [List.map_cons, releaseProvisioners]
    simp only [hstep]
    rw [releaseProvisioners_stamped hk remaining _ hrest]
    congr 1
    refine List.map_congr_left fun p _ => ?_
    simp only [List.mem_filter, decide_eq_true_eq, List.map_cons, List.mem_cons]
    by_cases hsame : p.id = q.id
    · simp [hsame]
    · simp [hsame]

theorem nodup_dueProvisioners (hk : Table.Keyed db.provisioners) : (dueProvisioners c db now).Nodup :=
  hk.sublist (List.filter_sublist.map _)

theorem mem_dueProvisioners (hk : Table.Keyed db.provisioners) {p : MachineProvisioner} (hp : p ∈ db.provisioners) :
    p.id ∈ dueProvisioners c db now ↔ p.Due c now := by
  simp only [dueProvisioners, List.mem_map, List.mem_filter, decide_eq_true_eq]
  constructor
  · rintro ⟨q, ⟨hq, hdue⟩, hid⟩
    cases hk.eq_of_id hq hp hid
    exact hdue
  · exact fun hdue => ⟨p, ⟨hp, hdue⟩, rfl⟩

/-- A call publishes the due provisioners up to the first failure. -/
theorem dispatchDueJobs_until (c : CronSlots) (db : Database) (call : Nat → Nat → Option Exc) (now : Time) :
    PublishedUntil call 0 (dueProvisioners c db now) (dispatchDueJobs c db call now).published
      (raised (dispatchDueJobs c db call now).result) := by
  have huntil := publishAll_until call 0 (dueProvisioners c db now)
  have hids : (reserveProvisioners c db now []).2.map Prod.fst = dueProvisioners c db now := by
    rw [reserveProvisioners_eq, List.map_map]
    rfl
  unfold dispatchDueJobs
  simp only [hids]
  cases hfailure : (publishAll call 0 (dueProvisioners c db now)).2 with
  | none =>
    rw [hfailure] at huntil
    exact huntil
  | some e =>
    rw [hfailure] at huntil
    exact huntil

/-- A call that publishes everything releases nothing. -/
theorem dispatchDueJobs_db : (dispatchDueJobs c db call now).db =
    releaseProvisioners (reserveProvisioners c db now []).1
      ((reserveProvisioners c db now []).2.drop (dispatchDueJobs c db call now).published.length) := by
  unfold dispatchDueJobs
  simp only
  cases hfailure : (publishAll call 0 ((reserveProvisioners c db now []).2.map Prod.fst)).2 with
  | none =>
    have hall := (publishAll_ok_iff call 0 _).mp hfailure
    simp only [hall, List.length_map, List.drop_length]
    rfl
  | some e => rfl

/-- A call leaves each row as `dispatchedRow` says. -/
theorem dispatchDueJobs_rows (c : CronSlots) (hk : Table.Keyed db.provisioners) (call : Nat → Nat → Option Exc)
    (now : Time) : (dispatchDueJobs c db call now).db =
    { db with
      provisioners := db.provisioners.map (dispatchedRow (fun p => p.stamped (some now)) id (dueProvisioners c db now)
        (dispatchDueJobs c db call now).published) } := by
  obtain ⟨n, hn, hpublished, -⟩ := dispatchDueJobs_until c db call now
  have hlength : (dispatchDueJobs c db call now).published.length = n := by
    rw [hpublished, List.length_take_of_le hn]
  rw [dispatchDueJobs_db, hlength, hpublished, reserveProvisioners_eq, ← List.map_drop]
  rw [releaseProvisioners_stamped hk _ _ fun p hp => (List.mem_filter.mp (List.mem_of_mem_drop hp)).1]
  congr 1
  refine List.map_congr_left fun p _ => ?_
  rw [dispatchedRow_take (nodup_dueProvisioners hk), dueProvisioners, ← List.map_drop]
  rfl

/-- A dispatch of the due provisioners accounts for every row, and a second one publishes the rest. -/
structure JobsAccounted (c : CronSlots) (db : Database) (call : Nat → Nat → Option Exc) (now : Time) : Prop where
  published : PublishedUntil call 0 (dueProvisioners c db now) (dispatchDueJobs c db call now).published
    (raised (dispatchDueJobs c db call now).result)
  rows : Accounted (MachineProvisioner.Due c now) (fun p => p.stamped (some now)) id (dueProvisioners c db now)
    (dispatchDueJobs c db call now).published db.provisioners (dispatchDueJobs c db call now).db.provisioners
  others : (dispatchDueJobs c db call now).db =
    { db with provisioners := (dispatchDueJobs c db call now).db.provisioners }
  second : ∀ i ∈ dueProvisioners c db now,
    (i ∈ (dispatchDueJobs c (dispatchDueJobs c db call now).db (fun _ _ => none) now).published ↔
      i ∉ (dispatchDueJobs c db call now).published)

theorem dispatching_jobs (c : CronSlots) (hk : Table.Keyed db.provisioners) (now : Time) :
    Dispatching (MachineProvisioner.Due c now)
    (fun p => p.stamped (some now)) id (dueProvisioners c db now) db.provisioners where
  id_stamp _ := rfl
  id_release _ := rfl
  selected_due _ hp := (mem_dueProvisioners hk hp).mp
  stamp_ended := not_due_stamped
  release_kept _ h := h

theorem jobsAccounted (hk : Table.Keyed db.provisioners) : JobsAccounted c db call now := by
  have hdispatching := dispatching_jobs c hk now
  have hrows := dispatchDueJobs_rows c hk call now
  have huntil := dispatchDueJobs_until c db call now
  refine ⟨huntil, ?_, by rw [hrows], fun i hi => ?_⟩
  · rw [hrows]
    obtain ⟨n, -, htake, -⟩ := huntil
    refine hdispatching.accounted ?_
    rw [htake]
    exact (nodup_dueProvisioners hk).sublist (List.take_sublist n _)
  · have hsecond := (dispatchDueJobs_until c (dispatchDueJobs c db call now).db (fun _ _ => none) now).all
    rw [hsecond, hrows]
    exact hdispatching.mem_due.trans (and_iff_right hi)

end Jobs

/-! ## Applications -/

/-- The ids of the first due applications, the longest unsynced first, as many as a batch holds. -/
def firstDue (config : SyncDispatchConfig) (db : Database) (now : Time) : List Nat :=
  ((orderBy (fun a b => a.syncOrder ≤ b.syncOrder) (db.applications.filter fun a => a.Due config now)).take
    (config.batchSize db).toNat).map (·.id)

section Syncs

variable {config : SyncDispatchConfig} {db : Database} {call : Nat → Nat → Option Exc} {now : Time}

/-- An application is not due at the time of its reservation. -/
theorem not_due_reserved (hretry : 0 < config.retryAfterSeconds) (a : Application) :
    ¬ (a.reserved now).Due config now := by
  rintro ⟨-, hscheduled⟩
  have hpositive : 0 < seconds config.retryAfterSeconds := mul_pos hretry (by decide)
  exact absurd (hscheduled now rfl) (sub_lt_self now hpositive).not_ge

theorem due_released {a : Application} (h : a.Due config now) : a.released.Due config now := ⟨h.1, nofun⟩

theorem reserveApplications_snd (config : SyncDispatchConfig) (db : Database) (now : Time) :
    (reserveApplications db config now []).2 = firstDue config db now := by
  rw [reserveApplications, dueApplications_eq]
  rfl

theorem reserveApplications_fst (config : SyncDispatchConfig) (db : Database) (now : Time) :
    (reserveApplications db config now []).1 =
      db.updateApplications (firstDue config db now) fun a => a.reserved now := by
  rw [reserveApplications, dueApplications_eq]
  rfl

/-- The applications are in distinct places of the order. -/
theorem nodup_syncOrder (hk : Table.Keyed db.applications) :
    ((db.applications.filter fun a => a.Due config now).map (·.syncOrder)).Nodup := by
  have hids : ((db.applications.filter fun a => a.Due config now).map (·.id)).Nodup :=
    hk.sublist (List.filter_sublist.map _)
  refine List.Nodup.of_map (fun k => (ofLex k).2) ?_
  rwa [List.map_map]

theorem nodup_firstDue (hk : Table.Keyed db.applications) : (firstDue config db now).Nodup := by
  refine List.Nodup.sublist ((List.take_sublist _ _).map _) ?_
  have hperm := orderBy_perm (fun a b => a.syncOrder ≤ b.syncOrder) (db.applications.filter fun a => a.Due config now)
  refine (hperm.map (·.id)).nodup_iff.mpr ?_
  exact hk.sublist (List.filter_sublist.map _)

/-- An application is selected when it is due and fewer due applications than a batch come before it. -/
theorem mem_firstDue (config : SyncDispatchConfig) {db : Database} (hk : Table.Keyed db.applications) (now : Time)
    {a : Application} (ha : a ∈ db.applications) :
    a.id ∈ firstDue config db now ↔ a.Due config now ∧
      (db.applications.filter fun b => b.Due config now).countP (fun b => b.syncOrder < a.syncOrder) <
        (config.batchSize db).toNat := by
  have htake : ∀ b, b ∈ (orderBy (fun a b => a.syncOrder ≤ b.syncOrder)
      (db.applications.filter fun b => b.Due config now)).take (config.batchSize db).toNat ↔ _ := fun b =>
    mem_take_orderBy (nodup_syncOrder hk)
  rw [firstDue, List.mem_map]
  constructor
  · rintro ⟨b, hb, hid⟩
    obtain ⟨hmem, hcount⟩ := (htake b).mp hb
    obtain ⟨hb, hdue⟩ := List.mem_filter.mp hmem
    cases hk.eq_of_id hb ha hid
    exact ⟨of_decide_eq_true hdue, hcount⟩
  · rintro ⟨hdue, hcount⟩
    exact ⟨a, (htake a).mpr ⟨List.mem_filter.mpr ⟨ha, decide_eq_true hdue⟩, hcount⟩, rfl⟩

theorem dispatching_syncs (hk : Table.Keyed db.applications) (hretry : 0 < config.retryAfterSeconds) (now : Time) :
    Dispatching (Application.Due config now) (fun a => a.reserved now) Application.released (firstDue config db now)
      db.applications where
  id_stamp _ := rfl
  id_release _ := rfl
  selected_due _ ha h := ((mem_firstDue config hk now ha).mp h).1
  stamp_ended := not_due_reserved hretry
  release_kept _ := due_released

/-- Only a batch without applications is empty, and then nothing is selected. -/
theorem applications_of_batchSize (h : config.batchSize db = 0) (now : Time) :
    db.applications = [] ∧ firstDue config db now = [] := by
  have hnone : db.applications = [] := by
    by_contra hne
    exact (batchSize_pos hne).ne' h
  exact ⟨hnone, by simp [firstDue, hnone, orderBy]⟩

/-- A call publishes the selected applications up to the first failure. -/
theorem dispatchSyncs_until (db : Database) (config : SyncDispatchConfig) (call : Nat → Nat → Option Exc) (now : Time) :
    PublishedUntil call 0 (firstDue config db now)
    (dispatchDueApplicationMetricsSyncs db config call now).published
    (raised (dispatchDueApplicationMetricsSyncs db config call now).result) := by
  have huntil := publishAll_until call 0 (firstDue config db now)
  unfold dispatchDueApplicationMetricsSyncs
  split_ifs with hbatch
  · rw [(applications_of_batchSize hbatch now).2]
    exact ⟨0, le_rfl, rfl, nofun, .inl ⟨rfl, rfl⟩⟩
  · simp only [reserveApplications_snd]
    cases hfailure : (publishAll call 0 (firstDue config db now)).2 with
    | none =>
      rw [hfailure] at huntil
      exact huntil
    | some e =>
      rw [hfailure] at huntil
      exact huntil

/-- A call that publishes everything releases nothing. -/
theorem dispatchSyncs_db : (dispatchDueApplicationMetricsSyncs db config call now).db =
    releaseApplications (reserveApplications db config now []).1
      ((firstDue config db now).drop (dispatchDueApplicationMetricsSyncs db config call now).published.length) := by
  have hnothing : ∀ db : Database, releaseApplications db [] = db := fun db => by
    simp [releaseApplications, Database.updateApplications]
  unfold dispatchDueApplicationMetricsSyncs
  split_ifs with hbatch
  · obtain ⟨hnone, hselected⟩ := applications_of_batchSize hbatch now
    have hsame : { db with applications := [] } = db := by rw [← hnone]
    simp [hselected, hnothing, reserveApplications, Database.updateApplications, hnone, hsame]
  · simp only [reserveApplications_snd]
    cases hfailure : (publishAll call 0 (firstDue config db now)).2 with
    | none =>
      have hall := (publishAll_ok_iff call 0 _).mp hfailure
      simp only [hall, List.drop_length, hnothing]
    | some e => rfl

/-- A call leaves each row as `dispatchedRow` says. -/
theorem dispatchSyncs_rows (hk : Table.Keyed db.applications) (config : SyncDispatchConfig)
    (call : Nat → Nat → Option Exc) (now : Time) :
    (dispatchDueApplicationMetricsSyncs db config call now).db =
      { db with
        applications := db.applications.map (dispatchedRow (fun a => a.reserved now) Application.released
          (firstDue config db now) (dispatchDueApplicationMetricsSyncs db config call now).published) } := by
  obtain ⟨n, hn, hpublished, -⟩ := dispatchSyncs_until db config call now
  have hlength : (dispatchDueApplicationMetricsSyncs db config call now).published.length = n := by
    rw [hpublished, List.length_take_of_le hn]
  rw [dispatchSyncs_db, hlength, hpublished, reserveApplications_fst, releaseApplications]
  simp only [Database.updateApplications, List.map_map]
  congr 1
  refine List.map_congr_left fun a _ => ?_
  have hid : (if a.id ∈ firstDue config db now then a.reserved now else a).id = a.id := by split_ifs <;> rfl
  rw [dispatchedRow_take (nodup_firstDue hk), Function.comp_apply, hid]
  by_cases hrest : a.id ∈ (firstDue config db now).drop n
  · rw [if_pos hrest, if_pos (List.mem_of_mem_drop hrest)]
    exact (if_pos hrest).symm
  · rw [if_neg hrest]
    exact (if_neg hrest).symm

/-- The applications that were selected and not published are among the first due ones afterwards: no application comes
before another one that did not before, and none is due that was not. -/
theorem second_dispatch (hk : Table.Keyed db.applications) (hretry : 0 < config.retryAfterSeconds)
    {published : List Nat}
    {a : Application} (ha : a ∈ db.applications) (hselected : a.id ∈ firstDue config db now) :
    a.id ∈ firstDue config
        { db with
          applications := db.applications.map (dispatchedRow (fun a => a.reserved now) Application.released
            (firstDue config db now) published) } now ↔ a.id ∉ published := by
  have hdispatching := dispatching_syncs hk hretry now
  let row := dispatchedRow (fun a : Application => a.reserved now) Application.released
    (firstDue config db now) published
  have hid : ∀ b, (row b).id = b.id := hdispatching.id_row
  have horder : ∀ b, (row b).syncOrder = b.syncOrder := by
    intro b
    simp only [row, dispatchedRow]
    split_ifs <;> rfl
  have hkeyed : Table.Keyed (db.applications.map row) := by
    have hids : Table.ids (db.applications.map row) = Table.ids db.applications := by
      simp only [Table.ids, List.map_map]
      exact List.map_congr_left fun b _ => hid b
    unfold Table.Keyed
    rwa [hids]
  obtain ⟨hdue, hcount⟩ := (mem_firstDue config hk now ha).mp hselected
  have hrow := hdispatching.due_row published ha
  have hmem : (row a).id ∈ firstDue config { db with applications := db.applications.map row } now ↔ _ :=
    mem_firstDue config hkeyed now (List.mem_map_of_mem ha)
  rw [hid] at hmem
  refine hmem.trans ⟨fun h => (hrow.mp h.1).2, fun hno => ⟨hrow.mpr ⟨hdue, hno⟩, ?_⟩⟩
  have hbatch : config.batchSize { db with applications := db.applications.map row } = config.batchSize db := by
    simp [SyncDispatchConfig.batchSize]
  rw [hbatch]
  refine lt_of_le_of_lt ?_ hcount
  rw [List.countP_filter, List.countP_filter, List.countP_map]
  refine List.countP_mono_left fun b hb h => ?_
  simp only [Function.comp_apply, horder, Bool.and_eq_true, decide_eq_true_eq] at h ⊢
  exact ⟨h.1, ((hdispatching.due_row published hb).mp h.2).1⟩

/-- A dispatch of the due applications accounts for every row, and a second one publishes the rest. -/
structure SyncsAccounted (db : Database) (config : SyncDispatchConfig) (call : Nat → Nat → Option Exc) (now : Time) :
    Prop where
  published : PublishedUntil call 0 (firstDue config db now)
    (dispatchDueApplicationMetricsSyncs db config call now).published
    (raised (dispatchDueApplicationMetricsSyncs db config call now).result)
  rows : Accounted (Application.Due config now) (fun a => a.reserved now) Application.released (firstDue config db now)
    (dispatchDueApplicationMetricsSyncs db config call now).published db.applications
    (dispatchDueApplicationMetricsSyncs db config call now).db.applications
  others : (dispatchDueApplicationMetricsSyncs db config call now).db =
    { db with applications := (dispatchDueApplicationMetricsSyncs db config call now).db.applications }
  second : ∀ i ∈ firstDue config db now,
    (i ∈ (dispatchDueApplicationMetricsSyncs (dispatchDueApplicationMetricsSyncs db config call now).db config
        (fun _ _ => none) now).published ↔ i ∉ (dispatchDueApplicationMetricsSyncs db config call now).published)

theorem syncsAccounted (hk : Table.Keyed db.applications) (hretry : 0 < config.retryAfterSeconds) :
    SyncsAccounted db config call now := by
  have hrows := dispatchSyncs_rows hk config call now
  have huntil := dispatchSyncs_until db config call now
  refine ⟨huntil, ?_, by rw [hrows], fun i hi => ?_⟩
  · rw [hrows]
    obtain ⟨n, -, htake, -⟩ := huntil
    refine (dispatching_syncs hk hretry now).accounted ?_
    rw [htake]
    exact (nodup_firstDue hk).sublist (List.take_sublist n _)
  · have hsecond := (dispatchSyncs_until (dispatchDueApplicationMetricsSyncs db config call now).db config
      (fun _ _ => none) now).all
    obtain ⟨a, ha, rfl⟩ := List.mem_map.mp hi
    obtain ⟨hdue, -⟩ := List.mem_filter.mp (mem_orderBy.mp (List.mem_of_mem_take ha))
    rw [hsecond, hrows]
    exact second_dispatch hk hretry hdue hi

end Syncs

/-- Both dispatchers account for every row, wherever a publication fails. -/
theorem dispatches_accounted (c : CronSlots) (db : Database) (hdb : db.Consistent) (config : SyncDispatchConfig)
    (hretry : 0 < config.retryAfterSeconds) (call : Nat → Nat → Option Exc) (now : Time) :
    SyncsAccounted db config call now ∧ JobsAccounted c db call now :=
  ⟨syncsAccounted hdb.applications_keyed hretry, jobsAccounted hdb.provisioners_keyed⟩

/-- Two provisioners and two applications that are due. -/
def dueDb : Database :=
  { dispatchDb with
    provisioners := dispatchDb.provisioners ++
      [⟨2, 1, "usage", "mock", "{}", true, "0 * * * *", none, none, none, none⟩]
    applications := dispatchDb.applications ++ [⟨2, "B", "UNKNOWN", "UNKNOWN", none, none, none⟩] }

/-- The second publication raises. -/
def failsSecond (k _ : Nat) : Option Exc := if k = 1 then some ⟨.other "ConnectionError", "refused"⟩ else none

theorem dispatches_accounted_failing :
    (dispatchDueJobs hourly dueDb failsSecond (seconds 3600)).published = [1] ∧
    SyncsAccounted dueDb hourlyRetry failsSecond (seconds 3600) ∧
      JobsAccounted hourly dueDb failsSecond (seconds 3600) :=
  ⟨by decide +kernel,
    dispatches_accounted hourly dueDb (by decide) hourlyRetry (by decide) failsSecond (seconds 3600)⟩

end Washing
