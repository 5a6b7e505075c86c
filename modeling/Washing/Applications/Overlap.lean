import Washing.Applications.Dispatch
import Washing.Lib.Reservation

/-!
# Overlapping application dispatchers

Any number of calls of `dispatch_due_application_metrics_syncs` run at the same time as the syncs they published. As
long as every step is in turn, a publication whose sync has not ended keeps the reservations of its application at a
distance: either its stamp is still there, or the retry delay has passed (`SpacedInv.pending`). So two publications of
an application with the first sync unfinished come from reservations that are the retry delay apart
(`SpacedInv.spaced`).
-/

namespace Washing

/-- The dispatchers of the applications, with the syncs that they publish. -/
def applicationProtocol (U : Unicode) (config : SyncDispatchConfig) :
    ReservationProtocol Time Database Unit (Nat → Nat × Nat → Option Exc) where
  Valid db := Table.Keyed db.applications
  reserve db now locked :=
    let reserved := reserveApplications db config now locked
    (reserved.1, reserved.2.map fun i => (i, ()))
  release db remaining := releaseApplications db (remaining.map Prod.fst)
  finish db id enqueue now := (runApplicationMetricsSync U db id enqueue now).db
  valid_reserve db now locked h := by
    unfold Table.Keyed
    rw [reserveApplications_ids]
    exact h
  valid_release db remaining h := by
    unfold Table.Keyed
    rw [releaseApplications, updateApplications_ids (f := Application.released) (fun _ => rfl)]
    exact h
  valid_finish db id enqueue now h := by
    obtain ⟨f, hf, happlications⟩ := sync_applications U db id enqueue now
    rw [happlications]
    exact h.modify (fun a => (hf a).1) id
  nodup_reserve db now locked h := by
    have hdue : ((dueApplications db config now locked).map (·.id)).Nodup := by
      refine ((orderBy_perm _ _).map _).nodup_iff.mpr ?_
      exact List.Nodup.sublist ((List.filter_sublist.trans (List.filter_sublist.trans List.filter_sublist)).map _) h
    have hids : ((reserveApplications db config now locked).2.map fun i => (i, ())).map Prod.fst =
        (reserveApplications db config now locked).2 := by
      rw [List.map_map]
      exact List.map_id _
    rw [hids]
    exact hdue.sublist ((List.take_sublist _ _).map _)

/-- The state of the dispatchers of the applications. -/
abbrev SyncDispatchState := DispatchState Time Database Unit

/-- The reservation stamp of an application. -/
def syncStamp (db : Database) (id : Nat) : Option (Option Time) :=
  (Table.get db.applications id).map (·.syncScheduledAt)

/-- A publication of an application while an earlier sync of it has not ended comes from a reservation that is the retry
delay later, and from the latest one. -/
def Spaced (retryAfter : Time) : List (DispatchEvent Time) → Prop
  | [] => True
  | e :: log => Spaced retryAfter log ∧ ∀ run id time, e = .published run id time → ∀ r t, Unfinished r id t log →
      t + retryAfter ≤ time ∧ (lastReservation log id).map Prod.fst = some run

theorem spaced_append {retryAfter : Time} {log : List (DispatchEvent Time)} (h : Spaced retryAfter log) :
    ∀ {events : List (DispatchEvent Time)}, (∀ r i t, .published r i t ∉ events) → Spaced retryAfter (events ++ log)
  | [], _ => h
  | e :: events, hno => by
    refine ⟨spaced_append h fun r i t hmem => hno r i t (List.mem_cons_of_mem e hmem), fun run id time he => ?_⟩
    exact absurd (he ▸ List.mem_cons_self) (hno run id time)

/-! ## Rows -/

section Rows

variable {db : Database} {config : SyncDispatchConfig} {now : Time} {locked : List Nat}

/-- A row after a reservation: due and stamped, or as it was. -/
theorem application_reserved (hk : Table.Keyed db.applications) {a' : Application}
    (h : a' ∈ (reserveApplications db config now locked).1.applications) : ∃ a ∈ db.applications, a'.id = a.id ∧
      (a.id ∈ (reserveApplications db config now locked).2 ∧ a.Due config now ∧ a'.syncScheduledAt = some now ∨
        a.id ∉ (reserveApplications db config now locked).2 ∧ a' = a) := by
  obtain ⟨a, ha, rfl⟩ := List.mem_map.mp h
  refine ⟨a, ha, ?_⟩
  split_ifs with hin
  · obtain ⟨x, hx, hid⟩ := List.mem_map.mp hin
    obtain ⟨hxmem, hdue, -⟩ := mem_dueApplications.mp (List.mem_of_mem_take hx)
    cases hk.eq_of_id hxmem ha hid
    exact ⟨rfl, .inl ⟨hin, hdue, rfl⟩⟩
  · exact ⟨rfl, .inr ⟨hin, rfl⟩⟩

/-- The reserved ids are those of due rows. -/
theorem mem_reservedApplications {i : Nat} (h : i ∈ (reserveApplications db config now locked).2) :
    ∃ a ∈ db.applications, a.id = i ∧ a.Due config now := by
  obtain ⟨a, ha, rfl⟩ := List.mem_map.mp h
  obtain ⟨hmem, hdue, -⟩ := mem_dueApplications.mp (List.mem_of_mem_take ha)
  exact ⟨a, hmem, rfl, hdue⟩

/-- A row after a release: without a stamp, or as it was. -/
theorem application_released {remaining : List Nat} {a' : Application}
    (h : a' ∈ (releaseApplications db remaining).applications) : ∃ a ∈ db.applications, a'.id = a.id ∧
      (a.id ∈ remaining ∨ a.id ∉ remaining ∧ a' = a) := by
  obtain ⟨a, ha, rfl⟩ := List.mem_map.mp h
  refine ⟨a, ha, ?_⟩
  split_ifs with hin
  · exact ⟨rfl, .inl hin⟩
  · exact ⟨rfl, .inr ⟨hin, rfl⟩⟩

/-- A row after a sync: the application of the sync, or as it was. -/
theorem application_finished {U : Unicode} {applicationId : Nat} {enqueue : Nat → Nat × Nat → Option Exc}
    {a' : Application} (h : a' ∈ (runApplicationMetricsSync U db applicationId enqueue now).db.applications) :
    ∃ a ∈ db.applications, a'.id = a.id ∧ (a.id = applicationId ∨ a' = a) := by
  obtain ⟨f, hf, happlications⟩ := sync_applications U db applicationId enqueue now
  rw [happlications] at h
  obtain ⟨a, ha, rfl⟩ := Table.mem_modify.mp h
  refine ⟨a, ha, ?_⟩
  split_ifs with hid
  · exact ⟨(hf a).1, .inl hid⟩
  · exact ⟨rfl, .inr rfl⟩

end Rows

/-! ## Steps in turn -/

/-- The invariant of the dispatchers in turn. -/
structure SpacedInv (retryAfter : Time) (s : SyncDispatchState) : Prop where
  valid : Table.Keyed s.db.applications
  holding : Holding s
  pending : ∀ a ∈ s.db.applications, ∀ r t, Unfinished r a.id t s.log →
    t + retryAfter ≤ s.clock ∨ ∃ q, a.syncScheduledAt = some q ∧ t ≤ q
  latest : ∀ id run time, lastReservation s.log id = some (run, time) → ∀ r t, Unfinished r id t s.log → r ≠ run →
    t + retryAfter ≤ time
  held : ∀ a ∈ s.db.applications, ∀ run d, s.dispatchers run = some d → ∀ x ∈ d.remaining, x.1 = a.id →
    (lastReservation s.log a.id).map Prod.fst = some run → a.syncScheduledAt = some d.reservedAt
  spaced : Spaced retryAfter s.log

section Steps

variable {U : Unicode} {config : SyncDispatchConfig} {s s' : SyncDispatchState}

/-- A due application is the retry delay away from the publications whose sync has not ended. -/
theorem SpacedInv.due (h : SpacedInv (seconds config.retryAfterSeconds) s) {a : Application}
    (ha : a ∈ s.db.applications)
    {now : Time} (hnow : s.clock ≤ now) (hdue : a.Due config now) {r : Nat} {t : Time}
    (hu : Unfinished r a.id t s.log) : t + seconds config.retryAfterSeconds ≤ now := by
  rcases h.pending a ha r t hu with hpassed | ⟨q, hq, hle⟩
  · exact hpassed.trans hnow
  · have hretry := hdue.2 q hq
    linarith

/-- Every step in turn keeps the invariant. -/
theorem SpacedInv.step (h : SpacedInv (seconds config.retryAfterSeconds) s)
    {a : DispatchAction Time (Nat → Nat × Nat → Option Exc)} (hturn : InTurn s a)
    (hs : (applicationProtocol U config).step s a = some s') :
    SpacedInv (seconds config.retryAfterSeconds) s' := by
  obtain ⟨hholding, hvalid⟩ := h.holding.step (P := applicationProtocol U config) h.valid hs
  cases a with
  | reserve run now locked =>
    obtain ⟨hnew, hnow, rfl⟩ := ReservationProtocol.step_reserve hs
    set batch := (reserveApplications s.db config now locked).2 with hbatch
    have hrow : ∀ a' ∈ (reserveApplications s.db config now locked).1.applications, ∃ a ∈ s.db.applications,
        a'.id = a.id ∧ (a.id ∈ batch ∧ a.Due config now ∧ a'.syncScheduledAt = some now ∨ a.id ∉ batch ∧ a' = a) :=
      fun _ ha' => application_reserved h.valid ha'
    have hunfinished : ∀ r i t, Unfinished r i t
        ((batch.map fun i => (i, ())).map (fun x => .reserved run x.1 now) ++ s.log) ↔ Unfinished r i t s.log :=
      fun r i t => unfinished_append (by simp)
    have hlast : ∀ i, lastReservation ((batch.map fun i => (i, ())).map (fun x => .reserved run x.1 now) ++ s.log) i =
        if i ∈ batch then some (run, now) else lastReservation s.log i := by
      intro i
      rw [lastReservation_reserved]
      simp
    refine ⟨hvalid, hholding, fun a' ha' r t hu => ?_, fun i r time hl r' t hu hne => ?_,
      fun a' ha' r d hd x hx hid hl => ?_, spaced_append h.spaced (by simp)⟩
    · obtain ⟨a, ha, hid, ⟨-, hdue, -⟩ | ⟨-, rfl⟩⟩ := hrow a' ha'
      · exact .inl (h.due ha hnow hdue ((hunfinished _ _ _).mp (hid ▸ hu)))
      · exact (h.pending a' ha r t ((hunfinished _ _ _).mp hu)).imp_left fun hpassed => hpassed.trans hnow
    · replace hl := (hlast i).symm.trans hl
      have hu := (hunfinished _ _ _).mp hu
      split_ifs at hl with hin
      · cases hl
        obtain ⟨a, ha, rfl, hdue⟩ := mem_reservedApplications hin
        exact h.due ha hnow hdue hu
      · exact h.latest i r time hl r' t hu hne
    · obtain ⟨a, ha, haid, hcases⟩ := hrow a' ha'
      replace hl := (congrArg (Option.map Prod.fst) (hlast a'.id)).symm.trans hl
      rcases update_eq_some hd with ⟨rfl, rfl⟩ | ⟨hne, hd⟩
      · rcases hcases with ⟨-, -, hstamp⟩ | ⟨hout, -⟩
        · exact hstamp
        · obtain ⟨i, hi, rfl⟩ := List.mem_map.mp hx
          have hia : i = a.id := hid.trans haid
          exact absurd (hia ▸ hi) hout
      · rcases hcases with ⟨hin, -⟩ | ⟨hout, rfl⟩
        · rw [haid, if_pos hin] at hl
          exact absurd (Option.some.inj hl).symm hne
        · rw [if_neg hout] at hl
          exact h.held a' ha r d hd x hx hid hl
  | publish run =>
    obtain ⟨time, x, remaining, hd, rfl⟩ := ReservationProtocol.step_publish hs
    have hlast : (lastReservation s.log x.1).map Prod.fst = some run :=
      hturn (run, x.1) (by simp [DispatchAction.settles, hd])
    have hreservation := h.holding.last_at hd hlast
    have hunpublished : ∀ r t, Unfinished r x.1 t s.log → r ≠ run := by
      rintro r t hu rfl
      exact h.holding.unpublished r _ hd x List.mem_cons_self t hu.published
    refine ⟨hvalid, hholding, fun a ha r t hu => ?_, fun i r t hl r' t' hu hne => ?_,
      fun a ha r d hd' y hy hid hl => ?_, h.spaced, fun run' i time' he r t hu => ?_⟩
    · rcases hu with he | ⟨-, hu⟩
      · injection he with _ hx htime
        exact .inr ⟨time, h.held a ha run _ hd x List.mem_cons_self hx (hx ▸ hlast), htime.ge⟩
      · exact h.pending a ha r t hu
    · rcases hu with he | ⟨-, hu⟩
      · injection he with hr hx
        rw [lastReservation_published, ← hx, hreservation] at hl
        cases hl
        exact absurd hr.symm hne
      · exact h.latest i r t hl r' t' hu hne
    · rcases update_eq_some hd' with ⟨rfl, rfl⟩ | ⟨-, hd'⟩
      · have hstamp := h.held a ha r _ hd y (List.mem_cons_of_mem x hy) hid hl
        exact hstamp
      · exact h.held a ha r d hd' y hy hid hl
    · injection he with hr hx htime
      rw [← hx] at hu ⊢
      rw [← hr, ← htime]
      exact ⟨h.latest x.1 run time hreservation r t hu (hunpublished r t hu), hlast⟩
  | fail run =>
    obtain ⟨time, x, remaining, hd, rfl⟩ := ReservationProtocol.step_fail hs
    refine ⟨hvalid, hholding, h.pending, h.latest, fun a ha r d hd' y hy hid hl => ?_, h.spaced⟩
    rcases update_eq_some hd' with ⟨rfl, rfl⟩ | ⟨-, hd'⟩
    · have hstamp := h.held a ha r _ hd y hy hid hl
      exact hstamp
    · exact h.held a ha r d hd' y hy hid hl
  | release run =>
    obtain ⟨time, remaining, hd, rfl⟩ := ReservationProtocol.step_release hs
    have hlast : ∀ x ∈ remaining, (lastReservation s.log x.1).map Prod.fst = some run := by
      intro x hx
      refine hturn (run, x.1) ?_
      simp only [DispatchAction.settles, hd]
      exact List.mem_map_of_mem hx
    have hrow : ∀ a' ∈ (releaseApplications s.db (remaining.map Prod.fst)).applications, ∃ a ∈ s.db.applications,
        a'.id = a.id ∧ (a.id ∈ remaining.map Prod.fst ∨ a.id ∉ remaining.map Prod.fst ∧ a' = a) :=
      fun _ ha' => application_released ha'
    have hunfinished : ∀ r i t, Unfinished r i t (remaining.map (fun x => .released run x.1) ++ s.log) ↔
        Unfinished r i t s.log := by
      refine fun r i t => unfinished_append fun e he => ?_
      obtain ⟨x, -, rfl⟩ := List.mem_map.mp he
      constructor
      · rintro ⟨⟩
      · rintro ⟨⟩
    refine ⟨hvalid, hholding, fun a' ha' r t hu => ?_, fun i r t hl r' t' hu hne => ?_,
      fun a' ha' r d hd' y hy hid hl => ?_, spaced_append h.spaced (by simp)⟩
    · obtain ⟨a, ha, hid, hin | ⟨-, rfl⟩⟩ := hrow a' ha'
      · obtain ⟨x, hx, hxid⟩ := List.mem_map.mp hin
        have hopen : Unfinished r x.1 t s.log := by
          rw [hxid, ← hid]
          exact (hunfinished _ _ _).mp hu
        have hreservation := h.holding.last_at hd (hlast x hx)
        have hne : r ≠ run := by
          rintro rfl
          exact h.holding.unpublished r _ hd x hx t hopen.published
        exact .inl ((h.latest x.1 run time hreservation r t hopen hne).trans (h.holding.reserved_le run _ hd))
      · exact h.pending a' ha r t ((hunfinished _ _ _).mp hu)
    · rw [lastReservation_released] at hl
      exact h.latest i r t hl r' t' ((hunfinished _ _ _).mp hu) hne
    · rw [lastReservation_released] at hl
      rcases update_eq_some hd' with ⟨rfl, rfl⟩ | ⟨hne, hd'⟩
      · cases hy
      · obtain ⟨a, ha, haid, hin | ⟨-, rfl⟩⟩ := hrow a' ha'
        · obtain ⟨x, hx, hxid⟩ := List.mem_map.mp hin
          rw [haid, ← hxid, hlast x hx] at hl
          exact absurd (Option.some.inj hl).symm hne
        · exact h.held a' ha r d hd' y hy hid hl
  | finish run id enqueue now =>
    obtain ⟨hnow, ⟨e, he, hpublishes⟩, -, rfl⟩ := ReservationProtocol.step_finish hs
    have hlast : (lastReservation s.log id).map Prod.fst = some run :=
      hturn (run, id) (by simp [DispatchAction.settles])
    have hrow : ∀ a' ∈ (runApplicationMetricsSync U s.db id enqueue now).db.applications, ∃ a ∈ s.db.applications,
        a'.id = a.id ∧ (a.id = id ∨ a' = a) := fun _ ha' => application_finished ha'
    have hunfinished : ∀ r i t, Unfinished r i t (.finished run id :: s.log) →
        ¬ (r = run ∧ i = id) ∧ Unfinished r i t s.log := by
      rintro r i t (he | ⟨hne, hu⟩)
      · cases he
      · refine ⟨fun hsame => hne ?_, hu⟩
        rw [hsame.1, hsame.2]
    refine ⟨hvalid, hholding, fun a' ha' r t hu => ?_, fun i r t hl r' t' hu hne => ?_,
      fun a' ha' r d hd y hy hid hl => ?_, h.spaced, by simp⟩
    · obtain ⟨hother, hopen⟩ := hunfinished _ _ _ hu
      obtain ⟨a, ha, haid, hid | rfl⟩ := hrow a' ha'
      · obtain ⟨⟨run', time⟩, hreservation, hrun⟩ := Option.map_eq_some_iff.mp hlast
        have hi : a'.id = id := haid.trans hid
        have hpassed := h.latest id run' time hreservation r t (hi ▸ hopen) fun hr => hother ⟨hr.trans hrun, hi⟩
        exact .inl (hpassed.trans ((h.holding.last_le hreservation).trans hnow))
      · exact (h.pending a' ha r t hopen).imp_left fun hpassed => hpassed.trans hnow
    · exact h.latest i r t hl r' t' (hunfinished _ _ _ hu).2 hne
    · rw [lastReservation_finished] at hl
      obtain ⟨a, ha, haid, hid' | rfl⟩ := hrow a' ha'
      · have hi : a'.id = id := haid.trans hid'
        rw [hi] at hl hid
        have hr : r = run := Option.some.inj (hl.symm.trans hlast)
        -- the sync that ended was published, so its dispatcher does not hold the row any more
        cases e with
        | published run' i time =>
          obtain ⟨rfl, rfl⟩ := hpublishes
          exact absurd (hid ▸ he) (h.holding.unpublished run' d (hr ▸ hd) y hy time)
        | reserved _ _ _ | released _ _ | finished _ _ => exact hpublishes.elim
      · exact h.held a' ha r d hd y hy hid hl

end Steps

end Washing
