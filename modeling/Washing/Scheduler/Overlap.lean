import Washing.Lib.Reservation
import Washing.Scheduler.Dispatch

/-!
# Overlapping provisioner dispatchers

Any number of calls of `dispatch_due_jobs` run at the same time. As long as every step is in turn, the stamp of a row
is never earlier than a publication of it (`SlotInv.stamped`), a dispatcher that holds the row remembers a stamp that
is not earlier either (`SlotInv.held`), and so a publication comes from a reservation of a slot that is later than all
the reservations published before (`SlotInv.slots`).
-/

namespace Washing

/-- The dispatchers of the provisioners; the jobs they publish do not write stamps. -/
def provisionerProtocol (c : Croniter) : ReservationProtocol Time Database (Option Time) Empty where
  Valid db := Table.Keyed db.provisioners
  reserve := reserveProvisioners c
  release := releaseProvisioners
  finish db _ _ _ := db
  valid_reserve db now locked h := by
    unfold Table.Keyed
    rw [reserveProvisioners_ids]
    exact h
  valid_release db remaining h := by
    unfold Table.Keyed
    rw [releaseProvisioners_ids]
    exact h
  valid_finish _ _ _ _ h := h
  nodup_reserve db now locked h := by
    have hsub := ((List.filter_sublist (p := fun p => isDue c p.cron p.lastScheduledAt now)).trans
      (List.filter_sublist (p := fun p : MachineProvisioner => p.id ∉ locked))).trans
      (List.filter_sublist (p := fun p => (Cond.ofBool p.enabled).isTrue) (l := db.provisioners))
    simp only [reserveProvisioners, List.map_map]
    exact List.Nodup.sublist (hsub.map MachineProvisioner.id) h

/-- The state of the dispatchers of the provisioners. -/
abbrev JobDispatchState := DispatchState Time Database (Option Time)

/-- Between two publications of a row there is a slot of its cron: after the reservation of the first, and not after the
reservation of the second. -/
def SlotsBetween (c : Croniter) (cron : String) (id : Nat) (log : List (DispatchEvent Time)) : Prop :=
  log.Pairwise fun newer older => ∀ run time r t, newer = .published run id time → older = .published r id t →
    ∃ slot, c.IsSlot cron slot ∧ t < slot ∧ slot ≤ time

/-- Events that publish nothing leave the publications as they are. -/
theorem slotsBetween_append {c : Croniter} {cron : String} {id : Nat} {events log : List (DispatchEvent Time)}
    (hno : ∀ r i t, .published r i t ∉ events) (h : SlotsBetween c cron id log) :
    SlotsBetween c cron id (events ++ log) := by
  refine List.pairwise_append.mpr ⟨?_, h, fun e he o _ run time r t hnew _ => absurd (hnew ▸ he) (hno _ _ _)⟩
  exact List.pairwise_of_forall_mem_list fun e he o _ run time r t hnew _ => absurd (hnew ▸ he) (hno _ _ _)

/-- The invariant of the dispatchers in turn. -/
structure SlotInv (c : Croniter) (s : JobDispatchState) : Prop where
  valid : Table.Keyed s.db.provisioners
  holding : Holding s
  stamped : ∀ p ∈ s.db.provisioners, ∀ r t, .published r p.id t ∈ s.log → ∃ q, p.lastScheduledAt = some q ∧ t ≤ q
  held : ∀ p ∈ s.db.provisioners, ∀ run d, s.dispatchers run = some d → ∀ x ∈ d.remaining, x.1 = p.id →
    (lastReservation s.log p.id).map Prod.fst = some run →
    p.lastScheduledAt = some d.reservedAt ∧ isDue c p.cron x.2 d.reservedAt ∧
      ∀ r t, .published r p.id t ∈ s.log → ∃ q, x.2 = some q ∧ t ≤ q
  slots : ∀ p ∈ s.db.provisioners, SlotsBetween c p.cron p.id s.log

section Steps

variable {c : Croniter} {s s' : JobDispatchState} {run : Nat}

/-- Every step in turn keeps the invariant. -/
theorem SlotInv.step (h : SlotInv c s) {a : DispatchAction Time Empty} (hturn : InTurn s a)
    (hs : (provisionerProtocol c).step s a = some s') : SlotInv c s' := by
  obtain ⟨hholding, hvalid⟩ := h.holding.step (P := provisionerProtocol c) h.valid hs
  cases a with
  | reserve run now locked =>
    obtain ⟨hnew, -, rfl⟩ := ReservationProtocol.step_reserve hs
    set batch := (reserveProvisioners c s.db now locked).2 with hbatch
    have hrow : ∀ p' ∈ (reserveProvisioners c s.db now locked).1.provisioners, ∃ p ∈ s.db.provisioners,
        p'.id = p.id ∧ p'.cron = p.cron ∧ (p.id ∈ batch.map Prod.fst ∧
          (∀ x ∈ batch, x.1 = p.id → x.2 = p.lastScheduledAt) ∧
          isDue c p.cron p.lastScheduledAt now ∧ p'.lastScheduledAt = some now ∨
          p.id ∉ batch.map Prod.fst ∧ p' = p) := fun _ hp' => row_reserved h.valid hp'
    have hpublished : ∀ r i t, .published r i t ∈ batch.map (fun x => DispatchEvent.reserved run x.1 now) ++ s.log →
        .published r i t ∈ s.log := by
      intro r i t
      simp
    refine ⟨hvalid, hholding, fun p' hp' r t hpub => ?_, fun p' hp' r d hd x hx hid hlast => ?_, fun p' hp' => ?_⟩
    · obtain ⟨p, hp, hpid, -, ⟨-, -, hdue, hlast⟩ | ⟨-, rfl⟩⟩ := hrow p' hp'
      · obtain ⟨q, hq, hle⟩ := h.stamped p hp r t (hpid ▸ hpublished _ _ _ hpub)
        refine ⟨now, hlast, hle.trans ?_⟩
        rw [hq, isDue, decide_eq_true_iff] at hdue
        exact (c.lt_next _ _).le.trans hdue
      · exact h.stamped p' hp r t (hpublished _ _ _ hpub)
    · obtain ⟨p, hp, hpid, hcron, hcases⟩ := hrow p' hp'
      change (lastReservation (batch.map (fun x => .reserved run x.1 now) ++ s.log) p'.id).map Prod.fst =
        some r at hlast
      rw [lastReservation_reserved, hpid] at hlast
      rw [hpid] at hid
      rcases update_eq_some hd with ⟨rfl, rfl⟩ | ⟨hne, hd⟩
      · rcases hcases with ⟨-, hremembered, hdue, hstamp⟩ | ⟨hout, -⟩
        · rw [hremembered x hx hid, hcron]
          refine ⟨hstamp, hdue, fun r' t hpub => ?_⟩
          exact h.stamped p hp r' t (hpid ▸ hpublished _ _ _ hpub)
        · exact absurd (hid ▸ List.mem_map_of_mem hx) hout
      · rcases hcases with ⟨hin, -⟩ | ⟨hout, rfl⟩
        · rw [if_pos hin] at hlast
          exact absurd (Option.some.inj hlast).symm hne
        · rw [if_neg hout] at hlast
          obtain ⟨hstamp, hdue, hpub⟩ := h.held p' hp r d hd x hx hid hlast
          exact ⟨hstamp, hdue, fun r' t hpub' => hpub r' t (hpublished _ _ _ hpub')⟩
    · obtain ⟨p, hp, hpid, hcron, -⟩ := hrow p' hp'
      rw [hpid, hcron]
      exact slotsBetween_append (by simp) (h.slots p hp)
  | publish run =>
    obtain ⟨time, x, remaining, hd, rfl⟩ := ReservationProtocol.step_publish hs
    have hnodup := h.holding.nodup run _ hd
    rw [List.map_cons, List.nodup_cons] at hnodup
    have hlast : (lastReservation s.log x.1).map Prod.fst = some run :=
      hturn (run, x.1) (by simp [DispatchAction.settles, hd])
    have hfirst := fun p hp hid => h.held p hp run _ hd x List.mem_cons_self hid (hid ▸ hlast)
    refine ⟨hvalid, hholding, fun p hp r t hpub => ?_, fun p hp r d hd' y hy hid hlast' => ?_, fun p hp => ?_⟩
    · rcases List.mem_cons.mp hpub with hpub | hpub
      · injection hpub with _ hpx htime
        exact ⟨time, (hfirst p hp hpx.symm).1, htime.le⟩
      · exact h.stamped p hp r t hpub
    · rcases update_eq_some hd' with ⟨rfl, rfl⟩ | ⟨hne, hd'⟩
      · obtain ⟨hstamp, hdue, hpub⟩ := h.held p hp r _ hd y (List.mem_cons_of_mem x hy) hid hlast'
        refine ⟨hstamp, hdue, fun r' t hpub' => ?_⟩
        rcases List.mem_cons.mp hpub' with hpub' | hpub'
        · injection hpub' with _ hpx
          exact absurd (hid.trans hpx ▸ List.mem_map_of_mem hy) hnodup.1
        · exact hpub r' t hpub'
      · obtain ⟨hstamp, hdue, hpub⟩ := h.held p hp r d hd' y hy hid hlast'
        refine ⟨hstamp, hdue, fun r' t hpub' => ?_⟩
        rcases List.mem_cons.mp hpub' with hpub' | hpub'
        · injection hpub' with _ hpx
          exact absurd (Option.some.inj ((hpx ▸ hlast').symm.trans hlast)) hne
        · exact hpub r' t hpub'
    · refine List.pairwise_cons.mpr ⟨fun older holder run' time' r t hnew hold => ?_, h.slots p hp⟩
      injection hnew with _ hpx htime
      obtain ⟨-, hdue, hpub⟩ := hfirst p hp hpx
      obtain ⟨q, hq, hle⟩ := hpub r t (hold ▸ holder)
      rw [hq, isDue, decide_eq_true_iff] at hdue
      rw [← htime]
      exact ⟨c.next p.cron t, ⟨t, rfl⟩, c.lt_next _ _, (c.mono _ _ _ hle).trans hdue⟩
  | fail run =>
    obtain ⟨time, x, remaining, hd, rfl⟩ := ReservationProtocol.step_fail hs
    refine ⟨hvalid, hholding, h.stamped, fun p hp r d hd' y hy hid hlast => ?_, h.slots⟩
    rcases update_eq_some hd' with ⟨rfl, rfl⟩ | ⟨-, hd'⟩
    · exact h.held p hp r _ hd y hy hid hlast
    · exact h.held p hp r d hd' y hy hid hlast
  | release run =>
    obtain ⟨time, remaining, hd, rfl⟩ := ReservationProtocol.step_release hs
    have hlast : ∀ x ∈ remaining, (lastReservation s.log x.1).map Prod.fst = some run := by
      intro x hx
      refine hturn (run, x.1) ?_
      simp only [DispatchAction.settles, hd]
      exact List.mem_map_of_mem hx
    have hrow : ∀ p' ∈ (releaseProvisioners s.db remaining).provisioners, ∃ p ∈ s.db.provisioners, p'.id = p.id ∧
        p'.cron = p.cron ∧ ((∃ x ∈ remaining, x.1 = p.id ∧ p'.lastScheduledAt = x.2) ∨
          p.id ∉ remaining.map Prod.fst ∧ p' = p) := fun _ hp' => row_released remaining s.db hp'
    have hpublished : ∀ r i t, .published r i t ∈ remaining.map (fun x => DispatchEvent.released run x.1) ++ s.log →
        .published r i t ∈ s.log := by
      intro r i t
      simp
    refine ⟨hvalid, hholding, fun p' hp' r t hpub => ?_, fun p' hp' r d hd' y hy hid hlast' => ?_, fun p' hp' => ?_⟩
    · obtain ⟨p, hp, hpid, -, ⟨x, hx, hxid, hstamp⟩ | ⟨-, rfl⟩⟩ := hrow p' hp'
      · rw [hstamp]
        exact (h.held p hp run _ hd x hx hxid (hxid ▸ hlast x hx)).2.2 r t (hpid ▸ hpublished _ _ _ hpub)
      · exact h.stamped p' hp r t (hpublished _ _ _ hpub)
    · rcases update_eq_some hd' with ⟨rfl, rfl⟩ | ⟨hne, hd'⟩
      · cases hy
      · rw [lastReservation_released] at hlast'
        obtain ⟨p, hp, hpid, -, ⟨x, hx, hxid, -⟩ | ⟨-, rfl⟩⟩ := hrow p' hp'
        · rw [hpid, ← hxid, hlast x hx] at hlast'
          exact absurd (Option.some.inj hlast').symm hne
        · obtain ⟨hstamp, hdue, hpub⟩ := h.held p' hp r d hd' y hy hid hlast'
          exact ⟨hstamp, hdue, fun r' t hpub' => hpub r' t (hpublished _ _ _ hpub')⟩
    · obtain ⟨p, hp, hpid, hcron, -⟩ := hrow p' hp'
      rw [hpid, hcron]
      exact slotsBetween_append (by simp) (h.slots p hp)
  | finish run id job now => exact job.elim

end Steps

end Washing
