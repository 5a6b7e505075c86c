import Washing.Db.Models
import Washing.Lib.Publish

/-!
# Dispatching the due provisioners

`dispatch_due_jobs` stamps the provisioners whose cron is due with the current time (`reserveProvisioners`), commits,
and publishes one job for each. When a publish fails, the stamps it found are written back to the rows that it did not
publish (`releaseProvisioners`), whatever these rows hold by then. `row_reserved` and `row_released` say what becomes
of a row.
-/

namespace Washing

/-! ## Cron -/

/-- The slots of cron expressions: the next one after a time. -/
structure CronSlots where
  next : String → Time → Time
  lt_next : ∀ cron t, t < next cron t

/-- The cron library, whose slots come in order. -/
structure Croniter extends CronSlots where
  mono : ∀ cron t u, t ≤ u → next cron t ≤ next cron u

instance : Coe Croniter CronSlots := ⟨Croniter.toCronSlots⟩

/-- The time is a slot of the cron expression. -/
def Croniter.IsSlot (c : Croniter) (cron : String) (slot : Time) : Prop := ∃ t, c.next cron t = slot

/-- Return whether a provisioner should be scheduled at the given time. -/
def isDue (c : CronSlots) (cron : String) (lastScheduledAt : Option Time) (now : Time) : Bool :=
  match lastScheduledAt with
  | none => true
  | some last => c.next cron last ≤ now

/-! ## Reservations -/

/-- Set the stamp of a provisioner. -/
def MachineProvisioner.stamped (p : MachineProvisioner) (stamp : Option Time) : MachineProvisioner :=
  { p with lastScheduledAt := stamp }

/-- Reserve the due provisioners: the database to commit, and the reserved ids with the stamps they had. -/
def reserveProvisioners (c : CronSlots) (db : Database) (now : Time) (locked : List Nat) :
    Database × List (Nat × Option Time) :=
  let provisioners := (selectWhere (fun p => Cond.ofBool p.enabled) db.provisioners).filter fun p => p.id ∉ locked
  let reserved := (provisioners.filter fun p => isDue c p.cron p.lastScheduledAt now).map fun p =>
    (p.id, p.lastScheduledAt)
  ({ db with
      provisioners := db.provisioners.map fun p => if p.id ∈ reserved.map Prod.fst then p.stamped (some now) else p },
    reserved)

/-- Restore the stamps of the rows whose publish never happened. -/
def releaseProvisioners (db : Database) : List (Nat × Option Time) → Database
  | [] => db
  | (provisionerId, previousLastScheduledAt) :: reserved =>
    let provisioners := Table.modify db.provisioners provisionerId fun p => p.stamped previousLastScheduledAt
    releaseProvisioners { db with provisioners } reserved

/-- The outcome of a call: the database after it, the published ids, and what it returns or raises. -/
structure JobDispatchOutcome where
  db : Database
  published : List Nat
  result : Except Exc (List Nat)

/-- Enqueue every enabled provisioner whose cron is currently due, no other transaction being open. -/
def dispatchDueJobs (c : CronSlots) (db : Database) (enqueueProvisioner : Nat → Nat → Option Exc) (now : Time) :
    JobDispatchOutcome :=
  let reserved := reserveProvisioners c db now []
  let publication := publishAll enqueueProvisioner 0 (reserved.2.map Prod.fst)
  match publication.2 with
  | some e => ⟨releaseProvisioners reserved.1 (reserved.2.drop publication.1.length), publication.1, .error e⟩
  | none => ⟨reserved.1, publication.1, .ok publication.1⟩

section Rows

variable {c : CronSlots} {db : Database} {now : Time} {locked : List Nat}

/-- The reserved rows are due, and are remembered with their stamps. -/
theorem mem_reserved {x : Nat × Option Time} (h : x ∈ (reserveProvisioners c db now locked).2) :
    ∃ p ∈ db.provisioners, x = (p.id, p.lastScheduledAt) ∧ isDue c p.cron p.lastScheduledAt now := by
  obtain ⟨p, hp, rfl⟩ := List.mem_map.mp h
  simp only [List.mem_filter, mem_selectWhere] at hp
  exact ⟨p, hp.1.1.1, rfl, hp.2⟩

/-- A row after a reservation: due and stamped, or as it was. -/
theorem row_reserved (hk : Table.Keyed db.provisioners) {p' : MachineProvisioner}
    (h : p' ∈ (reserveProvisioners c db now locked).1.provisioners) : ∃ p ∈ db.provisioners,
      p'.id = p.id ∧ p'.cron = p.cron ∧
        (p.id ∈ (reserveProvisioners c db now locked).2.map Prod.fst ∧
          (∀ x ∈ (reserveProvisioners c db now locked).2, x.1 = p.id → x.2 = p.lastScheduledAt) ∧
          isDue c p.cron p.lastScheduledAt now ∧ p'.lastScheduledAt = some now ∨
        p.id ∉ (reserveProvisioners c db now locked).2.map Prod.fst ∧ p' = p) := by
  obtain ⟨p, hp, rfl⟩ := List.mem_map.mp h
  split_ifs with hin
  · have hrow : ∀ x ∈ (reserveProvisioners c db now locked).2, x.1 = p.id →
        x.2 = p.lastScheduledAt ∧ isDue c p.cron p.lastScheduledAt now := by
      intro x hx hid
      obtain ⟨q, hq, rfl, hdue⟩ := mem_reserved hx
      cases hk.eq_of_id hq hp hid
      exact ⟨rfl, hdue⟩
    obtain ⟨x, hx, hid⟩ := List.mem_map.mp hin
    exact ⟨p, hp, rfl, rfl, .inl ⟨hin, fun y hy hyid => (hrow y hy hyid).1, (hrow x hx hid).2, rfl⟩⟩
  · exact ⟨p, hp, rfl, rfl, .inr ⟨hin, rfl⟩⟩

/-- A row after a release: with a remembered stamp, or as it was. -/
theorem row_released : ∀ (remaining : List (Nat × Option Time)) (db : Database) {p' : MachineProvisioner},
    p' ∈ (releaseProvisioners db remaining).provisioners → ∃ p ∈ db.provisioners, p'.id = p.id ∧ p'.cron = p.cron ∧
      ((∃ x ∈ remaining, x.1 = p.id ∧ p'.lastScheduledAt = x.2) ∨ p.id ∉ remaining.map Prod.fst ∧ p' = p)
  | [], db, p', h => ⟨p', h, rfl, rfl, .inr ⟨by simp, rfl⟩⟩
  | (i, stamp) :: remaining, db, p', h => by
    rw [releaseProvisioners] at h
    obtain ⟨q, hq, hid, hcron, hrest⟩ := row_released remaining _ h
    obtain ⟨p, hp, rfl⟩ := Table.mem_modify.mp hq
    by_cases hi : Row.id p = i
    · rw [if_pos hi] at hid hcron hrest
      refine ⟨p, hp, hid, hcron, .inl ?_⟩
      rcases hrest with ⟨x, hx, hxid, hlast⟩ | ⟨-, rfl⟩
      · exact ⟨x, List.mem_cons_of_mem _ hx, hxid, hlast⟩
      · exact ⟨(i, stamp), List.mem_cons_self, hi.symm, rfl⟩
    · rw [if_neg hi] at hid hcron hrest
      refine ⟨p, hp, hid, hcron, hrest.imp (fun ⟨x, hx, h⟩ => ⟨x, List.mem_cons_of_mem _ hx, h⟩)
        fun ⟨hno, h⟩ => ⟨?_, h⟩⟩
      rw [List.map_cons, List.mem_cons, not_or]
      exact ⟨hi, hno⟩

theorem reserveProvisioners_ids (c : CronSlots) (db : Database) (now : Time) (locked : List Nat) :
    Table.ids (reserveProvisioners c db now locked).1.provisioners = Table.ids db.provisioners := by
  simp only [reserveProvisioners, Table.ids, List.map_map]
  refine List.map_congr_left fun p _ => ?_
  simp only [Function.comp_apply]
  split_ifs
  · rfl
  · rfl

theorem releaseProvisioners_ids : ∀ (remaining : List (Nat × Option Time)) (db : Database),
    Table.ids (releaseProvisioners db remaining).provisioners = Table.ids db.provisioners
  | [], _ => rfl
  | (i, stamp) :: remaining, db =>
    (releaseProvisioners_ids remaining _).trans
      (Table.ids_modify (f := fun p => p.stamped stamp) (fun _ => rfl) db.provisioners i)

end Rows

end Washing
