import Washing.Applications.Sync
import Washing.Lib.Transaction

/-!
# The application sync as a job

`run_application_metrics_sync` once more, with the session explicit and every step of the `try` block exposed to
failures from outside. When the job raises, the database is as it was before, but for two columns of the application
(`syncJob_error`); when it gets through, it has done what the sync does (`syncJob_ok`), and published a message for each
pair (`syncPublished_ok`).
-/

namespace Washing

namespace SyncJob

open Job

variable (faults : Faults Database) (U : Unicode) (enqueueMachineSync : Nat → Nat × Nat → Option Exc)

/-- The steps of the `try` block before its commit. -/
def steps (application : Application) (now : Time) : Job Database Database SyncReport := do
  let machines ← step faults fun db => .ok (db, applicationMachines db application)
  let pairs ← step faults fun db => .ok (db, applicationPairs db application)
  publishing faults enqueueMachineSync 0 (pairs.map Prod.swap)
  step faults fun db =>
    let applications := Table.modify db.applications application.id fun a => a.synced now
    .ok ({ db with applications }, ())
  return ⟨application.id, machines.length, pairs.length, if pairs = [] then "noop" else "dispatched"⟩

/-- The `try` block. -/
def body (application : Application) (now : Time) : Job Database Database SyncReport :=
  committing faults id (steps faults enqueueMachineSync application now)

/-- The recovery: the exception is recorded on the application. -/
def record (applicationId : Nat) (e : Exc) (db : Database) : Database :=
  { db with applications := Table.modify db.applications applicationId fun a => a.recordError U (some (.exception e)) }

/-- Dispatch one distributed metrics sync. -/
def run (applicationId : Nat) (now : Time) : Job Database Database SyncReport := do
  let found ← look fun db => Table.get db.applications applicationId
  match found with
  | none => fail ⟨.valueError, "application " ++ toString applicationId ++ " not found"⟩
  | some application => guarded id id (record U applicationId) (body faults enqueueMachineSync application now)

end SyncJob

open SyncJob Job

/-- Run one application sync on a database: what it returns or raises, and the session after it. -/
def syncJob (faults : Faults Database) (U : Unicode) (db : Database) (applicationId : Nat)
    (enqueueMachineSync : Nat → Nat × Nat → Option Exc) (now : Time) : Except Exc SyncReport × Work Database Database :=
  SyncJob.run faults U enqueueMachineSync applicationId now ⟨db, db, 0⟩

/-- The messages that the job has published by the time it returns or raises; the two queries before them may fail. -/
def syncPublished (faults : Faults Database) (db : Database) (applicationId : Nat)
    (enqueueMachineSync : Nat → Nat × Nat → Option Exc) : List (Nat × Nat) :=
  match Table.get db.applications applicationId, faults 0, faults 1 with
  | some application, none, none =>
    (publishAll (interrupted faults 2 enqueueMachineSync) 0 ((applicationPairs db application).map Prod.swap)).1
  | _, _, _ => []

/-! ## When it raises -/

section Raises

variable {faults : Faults Database} {U : Unicode} {enqueue : Nat → Nat × Nat → Option Exc} {a : Application}
  {now : Time}
  {db : Database} {applicationId : Nat}

/-- Whatever happens in the `try` block, nothing of it lasts when it raises. -/
theorem atomic_syncBody : Atomic (SyncJob.body faults enqueue a now) := by
  have hsteps : Uncommitted (SyncJob.steps faults enqueue a now) :=
    (uncommitted_step faults _).bind fun _ => (uncommitted_step faults _).bind fun _ =>
      (uncommitted_publishing faults enqueue 0 _).bind fun _ =>
        (uncommitted_step faults _).bind fun _ => uncommitted_pure _
  exact hsteps.committing faults _

theorem syncJob_not_found (h : Table.get db.applications applicationId = none) :
    syncJob faults U db applicationId enqueue now =
      (.error ⟨.valueError, "application " ++ toString applicationId ++ " not found"⟩, ⟨db, db, 0⟩) := by
  unfold syncJob SyncJob.run
  rw [look_bind]
  simp only [h]
  rfl

/-- A sync of a stored application is its guarded block. -/
theorem syncJob_found (h : Table.get db.applications applicationId = some a) :
    syncJob faults U db applicationId enqueue now =
      guarded id id (SyncJob.record U applicationId) (SyncJob.body faults enqueue a now) ⟨db, db, 0⟩ := by
  unfold syncJob SyncJob.run
  rw [look_bind]
  simp only [h]

/-- A sync that raises has written two columns of its application. -/
theorem syncJob_error {e : Exc} (h : (syncJob faults U db applicationId enqueue now).1 = .error e) :
    (syncJob faults U db applicationId enqueue now).2.committed =
      { db with
        applications := Table.modify db.applications applicationId fun a =>
          a.recordError U (some (.exception e)) } := by
  cases hget : Table.get db.applications applicationId with
  | none =>
    rw [syncJob_not_found hget, Table.modify_of_get_none hget]
  | some a =>
    rw [syncJob_found hget] at h ⊢
    exact guarded_error atomic_syncBody h

end Raises

/-! ## When it gets through -/

/-- What the block does to the copy when nothing happens from outside. -/
def syncEffect (enqueue : Nat → Nat × Nat → Option Exc) (a : Application) (now : Time) (db : Database) :
    Except Exc (Database × SyncReport) :=
  let pairs := applicationPairs db a
  match (publishAll enqueue 0 (pairs.map Prod.swap)).2 with
  | some e => .error e
  | none =>
    .ok ({ db with applications := Table.modify db.applications a.id fun a => a.synced now },
      ⟨a.id, (applicationMachines db a).length, pairs.length, if pairs = [] then "noop" else "dispatched"⟩)

theorem computes_sync (enqueue : Nat → Nat × Nat → Option Exc) (a : Application) (now : Time) :
    Computes (SyncJob.steps .none enqueue a now) (syncEffect enqueue a now) := by
  refine ((computes_step _).bind fun _ => (computes_step _).bind fun pairs : List (Nat × Nat) =>
    (computes_publishing enqueue 0 (pairs.map Prod.swap)).bind fun _ => (computes_step _).bind fun _ =>
      computes_pure _).congr fun db => ?_
  unfold syncEffect
  simp only [bind, Except.bind]
  cases (publishAll enqueue 0 ((applicationPairs db a).map Prod.swap)).2 with
  | some e => rfl
  | none => rfl

/-- A block that gets through has done what it does when nothing happens from outside. -/
theorem refines_syncBody (faults : Faults Database) (enqueue : Nat → Nat × Nat → Option Exc) (a : Application)
    (now : Time) : Refines (SyncJob.body faults enqueue a now) (SyncJob.body .none enqueue a now) := by
  refine Refines.committing ?_ faults _
  exact (refines_step faults _).bind fun _ => (refines_step faults _).bind fun _ =>
    (refines_publishing faults enqueue 0 _).bind fun _ =>
    (refines_step faults _).bind fun _ => .refl _

/-- A sync to which nothing happens from outside is `runApplicationMetricsSync`. -/
theorem syncJob_none (U : Unicode) (db : Database) (applicationId : Nat) (enqueue : Nat → Nat × Nat → Option Exc)
    (now : Time) :
    (syncJob .none U db applicationId enqueue now).1 =
      (runApplicationMetricsSync U db applicationId enqueue now).result ∧
    (syncJob .none U db applicationId enqueue now).2.committed =
      (runApplicationMetricsSync U db applicationId enqueue now).db := by
  unfold runApplicationMetricsSync
  cases hget : Table.get db.applications applicationId with
  | none =>
    rw [syncJob_not_found hget]
    exact ⟨rfl, rfl⟩
  | some a =>
    obtain ⟨herror, hok⟩ := (computes_sync enqueue a now).guarded (syncJob_found hget).symm
    have hid : a.id = applicationId := (Table.get_some hget).2
    simp only [syncEffect, hid] at herror hok ⊢
    cases hpublish : (publishAll enqueue 0 ((applicationPairs db a).map Prod.swap)).2 with
    | some e => exact herror e (by rw [hpublish])
    | none => exact hok _ _ (by rw [hpublish])

/-- A sync that gets through has done what `runApplicationMetricsSync` does. -/
theorem syncJob_ok {faults : Faults Database} {U : Unicode} {db : Database} {applicationId : Nat}
    {enqueue : Nat → Nat × Nat → Option Exc} {now : Time} {report : SyncReport}
    (h : (syncJob faults U db applicationId enqueue now).1 = .ok report) :
    (runApplicationMetricsSync U db applicationId enqueue now).result = .ok report ∧
    (syncJob faults U db applicationId enqueue now).2.committed =
      (runApplicationMetricsSync U db applicationId enqueue now).db := by
  have hsame : syncJob faults U db applicationId enqueue now = syncJob .none U db applicationId enqueue now := by
    cases hget : Table.get db.applications applicationId with
    | none => rw [syncJob_not_found hget, syncJob_not_found hget]
    | some a =>
      rw [syncJob_found hget] at h ⊢
      rw [syncJob_found hget]
      exact (refines_syncBody faults enqueue a now).guarded h
  rw [hsame] at h ⊢
  obtain ⟨hresult, hcommitted⟩ := syncJob_none U db applicationId enqueue now
  exact ⟨hresult.symm.trans h, hcommitted⟩

/-- A sync that gets through has published one message for each pair. -/
theorem syncPublished_ok {faults : Faults Database} {U : Unicode} {db : Database} {applicationId : Nat}
    {enqueue : Nat → Nat × Nat → Option Exc} {now : Time} {report : SyncReport}
    (h : (syncJob faults U db applicationId enqueue now).1 = .ok report) :
    ∃ a, Table.get db.applications applicationId = some a ∧
      syncPublished faults db applicationId enqueue = (applicationPairs db a).map Prod.swap := by
  cases hget : Table.get db.applications applicationId with
  | none =>
    rw [syncJob_not_found hget] at h
    cases h
  | some a =>
    rw [syncJob_found hget] at h
    obtain ⟨_, _, hsteps, -⟩ := bind_ok (guarded_ok.mp (Prod.ext h rfl))
    obtain ⟨_, _, hmachines, hsteps⟩ := bind_ok hsteps
    obtain ⟨hfault₀, _, hread, rfl⟩ := step_ok hmachines
    cases hread
    obtain ⟨_, _, hpairs, hsteps⟩ := bind_ok hsteps
    obtain ⟨hfault₁, _, hread, rfl⟩ := step_ok hpairs
    cases hread
    obtain ⟨_, _, hpublishing, -⟩ := bind_ok hsteps
    have hall := publishing_ok (show (0 : Nat) + 1 + 1 = 2 + 0 from rfl) hpublishing
    refine ⟨a, rfl, ?_⟩
    simp only [syncPublished, hget, hfault₀, hfault₁]
    exact (publishAll_ok_iff _ 0 _).mp hall

/-- Nothing fails: all messages are published. -/
theorem syncPublished_none {enqueue : Nat → Nat × Nat → Option Exc} (henqueue : ∀ k x, enqueue k x = none)
    (db : Database) (applicationId : Nat) :
    syncPublished .none db applicationId enqueue =
      ((Table.get db.applications applicationId).map fun a => (applicationPairs db a).map Prod.swap).getD [] := by
  have hcalls : ∀ k x, interrupted (W := Database) .none 2 enqueue k x = none := henqueue
  unfold syncPublished
  cases Table.get db.applications applicationId with
  | none => rfl
  | some a =>
    show (publishAll _ 0 _).1 = _
    rw [publishAll_all hcalls]
    rfl

/-- A sync writes applications only. -/
theorem syncJob_frame (faults : Faults Database) (U : Unicode) (db : Database) (applicationId : Nat)
    (enqueue : Nat → Nat × Nat → Option Exc) (now : Time) :
    ∃ applications, (syncJob faults U db applicationId enqueue now).2.committed = { db with applications } := by
  cases hrun : (syncJob faults U db applicationId enqueue now).1 with
  | error e => exact ⟨_, syncJob_error hrun⟩
  | ok report =>
    rw [(syncJob_ok hrun).2]
    unfold runApplicationMetricsSync
    split
    · exact ⟨_, rfl⟩
    · simp only
      split
      · exact ⟨_, rfl⟩
      · exact ⟨_, rfl⟩

end Washing
