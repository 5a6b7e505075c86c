import Washing.Lib.Transaction
import Washing.Metrics.Collection

/-!
# Dispatching the collections of a provider

`dispatch_provider_machine_syncs` starts over with the provider, commits that, and publishes one collection for each
machine that the provider sees. It has no recovery: whatever raises, the new start has lasted if its commit was reached,
and nothing otherwise (`dispatchJob_committed`).
-/

namespace Washing

/-- A provider whose collections are dispatched. -/
def MachineProvider.dispatched (p : MachineProvider) (now : Time) : MachineProvider :=
  { p with lastRunAt := some now, lastError := none }

/-- The commit of a dispatch. -/
def startDispatch (db : Database) (providerId : Nat) (now : Time) : Database :=
  { db with providers := Table.modify db.providers providerId fun p => p.dispatched now }

/-- What a dispatch returns. -/
structure DispatchReport where
  providerId : Nat
  machines : List Nat
  status : Option CollectionStatus
  deriving DecidableEq, Repr

namespace DispatchJob

open Job

variable (faults : Faults Database) (enqueueMachineSync : Nat → Nat × Nat → Option Exc)

/-- `_load_provider`. -/
def load (providerId : Nat) : Job Database Database (Option MachineProvider) :=
  step faults fun db => (loadProvider db providerId).map fun provider => (db, provider)

/-- After the commit. -/
def publish (providerId : Nat) : Job Database Database DispatchReport := do
  let provider ← load faults providerId
  match provider with
  | none => return ⟨providerId, [], some .providerNotFound⟩
  | some provider =>
    let machineIds ← step faults fun db => .ok (db, (scopedMachines db provider).map (·.id))
    publishing faults enqueueMachineSync 0 (machineIds.map fun machineId => (provider.id, machineId))
    return ⟨provider.id, machineIds, none⟩

/-- Enqueue one metric collection task per machine visible to a provider. -/
def run (providerId : Nat) (now : Time) : Job Database Database DispatchReport := do
  let provider ← load faults providerId
  match provider with
  | none => return ⟨providerId, [], some .providerNotFound⟩
  | some _ =>
    step faults fun db => .ok (startDispatch db providerId now, ())
    commit faults id
    publish faults enqueueMachineSync providerId

end DispatchJob

open DispatchJob Job

/-- Run one dispatch on a database: what it returns or raises, and the session after it. -/
def dispatchJob (faults : Faults Database) (db : Database) (providerId : Nat)
    (enqueueMachineSync : Nat → Nat × Nat → Option Exc) (now : Time) :
    Except Exc DispatchReport × Work Database Database :=
  DispatchJob.run faults enqueueMachineSync providerId now ⟨db, db, 0⟩

theorem uncommitted_publish (faults : Faults Database) (enqueue : Nat → Nat × Nat → Option Exc) (providerId : Nat) :
    Uncommitted (publish faults enqueue providerId) := by
  refine (uncommitted_step faults _).bind fun found => ?_
  cases found with
  | none => exact uncommitted_pure _
  | some p =>
    exact (uncommitted_step faults _).bind fun _ =>
      (uncommitted_publishing faults enqueue 0 _).bind fun _ => uncommitted_pure _

/-- The dispatch gets as far as its commit: it finds the provider, and nothing fails until then. -/
def dispatchCommits (faults : Faults Database) (db : Database) (providerId : Nat) : Bool :=
  match loadProvider db providerId with
  | .ok (some _) => (faults 0).isNone && (faults 1).isNone && (faults 2).isNone
  | _ => false

/-- What has lasted after a dispatch. -/
theorem dispatchJob_committed (faults : Faults Database) (db : Database) (providerId : Nat)
    (enqueue : Nat → Nat × Nat → Option Exc) (now : Time) :
    (dispatchJob faults db providerId enqueue now).2.committed =
      if dispatchCommits faults db providerId then startDispatch db providerId now else db := by
  unfold dispatchJob DispatchJob.run dispatchCommits
  rw [bind_eq, load, step]
  cases hzero : faults 0 with
  | some x =>
    simp only
    split <;> rfl
  | none =>
    simp only
    cases loadProvider db providerId with
    | error e => rfl
    | ok found =>
      cases found with
      | none => rfl
      | some p =>
        simp only [Except.map]
        rw [bind_eq, step]
        cases faults 1 with
        | some x => rfl
        | none =>
          simp only
          rw [bind_eq, commit]
          cases faults 2 with
          | some x => rfl
          | none => exact uncommitted_publish faults enqueue providerId _

end Washing
