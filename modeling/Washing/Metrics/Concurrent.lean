import Washing.Lib.Schedule
import Washing.Metrics.Samples

/-!
# Concurrent collections

Any number of runs of `run_provider_machine_collection` for one machine, each in its own transaction under READ
COMMITTED. A step of a run is a statement or a group of statements: read the provider and the machine, ask the
connector and look up the days of its samples, flush, build the snapshot, lock the optimization row, write it, commit;
after an exception, roll back and record the error. A query sees the committed rows and the writes of its own
transaction. A flush writes only the rows whose value is another one than the lookup has loaded (`Collected.written`);
after it the session may drop the other rows from memory or keep them, and a row that it keeps is not read again
(`Collected.view`). A flush locks the row of the provider, `SELECT … FOR UPDATE` the optimization row if there is one,
and an insert waits for the insert of another transaction; the locks are released at the end of the transaction.
-/

namespace Washing

/-! ## Transactions -/

/-- What a run has read: its provider, its machine, the samples at its lookups, the answer of the connector and what it
keeps for the records. -/
structure Collected where
  provider : MachineProvider
  machine : Machine
  loaded : List MachineMetric
  records : List MetricRecord
  ops : List SampleOp
  deriving DecidableEq, Repr

/-- How far a run is. -/
inductive CollectionPhase
  | idle
  | inScope (provider : MachineProvider) (machine : Machine)
  | collected (t : Collected)
  | flushed (t : Collected)
  | built (t : Collected) (snapshot : OptimizationSnapshot)
  | locked (t : Collected) (snapshot : OptimizationSnapshot) (current : Option MachineOptimization)
  | written (t : Collected) (snapshot : OptimizationSnapshot) (current : Option MachineOptimization)
  | failed (e : Exc)
  | ended (result : Except Exc CollectionReport)

/-- What transactions wait for: the row of a provider, the optimization row, or the insert of one. -/
inductive CollectionLock
  | provider (id : Nat)
  | optimization
  | newOptimization
  deriving DecidableEq, Repr

/-- The steps of a run that matter to others. -/
inductive CollectionEvent
  | built (run : Nat)
  | committed (run : Nat) (t : Collected)
  deriving DecidableEq, Repr

/-- Somebody has committed. -/
def CollectionEvent.commits : CollectionEvent → Bool
  | .built _ => false
  | .committed _ _ => true

/-- The settings and the surroundings of the runs; each run has its provider, its connector and its clock, and its
session remembers the rows of the lookups after the flush, or not: it refers to them weakly. -/
structure CollectionWorld where
  unicode : Unicode
  settings : Settings
  integrityMessage : String → String
  providerId : Nat → Nat
  mock : Nat → MetricCollector
  clock : Nat → Nat → Time
  remembers : Nat → Bool

/-- The surroundings of one run. -/
def CollectionWorld.env (w : CollectionWorld) (run : Nat) : CollectionEnv where
  unicode := w.unicode
  settings := w.settings
  mock := w.mock run
  clock := w.clock run
  integrityMessage := w.integrityMessage

/-- The committed database, the locks, the runs, and the log with the newest event first. -/
structure CollectionState where
  db : Database
  locks : Locks CollectionLock
  phase : Nat → CollectionPhase
  log : List CollectionEvent

/-- Before the first step. -/
def CollectionState.start (db : Database) : CollectionState := ⟨db, fun _ => none, fun _ => .idle, []⟩

/-- A run goes on. -/
def CollectionState.advance (s : CollectionState) (run : Nat) (phase : CollectionPhase) : CollectionState :=
  { s with phase := Function.update s.phase run phase }

/-- A run raises: its transaction is rolled back. -/
def CollectionState.fail (s : CollectionState) (run : Nat) (e : Exc) : CollectionState :=
  { s.advance run (.failed e) with locks := s.locks.release run }

/-! ## Steps -/

/-- Read the provider, and the machine in its scope. -/
def readScope (db : Database) (providerId machineId : Nat) : CollectionPhase :=
  match loadProvider db providerId with
  | .error e => .ended (.error e)
  | .ok none => .ended (.ok ⟨providerId, machineId, 0, 0, 1, some .providerNotFound⟩)
  | .ok (some provider) =>
    match scopedMachine db provider machineId with
    | .error e => .ended (.error e)
    | .ok none =>
      let status := if Table.get db.machines machineId = none then .machineNotFound else .machineOutOfScope
      .ended (.ok ⟨provider.id, machineId, 0, 0, 1, some status⟩)
    | .ok (some machine) => .inScope provider machine

/-- Ask the connector, and look up the daily row of each of its records. -/
def collectRecords (env : CollectionEnv) (db : Database) (provider : MachineProvider) (machine : Machine) :
    Except Exc Collected := do
  let connector ← getMetricCollector env.mock provider.type
  let records ← connector provider [machine]
  let ops ← upsertAll env (db.metrics provider.scope) provider [machine] 0 records
  return ⟨provider, machine, db.metrics provider.scope, records, ops⟩

/-- When the provider of a run succeeds. -/
def Collected.flushedAt (t : Collected) (env : CollectionEnv) : Time := env.clock t.records.length

/-- When the snapshot of a run is computed. -/
def Collected.computedAt (t : Collected) (env : CollectionEnv) : Time := env.clock (t.records.length + 1)

/-- The committed rows and what a run has sent. Identity values are those of the commit. -/
def Collected.written (t : Collected) (env : CollectionEnv) (db : Database) : Database :=
  writeSamples db t.provider (emitted t.loaded t.ops) (t.flushedAt env)

/-- What a transaction sees after its flush: a row in memory has the value that was assigned to it. -/
def Collected.view (t : Collected) (env : CollectionEnv) (remembers : Bool) (db : Database) : Database :=
  if remembers then writeSamples db t.provider t.ops (t.flushedAt env) else t.written env db

/-- The error of a second optimization row. -/
def duplicateOptimization (env : CollectionEnv) : Exc :=
  ⟨.integrityError, env.integrityMessage "uq_machine_optimizations_machine_id"⟩

/-- The next step of a run, unless it has ended or has to wait for another run. -/
def stepCollection (w : CollectionWorld) (machineId : Nat) (s : CollectionState) (run : Nat) : Option CollectionState :=
  let env := w.env run
  match s.phase run with
  | .idle => some (s.advance run (readScope s.db (w.providerId run) machineId))
  | .inScope provider machine =>
    match collectRecords env s.db provider machine with
    | .error e => some (s.fail run e)
    | .ok t => some (s.advance run (.collected t))
  | .collected t =>
    if s.locks (.provider t.provider.id) ≠ none then none
    else
      match flushSamples env t.loaded s.db t.provider t.ops (t.flushedAt env) with
      | .error e => some (s.fail run e)
      | .ok _ => some { s.advance run (.flushed t) with locks := s.locks.acquire (.provider t.provider.id) run }
  | .flushed t =>
    let view := t.view env (w.remembers run) s.db
    let snapshot := buildOptimizationSnapshot w.settings view t.machine (t.computedAt env)
    some { s.advance run (.built t snapshot) with log := .built run :: s.log }
  | .built t snapshot =>
    match currentOptimization s.db machineId with
    | .error e => some (s.fail run e)
    | .ok none => some (s.advance run (.locked t snapshot none))
    | .ok (some row) =>
      if s.locks .optimization ≠ none then none
      else some { s.advance run (.locked t snapshot (some row)) with locks := s.locks.acquire .optimization run }
  | .locked t snapshot (some row) => some (s.advance run (.written t snapshot (some row)))
  | .locked t snapshot none =>
    if s.locks .newOptimization ≠ none then none
    else if ∃ r ∈ s.db.optimizations, r.machineId = machineId then some (s.fail run (duplicateOptimization env))
    else some { s.advance run (.written t snapshot none) with locks := s.locks.acquire .newOptimization run }
  | .written t snapshot current =>
    let report := collectionReport t.provider.id t.machine.id t.ops
    some { s.advance run (.ended (.ok report)) with
      db := writeOptimization (t.written env s.db) machineId current snapshot
      locks := s.locks.release run
      log := .committed run t :: s.log }
  | .failed e =>
    if s.locks (.provider (w.providerId run)) ≠ none then none
    else
      let providers := Table.modify s.db.providers (w.providerId run) fun p =>
        p.recordError env.unicode (some (.exception e))
      some { s.advance run (.ended (.error e)) with db := { s.db with providers } }
  | .ended _ => none

/-! ## The property -/

/-- The provider and the machine that a transaction has read. -/
def CollectionPhase.reads : CollectionPhase → Option (MachineProvider × Machine)
  | .inScope provider machine => some (provider, machine)
  | .collected t | .flushed t | .built t _ | .locked t _ _ | .written t _ _ => some (t.provider, t.machine)
  | .idle | .failed _ | .ended _ => none

/-- The next step of a run rolls it back, although it would go through on the committed database if it were alone. -/
def RolledBackByOther (w : CollectionWorld) (machineId : Nat) (s : CollectionState) (run : Nat) : Prop :=
  ∃ s' e provider machine result, stepCollection w machineId s run = some s' ∧ s'.phase run = .failed e ∧
    (s.phase run).reads = some (provider, machine) ∧ collectSamples (w.env run) s.db provider machine = .ok result

/-- The samples that a run received, with their days. -/
def Collected.returned (t : Collected) (env : CollectionEnv) : List (SampleDay × Int) :=
  (returnedSamples env t.provider [t.machine] 0 t.records).map fun v => (v.day, v.value)

/-- The samples of a scope after the runs of a log have put theirs, in the order of their commits. -/
def samplesAfter (w : CollectionWorld) (scope : ScopeName) (samples : SampleDay → Option Int) :
    List CollectionEvent → SampleDay → Option Int
  | [] => samples
  | .built _ :: log => samplesAfter w scope samples log
  | .committed run t :: log =>
    if scope = t.provider.scope then putAll (samplesAfter w scope samples log) (t.returned (w.env run))
    else samplesAfter w scope samples log

/-- The records of a run are the answer of its connector. -/
def Answered (env : CollectionEnv) (t : Collected) : Prop :=
  ∃ connector, getMetricCollector env.mock t.provider.type = .ok connector ∧
    connector t.provider [t.machine] = .ok t.records

/-- What the runs have achieved so far: every run that returned without a status has committed the answer of its
connector, the samples are those of the committed runs, and the optimization of the machine is current. -/
structure Converged (w : CollectionWorld) (machineId : Nat) (db : Database) (s : CollectionState) : Prop where
  committed : ∀ run report, s.phase run = .ended (.ok report) → report.status = none →
    ∃ t, .committed run t ∈ s.log ∧ report = collectionReport t.provider.id t.machine.id t.ops
  answered : ∀ run t, .committed run t ∈ s.log → Answered (w.env run) t
  stored : ∀ scope, sampleAt s.db scope = samplesAfter w scope (sampleAt db scope) s.log
  current : (∃ run t, .committed run t ∈ s.log) → OptimizationCurrent w.settings s.db machineId

/-- Nobody has committed since the run built its snapshot. -/
def NoCommitSince (s : CollectionState) (run : Nat) : Prop :=
  Since (fun e : CollectionEvent => e.commits = false) (· = .built run) s.log

instance (s : CollectionState) (run : Nat) : Decidable (NoCommitSince s run) :=
  inferInstanceAs (Decidable (Since _ _ _))

/-- A run is undisturbed: when it flushes, the days that its lookups did not find are still free and the rows that it
does not write still have the value that it has loaded; and nobody has committed since it built its snapshot when it
writes the optimization. -/
def Undisturbed (s : CollectionState) (run : Nat) : Prop :=
  match s.phase run with
  | .collected t => (∀ v ∈ createdSamples t.ops, ∀ r ∈ s.db.metrics t.provider.scope, ¬ sameDay v r) ∧
    StillHeld t.loaded (s.db.metrics t.provider.scope) t.ops
  | .locked _ _ _ => NoCommitSince s run
  | _ => True

instance (s : CollectionState) (run : Nat) : Decidable (Undisturbed s run) := by
  unfold Undisturbed
  split <;> infer_instance

end Washing
