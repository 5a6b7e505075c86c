import Washing.Lib.Sql
import Washing.Lib.Table
import Washing.Domain

/-!
# Tables

The rows of `internal/infra/db/models.py`. Capacities are exact rationals, times are microseconds since an epoch, and a
JSON column that the code only copies and compares is kept as its canonical text. Columns no modelled function reads
are left out.
-/

namespace Washing

/-- A UTC timestamp, in microseconds. -/
abbrev Time := Int

/-- `timedelta(seconds=n)`. -/
def seconds (n : Int) : Time := n * 1000000

/-- `timedelta(days=n)`. -/
def days (n : Int) : Time := seconds (n * 86400)

/-- The metric scopes. -/
inductive ScopeName
  | cpu
  | ram
  | disk
  deriving DecidableEq, Repr

/-- The scopes, in the order in which they are evaluated. -/
def ScopeName.all : List ScopeName := [.cpu, .ram, .disk]

@[simp] theorem ScopeName.mem_all (scope : ScopeName) : scope ∈ all := by cases scope <;> simp [all]

/-! ## Column types -/

/-- A column of type `INTEGER` can hold the number. -/
def FitsInteger (n : Int) : Prop := -2147483648 ≤ n ∧ n ≤ 2147483647

/-- A text column can hold the text: PostgreSQL has no zero character. -/
def FitsText (s : String) : Prop := '\x00' ∉ s.toList

/-- A column of type `VARCHAR(limit)` can hold the text. -/
def FitsVarchar (limit : Nat) (s : String) : Prop := s.length ≤ limit ∧ FitsText s

instance (n : Int) : Decidable (FitsInteger n) := inferInstanceAs (Decidable (_ ∧ _))
instance (s : String) : Decidable (FitsText s) := inferInstanceAs (Decidable (_ ∉ _))
instance (limit : Nat) (s : String) : Decidable (FitsVarchar limit s) := inferInstanceAs (Decidable (_ ∧ _))

/-! ## Connectors -/

structure MachineProvisioner where
  id : Nat
  platformId : Nat
  name : String
  type : String
  config : String
  enabled : Bool
  cron : String
  lastScheduledAt : Option Time
  lastRunAt : Option Time
  lastSuccessAt : Option Time
  lastError : Option String
  deriving DecidableEq, Repr

structure MachineProvider where
  id : Nat
  platformId : Nat
  name : String
  type : String
  scope : ScopeName
  config : String
  enabled : Bool
  lastRunAt : Option Time
  lastSuccessAt : Option Time
  lastError : Option String
  deriving DecidableEq, Repr

/-- A provisioner without its bookkeeping. -/
def MachineProvisioner.bare (q : MachineProvisioner) : MachineProvisioner :=
  { q with lastScheduledAt := none, lastRunAt := none, lastSuccessAt := none, lastError := none }

theorem MachineProvisioner.of_bare {q q' : MachineProvisioner} (h : q.bare = q'.bare) :
    q.id = q'.id ∧ q.platformId = q'.platformId ∧ q.cron = q'.cron := by
  simp only [bare, mk.injEq] at h
  exact ⟨h.1, h.2.1, h.2.2.2.2.2.2.1⟩

/-- A provider without its bookkeeping. -/
def MachineProvider.bare (p : MachineProvider) : MachineProvider :=
  { p with lastRunAt := none, lastSuccessAt := none, lastError := none }

theorem MachineProvider.of_bare {p p' : MachineProvider} (h : p.bare = p'.bare) :
    p.id = p'.id ∧ p.platformId = p'.platformId := by
  simp only [bare, mk.injEq] at h
  exact ⟨h.1, h.2.1⟩

/-- A row of the association table between providers and provisioners. -/
structure MachineProviderProvisioner where
  providerId : Nat
  provisionerId : Nat
  deriving DecidableEq, Repr

/-! ## Machines -/

structure Machine where
  id : Nat
  platformId : Nat
  application : Option String
  sourceProvisionerId : Option Nat
  externalId : Option String
  hostname : String
  region : Option String
  environment : Option String
  cpu : Option ℚ
  ramMb : Option ℚ
  diskMb : Option ℚ
  extra : String
  updatedAt : Time
  deriving DecidableEq, Repr

structure MachineFlavorHistory where
  id : Nat
  machineId : Nat
  sourceProvisionerId : Option Nat
  cpu : Option ℚ
  ramMb : Option ℚ
  diskMb : Option ℚ
  changedAt : Time
  deriving DecidableEq, Repr

/-- A daily sample; the three metric tables share these columns. `date` counts days. -/
structure MachineMetric where
  id : Nat
  providerId : Nat
  machineId : Nat
  date : Int
  value : Int
  deriving DecidableEq, Repr

/-! ## Optimizations -/

inductive OptimizationStatus
  | ready
  | partial_
  | error
  deriving DecidableEq, Repr

inductive OptimizationAction
  | scaleUp
  | scaleDown
  | mixed
  | keep
  | insufficientData
  | unavailable
  deriving DecidableEq, Repr

inductive ScopeStatus
  | ok
  | missingProvider
  | ambiguousProvider
  | insufficientData
  | missingCurrentCapacity
  deriving DecidableEq, Repr

inductive ScopeAction
  | scaleUp
  | scaleDown
  | keep
  | insufficientData
  | unavailable
  deriving DecidableEq, Repr

inductive ReasonCode
  | withinHysteresis
  | noProvider
  | ambiguousProvider
  | missingCurrentCapacity
  | noSamples
  | limitedHistory
  | pressureHigh
  | pressureLow
  | raisedToMinCpu
  | raisedToMinRam
  | aboveMaxCpu
  | aboveMaxRam
  deriving DecidableEq, Repr

/-- What one scope of a stored optimization records about its evaluation. -/
structure ScopeDetails where
  providerId : Option Nat
  status : ScopeStatus
  samplesUsed : Nat
  windowSize : Int
  lastMetricDate : Option Int
  utilizationPercent : Option ℚ
  currentCapacity : Option ℚ
  rawTargetCapacity : Option ℚ
  boundedTargetCapacity : Option ℚ
  action : ScopeAction
  reasonCode : ReasonCode
  deriving DecidableEq, Repr

/-- The `details` column: one entry for each scope that was evaluated. -/
structure OptimizationDetails where
  cpu : Option ScopeDetails
  ram : Option ScopeDetails
  disk : Option ScopeDetails
  deriving DecidableEq, Repr

/-- `details.get(scope)`. -/
def OptimizationDetails.get (d : OptimizationDetails) : ScopeName → Option ScopeDetails
  | .cpu => d.cpu
  | .ram => d.ram
  | .disk => d.disk

/-- The fields of an optimization that a refresh computes. -/
structure OptimizationSnapshot where
  status : OptimizationStatus
  action : OptimizationAction
  windowSize : Int
  minCpu : Int
  maxCpu : Int
  minRamMb : Int
  maxRamMb : Int
  computedAt : Time
  currentCpu : Option ℚ
  currentRamMb : Option ℚ
  currentDiskMb : Option ℚ
  targetCpu : Option ℚ
  targetRamMb : Option ℚ
  targetDiskMb : Option ℚ
  details : OptimizationDetails
  deriving DecidableEq, Repr

structure MachineOptimization extends OptimizationSnapshot where
  id : Nat
  machineId : Nat
  deriving DecidableEq, Repr

/-! ## Applications -/

structure Application where
  id : Nat
  name : String
  environment : String
  region : String
  syncAt : Option Time
  syncScheduledAt : Option Time
  syncError : Option String
  deriving DecidableEq, Repr

/-! ## The database -/

/-- The committed rows, with the next value of each identity column that the modelled code inserts into. -/
structure Database where
  provisioners : List MachineProvisioner
  providers : List MachineProvider
  attachments : List MachineProviderProvisioner
  machines : List Machine
  flavorHistory : List MachineFlavorHistory
  cpuMetrics : List MachineMetric
  ramMetrics : List MachineMetric
  diskMetrics : List MachineMetric
  optimizations : List MachineOptimization
  applications : List Application
  nextId : Nat
  deriving DecidableEq, Repr

namespace Database

/-- A database without rows. -/
def empty : Database where
  provisioners := []
  providers := []
  attachments := []
  machines := []
  flavorHistory := []
  cpuMetrics := []
  ramMetrics := []
  diskMetrics := []
  optimizations := []
  applications := []
  nextId := 1

/-- The metric table of a scope. -/
def metrics (db : Database) : ScopeName → List MachineMetric
  | .cpu => db.cpuMetrics
  | .ram => db.ramMetrics
  | .disk => db.diskMetrics

/-- Replace the metric table of a scope. -/
def setMetrics (db : Database) (rows : List MachineMetric) : ScopeName → Database
  | .cpu => { db with cpuMetrics := rows }
  | .ram => { db with ramMetrics := rows }
  | .disk => { db with diskMetrics := rows }

/-- The provisioners attached to a provider, as the relationship loads them. -/
def provisionersOf (db : Database) (provider : MachineProvider) : List MachineProvisioner :=
  db.provisioners.filter fun p => ⟨provider.id, p.id⟩ ∈ db.attachments

end Database

/-! ## Primary keys and unique constraints -/

instance : Row MachineProvisioner := ⟨MachineProvisioner.id⟩
instance : Row MachineProvider := ⟨MachineProvider.id⟩
instance : Row Machine := ⟨Machine.id⟩
instance : Row MachineFlavorHistory := ⟨MachineFlavorHistory.id⟩
instance : Row MachineMetric := ⟨MachineMetric.id⟩
instance : Row MachineOptimization := ⟨MachineOptimization.id⟩
instance : Row Application := ⟨Application.id⟩

/-- Two rows violate `uq_machines_platform_hostname`. -/
def Machine.SameHostname (m n : Machine) : Prop := m.platformId = n.platformId ∧ m.hostname = n.hostname

/-- Two rows violate `uq_machines_provisioner_external_id`; a `NULL` differs from everything. -/
def Machine.SameExternalId (m n : Machine) : Prop :=
  m.sourceProvisionerId = n.sourceProvisionerId ∧ m.externalId = n.externalId ∧
    m.sourceProvisionerId ≠ none ∧ m.externalId ≠ none

instance (m n : Machine) : Decidable (m.SameHostname n) := inferInstanceAs (Decidable (_ ∧ _))
instance (m n : Machine) : Decidable (m.SameExternalId n) := inferInstanceAs (Decidable (_ ∧ _))

/-- Two rows violate a unique constraint of `machines`. -/
def Machine.Conflicts (m n : Machine) : Prop := m.SameHostname n ∨ m.SameExternalId n

instance (m n : Machine) : Decidable (m.Conflicts n) := inferInstanceAs (Decidable (_ ∨ _))

/-- What the primary keys, the identity columns and the unique constraints guarantee of a stored database. -/
structure Database.Consistent (db : Database) : Prop where
  provisioners_keyed : Table.Keyed db.provisioners
  providers_keyed : Table.Keyed db.providers
  machines_keyed : Table.Keyed db.machines
  machines_unique : ∀ m ∈ db.machines, ∀ n ∈ db.machines, m.Conflicts n → m.id = n.id
  machines_fresh : ∀ m ∈ db.machines, m.id < db.nextId
  metrics_keyed : ∀ scope, Table.Keyed (db.metrics scope)
  metrics_unique : ∀ scope, ((db.metrics scope).map fun r => (r.providerId, r.machineId, r.date)).Nodup
  metrics_fresh : ∀ scope, ∀ r ∈ db.metrics scope, r.id < db.nextId
  optimizations_keyed : Table.Keyed db.optimizations
  optimizations_unique : (db.optimizations.map (·.machineId)).Nodup
  optimizations_fresh : ∀ r ∈ db.optimizations, r.id < db.nextId
  applications_keyed : Table.Keyed db.applications

theorem Database.consistent_iff (db : Database) : db.Consistent ↔ Table.Keyed db.provisioners ∧
    Table.Keyed db.providers ∧ Table.Keyed db.machines ∧
    (∀ m ∈ db.machines, ∀ n ∈ db.machines, m.Conflicts n → m.id = n.id) ∧ (∀ m ∈ db.machines, m.id < db.nextId) ∧
    (∀ scope ∈ ScopeName.all, Table.Keyed (db.metrics scope) ∧
      ((db.metrics scope).map fun r => (r.providerId, r.machineId, r.date)).Nodup ∧
      ∀ r ∈ db.metrics scope, r.id < db.nextId) ∧
    Table.Keyed db.optimizations ∧ (db.optimizations.map (·.machineId)).Nodup ∧
    (∀ r ∈ db.optimizations, r.id < db.nextId) ∧ Table.Keyed db.applications := by
  constructor
  · intro h
    exact ⟨h.provisioners_keyed, h.providers_keyed, h.machines_keyed, h.machines_unique, h.machines_fresh,
      fun scope _ => ⟨h.metrics_keyed scope, h.metrics_unique scope, h.metrics_fresh scope⟩, h.optimizations_keyed,
      h.optimizations_unique, h.optimizations_fresh, h.applications_keyed⟩
  · rintro ⟨h1, h2, h3, h4, h5, h6, h7, h8, h9, h10⟩
    exact ⟨h1, h2, h3, h4, h5, fun scope => (h6 scope (by simp)).1, fun scope => (h6 scope (by simp)).2.1,
      fun scope => (h6 scope (by simp)).2.2, h7, h8, h9, h10⟩

instance (db : Database) : Decidable db.Consistent := decidable_of_iff _ db.consistent_iff.symm

end Washing
