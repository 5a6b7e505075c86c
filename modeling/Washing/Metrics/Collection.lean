import Washing.Optimizations.Refresh
import Washing.Security.Sanitization

/-!
# Metric collection

One run of `run_provider_machine_collection` reads the provider and the machine in its scope, asks the connector for
samples, looks up the daily row of each sample (`upsertDailyMetric`), and then writes: the flush of a refresh updates
the rows that were found and inserts the others (`flushSamples`), after which the optimization of the machine is
recomputed. The session does not flush before its queries, so all lookups of a run see the table as it was when the run
began. It writes a row only if its value is another one than it has loaded, and a value that the column cannot hold
makes the flush fail. Any exception rolls everything back and is recorded on the provider.
-/

namespace Washing

/-! ## Connectors -/

/-- The value of a record, a `float`. -/
inductive MetricValue
  | finite (q : ℚ)
  | infinite
  | nan
  deriving DecidableEq, Repr

instance (n : Nat) : OfNat MetricValue n := ⟨.finite n⟩

/-- A metric sample returned by a provider connector. -/
structure MetricRecord where
  value : MetricValue
  date : Option Int
  machineId : Option Nat
  machineExternalId : Option String
  hostname : Option String
  deriving DecidableEq, Repr

/-- The protocol of the metric collectors. -/
abbrev MetricCollector := MachineProvider → List Machine → Except Exc (List MetricRecord)

/-- The placeholder connector, which returns no samples. -/
def emptyMetricCollector : MetricCollector := fun _ _ => .ok []

/-- Resolve the metric collector registered for a provider type. -/
def getMetricCollector (mock : MetricCollector) (connectorType : String) : Except Exc MetricCollector :=
  if connectorType = "mock" ∨ connectorType = "mock_metric" then .ok mock
  else if connectorType = "prometheus" ∨ connectorType = "dynatrace" then .ok emptyMetricCollector
  else .error ⟨.valueError, "unsupported metric collector type: " ++ connectorType⟩

/-- What a run finds outside the database: the settings, the mock connector, the clock (its reading at each stage of the
run) and the text of the errors of the database, by constraint. -/
structure CollectionEnv where
  unicode : Unicode
  settings : Settings
  mock : MetricCollector
  clock : Nat → Time
  integrityMessage : String → String

/-- `utcnow().date()`, in days. -/
def dateOf (now : Time) : Int := now / days 1

/-- `int(value)`, which truncates towards zero. -/
def MetricValue.toInt : MetricValue → Except Exc Int
  | .finite q => .ok (if 0 ≤ q then ⌊q⌋ else ⌈q⌉)
  | .infinite => .error ⟨.other "OverflowError", "cannot convert float infinity to integer"⟩
  | .nan => .error ⟨.valueError, "cannot convert float NaN to integer"⟩

/-- A number. -/
def MetricValue.IsFinite : MetricValue → Prop
  | .finite _ => True
  | .infinite | .nan => False

instance : DecidablePred MetricValue.IsFinite
  | .finite _ => inferInstanceAs (Decidable True)
  | .infinite | .nan => inferInstanceAs (Decidable False)

/-! ## The daily upsert -/

/-- Resolve a metric record to a stored machine id. -/
def resolveMachineId (U : Unicode) (record : MetricRecord) (machines : List Machine) : Option Nat :=
  match record.machineId with
  | some machineId => some machineId
  | none =>
    let byExternalId := (normalizeExternalId U record.machineExternalId).bind fun e =>
      machines.find? fun m => m.externalId = some e
    let byHostname := (normalizeHostname U record.hostname).bind fun h => machines.find? fun m => m.hostname = h
    (byExternalId.or byHostname).map (·.id)

/-- The columns of a daily sample. -/
structure SampleValues where
  providerId : Nat
  machineId : Nat
  date : Int
  value : Int
  deriving DecidableEq, Repr

/-- What the session keeps for a record: nothing, a new row, or new values for a row that was found. -/
inductive SampleOp
  | skipped
  | created (values : SampleValues)
  | updated (id : Nat) (values : SampleValues)
  deriving DecidableEq, Repr

/-- The columns for a record, or nothing if it belongs to no machine. -/
def recordValues (U : Unicode) (provider : MachineProvider) (record : MetricRecord) (machines : List Machine)
    (now : Time) : Except Exc (Option SampleValues) :=
  let metricDate := record.date.getD (dateOf now)
  match resolveMachineId U record machines with
  | none => .ok none
  | some machineId =>
    match record.value.toInt with
    | .error e => .error e
    | .ok value => .ok (some ⟨provider.id, machineId, metricDate, value⟩)

/-- Insert or update the daily metric row targeted by one record. -/
def upsertDailyMetric (U : Unicode) (rows : List MachineMetric) (provider : MachineProvider) (record : MetricRecord)
    (machines : List Machine) (now : Time) : Except Exc SampleOp :=
  match recordValues U provider record machines now with
  | .error e => .error e
  | .ok none => .ok .skipped
  | .ok (some values) =>
    let query := selectWhere (fun r => Cond.and (Cond.and (Cond.eq (some r.providerId) (some values.providerId))
      (Cond.eq (some r.machineId) (some values.machineId))) (Cond.eq (some r.date) (some values.date))) rows
    match oneOrNone query with
    | .error e => .error e
    | .ok none => .ok (.created values)
    | .ok (some existing) => .ok (.updated existing.id values)

/-- The loop over the records; `k` counts the readings of the clock. -/
def upsertAll (env : CollectionEnv) (rows : List MachineMetric) (provider : MachineProvider) (machines : List Machine) :
    Nat → List MetricRecord → Except Exc (List SampleOp)
  | _, [] => .ok []
  | k, record :: records =>
    match upsertDailyMetric env.unicode rows provider record machines (env.clock k) with
    | .error e => .error e
    | .ok op =>
      match upsertAll env rows provider machines (k + 1) records with
      | .error e => .error e
      | .ok ops => .ok (op :: ops)

/-! ## The flush -/

/-- The unique constraint of a metric table. -/
def dayConstraint : ScopeName → String
  | .cpu => "uq_machine_cpu_metrics_day"
  | .ram => "uq_machine_ram_metrics_day"
  | .disk => "uq_machine_disk_metrics_day"

/-- Set the columns of an existing sample. -/
def SampleValues.assign (v : SampleValues) (r : MachineMetric) : MachineMetric :=
  { r with providerId := v.providerId, machineId := v.machineId, date := v.date, value := v.value }

/-- The operation assigns to a row. -/
def SampleOp.assigns (id : Nat) : SampleOp → Bool
  | .updated id' _ => id' = id
  | .skipped | .created _ => false

/-- The operations without the assignments that a later one replaces. -/
def lastUpdates : List SampleOp → List SampleOp
  | [] => []
  | .updated id values :: ops =>
    if ops.any (·.assigns id) then lastUpdates ops else .updated id values :: lastUpdates ops
  | .skipped :: ops => .skipped :: lastUpdates ops
  | .created values :: ops => .created values :: lastUpdates ops

/-- An assignment changes the row that was loaded. -/
def SampleOp.Changes (loaded : List MachineMetric) : SampleOp → Prop
  | .updated id values => ∀ r ∈ loaded, r.id = id → r.value ≠ values.value
  | .skipped | .created _ => True

instance (loaded : List MachineMetric) : DecidablePred (SampleOp.Changes loaded)
  | .updated id values => inferInstanceAs (Decidable (∀ r ∈ loaded, r.id = id → r.value ≠ values.value))
  | .skipped | .created _ => inferInstanceAs (Decidable True)

/-- What a flush sends: a row that was found is written when its last value is not the one that was loaded. -/
def emitted (loaded : List MachineMetric) (ops : List SampleOp) : List SampleOp :=
  (lastUpdates ops).filter fun op => op.Changes loaded

/-- Rows with the values of operations. -/
def updateSamples (rows : List MachineMetric) : List SampleOp → List MachineMetric
  | [] => rows
  | .updated id values :: ops => updateSamples (Table.modify rows id values.assign) ops
  | .skipped :: ops | .created _ :: ops => updateSamples rows ops

/-- The value of an update is in range. -/
def SampleOp.UpdatesInRange : SampleOp → Prop
  | .updated _ values => FitsInteger values.value
  | .skipped | .created _ => True

instance : DecidablePred SampleOp.UpdatesInRange
  | .updated _ values => inferInstanceAs (Decidable (FitsInteger values.value))
  | .skipped | .created _ => inferInstanceAs (Decidable True)

/-- The row, if any, that holds the day of a sample. -/
def sameDay (v : SampleValues) (r : MachineMetric) : Prop :=
  r.providerId = v.providerId ∧ r.machineId = v.machineId ∧ r.date = v.date

instance (v : SampleValues) (r : MachineMetric) : Decidable (sameDay v r) := inferInstanceAs (Decidable (_ ∧ _))

/-- Insert one sample: the value must be in range, the machine must exist and the day must be free. -/
def insertSample (env : CollectionEnv) (scope : ScopeName) (db : Database) (v : SampleValues) : Except Exc Database :=
  if ¬ FitsInteger v.value then .error ⟨.dataError, env.integrityMessage "value"⟩
  else if ¬ ∃ m ∈ db.machines, m.id = v.machineId then .error ⟨.integrityError, env.integrityMessage "machine_id"⟩
  else if ∃ r ∈ db.metrics scope, sameDay v r then .error ⟨.integrityError, env.integrityMessage (dayConstraint scope)⟩
  else
    let rows := db.metrics scope ++ [⟨db.nextId, v.providerId, v.machineId, v.date, v.value⟩]
    .ok ({ db with nextId := db.nextId + 1 }.setMetrics rows scope)

/-- The inserts of a flush, in the order in which the rows were added. -/
def insertSamples (env : CollectionEnv) (scope : ScopeName) (db : Database) : List SampleOp → Except Exc Database
  | [] => .ok db
  | .created values :: ops =>
    match insertSample env scope db values with
    | .error e => .error e
    | .ok db => insertSamples env scope db ops
  | .skipped :: ops | .updated _ _ :: ops => insertSamples env scope db ops

/-- Flush the samples of a run, and the success time of its provider; `loaded` are the rows as its lookups saw them. -/
def flushSamples (env : CollectionEnv) (loaded : List MachineMetric) (db : Database) (provider : MachineProvider)
    (ops : List SampleOp) (now : Time) : Except Exc Database :=
  let db := { db with
    providers := Table.modify db.providers provider.id fun p => { p with lastSuccessAt := some now } }
  -- no stored value is out of range, so that a last value out of range is always written
  if ∃ op ∈ lastUpdates ops, ¬ op.UpdatesInRange then .error ⟨.dataError, env.integrityMessage "value"⟩
  else
    let db := db.setMetrics (updateSamples (db.metrics provider.scope) (emitted loaded ops)) provider.scope
    insertSamples env provider.scope db ops

/-! ## The run -/

/-- The status of a run that collected nothing. -/
inductive CollectionStatus
  | providerNotFound
  | machineNotFound
  | machineOutOfScope
  deriving DecidableEq, Repr

/-- What a run returns. -/
structure CollectionReport where
  providerId : Nat
  machineId : Nat
  created : Nat
  updated : Nat
  skipped : Nat
  status : Option CollectionStatus
  deriving DecidableEq, Repr

/-- `_load_provider`. -/
def loadProvider (db : Database) (providerId : Nat) : Except Exc (Option MachineProvider) :=
  oneOrNone (selectWhere (fun p => Cond.eq (some p.id) (some providerId)) db.providers)

/-- The number of records of each outcome; an empty answer counts as one skipped record. -/
def collectionReport (providerId machineId : Nat) (ops : List SampleOp) : CollectionReport where
  providerId := providerId
  machineId := machineId
  created := ops.countP fun op => match op with | .created _ => true | _ => false
  updated := ops.countP fun op => match op with | .updated _ _ => true | _ => false
  skipped := (if ops = [] then 1 else 0) + ops.countP fun op => match op with | .skipped => true | _ => false
  status := none

/-- The body of the `try` block. -/
def collectSamples (env : CollectionEnv) (db : Database) (provider : MachineProvider) (machine : Machine) :
    Except Exc (Database × CollectionReport) := do
  let connector ← getMetricCollector env.mock provider.type
  let records ← connector provider [machine]
  let ops ← upsertAll env (db.metrics provider.scope) provider [machine] 0 records
  let db ← flushSamples env (db.metrics provider.scope) db provider ops (env.clock records.length)
  let (db, _) ← refreshMachineOptimization env.settings db machine.id (env.clock (records.length + 1))
  return (db, collectionReport provider.id machine.id ops)

/-- Run one provider collection for a single machine/provider pair: the database after it, and what it returns or
raises. -/
def runProviderMachineCollection (env : CollectionEnv) (db : Database) (providerId machineId : Nat) :
    Database × Except Exc CollectionReport :=
  match loadProvider db providerId with
  | .error e => (db, .error e)
  | .ok none => (db, .ok ⟨providerId, machineId, 0, 0, 1, some .providerNotFound⟩)
  | .ok (some provider) =>
    match scopedMachine db provider machineId with
    | .error e => (db, .error e)
    | .ok none =>
      let status := if Table.get db.machines machineId = none then .machineNotFound else .machineOutOfScope
      (db, .ok ⟨provider.id, machineId, 0, 0, 1, some status⟩)
    | .ok (some machine) =>
      match collectSamples env db provider machine with
      | .ok (db, report) => (db, .ok report)
      | .error e =>
        let providers := Table.modify db.providers providerId fun p => p.recordError env.unicode (some (.exception e))
        ({ db with providers }, .error e)

/-- The provider that a lookup finds. -/
theorem loadProvider_some {db : Database} {providerId : Nat} {p : MachineProvider}
    (h : loadProvider db providerId = .ok (some p)) : p ∈ db.providers ∧ p.id = providerId := by
  have hp : p ∈ selectWhere _ db.providers := oneOrNone_some h ▸ List.mem_singleton_self p
  obtain ⟨hmem, hid⟩ := mem_selectWhere.mp hp
  rw [Cond.isTrue_eq_some] at hid
  exact ⟨hmem, hid⟩

/-- A finished body returns a report without a status. -/
theorem collectSamples_status {env : CollectionEnv} {db : Database} {p : MachineProvider} {m : Machine}
    {result : Database × CollectionReport} (h : collectSamples env db p m = .ok result) : result.2.status = none := by
  simp only [collectSamples, bind_ok_iff] at h
  obtain ⟨_, -, _, -, ops, -, _, -, _, -, hreturn⟩ := h
  cases hreturn
  rfl

/-- A run for a provider and a machine that it sees gets as far as the connector: it raises, or it returns a report
without a status. -/
theorem status_of_sees {env : CollectionEnv} {db : Database} (hp : Table.Keyed db.providers)
    (hm : Table.Keyed db.machines) {p : MachineProvider} {m : Machine} (hpm : p ∈ db.providers) (hmm : m ∈ db.machines)
    (hs : Sees db p m) {report : CollectionReport}
    (h : (runProviderMachineCollection env db p.id m.id).2 = .ok report) : report.status = none := by
  have hload : loadProvider db p.id = .ok (some p) :=
    (oneOrNone_eq hp p.id).trans (congrArg _ (Table.get_of_mem hp hpm))
  have hscoped := scopedMachine_of_sees hm hmm hs
  simp only [runProviderMachineCollection, hload, hscoped] at h
  cases hc : collectSamples env db p m with
  | error e => simp [hc] at h
  | ok result =>
    simp only [hc, Except.ok.injEq] at h
    subst h
    exact collectSamples_status hc

end Washing
