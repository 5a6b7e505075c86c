import Washing.Lib.UnitOfWork
import Washing.Optimizations.Refresh
import Washing.Security.Sanitization

/-!
# Inventory synchronization

`run_provisioner_inventory` walks over the discovered records. Each record is matched to a stored machine
(`findMachine`), by external id first and by hostname second, and assigned to its object, or a new machine is added.
The session does not flush before its queries: the lookups see the table as the last creation left it, while the
assignments pile up in the objects. A creation flushes them, and so does the end of the loop, before the optimizations
are refreshed. Any exception rolls the machines back and is recorded on the provisioner.

`written` and `emitted` record which rows a run assigned to and which rows its statements wrote; the program does not
keep them.
-/

namespace Washing

/-! ## Records -/

/-- A machine returned by a provisioner connector. -/
structure MachineRecord where
  externalId : Option String
  hostname : String
  application : Option String
  region : Option String
  environment : Option String
  cpu : Option ℚ
  ramMb : Option ℚ
  diskMb : Option ℚ
  extra : String
  deriving DecidableEq, Repr

/-- The protocol of the machine provisioners. -/
abbrev InventoryConnector := MachineProvisioner → Except Exc (List MachineRecord)

/-- The placeholder connector, which returns no machines. -/
def emptyInventoryProvisioner : InventoryConnector := fun _ => .ok []

/-- Resolve the provisioner connector registered for a provisioner type. -/
def getMachineProvisioner (mock : InventoryConnector) (connectorType : String) : Except Exc InventoryConnector :=
  if connectorType = "mock" ∨ connectorType = "mock_inventory" then .ok mock
  else if connectorType = "capsule" ∨ connectorType = "dynatrace" then .ok emptyInventoryProvisioner
  else .error ⟨.valueError, "unsupported machine provisioner type: " ++ connectorType⟩

/-- What a run finds outside the database: the settings, the readings of the clock, and the text of the error that the
database raises when a row conflicts with another one. -/
structure InventoryEnv where
  unicode : Unicode
  settings : Settings
  clock : Nat → Time
  integrityMessage : Machine → Machine → String

/-- Return a record with canonical casing for persisted machine identifiers. -/
def normalizeMachineRecord (U : Unicode) (record : MachineRecord) : MachineRecord where
  externalId := normalizeExternalId U record.externalId
  hostname := hostnameOr U record.hostname
  application := normalizeApplicationCode U record.application
  region := normalizeDimension U record.region
  environment := normalizeDimension U record.environment
  cpu := record.cpu
  ramMb := record.ramMb
  diskMb := record.diskMb
  extra := record.extra

/-- Resolve the canonical application code linked to a machine record. -/
def resolveApplication (U : Unicode) (record : MachineRecord) : Option String :=
  normalizeApplicationCode U record.application

/-- Return whether compute resources changed for the incoming record. -/
def flavorChanged (machine : Machine) (record : MachineRecord) : Bool :=
  machine.cpu ≠ record.cpu || machine.ramMb ≠ record.ramMb || machine.diskMb ≠ record.diskMb

/-! ## Matching -/

/-- Whether a text is true: neither `None` nor empty. -/
def truthy (value : Option String) : Bool := value ≠ none && value ≠ some ""

/-- The second query of `_find_machine`. -/
def findByHostname (rows : List Machine) (provisioner : MachineProvisioner) (record : MachineRecord) :
    Except Exc (Option Machine) :=
  oneOrNone (selectWhere (fun m => Cond.and (Cond.eq (some m.platformId) (some provisioner.platformId))
    (Cond.eq (some m.hostname) (some record.hostname))) rows)

/-- The first query of `_find_machine`. -/
def findByExternalId (rows : List Machine) (provisioner : MachineProvisioner) (record : MachineRecord) :
    Except Exc (Option Machine) :=
  oneOrNone (selectWhere (fun m => Cond.and (Cond.eq m.sourceProvisionerId (some provisioner.id))
    (Cond.eq m.externalId record.externalId)) rows)

/-- Find the machine matched by external id first, then by hostname. -/
def findMachine (rows : List Machine) (provisioner : MachineProvisioner) (record : MachineRecord) :
    Except Exc (Option Machine) :=
  if truthy record.externalId then
    match findByExternalId rows provisioner record with
    | .error e => .error e
    | .ok (some machine) => .ok (some machine)
    | .ok none => findByHostname rows provisioner record
  else findByHostname rows provisioner record

/-! ## Writing -/

/-- The statements on `machines`: the unique constraints, and the `onupdate` of `updated_at`. -/
def machineMapper (clock : Nat → Time) : Mapper Machine where
  conflicts := Machine.Conflicts
  decidable := inferInstance
  stamp k m := { m with updatedAt := clock k }
  id_stamp _ _ := rfl
  conflicts_symm := by
    rintro a b (⟨h1, h2⟩ | ⟨h1, h2, h3, h4⟩)
    · exact .inl ⟨h1.symm, h2.symm⟩
    · exact .inr ⟨h1.symm, h2.symm, h1 ▸ h3, h2 ▸ h4⟩
  conflicts_stamp _ _ _ := Iff.rfl

/-- The assignments to a matched machine, through the validators of the model. -/
def Machine.assign (U : Unicode) (provisioner : MachineProvisioner) (record : MachineRecord) (m : Machine) : Machine :=
  { m with
    sourceProvisionerId := some provisioner.id
    application := normalizeApplicationCode U (resolveApplication U record)
    externalId := normalizeExternalId U record.externalId
    hostname := hostnameOr U record.hostname
    region := normalizeDimension U record.region
    environment := normalizeDimension U record.environment
    cpu := record.cpu
    ramMb := record.ramMb
    diskMb := record.diskMb
    extra := record.extra }

theorem Machine.id_assign (U : Unicode) (provisioner : MachineProvisioner) (record : MachineRecord) (m : Machine) :
    Row.id (m.assign U provisioner record) = Row.id m := rfl

/-- A new machine, through the validators of the model; its insertion stamps `updated_at`. -/
def Machine.new (U : Unicode) (id : Nat) (provisioner : MachineProvisioner) (record : MachineRecord) : Machine :=
  Machine.assign U provisioner record
    { id, platformId := provisioner.platformId, application := none, sourceProvisionerId := none, externalId := none,
      hostname := "", region := none, environment := none, cpu := none, ramMb := none, diskMb := none, extra := "",
      updatedAt := 0 }

/-- One observed machine flavor snapshot. -/
def flavorSnapshot (id machineId : Nat) (provisioner : MachineProvisioner) (record : MachineRecord) (changedAt : Time) :
    MachineFlavorHistory :=
  ⟨id, machineId, some provisioner.id, record.cpu, record.ramMb, record.diskMb, changedAt⟩

/-! ## The loop -/

/-- The state of the loop over the records. -/
structure InventoryState where
  session : Session Machine
  history : List MachineFlavorHistory
  nextId : Nat
  created : Nat
  updated : Nat
  flavorChanges : Nat
  optimizationMachineIds : List Nat
  written : List Nat

/-- The object of the session for a row that a query returned. -/
def Session.objectOf (s : Session Machine) (row : Machine) : Machine :=
  ((Table.get s.rows row.id).map (·.object)).getD row

/-- A record that matches no machine: the flush of the creation writes the pending assignments first. -/
def createMachine (env : InventoryEnv) (provisioner : MachineProvisioner) (now : Time) (st : InventoryState)
    (record : MachineRecord) : Except Exc InventoryState :=
  match st.session.insert (machineMapper env.clock) (Machine.new env.unicode st.nextId provisioner record) with
  | .error (row, other) => .error ⟨.integrityError, env.integrityMessage row other⟩
  | .ok session =>
    .ok { st with
      session
      history := st.history ++ [flavorSnapshot (st.nextId + 1) st.nextId provisioner record now]
      nextId := st.nextId + 2
      created := st.created + 1
      optimizationMachineIds := st.optimizationMachineIds ++ [st.nextId]
      written := st.written ++ [st.nextId] }

/-- A record that matches a machine: the object is assigned to, and a change of flavor is kept in the history. -/
def updateMachine (env : InventoryEnv) (provisioner : MachineProvisioner) (now : Time) (st : InventoryState)
    (record : MachineRecord) (row : Machine) : InventoryState :=
  let st :=
    if flavorChanged (st.session.objectOf row) record then
      { st with
        history := st.history ++ [flavorSnapshot st.nextId row.id provisioner record now]
        nextId := st.nextId + 1
        flavorChanges := st.flavorChanges + 1
        optimizationMachineIds := st.optimizationMachineIds ++ [row.id] }
    else st
  { st with
    session := st.session.assign row.id (Machine.assign env.unicode provisioner record) (Machine.id_assign _ _ _)
    updated := st.updated + 1
    written := st.written ++ [row.id] }

/-- One iteration of the loop. -/
def processRecord (env : InventoryEnv) (provisioner : MachineProvisioner) (now : Time) (st : InventoryState)
    (record : MachineRecord) : Except Exc InventoryState :=
  let record := normalizeMachineRecord env.unicode record
  match findMachine st.session.stored provisioner record with
  | .error e => .error e
  | .ok none => createMachine env provisioner now st record
  | .ok (some row) => .ok (updateMachine env provisioner now st record row)

/-- The loop over the records. -/
def processRecords (env : InventoryEnv) (provisioner : MachineProvisioner) (now : Time) :
    InventoryState → List MachineRecord → Except Exc InventoryState
  | st, [] => .ok st
  | st, record :: records =>
    match processRecord env provisioner now st record with
    | .error e => .error e
    | .ok st => processRecords env provisioner now st records

/-! ## The run -/

/-- The state in which the loop starts. -/
def InventoryState.start (db : Database) (ticks : Nat) : InventoryState where
  session := Session.load db.machines ticks
  history := db.flavorHistory
  nextId := db.nextId
  created := 0
  updated := 0
  flavorChanges := 0
  optimizationMachineIds := []
  written := []

/-- The database as the flushed session leaves it. -/
def InventoryState.store (st : InventoryState) (db : Database) : Database :=
  { db with machines := st.session.stored, flavorHistory := st.history, nextId := st.nextId }

/-- The refreshes, one reading of the clock each. -/
def refreshMachines (env : InventoryEnv) : Nat → Database → List Nat → Except Exc Database
  | _, db, [] => .ok db
  | ticks, db, machineId :: machineIds =>
    match refreshMachineOptimization env.settings db machineId (env.clock ticks) with
    | .error e => .error e
    | .ok (db, _) => refreshMachines env (ticks + 1) db machineIds

structure InventoryReport where
  created : Nat
  updated : Nat
  flavorChanges : Nat
  deriving DecidableEq, Repr

/-- A finished body: the database to commit, the state at the end of the loop, and the readings used. -/
structure InventoryBody where
  db : Database
  state : InventoryState
  ticks : Nat

/-- The records that the connector of a provisioner discovers. -/
def discover (mock : InventoryConnector) (provisioner : MachineProvisioner) : Except Exc (List MachineRecord) := do
  let connector ← getMachineProvisioner mock provisioner.type
  connector provisioner

/-- The body of the `try` block. The first refresh, or the commit when there is none, flushes the session. -/
def discoverAndStore (env : InventoryEnv) (mock : InventoryConnector) (db : Database) (provisioner : MachineProvisioner)
    (now : Time) (ticks : Nat) : Except Exc InventoryBody := do
  let records ← discover mock provisioner
  let st ← processRecords env provisioner now (.start db ticks) records
  match st.session.flush (machineMapper env.clock) with
  | .error (row, other) => .error ⟨.integrityError, env.integrityMessage row other⟩
  | .ok session =>
    let st := { st with session }
    let machineIds := st.optimizationMachineIds.dedup.insertionSort (· ≤ ·)
    let db ← refreshMachines env session.ticks (st.store db) machineIds
    let provisioners := Table.modify db.provisioners provisioner.id fun p =>
      { p with lastSuccessAt := some now, lastError := none }
    return ⟨{ db with provisioners }, st, session.ticks + machineIds.length⟩

/-- The outcome of a run: the database and the number of readings of the clock after it, the rows it assigned to, record
by record, the rows its statements wrote, and what it returns or raises. -/
structure InventoryOutcome where
  db : Database
  ticks : Nat
  written : List Nat
  emitted : List Nat
  result : Except Exc InventoryReport

/-- A provisioner whose run has started. -/
def MachineProvisioner.started (p : MachineProvisioner) (now : Time) : MachineProvisioner :=
  { p with lastRunAt := some now, lastError := none }

/-- The first commit of a run. -/
def startRun (db : Database) (provisionerId : Nat) (now : Time) : Database :=
  { db with provisioners := Table.modify db.provisioners provisionerId fun p => p.started now }

/-- Record the error of a run on its provisioner. -/
def failRun (U : Unicode) (db : Database) (provisionerId : Nat) (error : ErrorValue) : Database :=
  { db with provisioners := Table.modify db.provisioners provisionerId fun p => p.recordError U (some error) }

/-- `PROVISIONER_DISABLED_DETAIL`. -/
def provisionerDisabledDetail : String := "provisioner must be enabled before it can run"

/-- Run one provisioner discovery and upsert the resulting machine inventory. -/
def runProvisionerInventory (env : InventoryEnv) (mock : InventoryConnector) (db : Database)
    (ticks provisionerId : Nat) :
    InventoryOutcome :=
  match Table.get db.provisioners provisionerId with
  | none =>
    ⟨db, ticks, [], [], .error ⟨.valueError, "provisioner " ++ toString provisionerId ++ " not found"⟩⟩
  | some provisioner =>
    let now := env.clock ticks
    let db := startRun db provisionerId now
    let provisioner := provisioner.started now
    if ¬ provisioner.enabled then
      ⟨failRun env.unicode db provisionerId (.message provisionerDisabledDetail), ticks + 1, [], [],
        .error ⟨.valueError, provisionerDisabledDetail⟩⟩
    else
      match discoverAndStore env mock db provisioner now (ticks + 1) with
      | .error e => ⟨failRun env.unicode db provisionerId (.exception e), ticks + 1, [], [], .error e⟩
      | .ok body =>
        ⟨body.db, body.ticks, body.state.written, body.state.session.emitted,
          .ok ⟨body.state.created, body.state.updated, body.state.flavorChanges⟩⟩

/-! ## A small installation -/

/-- ASCII names, the default settings, and one microsecond between the readings of the clock. -/
def smallEnv : InventoryEnv := ⟨Unicode.ascii, Settings.default, fun k => k, fun _ _ => "duplicate key value"⟩

/-- An enabled provisioner with the mock connector. -/
def smallProvisioner : MachineProvisioner :=
  ⟨1, 1, "inventory", "mock", "{}", true, "* * * * *", none, none, none, none⟩

/-- A machine of `smallProvisioner`, updated at the epoch. -/
def smallMachine (id : Nat) (externalId hostname : String) : Machine :=
  ⟨id, 1, none, some 1, some externalId, hostname, none, none, none, none, none, "{}", 0⟩

/-- A record with identifiers only. -/
def smallRecord (externalId hostname : String) : MachineRecord :=
  ⟨some externalId, hostname, none, none, none, none, none, none, "{}"⟩

/-- A database with one provisioner and some machines. -/
def smallDb (machines : List Machine) : Database :=
  { Database.empty with provisioners := [smallProvisioner], machines, nextId := 10 }

end Washing
