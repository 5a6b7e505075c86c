import Washing.Api.Requests
import Washing.Applications.Dispatch
import Washing.Applications.Job
import Washing.Applications.Projection
import Washing.Inventory.Job
import Washing.Inventory.Retention
import Washing.Metrics.Dispatch
import Washing.Metrics.Job
import Washing.Queue.Tracking
import Washing.Scheduler.Dispatch

/-!
# The tasks of the workers

The tasks of `app/worker/tasks` under their names of `internal/infra/queue/task_names.py`. A task reads and writes the
database, publishes further tasks, and returns or raises (`WorkerTask.execute`); every publication and every commit may
fail, and in the jobs every step. The routes that enqueue a task, and the tasks that Beat publishes, are at the end.
-/

namespace Washing

/-! ## Publishing the collections -/

/-- Enqueue one provider dispatcher task per enabled provider: the published ids, and what the call returns or
raises. -/
def dispatchEnabledProviderSyncs (db : Database) (enqueueProvider : Nat → Nat → Option Exc) :
    List Nat × Except Exc (List Nat) :=
  let providerIds := (orderBy (fun p q => p.id ≤ q.id)
    (selectWhere (fun p => Cond.ofBool p.enabled) db.providers)).map (·.id)
  let publication := publishAll enqueueProvider 0 providerIds
  match publication.2 with
  | some e => (publication.1, .error e)
  | none => (publication.1, .ok providerIds)

/-- The outcome of a dispatch: the database after it, the published (provider, machine) messages, and what it returns or
raises. -/
structure MachineSyncsOutcome where
  db : Database
  published : List (Nat × Nat)
  result : Except Exc DispatchReport

/-- Enqueue one metric collection task per machine visible to a provider. -/
def dispatchProviderMachineSyncs (db : Database) (providerId : Nat) (enqueueMachineSync : Nat → Nat × Nat → Option Exc)
    (now : Time) : MachineSyncsOutcome :=
  match loadProvider db providerId with
  | .error e => ⟨db, [], .error e⟩
  | .ok none => ⟨db, [], .ok ⟨providerId, [], some .providerNotFound⟩⟩
  | .ok (some _) =>
    let db := startDispatch db providerId now
    match loadProvider db providerId with
    | .error e => ⟨db, [], .error e⟩
    | .ok none => ⟨db, [], .ok ⟨providerId, [], some .providerNotFound⟩⟩
    | .ok (some provider) =>
      let machineIds := (scopedMachines db provider).map (·.id)
      let publication := publishAll enqueueMachineSync 0 (machineIds.map fun machineId => (provider.id, machineId))
      match publication.2 with
      | some e => ⟨db, publication.1, .error e⟩
      | none => ⟨db, publication.1, .ok ⟨provider.id, machineIds, none⟩⟩

/-! ## Maintenance -/

/-- Require positive retention windows for maintenance cleanup tasks. -/
def validatePositiveRetentionDays (value : Int) : Except String Int :=
  if value ≤ 0 then .error "retention day settings must be greater than 0" else .ok value

/-- A retention setting that the validator accepts. -/
structure RetentionDays where
  days : Int
  accepted : validatePositiveRetentionDays days = .ok days

theorem RetentionDays.pos (retention : RetentionDays) : 0 < retention.days := by
  have h := retention.accepted
  unfold validatePositiveRetentionDays at h
  split_ifs at h with hle
  exact not_le.mp hle

/-- Delete applications whose last update is older than the configured retention window; `updatedAt` is their
`updated_at`. -/
def purgeStaleApplications (db : Database) (retentionDays : Int) (updatedAt : Application → Time) (now : Time) :
    Database × PurgeReport :=
  let cutoff := now - days retentionDays
  let stale := db.applications.filter fun a => updatedAt a < cutoff
  ({ db with applications := db.applications.filter fun a => ¬ updatedAt a < cutoff }, ⟨stale.length, "completed"⟩)

/-- What a purge of the task history returns. -/
structure HistoryPurgeReport where
  deleted : Nat
  retentionDays : Int
  status : String
  deriving DecidableEq, Repr

/-- Delete tracked Celery executions older than the configured retention window. -/
def purgeOldTaskExecutions (h : TaskHistory) (retentionDays : Int) (now : Time) : TaskHistory × HistoryPurgeReport :=
  let cutoff := now - days retentionDays
  let old := h.executions.filter fun r => r.queuedAt < cutoff
  ({ h with executions := h.executions.filter fun r => ¬ r.queuedAt < cutoff },
    ⟨old.length, retentionDays, "completed"⟩)

/-! ## Tasks -/

/-- The Celery tasks, with their arguments. -/
inductive WorkerTask
  | purgeOldTaskExecutions
  | purgeStaleApplications
  | purgeStaleMachines
  | dispatchEnabledProviderSyncs
  | runProvider (providerId : Nat)
  | runProviderMachine (providerId machineId : Nat)
  | runProvisioner (provisionerId : Nat)
  | syncApplicationInventoryDiscovery
  | dispatchDueApplicationMetricsSyncs
  | syncApplicationMetrics (applicationId : Nat)
  | dispatchDueMachineProvisionerJobs
  | recalculateMachineOptimizations (machineId : Nat)
  deriving DecidableEq, Repr

/-- The name under which a task is published. -/
def WorkerTask.name : WorkerTask → String
  | purgeOldTaskExecutions => "maintenance.purge_old_task_executions"
  | purgeStaleApplications => "maintenance.purge_stale_applications"
  | purgeStaleMachines => "maintenance.purge_stale_machines"
  | dispatchEnabledProviderSyncs => "providers.dispatch_enabled_syncs"
  | runProvider _ => "providers.run"
  | runProviderMachine _ _ => "providers.run_machine"
  | runProvisioner _ => "provisioners.run"
  | syncApplicationInventoryDiscovery => "applications.sync_inventory_discovery"
  | dispatchDueApplicationMetricsSyncs => "applications.dispatch_due_metrics_syncs"
  | syncApplicationMetrics _ => "applications.sync_metrics"
  | dispatchDueMachineProvisionerJobs => "scheduler.dispatch_due_machine_provisioner_jobs"
  | recalculateMachineOptimizations _ => "machines.recalculate_optimizations"

/-- The arguments with which a task is published. -/
def WorkerTask.args : WorkerTask → List Nat
  | runProvider id | runProvisioner id | syncApplicationMetrics id | recalculateMachineOptimizations id => [id]
  | runProviderMachine providerId machineId => [providerId, machineId]
  | _ => []

/-- The settings of the workers, and the environment of the API. -/
structure WorkerConfig where
  api : ApiEnv
  digits : Digits
  settings : Settings
  croniter : CronSlots
  syncs : SyncDispatchConfig
  celeryTaskExecutionRetention : RetentionDays
  applicationRetention : RetentionDays
  machineRetention : RetentionDays

/-- What one execution of a task finds outside the database: the clock, the connectors, what fails in its runs, the
texts of the errors of the database, the `updated_at` of the applications, and the broker (`enqueue k` is the outcome of
the `k`-th publication). For a task that is no job, `commitFaults k` is what its `k`-th commit raises, or a statement on
the way to it. -/
structure TaskEnv where
  clock : Nat → Time
  inventory : InventoryConnector
  metrics : MetricCollector
  inventoryFaults : Faults InventoryWork
  collectionFaults : Faults CollectionWork
  syncFaults : Faults Database
  commitFaults : Nat → Option Exc
  machineConflict : Machine → Machine → String
  constraintError : String → String
  applicationUpdatedAt : Application → Time
  enqueue : Nat → Option Exc

/-- The surroundings of an inventory run. -/
def TaskEnv.inventoryEnv (env : TaskEnv) (config : WorkerConfig) : InventoryEnv :=
  ⟨config.api.unicode, config.settings, env.clock, env.machineConflict⟩

/-- The surroundings of a collection. -/
def TaskEnv.collectionEnv (env : TaskEnv) (config : WorkerConfig) : CollectionEnv :=
  ⟨config.api.unicode, config.settings, env.metrics, env.clock, env.constraintError⟩

/-- Everything that the database holds. -/
structure Tables extends Store where
  history : TaskHistory

/-- Replace the rows of the inventory, the metrics and the applications. -/
def Tables.withDb (t : Tables) (db : Database) : Tables := { t with toDatabase := db }

/-- The outcome of an execution: the rows after it, the published tasks, and the exception if there is one. -/
structure TaskOutcome where
  tables : Tables
  published : List WorkerTask
  error : Option Exc

/-- A task that publishes nothing before its first commit: nothing of it lasts when this commit fails. -/
def TaskEnv.committing (env : TaskEnv) (t : Tables) (outcome : TaskOutcome) : TaskOutcome :=
  match env.commitFaults 0 with
  | some e => ⟨t, [], some e⟩
  | none => outcome

/-- The release after a failed publication: when its commit fails too, the rows stay reserved. -/
def TaskEnv.releasing (env : TaskEnv) (failure : Option Exc) (reserved released : Database) : Database × Option Exc :=
  match failure, env.commitFaults 1 with
  | some _, some e => (reserved, some e)
  | _, _ => (released, failure)

section Execute

variable (config : WorkerConfig) (env : TaskEnv) (t : Tables)

/-- Execute a task. -/
def WorkerTask.execute : WorkerTask → TaskOutcome
  | purgeOldTaskExecutions =>
    let purged := Washing.purgeOldTaskExecutions t.history config.celeryTaskExecutionRetention.days (env.clock 0)
    env.committing t ⟨{ t with history := purged.1 }, [], none⟩
  | purgeStaleApplications =>
    let purged := Washing.purgeStaleApplications t.toDatabase config.applicationRetention.days
      env.applicationUpdatedAt (env.clock 0)
    env.committing t ⟨t.withDb purged.1, [], none⟩
  | purgeStaleMachines =>
    let purged := Washing.purgeStaleMachines t.toDatabase config.machineRetention.days (env.clock 0)
    env.committing t ⟨t.withDb purged.1, [], none⟩
  | dispatchEnabledProviderSyncs =>
    let dispatch := Washing.dispatchEnabledProviderSyncs t.toDatabase fun k _ => env.enqueue k
    ⟨t, dispatch.1.map runProvider, raised dispatch.2⟩
  | runProvider providerId =>
    let dispatch := dispatchProviderMachineSyncs t.toDatabase providerId (fun k _ => env.enqueue k) (env.clock 0)
    env.committing t ⟨t.withDb dispatch.db, dispatch.published.map fun pair => runProviderMachine pair.1 pair.2,
      raised dispatch.result⟩
  | runProviderMachine providerId machineId =>
    let run := collectionJob env.collectionFaults (env.collectionEnv config) t.toDatabase providerId machineId
    ⟨t.withDb run.2.committed, [], raised run.1⟩
  | runProvisioner provisionerId =>
    let run := inventoryJob env.inventoryFaults (env.inventoryEnv config) env.inventory t.toDatabase 0 provisionerId
    ⟨t.withDb run.2.committed, [], raised run.1⟩
  | syncApplicationInventoryDiscovery =>
    env.committing t ⟨t.withDb (rebuildApplicationsFromMachines config.api.unicode t.toDatabase).1, [], none⟩
  | dispatchDueApplicationMetricsSyncs =>
    let reserved := (reserveApplications t.toDatabase config.syncs (env.clock 0) []).1
    let dispatch := Washing.dispatchDueApplicationMetricsSyncs t.toDatabase config.syncs (fun k _ => env.enqueue k)
      (env.clock 0)
    let release := env.releasing (raised dispatch.result) reserved dispatch.db
    env.committing t ⟨t.withDb release.1, dispatch.published.map syncApplicationMetrics, release.2⟩
  | syncApplicationMetrics applicationId =>
    let sync := syncJob env.syncFaults config.api.unicode t.toDatabase applicationId (fun k _ => env.enqueue k)
      (env.clock 0)
    let published := syncPublished env.syncFaults t.toDatabase applicationId fun k _ => env.enqueue k
    ⟨t.withDb sync.2.committed, published.map fun pair => runProviderMachine pair.1 pair.2, raised sync.1⟩
  | dispatchDueMachineProvisionerJobs =>
    let reserved := (reserveProvisioners config.croniter t.toDatabase (env.clock 0) []).1
    let dispatch := dispatchDueJobs config.croniter t.toDatabase (fun k _ => env.enqueue k) (env.clock 0)
    let release := env.releasing (raised dispatch.result) reserved dispatch.db
    env.committing t ⟨t.withDb release.1, dispatch.published.map runProvisioner, release.2⟩
  | recalculateMachineOptimizations machineId =>
    match refreshMachineOptimization config.settings t.toDatabase machineId (env.clock 0) with
    | .ok refreshed => env.committing t ⟨t.withDb refreshed.1, [], none⟩
    | .error e => ⟨t, [], some e⟩

end Execute

/-! ## Who publishes the first task -/

/-- `build_beat_schedule`. -/
def beatSchedule : List WorkerTask :=
  [.dispatchDueMachineProvisionerJobs, .syncApplicationInventoryDiscovery, .dispatchDueApplicationMetricsSyncs,
    .purgeOldTaskExecutions, .purgeStaleMachines, .purgeStaleApplications]

inductive ApplicationSyncType
  | inventoryDiscovery
  | metrics
  deriving DecidableEq, Repr

/-- The requests that enqueue a task. -/
inductive EnqueueRequest
  | applicationSync (syncType : ApplicationSyncType)
  | singleApplicationMetricsSync (applicationId : Nat)
  | providerSync
  | providerRun (providerId : Nat)
  | provisionerSync
  | provisionerRun (provisionerId : Nat)
  | recalculateMachineOptimization (machineId : Nat)
  deriving DecidableEq, Repr

namespace Routes

/-- `ENABLED_PROVIDER_SYNC_REQUIRED_DETAIL`. -/
def enabledProviderSyncRequiredDetail : String :=
  "at least one enabled provider is required before syncing machine metrics"

/-- `PROVIDER_DISABLED_DETAIL`. -/
def providerDisabledDetail : String := "provider must be enabled before it can run"

/-- Enqueue the global machine-metrics sync across enabled providers. -/
def enqueueProviderSync (s : Store) : Except HttpException WorkerTask :=
  let enabled := orderBy (fun p q => p.id ≤ q.id) (selectWhere (fun p => Cond.ofBool p.enabled) s.providers)
  if enabled.head? = none then .error ⟨409, enabledProviderSyncRequiredDetail⟩ else .ok .dispatchEnabledProviderSyncs

/-- Enqueue a manual metric sync for one enabled provider. -/
def enqueueProviderRun (s : Store) (providerId : Nat) : Except HttpException WorkerTask := do
  let provider ← loadProvider s providerId
  if ¬ provider.enabled then .error ⟨409, providerDisabledDetail⟩ else .ok (.runProvider providerId)

/-- Enqueue a manual provisioner run. -/
def enqueueProvisionerRun (s : Store) (provisionerId : Nat) : Except HttpException WorkerTask := do
  let provisioner ← getOr404 s.provisioners provisionerId "provisioner not found"
  if ¬ provisioner.enabled then .error ⟨409, provisionerDisabledDetail⟩ else .ok (.runProvisioner provisionerId)

end Routes

/-- The task that the route of a request enqueues. -/
def EnqueueRequest.task (s : Store) : EnqueueRequest → Except HttpException WorkerTask
  | applicationSync .inventoryDiscovery => .ok .syncApplicationInventoryDiscovery
  | applicationSync .metrics => .ok .dispatchDueApplicationMetricsSyncs
  | singleApplicationMetricsSync id => do
    let _ ← getOr404 s.applications id "application not found"
    return .syncApplicationMetrics id
  | providerSync => Routes.enqueueProviderSync s
  | providerRun id => Routes.enqueueProviderRun s id
  | provisionerSync => .ok .dispatchDueMachineProvisionerJobs
  | provisionerRun id => Routes.enqueueProvisionerRun s id
  | recalculateMachineOptimization id => do
    let _ ← getOr404 s.machines id "machine not found"
    return .recalculateMachineOptimizations id

end Washing
