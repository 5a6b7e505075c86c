import Washing.Lib.Schedule
import Washing.Lib.WorkQueue
import Washing.Scheduler.Interleaving
import Washing.Worker.Stored

/-!
# The system

The tables, and the queue between the API, Beat and the workers. Requests, publications, executions and losses of
messages follow each other in any order (`System.step`), and publications and commits may fail. Executions follow each
other too: what their transactions do to each other is left to the modules about the single tasks.

- every state that the system reaches is stored (`reachable_stored`);
- tasks publish tasks of lower rank only, so nothing is executed for ever unless somebody outside keeps publishing, and
  workers that do not stop empty the queue (`work_comes_to_an_end`).
-/

namespace Washing

/-! ## Steps -/

/-- What happened when a task was executed. -/
structure Execution where
  task : WorkerTask
  published : List WorkerTask
  error : Option Exc
  now : Time

/-- The tables, the queue, and what was executed so far, the newest first; the program does not keep the latter. -/
structure System where
  tables : Tables
  queue : Multiset WorkerTask
  log : List Execution

/-- No rows and no tasks. -/
def System.empty : System := ⟨{ Store.empty with history := ⟨[], 1⟩ }, 0, []⟩

/-- What happens to the system. -/
inductive SystemEvent
  | request (request : Request)
  | enqueue (request : EnqueueRequest)
  | beat (task : WorkerTask)
  | signal (signal : Signal)
  | execute (task : WorkerTask) (env : TaskEnv)
  | lose (task : WorkerTask)

namespace System

variable (config : WorkerConfig)

/-- Execute a task of the queue. -/
def executed (s : System) (task : WorkerTask) (env : TaskEnv) : System :=
  let outcome := task.execute config env s.tables
  ⟨outcome.tables, s.queue.erase task + ↑outcome.published,
    ⟨task, outcome.published, outcome.error, env.clock 0⟩ :: s.log⟩

/-- One event; an execution and a loss are about a task of the queue, and Beat publishes the tasks of its schedule. -/
def step (s : System) : SystemEvent → Option System
  | .request request =>
    some { s with tables := { s.tables with toStore := (request.handle config.api s.tables.toStore).1 } }
  | .enqueue request =>
    match request.task s.tables.toStore with
    | .ok task => some { s with queue := task ::ₘ s.queue }
    | .error _ => some s
  | .beat task => if task ∈ beatSchedule then some { s with queue := task ::ₘ s.queue } else none
  | .signal signal =>
    let history := afterSignal config.api.unicode config.digits s.tables.history signal
    some { s with tables := { s.tables with history } }
  | .execute task env => if task ∈ s.queue then some (s.executed config task env) else none
  | .lose task => if task ∈ s.queue then some { s with queue := s.queue.erase task } else none

end System

/-- Somebody outside the queue publishes a task. -/
def SystemEvent.Publishes : SystemEvent → Prop
  | enqueue _ | beat _ => True
  | _ => False

/-- A task leaves the queue. -/
def SystemEvent.Takes : SystemEvent → Prop
  | execute _ _ | lose _ => True
  | _ => False

/-! ## Every state is stored -/

section Stored

variable {config : WorkerConfig} {s s' : System}

theorem stored_empty (config : WorkerConfig) : System.empty.tables.Stored config where
  sound := Store.sound_empty config.api
  constrained := Store.constrained_empty
  kept :=
    { consistent := by
        constructor
        case machines_unique => exact fun _ hm => absurd hm List.not_mem_nil
        case machines_fresh => exact fun _ hm => absurd hm List.not_mem_nil
        case metrics_keyed => exact fun scope => by cases scope <;> exact List.nodup_nil
        case metrics_unique => exact fun scope => by cases scope <;> exact List.nodup_nil
        case metrics_fresh => exact fun scope _ hr => by cases scope <;> exact absurd hr List.not_mem_nil
        case optimizations_fresh => exact fun _ hr => absurd hr List.not_mem_nil
        all_goals exact List.nodup_nil
      applications := ⟨List.nodup_nil, fun _ ha => absurd ha List.not_mem_nil, List.nodup_nil⟩
      machines := fun _ hm => absurd hm List.not_mem_nil
      keys := fun _ ha => absurd ha List.not_mem_nil
      histories := fun _ hr => absurd hr List.not_mem_nil
      optimizations := fun _ hr => absurd hr List.not_mem_nil }
  history :=
    { fits := fun _ hr => absurd hr List.not_mem_nil
      keyed := List.nodup_nil
      fresh := fun _ hr => absurd hr List.not_mem_nil
      unique := List.nodup_nil }

/-- One event keeps what is guaranteed of the tables. -/
theorem stored_step (hdefault : config.api.cronIsValid defaultCron) {event : SystemEvent}
    (h : s.tables.Stored config) (hstep : s.step config event = some s') : s'.tables.Stored config := by
  cases event with
  | request request =>
    cases hstep
    exact h.request hdefault request
  | enqueue request =>
    simp only [System.step] at hstep
    split at hstep <;> cases hstep <;> exact h
  | beat task =>
    simp only [System.step] at hstep
    split_ifs at hstep
    cases hstep
    exact h
  | signal signal =>
    cases hstep
    obtain ⟨hhistory, -⟩ := signal_rows config.api.unicode config.digits h.history signal
    exact ⟨h.sound, h.constrained, h.kept, hhistory⟩
  | execute task env =>
    simp only [System.step] at hstep
    split_ifs at hstep
    cases hstep
    exact h.execute env task
  | lose task =>
    simp only [System.step] at hstep
    split_ifs at hstep
    cases hstep
    exact h

/-- A run keeps it. -/
theorem stored_run (hdefault : config.api.cronIsValid defaultCron) (h : s.tables.Stored config)
    {events : List SystemEvent} (hrun : exec (System.step config) s events = some s') : s'.tables.Stored config :=
  exec_invariant (fun _ _ _ h _ hstep => stored_step hdefault h hstep) h (allSteps_true _ events) hrun

/-- Whatever happens to the system, in any order: the tables keep what is guaranteed of them. -/
theorem reachable_stored (hdefault : config.api.cronIsValid defaultCron) {events : List SystemEvent}
    (hrun : exec (System.step config) .empty events = some s) : s.tables.Stored config :=
  stored_run hdefault (stored_empty config) hrun

end Stored

/-- The small installation with its workers. -/
def smallConfig : WorkerConfig where
  api := smallApi
  digits := .latin1
  settings := Settings.default
  croniter := hourly
  syncs := ⟨7, 60, 10, 3600⟩
  celeryTaskExecutionRetention := ⟨30, rfl⟩
  applicationRetention := ⟨30, rfl⟩
  machineRetention := ⟨30, rfl⟩

/-- Nothing fails; the mock connectors answer with two machines of two applications, and one sample of each. -/
def smallTaskEnv : TaskEnv where
  clock k := seconds 3600 + k
  inventory := fun _ => .ok [{ smallRecord "a" "H1" with application := some "shop" },
    { smallRecord "b" "H2" with application := some "desk" }]
  metrics := fun _ machines => .ok (machines.map fun m => ⟨50, some 0, none, m.externalId, none⟩)
  inventoryFaults := .none
  collectionFaults := .none
  syncFaults := .none
  commitFaults := fun _ => none
  machineConflict := fun _ _ => "duplicate key value"
  constraintError := id
  applicationUpdatedAt := fun _ => 0
  enqueue := fun _ => none

/-- A platform with an enabled provisioner and two enabled providers, and the machines that the provisioner finds. -/
def smallSetup : List SystemEvent :=
  [.request (.createPlatform { name := "north" }),
    .request (.createMockProvisioner { platformId := 1, name := "inventory" }),
    .request (.enableProvisioner 2),
    .request (.createMockProvider { platformId := 1, name := "metrics", scope := .cpu }),
    .request (.enableProvider 3),
    .request (.createMockProvider { platformId := 1, name := "memory", scope := .ram }),
    .request (.enableProvider 4),
    .beat .dispatchDueMachineProvisionerJobs,
    .execute .dispatchDueMachineProvisionerJobs smallTaskEnv,
    .execute (.runProvisioner 2) smallTaskEnv]

/-- A sync of the providers, whose tasks run in another order than they are published. -/
def smallSync : List SystemEvent :=
  [.execute .dispatchEnabledProviderSyncs smallTaskEnv,
    .execute (.runProvider 4) smallTaskEnv,
    .execute (.runProviderMachine 4 7) smallTaskEnv,
    .execute (.runProvider 3) smallTaskEnv,
    .execute (.runProviderMachine 3 5) smallTaskEnv,
    .execute (.runProviderMachine 4 5) smallTaskEnv,
    .execute (.runProviderMachine 3 7) smallTaskEnv]

/-- Nothing can be published. -/
def brokerless : TaskEnv := { smallTaskEnv with enqueue := fun _ => some ⟨.other "OperationalError", "refused"⟩ }

/-- The installation, a sync that cannot publish, one that can, and a deletion. -/
def smallEvents : List SystemEvent :=
  smallSetup ++
    .enqueue .providerSync :: .execute .dispatchEnabledProviderSyncs brokerless ::
    .enqueue .providerSync :: smallSync ++ [.request (.deleteProvider 4)]

theorem reachable_stored_small : ∃ s, exec (System.step smallConfig) .empty smallEvents = some s ∧
    s.tables.cpuMetrics.length = 2 ∧ s.tables.ramMetrics = [] ∧ s.queue = 0 ∧ s.tables.Stored smallConfig := by
  have hruns : ((exec (System.step smallConfig) .empty smallEvents).map fun s =>
      (s.tables.cpuMetrics.length, s.tables.ramMetrics, s.queue.card)) = some (2, [], 0) := by decide +kernel
  obtain ⟨s, hs, heq⟩ := Option.map_eq_some_iff.mp hruns
  obtain ⟨hmetrics, heq⟩ := Prod.mk.inj heq
  obtain ⟨hdeleted, hqueue⟩ := Prod.mk.inj heq
  exact ⟨s, hs, hmetrics, hdeleted, Multiset.card_eq_zero.mp hqueue, reachable_stored rfl hs⟩

/-! ## Work comes to an end -/

/-- How many publications a task can start, one after the other. -/
def WorkerTask.rank : WorkerTask → Nat
  | dispatchEnabledProviderSyncs | dispatchDueApplicationMetricsSyncs => 2
  | runProvider _ | syncApplicationMetrics _ | dispatchDueMachineProvisionerJobs => 1
  | _ => 0

/-- What a task publishes when its commit gets through. -/
theorem mem_committing {env : TaskEnv} {t : Tables} {outcome : TaskOutcome} {task : WorkerTask}
    (h : task ∈ (env.committing t outcome).published) : task ∈ outcome.published := by
  obtain ⟨e, hsame⟩ | hdone := committing_cases env t outcome
  · rw [hsame] at h
    exact absurd h List.not_mem_nil
  · exact hdone ▸ h

/-- A task publishes tasks of lower rank. -/
theorem rank_published (config : WorkerConfig) (env : TaskEnv) (t : Tables) (task : WorkerTask) :
    ∀ other ∈ (task.execute config env t).published, other.rank < task.rank := by
  intro other hother
  cases task with
  | dispatchEnabledProviderSyncs | syncApplicationMetrics _ =>
    obtain ⟨x, -, rfl⟩ := List.mem_map.mp hother
    exact Nat.lt_succ_self _
  | runProvider _ | dispatchDueApplicationMetricsSyncs | dispatchDueMachineProvisionerJobs =>
    obtain ⟨x, -, rfl⟩ := List.mem_map.mp (mem_committing hother)
    exact Nat.lt_succ_self _
  | purgeOldTaskExecutions | purgeStaleApplications | purgeStaleMachines | syncApplicationInventoryDiscovery =>
    exact absurd (mem_committing hother) List.not_mem_nil
  | recalculateMachineOptimizations machineId =>
    simp only [WorkerTask.execute] at hother
    split at hother
    · exact absurd (mem_committing hother) List.not_mem_nil
    · exact absurd hother List.not_mem_nil
  | runProviderMachine _ _ | runProvisioner _ => exact absurd hother List.not_mem_nil

section Ends

variable {config : WorkerConfig} {s s' : System} {event : SystemEvent}

/-- A task that leaves the queue publishes tasks of lower rank at most. -/
theorem takes_step (hstep : s.step config event = some s') (htakes : event.Takes) :
    ∃ task published, Takes task published s.queue s'.queue ∧ ∀ t ∈ published, t.rank < task.rank := by
  cases event with
  | execute task env =>
    simp only [System.step] at hstep
    split_ifs at hstep with hmem
    cases hstep
    exact ⟨task, _, takes_erase hmem _, rank_published config env s.tables task⟩
  | lose task =>
    simp only [System.step] at hstep
    split_ifs at hstep with hmem
    cases hstep
    refine ⟨task, [], ?_, fun _ ht => absurd ht List.not_mem_nil⟩
    have hlost := takes_erase hmem []
    rwa [Multiset.coe_nil, add_zero] at hlost
  | _ => exact htakes.elim

/-- Otherwise only a publication from outside changes the queue. -/
theorem queue_step (hstep : s.step config event = some s') (htakes : ¬ event.Takes) (hpublishes : ¬ event.Publishes) :
    s'.queue = s.queue := by
  cases event with
  | request request =>
    cases hstep
    rfl
  | signal signal =>
    cases hstep
    rfl
  | execute _ _ | lose _ => exact absurd trivial htakes
  | enqueue _ | beat _ => exact absurd trivial hpublishes

end Ends

/-- When nobody outside publishes any more, finitely many tasks are executed or lost, whatever the order is and whatever
the requests change meanwhile; if the workers do not stop before that, the queue ends empty. -/
theorem work_comes_to_an_end {config : WorkerConfig} {run : Nat → System} {events : Nat → SystemEvent} {start : Nat}
    (hrun : ∀ n, (run n).step config (events n) = some (run (n + 1)))
    (hquiet : ∀ n, start ≤ n → ¬ (events n).Publishes) :
    (∃ N, ∀ n, N ≤ n → ¬ (events n).Takes) ∧
      ((∀ n, (run n).queue ≠ 0 → ∃ m, n ≤ m ∧ (events m).Takes) → ∃ N, ∀ n, N ≤ n → (run n).queue = 0) := by
  have hends : ∃ N, ∀ n, N ≤ n → ¬ (events n).Takes := by
    have htaken : ∀ n, start ≤ n → (events n).Takes → ∃ task published,
        Takes task published (run n).queue (run (n + 1)).queue ∧ ∀ t ∈ published, t.rank < task.rank :=
      fun n _ htakes => takes_step (hrun n) htakes
    have hother : ∀ n, start ≤ n → ¬ (events n).Takes → (run (n + 1)).queue ≤ (run n).queue :=
      fun n hn htakes => (queue_step (hrun n) htakes (hquiet n hn)).le
    exact work_ends htaken hother
  refine ⟨hends, fun hworking => ?_⟩
  obtain ⟨N, hN⟩ := hends
  refine ⟨N, fun n hn => ?_⟩
  by_contra hqueue
  obtain ⟨m, hm, htakes⟩ := hworking n hqueue
  exact hN m (hn.trans hm) htakes

/-- The installation and a sync, after which requests are all that happens. -/
def quietEvents (n : Nat) : SystemEvent :=
  (smallSetup ++ .enqueue .providerSync :: smallSync)[n]?.getD (.request (.deletePlatform 9))

/-- The system along these events. -/
def quietRun : Nat → System
  | 0 => .empty
  | n + 1 => ((quietRun n).step smallConfig (quietEvents n)).getD (quietRun n)

/-- From the end of the sync on there are only requests. -/
theorem quietEvents_late {n : Nat} (hn : 18 ≤ n) : quietEvents n = .request (.deletePlatform 9) := by
  unfold quietEvents
  rw [List.getElem?_eq_none hn]
  rfl

theorem work_comes_to_an_end_quiet : (∃ N, ∀ n, N ≤ n → ¬ (quietEvents n).Takes) ∧
    ∃ N, ∀ n, N ≤ n → (quietRun n).queue = 0 := by
  have hearly : ∀ n < 18, ((quietRun n).step smallConfig (quietEvents n)).isSome := by decide +kernel
  have hrun : ∀ n, (quietRun n).step smallConfig (quietEvents n) = some (quietRun (n + 1)) := by
    intro n
    have hsome : ((quietRun n).step smallConfig (quietEvents n)).isSome := by
      by_cases hn : n < 18
      · exact hearly n hn
      · rw [quietEvents_late (not_lt.mp hn)]
        rfl
    obtain ⟨s, hs⟩ := Option.isSome_iff_exists.mp hsome
    rw [quietRun, hs]
    rfl
  have hquiet : ∀ n, 11 ≤ n → ¬ (quietEvents n).Publishes := by
    intro n hn
    by_cases hlate : 18 ≤ n
    · rw [quietEvents_late hlate]
      exact id
    · interval_cases n <;> exact id
  have hempty : ∀ n, 18 ≤ n → (quietRun n).queue = 0 := by
    intro n hn
    induction n, hn using Nat.le_induction with
    | base => decide +kernel
    | succ n hn ih =>
      have htakes : ¬ (quietEvents n).Takes := by
        rw [quietEvents_late hn]
        exact id
      exact (queue_step (hrun n) htakes (hquiet n (by omega))).trans ih
  obtain ⟨hends, hqueue⟩ := work_comes_to_an_end hrun hquiet
  -- the workers take tasks to the end of the sync, and then the queue is empty
  refine ⟨hends, hqueue fun n hn => ⟨17, ?_, trivial⟩⟩
  by_contra hlate
  exact hn (hempty n (not_le.mp hlate))

end Washing
