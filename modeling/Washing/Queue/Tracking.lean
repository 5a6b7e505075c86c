import Washing.Queue.Columns
import Washing.Security.Sanitization

/-!
# Task tracking

`internal/infra/queue/task_tracking.py` keeps one row of `celery_task_executions` for each task id. The publish handler
creates it, the four worker handlers rewrite parts of it. A handler raises when the resource id is no number that `int`
takes, or when the row does not fit its columns; Celery logs that and goes on, so that only this signal is lost. On a
stored table each handler acts on the row of its own task (`signal_rows`), so that the history of a task is a fold over
its own signals (`run_row`).
-/

namespace Washing

/-! ## Rows -/

structure CeleryTaskExecution extends TaskExecution where
  id : Nat

/-- The table, with the next value of its identity column. -/
structure TaskHistory where
  executions : List CeleryTaskExecution
  nextId : Nat

/-! ## Payloads -/

def resourceTypeHeader : String := "x-resource-type"
def resourceIdHeader : String := "x-resource-id"

/-- `TASK_RESOURCE_TYPES.get(task_name)`. -/
def taskResourceType (taskName : String) : Option String :=
  if taskName = "providers.run_machine" then some "provider"
  else if taskName = "providers.run" then some "provider"
  else if taskName = "provisioners.run" then some "provisioner"
  else if taskName = "applications.sync_metrics" then some "application"
  else if taskName = "machines.recalculate_optimizations" then some "machine"
  else none

def terminalTaskStates : List String := ["SUCCESS", "FAILURE", "REVOKED"]

/-- What `before_task_publish` sends. -/
structure PublishSignal where
  sender : Option String
  headers : Option PyDict
  body : PyValue

/-- What the handlers read of a task instance: its name, and the headers and arguments of its request. -/
structure Task where
  name : Option String
  headers : PyValue
  args : PyValue

/-- Extract the task id or the task name from a publish payload: the headers first, then the body. -/
def publishedText (key : String) (headers : Option PyDict) (body : PyValue) : Option String :=
  match headers.bind fun h => (h.get key).asStr with
  | some candidate => some candidate
  | none => body.asMapping.bind fun b => (b.get key).asStr

def publishedTaskId (headers : Option PyDict) (body : PyValue) : Option String := publishedText "id" headers body

def publishedTaskName (headers : Option PyDict) (body : PyValue) : Option String := publishedText "task" headers body

/-- Extract task args from a publish payload. -/
def publishedArgs : PyValue → List PyValue
  | .sequence (first :: _) => first.asSequence.getD []
  | .mapping items => (PyDict.get items "args").asSequence.getD []
  | _ => []

/-- Custom request headers of a task, when present. -/
def taskRequestHeaders (task : Task) : Option PyDict := task.headers.asMapping

/-- Request args of a task, when present. -/
def taskRequestArgs (task : Task) : List PyValue := task.args.asSequence.getD []

/-- A string value when the candidate is a non-empty string. -/
def stringOrNone : PyValue → Option String
  | .str s => if s = "" then none else some s
  | _ => none

/-- What Python takes for digits: the test of `str.isdigit`, and what `int` makes of such a text. It refuses some, such
as `'²'`. -/
structure Digits where
  isDigit : String → Bool
  toInt : String → Except Exc Int

/-- The digits of Latin-1: `isdigit` accepts the superscripts, `int` does not. -/
def Digits.latin1 : Digits where
  isDigit s := s ≠ "" && s.toList.all fun c => c.isDigit || c ∈ ['¹', '²', '³']
  toInt s :=
    if s.length ≤ maxIntDigits && s.toList.all Char.isDigit then
      .ok (s.toList.foldl (fun n c => 10 * n + (c.toNat - 48)) 0 : Nat)
    else .error ⟨.valueError, "invalid literal for int() with base 10"⟩

section Context

variable (digits : Digits)

/-- Convert a task resource id candidate to an integer when possible. -/
def coerceResourceId : PyValue → Except Exc (Option Int)
  | .int n => .ok (some n)
  | .str s => if digits.isDigit s then (digits.toInt s).map some else .ok none
  | _ => .ok none

/-- The resource type of the headers, or else that of the task. -/
def contextResourceType (taskName : String) (headers : Option PyDict) : Option String :=
  match headers.bind fun h => stringOrNone (h.get resourceTypeHeader) with
  | some resourceType => some resourceType
  | none => taskResourceType taskName

/-- The resource id of the headers. -/
def headerResourceId (headers : Option PyDict) : Except Exc (Option Int) :=
  match headers with
  | some h => coerceResourceId digits (h.get resourceIdHeader)
  | none => .ok none

/-- The resource id of the headers, or else the first argument of a task about a resource. -/
def contextResourceId (resourceType : Option String) (headers : Option PyDict) (args : List PyValue) :
    Except Exc (Option Int) :=
  headerResourceId digits headers >>= fun resourceId =>
    match resourceId, resourceType, args with
    | none, some _, first :: _ => coerceResourceId digits first
    | resourceId, _, _ => .ok resourceId

/-- Resolve tracked resource metadata from headers first, then task args. -/
def resolveResourceContext (taskName : String) (headers : Option PyDict) (args : List PyValue) :
    Except Exc (Option String × Option Int) :=
  let resourceType := contextResourceType taskName headers
  (contextResourceId digits resourceType headers args).map fun resourceId => (resourceType, resourceId)

end Context

/-! ## The handlers -/

/-- The arguments of `_create_execution_if_missing`, and those of `_mutate_execution` besides the mutation. -/
structure TrackedCall where
  taskId : String
  taskName : String
  resourceType : Option String
  resourceId : Option Int
  queuedAt : Time

/-- A call of `_mutate_execution`. -/
structure Mutation extends TrackedCall where
  mutate : TaskExecution → TaskExecution

/-- The row as it is first created. -/
def TrackedCall.newExecution (c : TrackedCall) : TaskExecution where
  taskId := c.taskId
  taskName := c.taskName
  status := "PENDING"
  resourceType := c.resourceType
  resourceId := c.resourceId
  queuedAt := c.queuedAt
  startedAt := none
  finishedAt := none
  durationSeconds := none
  result := none
  error := none

/-- `value or other`, for an optional string. -/
def orOther (value other : Option String) : Option String :=
  match value with
  | some v => if v = "" then other else some v
  | none => other

/-- Keep the resource of a row, or set it. -/
def TaskExecution.linked (e : TaskExecution) (resourceType : Option String) (resourceId : Option Int) : TaskExecution :=
  { e with resourceType := orOther e.resourceType resourceType, resourceId := e.resourceId.or resourceId }

/-- Compute a non-negative duration. -/
def durationSeconds (startedAt finishedAt : Time) : ℚ := max 0 ((finishedAt - startedAt : Int) / 1000000)

section Handlers

variable (U : Unicode) (digits : Digits)

/-- The name of a published task: `sender or _published_task_name(headers, body)`. -/
def PublishSignal.taskName (signal : PublishSignal) : Option String :=
  match signal.sender with
  | some sender => if sender = "" then publishedTaskName signal.headers signal.body else some sender
  | none => publishedTaskName signal.headers signal.body

/-- Persist a pending execution row when Celery publishes a tracked task. -/
def recordTaskPublish (signal : PublishSignal) (now : Time) : Except Exc (Option TrackedCall) :=
  match publishedTaskId signal.headers signal.body, signal.taskName with
  | some taskId, some taskName => do
    let context ← resolveResourceContext digits taskName signal.headers (publishedArgs signal.body)
    return some ⟨taskId, taskName, context.1, context.2, now⟩
  | _, _ => .ok none

/-- The call a worker handler makes, unless the id or the name of the task is missing. -/
def trackedMutation (taskId : Option String) (task : Task) (args : List PyValue) (now : Time)
    (mutate : Option String → Option Int → TaskExecution → TaskExecution) : Except Exc (Option Mutation) :=
  match taskId, task.name with
  | some taskId, some taskName => do
    let context ← resolveResourceContext digits taskName (taskRequestHeaders task) args
    return some ⟨⟨taskId, taskName, context.1, context.2, now⟩, mutate context.1 context.2⟩
  | _, _ => .ok none

/-- Mark a tracked task execution as started just before task runtime. -/
def recordTaskStart (taskId : Option String) (task : Task) (args : List PyValue) (now : Time) :
    Except Exc (Option Mutation) :=
  trackedMutation digits taskId task args now fun resourceType resourceId execution =>
    { execution.linked resourceType resourceId with
      status := "STARTED"
      startedAt := some now
      finishedAt := none
      durationSeconds := none
      result := none
      error := none }

/-- The post-run task state, duration, and result payload. -/
def finishExecution (state : String) (retval : PyValue) (now : Time) (execution : TaskExecution) : TaskExecution :=
  let execution := { execution with status := state }
  let execution :=
    if state ∈ terminalTaskStates then
      { execution with
        finishedAt := some now
        durationSeconds := match execution.startedAt with
          | some startedAt => some (durationSeconds startedAt now)
          | none => execution.durationSeconds }
    else execution
  if state = "SUCCESS" then { execution with result := sanitizeTaskResult retval, error := none } else execution

/-- Persist the terminal or post-run state emitted by Celery. -/
def recordTaskFinish (taskId : Option String) (task : Task) (state : Option String) (retval : PyValue) (now : Time) :
    Except Exc (Option Mutation) :=
  match state with
  | none => .ok none
  | some state =>
    trackedMutation digits taskId task (taskRequestArgs task) now fun resourceType resourceId execution =>
      finishExecution state retval now (execution.linked resourceType resourceId)

/-- Capture task failures and persist the rendered error message. -/
def recordTaskFailure (taskId : Option String) (exception : Option ErrorValue) (sender : Task) (args : List PyValue)
    (now : Time) : Except Exc (Option Mutation) :=
  trackedMutation digits taskId sender args now fun resourceType resourceId execution =>
    { execution.linked resourceType resourceId with status := "FAILURE", error := stringifyError U exception }

/-- Persist retry state changes emitted by Celery tasks. -/
def recordTaskRetry (requestId : Option String) (requestArgs : List PyValue) (reason : Option ErrorValue)
    (sender : Task) (now : Time) : Except Exc (Option Mutation) :=
  trackedMutation digits requestId sender requestArgs now fun resourceType resourceId execution =>
    { execution.linked resourceType resourceId with status := "RETRY", error := stringifyError U reason }

end Handlers

/-! ## The table -/

namespace TaskHistory

/-- The query for one task id. -/
def find (h : TaskHistory) (taskId : String) : List CeleryTaskExecution :=
  selectWhere (fun r => Cond.eq (some r.taskId) (some taskId)) h.executions

/-- Insert a row and commit: it must fit its columns, and the task id is unique. -/
def insert (h : TaskHistory) (e : TaskExecution) : Except Exc TaskHistory :=
  if ¬ e.Fits then .error ⟨.dataError, "a value does not fit its column"⟩
  else if e.taskId ∈ h.executions.map (·.taskId) then
    .error ⟨.integrityError, "duplicate key value violates unique constraint"⟩
  else .ok ⟨h.executions ++ [⟨e, h.nextId⟩], h.nextId + 1⟩

/-- Write a loaded row back and commit; the columns that are not written fit already. -/
def update (h : TaskHistory) (row : CeleryTaskExecution) : Except Exc TaskHistory :=
  if ¬ row.toTaskExecution.Fits then .error ⟨.dataError, "a value does not fit its column"⟩
  else .ok { h with executions := h.executions.map fun r => if r.id = row.id then row else r }

end TaskHistory

/-- Insert the tracked task row when it does not exist yet. -/
def createExecutionIfMissing (h : TaskHistory) (c : TrackedCall) : Except Exc TaskHistory :=
  match oneOrNone (h.find c.taskId) with
  | .error e => .error e
  | .ok (some _) => .ok h
  | .ok none =>
    match h.insert c.newExecution with
    | .ok h' => .ok h'
    | .error e => if e.kind = .integrityError then .ok h else .error e

/-- The mutation of a loaded row. -/
def Mutation.applyTo (m : Mutation) (row : CeleryTaskExecution) : CeleryTaskExecution :=
  { row with toTaskExecution := m.mutate row.toTaskExecution }

/-- Load or create a tracked task execution, mutate it, and commit it. -/
def mutateExecution (h : TaskHistory) (m : Mutation) : Except Exc TaskHistory :=
  match oneOrNone (h.find m.taskId) with
  | .error e => .error e
  | .ok (some row) => h.update (m.applyTo row)
  | .ok none =>
    match h.insert (m.mutate m.newExecution) with
    | .ok h' => .ok h'
    | .error e =>
      if e.kind = .integrityError then
        match oneOrNone (h.find m.taskId) with
        | .error e => .error e
        | .ok (some row) => h.update (m.applyTo row)
        | .ok none => .error ⟨.other "NoResultFound", "No row was found when one was required"⟩
      else .error e

/-! ## Signals -/

/-- A signal with the time at which its handler runs. -/
inductive Signal
  | publish (signal : PublishSignal) (now : Time)
  | start (taskId : Option String) (task : Task) (args : List PyValue) (now : Time)
  | finish (taskId : Option String) (task : Task) (state : Option String) (retval : PyValue) (now : Time)
  | failure (taskId : Option String) (exception : Option ErrorValue) (sender : Task) (args : List PyValue) (now : Time)
  | retry (requestId : Option String) (requestArgs : List PyValue) (reason : Option ErrorValue) (sender : Task)
    (now : Time)

/-- The task of a worker signal, unless its id or its name is missing. -/
def trackedTask (taskId : Option String) (task : Task) : Option String := task.name.bind fun _ => taskId

/-- The task whose row the handler of a signal works on. -/
def Signal.task : Signal → Option String
  | .publish signal _ => signal.taskName.bind fun _ => publishedTaskId signal.headers signal.body
  | .start taskId task _ _ => trackedTask taskId task
  | .finish taskId task state _ _ => state.bind fun _ => trackedTask taskId task
  | .failure taskId _ sender _ _ => trackedTask taskId sender
  | .retry requestId _ _ sender _ => trackedTask requestId sender

/-- What a handler does with the table. -/
inductive Effect
  | nothing
  | create (c : TrackedCall)
  | change (m : Mutation)

/-- The effect of a publish handler. -/
def Effect.ofCall : Option TrackedCall → Effect
  | some c => .create c
  | none => .nothing

/-- The effect of a worker handler. -/
def Effect.ofMutation : Option Mutation → Effect
  | some m => .change m
  | none => .nothing

/-- Run what a handler does with the table. -/
def Effect.run (h : TaskHistory) : Effect → Except Exc TaskHistory
  | .nothing => .ok h
  | .create c => createExecutionIfMissing h c
  | .change m => mutateExecution h m

section Signals

variable (U : Unicode) (digits : Digits)

/-- The effect of the handler of a signal. -/
def Signal.effect : Signal → Except Exc Effect
  | .publish signal now => (recordTaskPublish digits signal now).map .ofCall
  | .start taskId task args now => (recordTaskStart digits taskId task args now).map .ofMutation
  | .finish taskId task state retval now => (recordTaskFinish digits taskId task state retval now).map .ofMutation
  | .failure taskId exception sender args now =>
    (recordTaskFailure U digits taskId exception sender args now).map .ofMutation
  | .retry requestId requestArgs reason sender now =>
    (recordTaskRetry U digits requestId requestArgs reason sender now).map .ofMutation

/-- Run the handler of a signal. -/
def handle (h : TaskHistory) (signal : Signal) : Except Exc TaskHistory :=
  signal.effect U digits >>= fun effect => effect.run h

/-- The table after the handler of a signal: Celery logs what the handler raises. -/
def afterSignal (h : TaskHistory) (signal : Signal) : TaskHistory :=
  match handle U digits h signal with
  | .ok h' => h'
  | .error _ => h

/-- Run the handlers of signals one after the other. -/
def runSignals (h : TaskHistory) (signals : List Signal) : TaskHistory := signals.foldl (afterSignal U digits) h

end Signals

/-! ## One row for each task -/

/-- What the columns, the primary key, the identity column and the unique task id guarantee of the table. -/
structure TaskHistory.Stored (h : TaskHistory) : Prop where
  fits : ∀ r ∈ h.executions, r.Fits
  keyed : (h.executions.map (·.id)).Nodup
  fresh : ∀ r ∈ h.executions, r.id < h.nextId
  unique : (h.executions.map (·.taskId)).Nodup

/-- The row of a task. -/
def TaskHistory.rowOf (h : TaskHistory) (taskId : String) : Option TaskExecution :=
  (h.executions.find? fun r => r.taskId = taskId).map (·.toTaskExecution)

/-- The task whose row an effect touches. -/
def Effect.target : Effect → Option String
  | .nothing => none
  | .create c => some c.taskId
  | .change m => some m.taskId

/-- What an effect does to the row of its task: a row that does not fit is not written. -/
def Effect.onRow : Effect → Option TaskExecution → Option TaskExecution
  | .nothing, row => row
  | .create _, some e => some e
  | .create c, none => if c.newExecution.Fits then some c.newExecution else none
  | .change m, row =>
    if (m.mutate (row.getD m.newExecution)).Fits then some (m.mutate (row.getD m.newExecution)) else row

/-- The mutations leave the task id alone. -/
def Effect.KeepsTask (effect : Effect) : Prop :=
  ∀ m, effect = .change m → ∀ e, (m.mutate e).taskId = e.taskId

section Table

variable {h : TaskHistory}

theorem find_row (hs : h.Stored) (taskId : String) :
    oneOrNone (h.find taskId) = .ok (h.executions.find? fun r => r.taskId = taskId) :=
  oneOrNone_eq hs.unique taskId

theorem rowOf_none_iff {taskId : String} : h.rowOf taskId = none ↔ ∀ r ∈ h.executions, r.taskId ≠ taskId := by
  simp [TaskHistory.rowOf]

/-- A stored row is the only row of its task. -/
theorem rows_of_task (hs : h.Stored) {taskId : String} {e : TaskExecution} (he : h.rowOf taskId = some e) :
    ∃ r, h.executions.filter (fun r => r.taskId = taskId) = [r] ∧ r.toTaskExecution = e := by
  obtain ⟨r, hr, rfl⟩ := Option.map_eq_some_iff.mp he
  have hid : r.taskId = taskId := by simpa using List.find?_some hr
  refine ⟨r, ?_, rfl⟩
  rw [← hid]
  exact Table.filter_key hs.unique (List.mem_of_find?_eq_some hr)

/-- A row that does not fit is refused. -/
theorem insert_misfit (h : TaskHistory) {e : TaskExecution} (hfits : ¬ e.Fits) :
    h.insert e = .error ⟨.dataError, "a value does not fit its column"⟩ := if_pos hfits

theorem update_misfit (h : TaskHistory) {row : CeleryTaskExecution} (hfits : ¬ row.Fits) :
    h.update row = .error ⟨.dataError, "a value does not fit its column"⟩ := if_pos hfits

theorem insert_row (hs : h.Stored) {e : TaskExecution} (hfits : e.Fits) (hnew : h.rowOf e.taskId = none) :
    ∃ h', h.insert e = .ok h' ∧ h'.Stored ∧ ∀ taskId, h'.rowOf taskId =
      if e.taskId = taskId then some e else h.rowOf taskId := by
  have hnot : e.taskId ∉ h.executions.map (·.taskId) := by
    intro hmem
    obtain ⟨r, hr, hid⟩ := List.mem_map.mp hmem
    exact rowOf_none_iff.mp hnew r hr hid
  refine ⟨_, by rw [TaskHistory.insert, if_neg (not_not.mpr hfits), if_neg hnot], ?_, fun taskId => ?_⟩
  · constructor
    case fits =>
      intro r hr
      rcases List.mem_append.mp hr with hr | hr
      · exact hs.fits r hr
      · cases List.mem_singleton.mp hr
        exact hfits
    case keyed =>
      rw [List.map_append, List.map_singleton]
      refine List.Nodup.append hs.keyed (List.nodup_singleton _) (List.disjoint_singleton.mpr fun hmem => ?_)
      obtain ⟨r, hr, hid⟩ := List.mem_map.mp hmem
      exact absurd (hs.fresh r hr) (by simp [hid])
    case fresh =>
      intro r hr
      rcases List.mem_append.mp hr with hr | hr
      · exact Nat.lt_succ_of_lt (hs.fresh r hr)
      · cases List.mem_singleton.mp hr
        exact Nat.lt_succ_self _
    case unique =>
      rw [List.map_append, List.map_singleton]
      exact List.Nodup.append hs.unique (List.nodup_singleton _) (List.disjoint_singleton.mpr hnot)
  · rw [TaskHistory.rowOf, List.find?_append]
    by_cases hid : e.taskId = taskId
    · have hnone : (h.executions.find? fun r => decide (r.taskId = taskId)) = none := by
        rw [← hid]
        simpa [TaskHistory.rowOf] using hnew
      simp [hnone, hid]
    · simp [hid, TaskHistory.rowOf]

/-- Writing a row back changes the row of its task and no other. -/
theorem update_row (hs : h.Stored) {r : CeleryTaskExecution} (hr : r ∈ h.executions) {e : TaskExecution}
    (hfits : e.Fits) (he : e.taskId = r.taskId) : ∃ h', h.update { r with toTaskExecution := e } = .ok h' ∧ h'.Stored ∧
      ∀ taskId, h'.rowOf taskId = if r.taskId = taskId then some e else h.rowOf taskId := by
  have hid : ∀ s : CeleryTaskExecution, (if s.id = r.id then { r with toTaskExecution := e } else s).id = s.id := by
    intro s
    split_ifs with h
    · exact h.symm
    · rfl
  have htask : ∀ s ∈ h.executions,
      (if s.id = r.id then { r with toTaskExecution := e } else s).taskId = s.taskId := by
    intro s hmem
    split_ifs with h
    · rw [List.inj_on_of_nodup_map hs.keyed hmem hr h]
      exact he
    · rfl
  refine ⟨_, if_neg (not_not.mpr hfits), ?_, ?_⟩
  · constructor
    case fits =>
      intro s hmem
      obtain ⟨s', hmem', rfl⟩ := List.mem_map.mp hmem
      split_ifs
      · exact hfits
      · exact hs.fits s' hmem'
    case keyed =>
      simpa only [List.map_map, Function.comp_def, hid] using hs.keyed
    case fresh =>
      intro s hmem
      obtain ⟨s', hmem', rfl⟩ := List.mem_map.mp hmem
      rw [hid]
      exact hs.fresh s' hmem'
    case unique =>
      rw [List.map_map]
      exact (List.map_congr_left htask) ▸ hs.unique
  · intro taskId
    have hfind : ∀ l : List CeleryTaskExecution, (∀ s ∈ l, s ∈ h.executions) →
        ((l.map fun s => if s.id = r.id then { r with toTaskExecution := e } else s).find? fun s =>
          decide (s.taskId = taskId)) = (l.find? fun s => decide (s.taskId = taskId)).map fun s =>
            if s.id = r.id then { r with toTaskExecution := e } else s := by
      intro l hl
      rw [List.find?_map]
      congr 1
      refine List.find?_congr fun s hmem => ?_
      rw [Function.comp_apply, htask s (hl s hmem)]
    rw [TaskHistory.rowOf, hfind _ fun _ hmem => hmem]
    cases hs' : h.executions.find? fun s => decide (s.taskId = taskId) with
    | none =>
      have hne : r.taskId ≠ taskId := by simpa using List.find?_eq_none.mp hs' r hr
      simp [TaskHistory.rowOf, hs', hne]
    | some s =>
      have hmem := List.mem_of_find?_eq_some hs'
      have hst : s.taskId = taskId := by simpa using List.find?_some hs'
      by_cases hrt : r.taskId = taskId
      · have hrs : s = r := List.inj_on_of_nodup_map hs.unique hmem hr (hst.trans hrt.symm)
        simp [hrs, hrt]
      · have hne : s.id ≠ r.id := fun h => hrt (by rw [← List.inj_on_of_nodup_map hs.keyed hmem hr h, hst])
        simp [TaskHistory.rowOf, hs', hrt, hne]

/-- What a handler does to the rows: the row of its task changes, the others stay. -/
def RowsAfter (h : TaskHistory) (effect : Effect) (h' : TaskHistory) : Prop :=
  ∀ taskId, h'.rowOf taskId = if effect.target = some taskId then effect.onRow (h.rowOf taskId) else h.rowOf taskId

/-- The table after something that was tried. -/
def TaskHistory.settled (h : TaskHistory) : Except Exc TaskHistory → TaskHistory
  | .ok h' => h'
  | .error _ => h

theorem RowsAfter.of_eq {effect : Effect} {h' : TaskHistory} {task : String} {row : Option TaskExecution}
    (ht : effect.target = some task) (he : effect.onRow (h.rowOf task) = row)
    (hrows : ∀ taskId, h'.rowOf taskId = if task = taskId then row else h.rowOf taskId) : RowsAfter h effect h' := by
  intro taskId
  rw [hrows, ht]
  by_cases heq : task = taskId
  · rw [if_pos heq, if_pos (congrArg some heq), ← heq, he]
  · rw [if_neg heq, if_neg fun h => heq (Option.some.inj h)]

/-- A table that stays as it is. -/
theorem RowsAfter.refl {effect : Effect} {task : String} (ht : effect.target = some task)
    (he : effect.onRow (h.rowOf task) = h.rowOf task) : RowsAfter h effect h := by
  refine .of_eq ht he fun taskId => ?_
  split_ifs with heq
  · rw [heq]
  · rfl

theorem create_rows (hs : h.Stored) (c : TrackedCall) : (h.settled (createExecutionIfMissing h c)).Stored ∧
    RowsAfter h (.create c) (h.settled (createExecutionIfMissing h c)) := by
  unfold createExecutionIfMissing
  rw [find_row hs]
  cases hrow : h.rowOf c.taskId with
  | some e =>
    obtain ⟨r, hfind, rfl⟩ := Option.map_eq_some_iff.mp hrow
    rw [hfind]
    refine ⟨hs, .refl rfl ?_⟩
    rw [hrow]
    rfl
  | none =>
    rw [Option.map_eq_none_iff.mp hrow]
    by_cases hfits : c.newExecution.Fits
    · obtain ⟨h', hinsert, hs', hrows⟩ := insert_row (e := c.newExecution) hs hfits hrow
      simp only [hinsert]
      refine ⟨hs', .of_eq rfl ?_ hrows⟩
      rw [hrow]
      exact if_pos hfits
    · rw [insert_misfit h hfits]
      refine ⟨hs, .refl rfl ?_⟩
      rw [hrow]
      exact if_neg hfits

theorem mutate_rows (hs : h.Stored) {m : Mutation} (hm : (Effect.change m).KeepsTask) :
    (h.settled (mutateExecution h m)).Stored ∧ RowsAfter h (.change m) (h.settled (mutateExecution h m)) := by
  unfold mutateExecution
  rw [find_row hs]
  have htask : ∀ e, (m.mutate e).taskId = e.taskId := hm m rfl
  cases hrow : h.rowOf m.taskId with
  | some e =>
    obtain ⟨r, hfind, rfl⟩ := Option.map_eq_some_iff.mp hrow
    have hid : r.taskId = m.taskId := by simpa using List.find?_some hfind
    rw [hfind]
    by_cases hfits : (m.mutate r.toTaskExecution).Fits
    · obtain ⟨h', hupdate, hs', hrows⟩ :=
        update_row hs (List.mem_of_find?_eq_some hfind) hfits (htask r.toTaskExecution)
      simp only [Mutation.applyTo, hupdate]
      refine ⟨hs', .of_eq rfl ?_ (hid ▸ hrows)⟩
      rw [hrow]
      exact if_pos hfits
    · have hmisfit : h.update (m.applyTo r) = .error ⟨.dataError, "a value does not fit its column"⟩ :=
        update_misfit h hfits
      simp only [hmisfit]
      refine ⟨hs, .refl rfl ?_⟩
      rw [hrow]
      exact if_neg hfits
  | none =>
    rw [Option.map_eq_none_iff.mp hrow]
    by_cases hfits : (m.mutate m.newExecution).Fits
    · obtain ⟨h', hinsert, hs', hrows⟩ :=
        insert_row (e := m.mutate m.newExecution) hs hfits ((htask _).symm ▸ hrow)
      simp only [hinsert]
      rw [htask] at hrows
      refine ⟨hs', .of_eq rfl ?_ hrows⟩
      rw [hrow]
      exact if_pos hfits
    · rw [insert_misfit h hfits]
      refine ⟨hs, .refl rfl ?_⟩
      rw [hrow]
      exact if_neg hfits

/-- A handler changes the row of its own task only, and leaves a stored table. -/
theorem run_rows (hs : h.Stored) {effect : Effect} (hkeep : effect.KeepsTask) :
    (h.settled (effect.run h)).Stored ∧ RowsAfter h effect (h.settled (effect.run h)) := by
  cases effect with
  | nothing => exact ⟨hs, fun _ => (if_neg (by simp [Effect.target])).symm⟩
  | create c => exact create_rows hs c
  | change m => exact mutate_rows hs hkeep

end Table

/-! ## The history of a task -/

section History

variable {U : Unicode} {digits : Digits}

theorem finishExecution_taskId (state : String) (retval : PyValue) (now : Time) (e : TaskExecution) :
    (finishExecution state retval now e).taskId = e.taskId := by
  unfold finishExecution
  split_ifs <;> rfl

/-- A tracked mutation is the mutation of the handler at the resolved resource. -/
theorem trackedMutation_cases {taskId : Option String} {task : Task} {args : List PyValue} {now : Time}
    {mutate : Option String → Option Int → TaskExecution → TaskExecution} {m : Mutation}
    (h : trackedMutation digits taskId task args now mutate = .ok (some m)) : ∃ taskName,
      taskId = some m.taskId ∧ task.name = some taskName ∧ m.taskName = taskName ∧ m.queuedAt = now ∧
      resolveResourceContext digits taskName (taskRequestHeaders task) args = .ok (m.resourceType, m.resourceId) ∧
      m.mutate = mutate m.resourceType m.resourceId := by
  unfold trackedMutation at h
  cases taskId with
  | none => cases h
  | some taskId =>
    cases hname : task.name with
    | none =>
      rw [hname] at h
      cases h
    | some taskName =>
      simp only [hname] at h
      obtain ⟨context, hcontext, hm⟩ := bind_ok_iff.mp h
      cases hm
      exact ⟨taskName, rfl, rfl, rfl, rfl, hcontext, rfl⟩

/-- A handler that makes no call has no task. -/
theorem trackedMutation_none {taskId : Option String} {task : Task} {args : List PyValue} {now : Time}
    {mutate : Option String → Option Int → TaskExecution → TaskExecution}
    (h : trackedMutation digits taskId task args now mutate = .ok none) : trackedTask taskId task = none := by
  unfold trackedMutation at h
  unfold trackedTask
  cases taskId with
  | none => cases task.name <;> rfl
  | some taskId =>
    cases hname : task.name with
    | none => rfl
    | some taskName =>
      simp only [hname] at h
      obtain ⟨context, -, hm⟩ := bind_ok_iff.mp h
      cases hm

/-- A tracked publish is at the resolved resource. -/
theorem recordTaskPublish_cases {p : PublishSignal} {now : Time} {c : TrackedCall}
    (h : recordTaskPublish digits p now = .ok (some c)) : publishedTaskId p.headers p.body = some c.taskId ∧
      p.taskName = some c.taskName ∧ c.queuedAt = now ∧
      resolveResourceContext digits c.taskName p.headers (publishedArgs p.body) =
        .ok (c.resourceType, c.resourceId) := by
  unfold recordTaskPublish at h
  cases hid : publishedTaskId p.headers p.body with
  | none =>
    rw [hid] at h
    cases h
  | some taskId =>
    cases hname : p.taskName with
    | none =>
      rw [hid, hname] at h
      cases h
    | some taskName =>
      simp only [hid, hname] at h
      obtain ⟨context, hcontext, hc⟩ := bind_ok_iff.mp h
      cases hc
      exact ⟨rfl, rfl, rfl, hcontext⟩

/-- The publish of a task that is not tracked. -/
theorem recordTaskPublish_none {p : PublishSignal} {now : Time} (h : recordTaskPublish digits p now = .ok none) :
    (p.taskName.bind fun _ => publishedTaskId p.headers p.body) = none := by
  unfold recordTaskPublish at h
  cases hid : publishedTaskId p.headers p.body with
  | none => cases p.taskName <;> rfl
  | some taskId =>
    cases hname : p.taskName with
    | none => rfl
    | some taskName =>
      simp only [hid, hname] at h
      obtain ⟨context, -, hc⟩ := bind_ok_iff.mp h
      cases hc

theorem keepsTask_nothing : Effect.nothing.KeepsTask := by
  rintro m ⟨⟩

theorem keepsTask_create (c : TrackedCall) : (Effect.create c).KeepsTask := by
  rintro m ⟨⟩

/-- What an effect of a worker handler is made of. -/
theorem effect_ofMutation {x : Except Exc (Option Mutation)} {effect : Effect}
    (h : x.map Effect.ofMutation = .ok effect) :
    x = .ok none ∧ effect = .nothing ∨ ∃ m, x = .ok (some m) ∧ effect = .change m := by
  cases x with
  | error e => cases h
  | ok m =>
    cases h
    cases m with
    | none => exact .inl ⟨rfl, rfl⟩
    | some m => exact .inr ⟨m, rfl, rfl⟩

/-- What an effect of a publish handler is made of. -/
theorem effect_ofCall {x : Except Exc (Option TrackedCall)} {effect : Effect} (h : x.map Effect.ofCall = .ok effect) :
    x = .ok none ∧ effect = .nothing ∨ ∃ c, x = .ok (some c) ∧ effect = .create c := by
  cases x with
  | error e => cases h
  | ok c =>
    cases h
    cases c with
    | none => exact .inl ⟨rfl, rfl⟩
    | some c => exact .inr ⟨c, rfl, rfl⟩

theorem effect_finish (U : Unicode) (taskId : Option String) (task : Task) (state : String) (retval : PyValue)
    (now : Time) : (Signal.finish taskId task (some state) retval now).effect U digits =
      (trackedMutation digits taskId task (taskRequestArgs task) now fun resourceType resourceId e =>
        finishExecution state retval now (e.linked resourceType resourceId)).map .ofMutation := rfl

/-- What the effect of a tracked handler is about, when its mutations leave the task id alone. -/
theorem tracked_effect {taskId : Option String} {task : Task} {args : List PyValue} {now : Time}
    {mutate : Option String → Option Int → TaskExecution → TaskExecution}
    (hmutate : ∀ resourceType resourceId e, (mutate resourceType resourceId e).taskId = e.taskId) {effect : Effect}
    (h : (trackedMutation digits taskId task args now mutate).map Effect.ofMutation = .ok effect) :
    effect.KeepsTask ∧ effect.target = trackedTask taskId task := by
  obtain ⟨hnone, rfl⟩ | ⟨m, hm, rfl⟩ := effect_ofMutation h
  · exact ⟨keepsTask_nothing, (trackedMutation_none hnone).symm⟩
  · obtain ⟨_, rfl, hname, -, -, -, heq⟩ := trackedMutation_cases hm
    refine ⟨fun m' hm' e => ?_, ?_⟩
    · cases hm'
      rw [heq]
      exact hmutate _ _ e
    · rw [trackedTask, hname]
      rfl

/-- The effect of a signal is about the task of the signal, and leaves the task id alone. -/
theorem signal_effect {s : Signal} {effect : Effect} (h : s.effect U digits = .ok effect) :
    effect.KeepsTask ∧ effect.target = s.task := by
  cases s with
  | publish p now =>
    obtain ⟨hnone, rfl⟩ | ⟨c, hc, rfl⟩ := effect_ofCall h
    · exact ⟨keepsTask_nothing, (recordTaskPublish_none hnone).symm⟩
    · obtain ⟨hid, hname, -, -⟩ := recordTaskPublish_cases hc
      refine ⟨keepsTask_create c, ?_⟩
      rw [Signal.task, hname]
      exact hid.symm
  | start taskId task args now =>
    refine tracked_effect ?_ h
    exact fun _ _ _ => rfl
  | finish taskId task state retval now =>
    cases state with
    | none =>
      cases h
      exact ⟨keepsTask_nothing, rfl⟩
    | some state =>
      rw [effect_finish] at h
      refine tracked_effect ?_ h
      exact fun _ _ _ => finishExecution_taskId _ _ _ _
  | failure taskId exception sender args now =>
    refine tracked_effect ?_ h
    exact fun _ _ _ => rfl
  | retry requestId requestArgs reason sender now =>
    refine tracked_effect ?_ h
    exact fun _ _ _ => rfl

/-- What a signal does to the row of its task. -/
def Signal.onRow (U : Unicode) (digits : Digits) (s : Signal) (row : Option TaskExecution) : Option TaskExecution :=
  match s.effect U digits with
  | .ok effect => effect.onRow row
  | .error _ => row

/-- A signal changes the row of its own task only, whether its handler raises or not. -/
theorem signal_rows (U : Unicode) (digits : Digits) {h : TaskHistory} (hs : h.Stored) (s : Signal) :
    (afterSignal U digits h s).Stored ∧ ∀ taskId, (afterSignal U digits h s).rowOf taskId =
      if s.task = some taskId then s.onRow U digits (h.rowOf taskId) else h.rowOf taskId := by
  have hafter : afterSignal U digits h s = h.settled (handle U digits h s) := by
    unfold afterSignal
    cases handle U digits h s <;> rfl
  simp only [hafter, handle, Signal.onRow]
  cases heffect : s.effect U digits with
  | error e => exact ⟨hs, fun _ => (ite_self _).symm⟩
  | ok effect =>
    obtain ⟨hkeep, htarget⟩ := signal_effect heffect
    rw [← htarget]
    exact run_rows hs hkeep

/-- The signals of a task. -/
def signalsOf (taskId : String) (signals : List Signal) : List Signal := signals.filter fun s => s.task = some taskId

/-- What a list of signals does to the row of their task. -/
def rowAfter (U : Unicode) (digits : Digits) (row : Option TaskExecution) (signals : List Signal) :
    Option TaskExecution := signals.foldl (fun row s => s.onRow U digits row) row

/-- The row of a task depends on the signals of the task alone. -/
theorem run_row (U : Unicode) (digits : Digits) {h : TaskHistory} (hs : h.Stored) (signals : List Signal) :
    (runSignals U digits h signals).Stored ∧ ∀ taskId, (runSignals U digits h signals).rowOf taskId =
      rowAfter U digits (h.rowOf taskId) (signalsOf taskId signals) := by
  induction signals generalizing h with
  | nil => exact ⟨hs, fun _ => rfl⟩
  | cons s signals ih =>
    obtain ⟨hs₁, hrow₁⟩ := signal_rows U digits hs s
    obtain ⟨hs', hrow⟩ := ih hs₁
    refine ⟨hs', fun taskId => ?_⟩
    rw [runSignals, List.foldl_cons]
    refine (hrow taskId).trans ?_
    rw [hrow₁, signalsOf, signalsOf, rowAfter, rowAfter, List.filter_cons]
    by_cases htask : s.task = some taskId
    · rw [if_pos htask, if_pos (decide_eq_true htask), List.foldl_cons]
    · rw [if_neg htask, if_neg (by simpa using htask)]

end History

/-! ## Signals that can be recorded -/

/-- The id, the name and the resource that a signal carries fit their columns, and its resource id can be read. -/
structure Identified (digits : Digits) (id name : Option String) (headers : Option PyDict) (args : List PyValue) :
    Prop where
  taskId : ∀ i ∈ id, FitsVarchar 255 i
  taskName : ∀ n ∈ name, FitsVarchar 255 n
  resource : ∀ n ∈ name, ∃ context, resolveResourceContext digits n headers args = .ok context ∧
    (∀ t ∈ context.1, FitsVarchar 64 t) ∧ ∀ i ∈ context.2, FitsInteger i

/-- A signal whose values the columns of its row can hold: what identifies the task, the state it reports, and every
leaf of a return value that is left when it is sanitized. -/
def Signal.Recordable (digits : Digits) : Signal → Prop
  | .publish p _ => Identified digits (publishedTaskId p.headers p.body) p.taskName p.headers (publishedArgs p.body)
  | .start taskId task args _ => Identified digits taskId task.name (taskRequestHeaders task) args
  | .finish taskId task state retval _ =>
    Identified digits taskId task.name (taskRequestHeaders task) (taskRequestArgs task) ∧
      (∀ s ∈ state, FitsVarchar 32 s) ∧ (state = some "SUCCESS" → ∀ w, Kept w retval → w.Plain)
  | .failure taskId _ sender args _ => Identified digits taskId sender.name (taskRequestHeaders sender) args
  | .retry requestId requestArgs _ sender _ =>
    Identified digits requestId sender.name (taskRequestHeaders sender) requestArgs

theorem Identified.of_context {digits : Digits} {taskId taskName : String} {headers : Option PyDict}
    {args : List PyValue} {context : Option String × Option Int} (hid : FitsVarchar 255 taskId)
    (hname : FitsVarchar 255 taskName) (hcontext : resolveResourceContext digits taskName headers args = .ok context)
    (htype : ∀ t ∈ context.1, FitsVarchar 64 t) (hresource : ∀ i ∈ context.2, FitsInteger i) :
    Identified digits (some taskId) (some taskName) headers args := by
  constructor
  case taskId =>
    rintro _ ⟨⟩
    exact hid
  case taskName =>
    rintro _ ⟨⟩
    exact hname
  case resource =>
    rintro _ ⟨⟩
    exact ⟨context, hcontext, htype, hresource⟩

/-- The rows that an effect writes fit. -/
def Effect.Fitting : Effect → Prop
  | .nothing => True
  | .create c => c.newExecution.Fits
  | .change m => m.newExecution.Fits ∧ ∀ e : TaskExecution, e.Fits → (m.mutate e).Fits

/-- A resolved context has the type that the headers or the task give. -/
theorem resolveResourceContext_type {digits : Digits} {taskName : String} {headers : Option PyDict}
    {args : List PyValue} {context : Option String × Option Int}
    (h : resolveResourceContext digits taskName headers args = .ok context) :
    context.1 = contextResourceType taskName headers := by
  unfold resolveResourceContext at h
  dsimp only at h
  cases hid : contextResourceId digits (contextResourceType taskName headers) headers args with
  | error e =>
    rw [hid] at h
    cases h
  | ok resourceId =>
    rw [hid] at h
    cases h
    rfl

section Recordable

variable {U : Unicode} {digits : Digits}

theorem TaskExecution.Fits.linked {e : TaskExecution} (h : e.Fits) {resourceType : Option String}
    {resourceId : Option Int} (ht : ∀ t ∈ resourceType, FitsVarchar 64 t) (hi : ∀ i ∈ resourceId, FitsInteger i) :
    (e.linked resourceType resourceId).Fits := by
  refine { h with resourceType := fun t hmem => ?_, resourceId := fun i hmem => ?_ }
  · unfold TaskExecution.linked orOther at hmem
    cases htype : e.resourceType with
    | none =>
      rw [htype] at hmem
      exact ht t hmem
    | some v =>
      simp only [htype] at hmem
      split_ifs at hmem
      · exact ht t hmem
      · exact h.resourceType t (htype ▸ hmem)
  · unfold TaskExecution.linked at hmem
    cases hid : e.resourceId with
    | none =>
      rw [hid] at hmem
      exact hi i hmem
    | some n =>
      rw [hid] at hmem
      exact h.resourceId i (hid ▸ hmem)

/-- The states that the handlers set themselves fit. -/
theorem handlerStates_fit : ∀ s ∈ ["PENDING", "STARTED", "FAILURE", "RETRY"], FitsVarchar 32 s := by decide

/-- A public code fits. -/
theorem stringifyError_fits (x : Option ErrorValue) : ∀ m ∈ stringifyError U x, FitsText m := by
  have hcodes : ∀ c ∈ publicCodes, FitsText c := by decide
  exact fun m hm => hcodes m (sanitize_mem hm)

theorem finishExecution_fits {state : String} (hstate : FitsVarchar 32 state) {retval : PyValue}
    (hretval : state = "SUCCESS" → ∀ w, Kept w retval → w.Plain) (now : Time) {e : TaskExecution} (h : e.Fits) :
    (finishExecution state retval now e).Fits := by
  unfold finishExecution
  split_ifs with hterminal hsuccess hsuccess
  · exact { h with
      status := hstate
      result := (jsonb_result_iff retval).mpr (hretval hsuccess)
      error := fun m hm => by cases hm }
  · exact { h with status := hstate }
  · exact { h with
      status := hstate
      result := (jsonb_result_iff retval).mpr (hretval hsuccess)
      error := fun m hm => by cases hm }
  · exact { h with status := hstate }

/-- A call about an identified task creates a row that fits. -/
theorem newExecution_fits {c : TrackedCall} (hid : FitsVarchar 255 c.taskId) (hname : FitsVarchar 255 c.taskName)
    (htype : ∀ t ∈ c.resourceType, FitsVarchar 64 t) (hresource : ∀ i ∈ c.resourceId, FitsInteger i) :
    c.newExecution.Fits where
  taskId := hid
  taskName := hname
  status := handlerStates_fit "PENDING" (by simp)
  resourceType := htype
  resourceId := hresource
  result := rfl
  error := fun m hm => by cases hm

theorem tracked_fitting {taskId : Option String} {task : Task} {args : List PyValue} {now : Time}
    {mutate : Option String → Option Int → TaskExecution → TaskExecution}
    (h : Identified digits taskId task.name (taskRequestHeaders task) args)
    (hmutate : ∀ resourceType resourceId, ∀ e : TaskExecution, (e.linked resourceType resourceId).Fits →
      (mutate resourceType resourceId e).Fits) :
    ∃ effect, (trackedMutation digits taskId task args now mutate).map Effect.ofMutation = .ok effect ∧
      effect.Fitting := by
  unfold trackedMutation
  cases taskId with
  | none => exact ⟨.nothing, rfl, trivial⟩
  | some taskId =>
    cases hname : task.name with
    | none => exact ⟨.nothing, rfl, trivial⟩
    | some taskName =>
      obtain ⟨context, hcontext, htype, hid⟩ := h.resource taskName hname
      simp only [hcontext]
      refine ⟨_, rfl, newExecution_fits (h.taskId taskId rfl) (h.taskName taskName hname) htype hid, fun e he => ?_⟩
      exact hmutate _ _ e (he.linked htype hid)

/-- The handler of a signal that can be recorded raises nothing, and writes rows that fit. -/
theorem recordable_effect (U : Unicode) {s : Signal} (h : s.Recordable digits) :
    ∃ effect, s.effect U digits = .ok effect ∧ effect.Fitting := by
  cases s with
  | publish p now =>
    have h : Identified digits (publishedTaskId p.headers p.body) p.taskName p.headers (publishedArgs p.body) := h
    simp only [Signal.effect, recordTaskPublish]
    cases hid : publishedTaskId p.headers p.body with
    | none => exact ⟨.nothing, rfl, trivial⟩
    | some taskId =>
      cases hname : p.taskName with
      | none => exact ⟨.nothing, rfl, trivial⟩
      | some taskName =>
        obtain ⟨context, hcontext, htype, hresource⟩ := h.resource taskName hname
        simp only [hcontext]
        exact ⟨_, rfl, newExecution_fits (h.taskId taskId hid) (h.taskName taskName hname) htype hresource⟩
  | start taskId task args now =>
    refine tracked_fitting h fun resourceType resourceId e he => ?_
    exact { he with
      status := handlerStates_fit "STARTED" (by simp)
      result := rfl
      error := fun m hm => by cases hm }
  | finish taskId task state retval now =>
    obtain ⟨hid, hstate, hretval⟩ := h
    cases state with
    | none => exact ⟨.nothing, rfl, trivial⟩
    | some state =>
      rw [effect_finish]
      refine tracked_fitting hid fun resourceType resourceId e he => ?_
      exact finishExecution_fits (hstate state rfl) (fun hs => hretval (congrArg some hs)) now he
  | failure taskId exception sender args now =>
    refine tracked_fitting h fun resourceType resourceId e he => ?_
    exact { he with
      status := handlerStates_fit "FAILURE" (by simp)
      error := stringifyError_fits exception }
  | retry requestId requestArgs reason sender now =>
    refine tracked_fitting h fun resourceType resourceId e he => ?_
    exact { he with
      status := handlerStates_fit "RETRY" (by simp)
      error := stringifyError_fits reason }

end Recordable

end Washing
