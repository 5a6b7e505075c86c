import Washing.Lib.Schedule
import Washing.Queue.Lifecycle

/-!
# Late publish records

The publish handler and the handlers of the worker that executes the task are in different processes, each with its own
transactions. Both may find no row and insert one; the unique task id lets one insert through, and the other handler
gives up (`_create_execution_if_missing`) or reads the row and applies its mutation to it (`_mutate_execution`). Only a
conflict is handled: whatever else a handler meets, it raises. `Racing` is the invariant of all interleavings in which
the signals can be recorded: as soon as the row exists, it is what the committed mutations make of a pending row, up to
the time of queueing.
-/

namespace Washing

/-! ## Steps -/

/-- How far the publish handler is. -/
inductive PublishPhase
  | idle
  | missing
  | finished
  | failed (e : Exc)

/-- How far the current handler of the worker is. -/
inductive HandlerPhase
  | idle
  | loaded (row : Option CeleryTaskExecution)
  | conflicted

/-- The table, the two processes, the worker mutations that are committed, what worker handlers raised, and the calls of
the handlers to come; a handler whose resource id cannot be read raises at once. -/
structure TrackingState where
  history : TaskHistory
  publisher : PublishPhase
  worker : HandlerPhase
  committed : List Mutation
  raised : List Exc
  pending : List (Except Exc Mutation)

inductive TrackingActor
  | publisher
  | worker
  deriving DecidableEq, Repr

/-- The next step of the publish handler: it reads the resource and makes the query of `_create_execution_if_missing`,
or it inserts and commits. -/
def stepPublisher (call : Except Exc (Option TrackedCall)) (s : TrackingState) : Option TrackingState :=
  match s.publisher, call with
  | .idle, .error e => some { s with publisher := .failed e }
  | .idle, .ok none => some { s with publisher := .finished }
  | .idle, .ok (some c) =>
    match oneOrNone (s.history.find c.taskId) with
    | .error e => some { s with publisher := .failed e }
    | .ok (some _) => some { s with publisher := .finished }
    | .ok none => some { s with publisher := .missing }
  | .missing, .ok (some c) =>
    match s.history.insert c.newExecution with
    | .ok history => some { s with history, publisher := .finished }
    | .error e => some { s with publisher := if e.kind = .integrityError then .finished else .failed e }
  | _, _ => none

/-- The worker commits a mutation and goes on to its next handler. -/
def TrackingState.commit (s : TrackingState) (history : TaskHistory) (m : Mutation)
    (rest : List (Except Exc Mutation)) : TrackingState :=
  { s with history, worker := .idle, committed := s.committed ++ [m], pending := rest }

/-- A handler raises, and the worker goes on to its next handler. -/
def TrackingState.fail (s : TrackingState) (e : Exc) (rest : List (Except Exc Mutation)) : TrackingState :=
  { s with worker := .idle, raised := s.raised ++ [e], pending := rest }

/-- The next step of `_mutate_execution` for the current mutation: the query, the write with its commit, or after a
conflict and a rollback the second query. -/
def stepWorker (s : TrackingState) : Option TrackingState :=
  match s.pending with
  | [] => none
  | .error e :: rest => some (s.fail e rest)
  | .ok m :: rest =>
    match s.worker with
    | .idle =>
      match oneOrNone (s.history.find m.taskId) with
      | .error e => some (s.fail e rest)
      | .ok row => some { s with worker := .loaded row }
    | .loaded (some row) =>
      match s.history.update (m.applyTo row) with
      | .ok history => some (s.commit history m rest)
      | .error e => some (s.fail e rest)
    | .loaded none =>
      match s.history.insert (m.mutate m.newExecution) with
      | .ok history => some (s.commit history m rest)
      | .error e => if e.kind = .integrityError then some { s with worker := .conflicted } else some (s.fail e rest)
    | .conflicted =>
      match oneOrNone (s.history.find m.taskId) with
      | .error e => some (s.fail e rest)
      | .ok (some row) => some { s with worker := .loaded (some row) }
      | .ok none => some (s.fail ⟨.other "NoResultFound", "No row was found when one was required"⟩ rest)

def stepTracking (call : Except Exc (Option TrackedCall)) (s : TrackingState) : TrackingActor → Option TrackingState
  | .publisher => stepPublisher call s
  | .worker => stepWorker s

/-- Before the first step. -/
def TrackingState.start (h : TaskHistory) (calls : List (Except Exc Mutation)) : TrackingState :=
  ⟨h, .idle, .idle, [], [], calls⟩

/-! ## One message -/

/-- What a task message carries. -/
structure TaskMessage where
  id : String
  name : String
  headers : Option PyDict
  args : List PyValue

/-- A header of a message. -/
def headerOf (headers : Option PyDict) (key : String) : PyValue := (headers.map fun h => h.get key).getD .none

/-- The publish signal of a message. -/
structure PublishSignal.Announces (p : PublishSignal) (message : TaskMessage) : Prop where
  id : publishedTaskId p.headers p.body = some message.id
  name : p.taskName = some message.name
  resourceType : headerOf p.headers resourceTypeHeader = headerOf message.headers resourceTypeHeader
  resourceId : headerOf p.headers resourceIdHeader = headerOf message.headers resourceIdHeader
  args : publishedArgs p.body = message.args

/-- The request of a task is the message. -/
structure Task.Executes (task : Task) (message : TaskMessage) : Prop where
  name : task.name = some message.name
  headers : taskRequestHeaders task = message.headers
  args : taskRequestArgs task = message.args

/-- The signal comes from the worker that executes a message. The post-run state is never the pending one. -/
def Signal.Executes (message : TaskMessage) : Signal → Prop
  | .publish _ _ => False
  | .start taskId task args _ => taskId = some message.id ∧ task.Executes message ∧ args = message.args
  | .finish taskId task state _ _ => taskId = some message.id ∧ task.Executes message ∧ state ≠ some "PENDING"
  | .failure taskId _ sender args _ => taskId = some message.id ∧ sender.Executes message ∧ args = message.args
  | .retry requestId requestArgs _ sender _ =>
    requestId = some message.id ∧ sender.Executes message ∧ requestArgs = message.args

/-- The call of `_mutate_execution` that the handler of a signal makes, or what it raises before. -/
def Signal.call (U : Unicode) (digits : Digits) (s : Signal) : Option (Except Exc Mutation) :=
  match s.effect U digits with
  | .error e => some (.error e)
  | .ok (.change m) => some (.ok m)
  | .ok _ => none

/-- The calls of the handlers of a worker. -/
def workerCalls (U : Unicode) (digits : Digits) (signals : List Signal) : List (Except Exc Mutation) :=
  signals.filterMap (Signal.call U digits)

/-- A mutation for the row of a call: it creates the same row, it neither reads nor sets the time of queueing and the
task id, it sets another state than the pending one, and it leaves a row that fits. -/
structure Mutation.Follows (m : Mutation) (c : TrackedCall) : Prop where
  created : m.newExecution = { c.newExecution with queuedAt := m.queuedAt }
  queued : ∀ e q, m.mutate { e with queuedAt := q } = { m.mutate e with queuedAt := q }
  task : ∀ e, (m.mutate e).taskId = e.taskId
  status : ∀ e, (m.mutate e).status ≠ "PENDING"
  fits : ∀ e : TaskExecution, e.Fits → (m.mutate e).Fits

section Message

variable {U : Unicode} {digits : Digits} {message : TaskMessage}

/-- The resource depends on two headers only. -/
theorem resolveResourceContext_congr {headers headers' : Option PyDict}
    (ht : headerOf headers resourceTypeHeader = headerOf headers' resourceTypeHeader)
    (hi : headerOf headers resourceIdHeader = headerOf headers' resourceIdHeader) (taskName : String)
    (args : List PyValue) : resolveResourceContext digits taskName headers args =
      resolveResourceContext digits taskName headers' args := by
  have htype : ∀ headers : Option PyDict, (headers.bind fun h => stringOrNone (h.get resourceTypeHeader)) =
      stringOrNone (headerOf headers resourceTypeHeader) := fun headers => by cases headers <;> rfl
  have hid : ∀ headers : Option PyDict, headerResourceId digits headers =
      coerceResourceId digits (headerOf headers resourceIdHeader) := fun headers => by cases headers <;> rfl
  have hcontext : contextResourceType taskName headers = contextResourceType taskName headers' := by
    rw [contextResourceType, contextResourceType, htype, htype, ht]
  rw [resolveResourceContext, resolveResourceContext, contextResourceId, contextResourceId, hid, hid, hi, hcontext]

/-- The publish handler of a message that can be recorded makes a call. -/
theorem announces_call {p : PublishSignal} (hp : p.Announces message) {now : Time}
    (hrecordable : (Signal.publish p now).Recordable digits) :
    ∃ c, recordTaskPublish digits p now = .ok (some c) ∧ c.taskId = message.id ∧ c.newExecution.Fits := by
  obtain ⟨effect, heffect, hfitting⟩ := recordable_effect .ascii hrecordable
  obtain ⟨hnone, -⟩ | ⟨c, hc, rfl⟩ := effect_ofCall heffect
  · have htask := recordTaskPublish_none hnone
    rw [hp.name, hp.id] at htask
    cases htask
  · have hid := (recordTaskPublish_cases hc).1
    rw [hp.id] at hid
    exact ⟨c, hc, (Option.some.inj hid).symm, hfitting⟩

/-- What a worker handler does to the columns that no mutation may touch, and to the state. -/
structure Unqueued (mutate : Option String → Option Int → TaskExecution → TaskExecution) : Prop where
  queued : ∀ rt ri e q, mutate rt ri { e with queuedAt := q } = { mutate rt ri e with queuedAt := q }
  task : ∀ rt ri e, (mutate rt ri e).taskId = e.taskId
  status : ∀ rt ri e, (mutate rt ri e).status ≠ "PENDING"

theorem tracked_follows {p : PublishSignal} (hp : p.Announces message) {now : Time} {c : TrackedCall}
    (hc : recordTaskPublish digits p now = .ok (some c)) {i : Option String} {task : Task} {args : List PyValue}
    {t : Time} {mutate : Option String → Option Int → TaskExecution → TaskExecution} (hmutate : Unqueued mutate)
    {m : Mutation} (hm : trackedMutation digits i task args t mutate = .ok (some m)) (hi : i = some message.id)
    (htask : task.Executes message) (hargs : args = message.args)
    (hfits : ∀ e : TaskExecution, e.Fits → (m.mutate e).Fits) : m.Follows c := by
  obtain ⟨taskName, hid, hname, hmname, -, hcontext, hmutateEq⟩ := trackedMutation_cases hm
  obtain ⟨hcid, hcname, -, hccontext⟩ := recordTaskPublish_cases hc
  have hsameId : m.taskId = c.taskId := by
    rw [hi, ← hp.id, hcid] at hid
    exact (Option.some.inj hid).symm
  have hsameName : taskName = c.taskName := by
    rw [htask.name, ← hp.name, hcname] at hname
    exact (Option.some.inj hname).symm
  have hsameContext : (Except.ok (m.resourceType, m.resourceId) : Except Exc _) =
      .ok (c.resourceType, c.resourceId) := by
    rw [← hcontext, ← hccontext, hsameName, hargs, ← hp.args, htask.headers]
    exact resolveResourceContext_congr hp.resourceType.symm hp.resourceId.symm _ _
  obtain ⟨htype, hresource⟩ := Prod.mk.inj (Except.ok.inj hsameContext)
  constructor
  case created => simp only [TrackedCall.newExecution, hsameId, hmname, hsameName, htype, hresource]
  case queued =>
    rw [hmutateEq]
    exact hmutate.queued _ _
  case task =>
    rw [hmutateEq]
    exact hmutate.task _ _
  case status =>
    rw [hmutateEq]
    exact hmutate.status _ _
  case fits => exact hfits

theorem finishExecution_queued (state : String) (retval : PyValue) (now q : Time) (e : TaskExecution) :
    finishExecution state retval now { e with queuedAt := q } =
      { finishExecution state retval now e with queuedAt := q } := by
  unfold finishExecution
  split_ifs <;> rfl

theorem finishExecution_status (state : String) (retval : PyValue) (now : Time) (e : TaskExecution) :
    (finishExecution state retval now e).status = state := by
  unfold finishExecution
  split_ifs <;> rfl

/-- The handler of a worker signal that can be recorded does nothing, or makes a mutation that follows the publish of
the same message. -/
theorem signal_follows {p : PublishSignal} (hp : p.Announces message) {now : Time} {c : TrackedCall}
    (hc : recordTaskPublish digits p now = .ok (some c)) {s : Signal} (hs : s.Executes message)
    (hrecordable : s.Recordable digits) :
    s.effect U digits = .ok .nothing ∨ ∃ m, s.effect U digits = .ok (.change m) ∧ m.Follows c := by
  obtain ⟨effect, heffect, hfitting⟩ := recordable_effect U hrecordable
  rw [heffect]
  cases s with
  | publish p now => exact hs.elim
  | start taskId task args t =>
    obtain ⟨-, rfl⟩ | ⟨m, hm, rfl⟩ := effect_ofMutation heffect
    · exact .inl rfl
    · refine .inr ⟨m, rfl, tracked_follows hp hc ?_ hm hs.1 hs.2.1 hs.2.2 hfitting.2⟩
      exact ⟨fun _ _ _ _ => rfl, fun _ _ _ => rfl, fun _ _ _ => by simp⟩
  | finish taskId task state retval t =>
    cases state with
    | none =>
      cases heffect
      exact .inl rfl
    | some state =>
      rw [effect_finish] at heffect
      obtain ⟨-, rfl⟩ | ⟨m, hm, rfl⟩ := effect_ofMutation heffect
      · exact .inl rfl
      · have hstate : state ≠ "PENDING" := fun h => hs.2.2 (congrArg some h)
        refine .inr ⟨m, rfl, tracked_follows hp hc ?_ hm hs.1 hs.2.1 hs.2.1.args hfitting.2⟩
        constructor
        case queued => exact fun rt ri e q => finishExecution_queued state retval t q (e.linked rt ri)
        case task => exact fun rt ri e => finishExecution_taskId state retval t (e.linked rt ri)
        case status =>
          intro rt ri e
          rw [finishExecution_status]
          exact hstate
  | failure taskId exception sender args t =>
    obtain ⟨-, rfl⟩ | ⟨m, hm, rfl⟩ := effect_ofMutation heffect
    · exact .inl rfl
    · refine .inr ⟨m, rfl, tracked_follows hp hc ?_ hm hs.1 hs.2.1 hs.2.2 hfitting.2⟩
      exact ⟨fun _ _ _ _ => rfl, fun _ _ _ => rfl, fun _ _ _ => by simp⟩
  | retry requestId requestArgs reason sender t =>
    obtain ⟨-, rfl⟩ | ⟨m, hm, rfl⟩ := effect_ofMutation heffect
    · exact .inl rfl
    · refine .inr ⟨m, rfl, tracked_follows hp hc ?_ hm hs.1 hs.2.1 hs.2.2 hfitting.2⟩
      exact ⟨fun _ _ _ _ => rfl, fun _ _ _ => rfl, fun _ _ _ => by simp⟩

end Message

/-! ## The row -/

/-- The table with a row for a new task. -/
def TaskHistory.withRow (h : TaskHistory) (e : TaskExecution) : TaskHistory :=
  ⟨h.executions ++ [⟨e, h.nextId⟩], h.nextId + 1⟩

/-- A row after mutations. -/
def mutated (e : TaskExecution) (mutations : List Mutation) : TaskExecution :=
  mutations.foldl (fun e m => m.mutate e) e

section Row

variable {h : TaskHistory} {c : TrackedCall} {e : TaskExecution}

/-- The task has no row yet. -/
def TaskHistory.Lacks (h : TaskHistory) (taskId : String) : Prop := ∀ r ∈ h.executions, r.taskId ≠ taskId

theorem filter_lacks {taskId : String} (hnew : h.Lacks taskId) :
    h.executions.filter (fun r => r.taskId = taskId) = [] :=
  List.filter_eq_nil_iff.mpr fun r hr => by simpa using hnew r hr

theorem filter_withRow {taskId : String} (hnew : h.Lacks taskId) (he : e.taskId = taskId) :
    (h.withRow e).executions.filter (fun r => r.taskId = taskId) = [⟨e, h.nextId⟩] := by
  rw [TaskHistory.withRow, List.filter_append, filter_lacks hnew]
  simp [he]

theorem find_eq_filter (h : TaskHistory) (taskId : String) :
    h.find taskId = h.executions.filter fun r => r.taskId = taskId := by
  unfold TaskHistory.find selectWhere
  refine List.filter_congr fun r _ => ?_
  rw [Bool.eq_iff_iff]
  simp

theorem find_lacks {taskId : String} (hnew : h.Lacks taskId) : oneOrNone (h.find taskId) = .ok none := by
  rw [find_eq_filter, filter_lacks hnew]
  rfl

theorem find_withRow {taskId : String} (hnew : h.Lacks taskId) (he : e.taskId = taskId) :
    oneOrNone ((h.withRow e).find taskId) = .ok (some ⟨e, h.nextId⟩) := by
  rw [find_eq_filter, filter_withRow hnew he]
  rfl

theorem insert_lacks (hfits : e.Fits) (hnew : h.Lacks e.taskId) : h.insert e = .ok (h.withRow e) := by
  rw [TaskHistory.insert, if_neg (not_not.mpr hfits)]
  refine if_neg fun hmem => ?_
  obtain ⟨r, hr, hid⟩ := List.mem_map.mp hmem
  exact hnew r hr hid

/-- Another row for the same task is refused. -/
theorem insert_withRow (h : TaskHistory) {e e' : TaskExecution} (hfits : e'.Fits) (he : e'.taskId = e.taskId) :
    (h.withRow e).insert e' = .error ⟨.integrityError, "duplicate key value violates unique constraint"⟩ := by
  rw [TaskHistory.insert, if_neg (not_not.mpr hfits)]
  refine if_pos ?_
  rw [he, TaskHistory.withRow]
  simp

theorem update_withRow (hfresh : ∀ r ∈ h.executions, r.id < h.nextId) (e : TaskExecution) {e' : TaskExecution}
    (hfits : e'.Fits) : (h.withRow e).update ⟨e', h.nextId⟩ = .ok (h.withRow e') := by
  have hold : h.executions.map (fun r => if r.id = h.nextId then (⟨e', h.nextId⟩ : CeleryTaskExecution) else r) =
      h.executions := by
    refine (List.map_congr_left fun r hr => ?_).trans (List.map_id _)
    exact if_neg (hfresh r hr).ne
  rw [TaskHistory.update, if_neg (not_not.mpr hfits)]
  simp only [TaskHistory.withRow, List.map_append, hold, List.map_singleton, if_true]

/-- The publish handler, run first and alone. -/
theorem create_alone (hfits : c.newExecution.Fits) (hnew : h.Lacks c.taskId) :
    createExecutionIfMissing h c = .ok (h.withRow c.newExecution) := by
  unfold createExecutionIfMissing
  rw [find_lacks hnew]
  simp only [insert_lacks hfits hnew]

/-- A worker handler, run alone on the row. -/
theorem mutate_alone (hfresh : ∀ r ∈ h.executions, r.id < h.nextId) {m : Mutation} (hnew : h.Lacks m.taskId)
    (he : e.taskId = m.taskId) (hfits : (m.mutate e).Fits) :
    mutateExecution (h.withRow e) m = .ok (h.withRow (m.mutate e)) := by
  unfold mutateExecution
  rw [find_withRow hnew he]
  exact update_withRow hfresh e hfits

end Row

/-! ## Every interleaving -/

section Race

variable {h : TaskHistory} {c : TrackedCall}

/-- The invariant: before the row exists, nothing is committed; after that it is what the committed mutations make of
the pending row, and a handler that has read it has read it as it is. No handler has raised anything. -/
inductive Racing (h : TaskHistory) (c : TrackedCall) (all : List Mutation) : TrackingState → Prop
  | missing (publisher : PublishPhase) (worker : HandlerPhase) (hp : publisher = .idle ∨ publisher = .missing)
    (hw : worker = .idle ∨ worker = .loaded none) : Racing h c all ⟨h, publisher, worker, [], [], all.map .ok⟩
  | present (publisher : PublishPhase) (worker : HandlerPhase) (committed pending : List Mutation) (queuedAt : Time)
    (hp : publisher = .idle ∨ publisher = .missing ∨ publisher = .finished)
    (hw : worker = .idle ∨
      worker = .loaded (some ⟨{ mutated c.newExecution committed with queuedAt := queuedAt }, h.nextId⟩) ∨
      (worker = .loaded none ∨ worker = .conflicted) ∧ committed = [])
    (hall : committed ++ pending = all) :
    Racing h c all ⟨h.withRow { mutated c.newExecution committed with queuedAt := queuedAt },
      publisher, worker, committed, [], pending.map .ok⟩

/-- The hypotheses of a race: a table without a row of the task, a new row that fits, and worker mutations that follow
the publish. -/
structure RaceStart (h : TaskHistory) (c : TrackedCall) (all : List Mutation) : Prop where
  fresh : ∀ r ∈ h.executions, r.id < h.nextId
  lacks : h.Lacks c.taskId
  fits : c.newExecution.Fits
  follows : ∀ m ∈ all, m.Follows c

variable {all : List Mutation}

theorem Mutation.Follows.taskId {m : Mutation} (hm : m.Follows c) : m.taskId = c.taskId :=
  congrArg TaskExecution.taskId hm.created

theorem mutated_taskId {mutations : List Mutation} (hm : ∀ m ∈ mutations, m.Follows c) (e : TaskExecution) :
    (mutated e mutations).taskId = e.taskId := by
  induction mutations generalizing e with
  | nil => rfl
  | cons m mutations ih =>
    have hrest := ih (fun m hmem => hm m (List.mem_cons_of_mem _ hmem)) (m.mutate e)
    exact hrest.trans ((hm m List.mem_cons_self).task e)

theorem mutated_append (e : TaskExecution) (mutations : List Mutation) (m : Mutation) :
    mutated e (mutations ++ [m]) = m.mutate (mutated e mutations) := by
  rw [mutated, List.foldl_append]
  rfl

/-- The time of queueing always fits. -/
theorem TaskExecution.Fits.requeued {e : TaskExecution} (h : e.Fits) (queuedAt : Time) :
    ({ e with queuedAt := queuedAt } : TaskExecution).Fits := { h with }

theorem mutated_fits {mutations : List Mutation} (hm : ∀ m ∈ mutations, m.Follows c) {e : TaskExecution}
    (he : e.Fits) : (mutated e mutations).Fits := by
  induction mutations generalizing e with
  | nil => exact he
  | cons m mutations ih =>
    exact ih (fun m hmem => hm m (List.mem_cons_of_mem _ hmem)) ((hm m List.mem_cons_self).fits e he)

/-- The row that a following mutation creates fits. -/
theorem Mutation.Follows.created_fits {m : Mutation} (hm : m.Follows c) (hfits : c.newExecution.Fits) :
    (m.mutate m.newExecution).Fits := by
  refine hm.fits _ ?_
  rw [hm.created]
  exact hfits.requeued _

theorem Racing.stepPublisher (hr : RaceStart h c all) {s s' : TrackingState} (hs : Racing h c all s)
    (hstep : stepPublisher (.ok (some c)) s = some s') : Racing h c all s' := by
  cases hs with
  | missing publisher worker hp hw =>
    rcases hp with rfl | rfl
    · simp only [Washing.stepPublisher, find_lacks hr.lacks] at hstep
      cases hstep
      exact .missing _ _ (.inr rfl) hw
    · have hinsert : h.insert c.newExecution = .ok (h.withRow c.newExecution) := insert_lacks hr.fits hr.lacks
      simp only [Washing.stepPublisher, hinsert] at hstep
      cases hstep
      refine .present _ worker [] all c.queuedAt (.inr (.inr rfl)) ?_ rfl
      rcases hw with rfl | rfl
      · exact .inl rfl
      · exact .inr (.inr ⟨.inl rfl, rfl⟩)
  | present publisher worker committed pending queuedAt hp hw hall =>
    have hdone : ∀ m ∈ committed, m.Follows c := fun m hm => hr.follows m (hall ▸ List.mem_append_left _ hm)
    have htask : ({ mutated c.newExecution committed with queuedAt := queuedAt } : TaskExecution).taskId = c.taskId :=
      mutated_taskId hdone c.newExecution
    rcases hp with rfl | rfl | rfl
    · simp only [Washing.stepPublisher, find_withRow hr.lacks htask] at hstep
      cases hstep
      exact .present _ worker committed pending queuedAt (.inr (.inr rfl)) hw hall
    · have hx := insert_withRow h hr.fits htask.symm
      simp only [Washing.stepPublisher, hx, if_true] at hstep
      cases hstep
      exact .present _ worker committed pending queuedAt (.inr (.inr rfl)) hw hall
    · cases hstep

theorem Racing.stepWorker (hr : RaceStart h c all) {s s' : TrackingState} (hs : Racing h c all s)
    (hstep : stepWorker s = some s') : Racing h c all s' := by
  cases hs with
  | missing publisher worker hp hw =>
    cases all with
    | nil => cases hstep
    | cons m rest =>
      have hm := hr.follows m List.mem_cons_self
      rcases hw with rfl | rfl
      · simp only [Washing.stepWorker, List.map_cons, hm.taskId, find_lacks hr.lacks] at hstep
        cases hstep
        exact .missing _ _ hp (.inr rfl)
      · have hrow : m.mutate m.newExecution = { m.mutate c.newExecution with queuedAt := m.queuedAt } := by
          rw [hm.created, hm.queued]
        have hlacks : h.Lacks (m.mutate m.newExecution).taskId := by
          rw [hm.task]
          show h.Lacks m.taskId
          rw [hm.taskId]
          exact hr.lacks
        have hinsert := insert_lacks (hm.created_fits hr.fits) hlacks
        rw [hrow] at hinsert
        simp only [Washing.stepWorker, List.map_cons, hrow, hinsert] at hstep
        cases hstep
        refine .present publisher .idle [m] rest m.queuedAt ?_ (.inl rfl) rfl
        exact hp.imp_right .inl
  | present publisher worker committed pending queuedAt hp hw hall =>
    cases pending with
    | nil => cases hstep
    | cons m rest =>
      have hm := hr.follows m (hall ▸ List.mem_append_right _ List.mem_cons_self)
      have hdone : ∀ m ∈ committed, m.Follows c := fun m hm => hr.follows m (hall ▸ List.mem_append_left _ hm)
      have htask : ({ mutated c.newExecution committed with queuedAt := queuedAt } : TaskExecution).taskId = c.taskId :=
        mutated_taskId hdone c.newExecution
      rcases hw with rfl | rfl | ⟨rfl | rfl, rfl⟩
      · simp only [Washing.stepWorker, List.map_cons, hm.taskId, find_withRow hr.lacks htask] at hstep
        cases hstep
        exact .present _ _ committed (m :: rest) queuedAt hp (.inr (.inl rfl)) hall
      · have hfits : (m.mutate { mutated c.newExecution committed with queuedAt := queuedAt }).Fits :=
          hm.fits _ ((mutated_fits hdone hr.fits).requeued queuedAt)
        have hupdate : (h.withRow { mutated c.newExecution committed with queuedAt := queuedAt }).update
            (m.applyTo ⟨{ mutated c.newExecution committed with queuedAt := queuedAt }, h.nextId⟩) =
            .ok (h.withRow { mutated c.newExecution (committed ++ [m]) with queuedAt := queuedAt }) := by
          rw [Mutation.applyTo, update_withRow hr.fresh _ hfits, hm.queued, mutated_append]
        simp only [Washing.stepWorker, List.map_cons, hupdate] at hstep
        cases hstep
        refine .present publisher .idle (committed ++ [m]) rest queuedAt hp (.inl rfl) ?_
        rw [List.append_assoc]
        exact hall
      · have hx : (h.withRow { mutated c.newExecution [] with queuedAt := queuedAt }).insert
            (m.mutate m.newExecution) = _ :=
          insert_withRow h (hm.created_fits hr.fits) ((hm.task _).trans hm.taskId)
        simp only [Washing.stepWorker, List.map_cons, hx, if_true] at hstep
        cases hstep
        exact .present _ _ [] (m :: rest) queuedAt hp (.inr (.inr ⟨.inr rfl, rfl⟩)) hall
      · simp only [Washing.stepWorker, List.map_cons, hm.taskId, find_withRow hr.lacks htask] at hstep
        cases hstep
        exact .present _ _ [] (m :: rest) queuedAt hp (.inr (.inl rfl)) hall

/-- Every reachable state of a race satisfies the invariant. -/
theorem racing (hr : RaceStart h c all) {schedule : List TrackingActor} {s : TrackingState}
    (hexec : exec (stepTracking (.ok (some c))) (.start h (all.map .ok)) schedule = some s) : Racing h c all s := by
  have hstep : ∀ s a s', Racing h c all s → True → stepTracking (.ok (some c)) s a = some s' → Racing h c all s' := by
    intro s a s' hs _ ha
    cases a with
    | publisher => exact hs.stepPublisher hr ha
    | worker => exact hs.stepWorker hr ha
  refine exec_invariant hstep (.missing _ _ (.inl rfl) (.inl rfl)) ?_ hexec
  exact allSteps_true _ _

end Race

/-! ## The publish handler first -/

section PublishFirst

variable {h : TaskHistory} {c : TrackedCall}

/-- The calls of a worker whose signals can be recorded are mutations that follow the publish, and the worker alone
makes them one after the other. -/
theorem worker_alone {U : Unicode} {digits : Digits} {message : TaskMessage} {p : PublishSignal}
    (hp : p.Announces message) {now : Time} (hc : recordTaskPublish digits p now = .ok (some c))
    (hfresh : ∀ r ∈ h.executions, r.id < h.nextId) (hlacks : h.Lacks c.taskId) {signals : List Signal}
    (hworker : ∀ s ∈ signals, s.Executes message) (hrecordable : ∀ s ∈ signals, s.Recordable digits) :
    ∃ all : List Mutation, workerCalls U digits signals = all.map .ok ∧ (∀ m ∈ all, m.Follows c) ∧
      ∀ e : TaskExecution, e.taskId = c.taskId → e.Fits →
        runSignals U digits (h.withRow e) signals = h.withRow (mutated e all) := by
  induction signals with
  | nil => exact ⟨[], rfl, fun _ hm => absurd hm List.not_mem_nil, fun _ _ _ => rfl⟩
  | cons s signals ih =>
    obtain ⟨all, hcalls, hfollows, hruns⟩ :=
      ih (fun s hs => hworker s (List.mem_cons_of_mem _ hs)) fun s hs => hrecordable s (List.mem_cons_of_mem _ hs)
    obtain heffect | ⟨m, heffect, hm⟩ :=
      signal_follows (U := U) hp hc (hworker s List.mem_cons_self) (hrecordable s List.mem_cons_self)
    · have hcall : s.call U digits = none := by rw [Signal.call, heffect]
      refine ⟨all, (List.filterMap_cons_none hcall).trans hcalls, hfollows, fun e he hfits => ?_⟩
      have hafter : afterSignal U digits (h.withRow e) s = h.withRow e := by
        rw [afterSignal, handle, heffect]
        rfl
      rw [runSignals, List.foldl_cons, hafter]
      exact hruns e he hfits
    · have hcall : s.call U digits = some (.ok m) := by rw [Signal.call, heffect]
      refine ⟨m :: all, ?_, List.forall_mem_cons.mpr ⟨hm, hfollows⟩, fun e he hfits => ?_⟩
      · rw [workerCalls, List.filterMap_cons_some hcall]
        exact congrArg _ hcalls
      · have hafter : afterSignal U digits (h.withRow e) s = h.withRow (m.mutate e) := by
          have hrun : (Effect.change m).run (h.withRow e) = .ok (h.withRow (m.mutate e)) :=
            mutate_alone hfresh (hm.taskId ▸ hlacks) (he.trans hm.taskId.symm) (hm.fits e hfits)
          rw [afterSignal, handle, heffect]
          simp only [bind, Except.bind, hrun]
        rw [runSignals, List.foldl_cons, hafter]
        exact hruns (m.mutate e) ((hm.task e).trans he) (hm.fits e hfits)

end PublishFirst

/-! ## The race -/

section Result

variable (U : Unicode) (digits : Digits)

/-- What holds whenever the publish handler and the worker have made some steps: no handler has ended with an error, no
committed mutation is lost, and the row is not pending once the worker has committed; at the end there is one row, the
one of the run in which the publish handler comes first, up to the time of queueing. -/
structure LatePublishHarmless (h : TaskHistory) (taskId : String) (publish : Signal) (signals : List Signal)
    (s : TrackingState) : Prop where
  noError : (∀ e, s.publisher ≠ .failed e) ∧ s.raised = []
  order : s.committed.map .ok ++ s.pending = workerCalls U digits signals
  kept : s.committed ≠ [] → ∃ row, s.history.executions.filter (fun r => r.taskId = taskId) = [row] ∧
    ∃ c, publish.effect U digits = .ok (.create c) ∧
      { mutated c.newExecution s.committed with queuedAt := row.queuedAt } = row.toTaskExecution
  notPending : s.committed ≠ [] → ∀ row ∈ s.history.executions, row.taskId = taskId → row.status ≠ "PENDING"
  final : s.publisher = .finished → s.pending = [] →
    ∃ row, s.history.executions.filter (fun r => r.taskId = taskId) = [row] ∧
      ∃ row', (runSignals U digits h (publish :: signals)).executions.filter (fun r => r.taskId = taskId) = [row'] ∧
        { row with queuedAt := row'.queuedAt } = row'

/-- In every interleaving of the publish handler with the handlers of the worker that executes the message, the publish
record does no harm, if their signals can be recorded. -/
theorem late_publish_harmless (h : TaskHistory) (hs : h.Stored) (message : TaskMessage) (hnew : h.Lacks message.id)
    (p : PublishSignal) (hp : p.Announces message) (now : Time) (signals : List Signal)
    (hw : ∀ s ∈ signals, s.Executes message) (hrecordable : ∀ s ∈ Signal.publish p now :: signals, s.Recordable digits)
    (schedule : List TrackingActor) (s : TrackingState)
    (hexec : exec (stepTracking (recordTaskPublish digits p now)) (.start h (workerCalls U digits signals)) schedule =
      some s) : LatePublishHarmless U digits h message.id (.publish p now) signals s := by
  obtain ⟨c, hc, htaskId, hfits⟩ := announces_call hp (hrecordable _ List.mem_cons_self)
  rw [← htaskId] at hnew ⊢
  obtain ⟨all, hcalls, hfollows, hruns⟩ :=
    worker_alone (U := U) hp hc hs.fresh hnew hw fun s hs => hrecordable s (List.mem_cons_of_mem _ hs)
  have heffect : (Signal.publish p now).effect U digits = .ok (.create c) := by
    rw [Signal.effect, hc]
    rfl
  rw [hc, hcalls] at hexec
  have hracing := racing ⟨hs.fresh, hnew, hfits, hfollows⟩ hexec
  cases hracing with
  | missing publisher worker hpub hwork =>
    constructor
    case noError =>
      refine ⟨?_, rfl⟩
      rintro e rfl
      rcases hpub with hpub | hpub <;> cases hpub
    case order => exact hcalls.symm
    case kept => exact fun hne => absurd rfl hne
    case notPending => exact fun hne => absurd rfl hne
    case final =>
      rintro rfl
      rcases hpub with hpub | hpub <;> cases hpub
  | present publisher worker committed pending queuedAt hpub hwork hall =>
    have hdone : ∀ m ∈ committed, m.Follows c := fun m hm => hfollows m (hall ▸ List.mem_append_left _ hm)
    have htask : ({ mutated c.newExecution committed with queuedAt := queuedAt } : TaskExecution).taskId = c.taskId :=
      mutated_taskId hdone c.newExecution
    have hrow := filter_withRow hnew htask
    constructor
    case noError =>
      refine ⟨?_, rfl⟩
      rintro e rfl
      rcases hpub with hpub | hpub | hpub <;> cases hpub
    case order => rw [hcalls, ← hall, List.map_append]
    case kept => exact fun _ => ⟨_, hrow, c, heffect, rfl⟩
    case notPending =>
      intro hne row hmem hid
      have hin : row ∈ (h.withRow { mutated c.newExecution committed with queuedAt := queuedAt }).executions.filter
          (fun r => r.taskId = c.taskId) := List.mem_filter.mpr ⟨hmem, decide_eq_true hid⟩
      rw [hrow, List.mem_singleton] at hin
      obtain ⟨first, m, rfl⟩ : ∃ first m, committed = first ++ [m] :=
        ⟨_, _, (List.dropLast_append_getLast hne).symm⟩
      rw [hin, mutated_append]
      exact (hdone m (by simp)).status _
    case final =>
      intro _ hpending
      cases List.map_eq_nil_iff.mp hpending
      rw [List.append_nil] at hall
      have hcreated : afterSignal U digits h (.publish p now) = h.withRow c.newExecution := by
        have hrun : (Effect.create c).run h = .ok (h.withRow c.newExecution) := create_alone hfits hnew
        rw [afterSignal, handle, heffect]
        simp only [bind, Except.bind, hrun]
      have hfirst : runSignals U digits h (.publish p now :: signals) = h.withRow (mutated c.newExecution all) := by
        rw [runSignals, List.foldl_cons, hcreated]
        exact hruns c.newExecution rfl hfits
      refine ⟨_, hrow, ⟨mutated c.newExecution all, h.nextId⟩, ?_, by rw [hall]⟩
      rw [hfirst]
      exact filter_withRow hnew (mutated_taskId hfollows c.newExecution)

end Result

/-- A provisioner run that starts before the record of its publish is inserted. -/
def runMessage : TaskMessage :=
  ⟨"t", "provisioners.run", some [(.str "x-resource-type", .str "provisioner"), (.str "x-resource-id", .int 12)],
    [.int 12]⟩

def messageTask : Task :=
  ⟨some "provisioners.run", .mapping [(.str "x-resource-type", .str "provisioner"), (.str "x-resource-id", .int 12)],
    .sequence [.int 12]⟩

/-- The handlers of the worker, for a return value. -/
def runHandlers (retval : PyValue) : List Signal :=
  [.start (some "t") messageTask [.int 12] 1, .finish (some "t") messageTask (some "SUCCESS") retval 2]

theorem runPublished_announces : runPublished.Announces runMessage := ⟨rfl, rfl, rfl, rfl, rfl⟩

theorem runHandlers_execute (retval : PyValue) : ∀ s ∈ runHandlers retval, s.Executes runMessage := by
  intro s hs
  simp only [runHandlers, List.mem_cons, List.not_mem_nil, or_false] at hs
  obtain rfl | rfl := hs
  · exact ⟨rfl, ⟨rfl, rfl, rfl⟩, rfl⟩
  · exact ⟨rfl, ⟨rfl, rfl, rfl⟩, by simp⟩

theorem late_publish_harmless_lateInsert : ∃ s,
    exec (stepTracking (recordTaskPublish .latin1 runPublished 0))
      (.start ⟨[], 1⟩ (workerCalls Unicode.ascii .latin1 (runHandlers .none)))
      [.publisher, .worker, .worker, .publisher, .worker, .worker] = some s ∧
    LatePublishHarmless Unicode.ascii .latin1 ⟨[], 1⟩ "t" (.publish runPublished 0) (runHandlers .none) s := by
  obtain ⟨s, hs⟩ : ∃ s, exec (stepTracking (recordTaskPublish .latin1 runPublished 0))
      (.start ⟨[], 1⟩ (workerCalls Unicode.ascii .latin1 (runHandlers .none)))
      [.publisher, .worker, .worker, .publisher, .worker, .worker] = some s := ⟨_, rfl⟩
  refine ⟨s, hs, late_publish_harmless Unicode.ascii .latin1 ⟨[], 1⟩ ⟨by simp, by simp, by simp, by simp⟩ runMessage
    (by simp [TaskHistory.Lacks]) runPublished runPublished_announces 0 _ (runHandlers_execute .none) ?_ _ s hs⟩
  have hpublish : Identified .latin1 (some "t") (some "provisioners.run") runPublished.headers [.int 12] :=
    identified_run rfl
  have hworker : Identified .latin1 (some "t") (some "provisioners.run") (taskRequestHeaders messageTask) [.int 12] :=
    identified_run rfl
  intro s hs
  simp only [runHandlers, List.mem_cons, List.not_mem_nil, or_false] at hs
  obtain rfl | rfl | rfl := hs
  · exact hpublish
  · exact hworker
  · exact ⟨hworker, by decide, fun _ => (jsonb_result_iff .none).mp rfl⟩

/-- The same run, published without headers and with an argument that `isdigit` accepts and `int` does not. -/
def squaredMessage : TaskMessage := ⟨"t", "provisioners.run", none, [.str "²"]⟩

def squaredPublish : PublishSignal :=
  ⟨some "provisioners.run", some [(.str "id", .str "t"), (.str "task", .str "provisioners.run")],
    .sequence [.sequence [.str "²"], .mapping [], .mapping []]⟩

def squaredHandlers : List Signal :=
  [.start (some "t") ⟨some "provisioners.run", .none, .sequence [.str "²"]⟩ [.str "²"] 1]

theorem squaredPublish_announces : squaredPublish.Announces squaredMessage := ⟨rfl, rfl, rfl, rfl, rfl⟩

theorem squaredHandlers_execute : ∀ s ∈ squaredHandlers, s.Executes squaredMessage := by
  intro s hs
  cases List.mem_singleton.mp hs
  exact ⟨rfl, ⟨rfl, rfl, rfl⟩, rfl⟩

/-- Handlers raise, and transitions are lost: when the resource id cannot be read, and when the column refuses the
result. -/
theorem handlers_raise :
    (squaredPublish.Announces squaredMessage ∧ (∀ s ∈ squaredHandlers, s.Executes squaredMessage) ∧
      ∃ s, exec (stepTracking (recordTaskPublish .latin1 squaredPublish 0))
        (.start ⟨[], 1⟩ (workerCalls Unicode.ascii .latin1 squaredHandlers)) [.publisher, .worker] = some s ∧
        s.history.executions.length = 0 ∧
        ¬ LatePublishHarmless Unicode.ascii .latin1 ⟨[], 1⟩ "t" (.publish squaredPublish 0) squaredHandlers s) ∧
    runPublished.Announces runMessage ∧
      (∀ s ∈ runHandlers (.mapping [(.str "total", .float "nan")]), s.Executes runMessage) ∧
      ∃ s, exec (stepTracking (recordTaskPublish .latin1 runPublished 0))
        (.start ⟨[], 1⟩ (workerCalls Unicode.ascii .latin1 (runHandlers (.mapping [(.str "total", .float "nan")]))))
        [.publisher, .publisher, .worker, .worker, .worker, .worker] = some s ∧
        s.history.executions.map (·.status) = ["STARTED"] ∧
        ¬ LatePublishHarmless Unicode.ascii .latin1 ⟨[], 1⟩ "t" (.publish runPublished 0)
          (runHandlers (.mapping [(.str "total", .float "nan")])) s := by
  have hsquared : (exec (stepTracking (recordTaskPublish .latin1 squaredPublish 0))
      (.start ⟨[], 1⟩ (workerCalls Unicode.ascii .latin1 squaredHandlers)) [.publisher, .worker]).map
        (fun s => (s.history.executions.length, s.raised.length)) = some (0, 1) := by decide +kernel
  obtain ⟨r, hr, heq⟩ := Option.map_eq_some_iff.mp hsquared
  obtain ⟨hrows, hlost⟩ := Prod.mk.inj heq
  have hrefused : (exec (stepTracking (recordTaskPublish .latin1 runPublished 0))
      (.start ⟨[], 1⟩ (workerCalls Unicode.ascii .latin1 (runHandlers (.mapping [(.str "total", .float "nan")]))))
      [.publisher, .publisher, .worker, .worker, .worker, .worker]).map
        (fun s => (s.history.executions.map (·.status), s.raised.length)) = some (["STARTED"], 1) := by decide +kernel
  obtain ⟨s, hs, heq⟩ := Option.map_eq_some_iff.mp hrefused
  obtain ⟨hstatus, hraised⟩ := Prod.mk.inj heq
  refine ⟨⟨squaredPublish_announces, squaredHandlers_execute, r, hr, hrows, fun h => ?_⟩, runPublished_announces,
    runHandlers_execute _, s, hs, hstatus, fun h => ?_⟩
  · rw [h.noError.2] at hlost
    cases hlost
  · rw [h.noError.2] at hraised
    cases hraised

end Washing
