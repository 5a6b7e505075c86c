import Washing.Queue.Tracking

/-!
# Attempts

The worker executes a task in attempts, each of which ends in success, failure or retry; the task may be published
again at any time. The start handler clears what an earlier attempt left, and the other handlers set what belongs to
the outcome, so that after an attempt the row describes this attempt alone (`attempt_row`), whatever came before
(`last_attempt_recorded`). Every signal of the task must be one that the columns can hold: the row of an attempt whose
result is refused says `STARTED` for good (`refused_result_not_recorded`).
-/

namespace Washing

/-! ## Lifecycles -/

/-- How an attempt ends. -/
inductive Outcome
  | success (retval : PyValue)
  | failure (exception : Option ErrorValue)
  | retry (reason : Option ErrorValue)

/-- What an attempt consists of: when it starts, when its post-run handler runs, and its outcome. -/
structure AttemptRecord where
  startedAt : Time
  finishedAt : Time
  outcome : Outcome

namespace Outcome

/-- The state Celery reports. -/
def state : Outcome → String
  | .success _ => "SUCCESS"
  | .failure _ => "FAILURE"
  | .retry _ => "RETRY"

/-- The attempt is the last one, unless the task is executed again. -/
def terminal : Outcome → Bool
  | .success _ | .failure _ => true
  | .retry _ => false

def result : Outcome → Option PyDict
  | .success retval => sanitizeTaskResult retval
  | .failure _ | .retry _ => none

def error (U : Unicode) : Outcome → Option String
  | .success _ => none
  | .failure exception => sanitizeOperationalError U exception
  | .retry reason => sanitizeOperationalError U reason

end Outcome

/-- The signals of one attempt. -/
inductive IsAttempt : List Signal → AttemptRecord → Prop
  | success (i j : Option String) (task task' : Task) (args : List PyValue) (t t' : Time) (retval : PyValue) :
    IsAttempt [.start i task args t, .finish j task' (some "SUCCESS") retval t'] ⟨t, t', .success retval⟩
  | failure (i j k : Option String) (task sender task' : Task) (args args' : List PyValue) (t u t' : Time)
      (exception : Option ErrorValue) (retval : PyValue) :
    IsAttempt [.start i task args t, .failure j exception sender args' u,
      .finish k task' (some "FAILURE") retval t'] ⟨t, t', .failure exception⟩
  | retry (i j k : Option String) (task sender task' : Task) (args args' : List PyValue) (t u t' : Time)
      (reason : Option ErrorValue) (retval : PyValue) :
    IsAttempt [.start i task args t, .retry j args' reason sender u,
      .finish k task' (some "RETRY") retval t'] ⟨t, t', .retry reason⟩

/-- The signals of attempts made one after the other. -/
inductive Attempts : List Signal → List AttemptRecord → Prop
  | nil : Attempts [] []
  | next {signals more : List Signal} {records : List AttemptRecord} {record : AttemptRecord} :
    Attempts signals records → IsAttempt more record → Attempts (signals ++ more) (records ++ [record])

/-- The signal comes from the worker. -/
def Signal.fromWorker : Signal → Bool
  | .publish _ _ => false
  | _ => true

/-! ## The row of an attempt -/

/-- The row describes an attempt of a task that was queued at a given time. -/
structure Describes (U : Unicode) (queuedAt : Time) (record : AttemptRecord) (e : TaskExecution) : Prop where
  status : e.status = record.outcome.state
  started : e.startedAt = some record.startedAt
  finished : e.finishedAt = if record.outcome.terminal then some record.finishedAt else none
  duration : e.durationSeconds =
    if record.outcome.terminal then some (durationSeconds record.startedAt record.finishedAt) else none
  result : e.result = record.outcome.result
  error : e.error = record.outcome.error U
  queued : e.queuedAt = queuedAt

section Rows

variable {U : Unicode} {digits : Digits} {taskId : String}

/-- A worker handler whose signal can be recorded applies its mutation. -/
theorem onRow_tracked {s : Signal} {i : Option String} {task : Task} {args : List PyValue} {now : Time}
    {mutate : Option String → Option Int → TaskExecution → TaskExecution}
    (hs : s.effect U digits = (trackedMutation digits i task args now mutate).map .ofMutation)
    (htask : s.task = some taskId) (hrecordable : s.Recordable digits) {e : TaskExecution} (he : e.Fits) :
    ∃ resourceType resourceId, s.onRow U digits (some e) = some (mutate resourceType resourceId e) ∧
      (mutate resourceType resourceId e).Fits := by
  obtain ⟨effect, heffect, hfitting⟩ := recordable_effect U hrecordable
  have htarget := (signal_effect heffect).2
  obtain ⟨-, rfl⟩ | ⟨m, hm, rfl⟩ := effect_ofMutation (hs.symm.trans heffect)
  · rw [htask] at htarget
    cases htarget
  · obtain ⟨_, -, -, -, -, -, hmutate⟩ := trackedMutation_cases hm
    have hfits : (m.mutate e).Fits := hfitting.2 e he
    refine ⟨m.resourceType, m.resourceId, ?_, hmutate ▸ hfits⟩
    rw [Signal.onRow, heffect, ← hmutate]
    exact if_pos hfits

theorem onRow_start {i : Option String} {task : Task} {args : List PyValue} {t : Time}
    (htask : (Signal.start i task args t).task = some taskId)
    (hrecordable : (Signal.start i task args t).Recordable digits) {e : TaskExecution} (he : e.Fits) :
    ∃ e', (Signal.start i task args t).onRow U digits (some e) = some e' ∧ e'.Fits ∧ e'.startedAt = some t ∧
      e'.finishedAt = none ∧ e'.durationSeconds = none ∧ e'.result = none ∧ e'.error = none ∧
      e'.queuedAt = e.queuedAt := by
  obtain ⟨_, _, hrow, hfits⟩ := onRow_tracked rfl htask hrecordable he
  exact ⟨_, hrow, hfits, rfl, rfl, rfl, rfl, rfl, rfl⟩

theorem onRow_failure {i : Option String} {exception : Option ErrorValue} {sender : Task} {args : List PyValue}
    {t : Time} (htask : (Signal.failure i exception sender args t).task = some taskId)
    (hrecordable : (Signal.failure i exception sender args t).Recordable digits) {e : TaskExecution} (he : e.Fits) :
    ∃ e', (Signal.failure i exception sender args t).onRow U digits (some e) = some e' ∧ e'.Fits ∧
      ∃ resourceType resourceId, e' = { e.linked resourceType resourceId with
        status := "FAILURE", error := stringifyError U exception } := by
  obtain ⟨resourceType, resourceId, hrow, hfits⟩ := onRow_tracked rfl htask hrecordable he
  exact ⟨_, hrow, hfits, resourceType, resourceId, rfl⟩

theorem onRow_retry {i : Option String} {args : List PyValue} {reason : Option ErrorValue} {sender : Task} {t : Time}
    (htask : (Signal.retry i args reason sender t).task = some taskId)
    (hrecordable : (Signal.retry i args reason sender t).Recordable digits) {e : TaskExecution} (he : e.Fits) :
    ∃ e', (Signal.retry i args reason sender t).onRow U digits (some e) = some e' ∧ e'.Fits ∧
      ∃ resourceType resourceId, e' = { e.linked resourceType resourceId with
        status := "RETRY", error := stringifyError U reason } := by
  obtain ⟨resourceType, resourceId, hrow, hfits⟩ := onRow_tracked rfl htask hrecordable he
  exact ⟨_, hrow, hfits, resourceType, resourceId, rfl⟩

theorem onRow_finish {i : Option String} {task : Task} {state : String} {retval : PyValue} {t : Time}
    (htask : (Signal.finish i task (some state) retval t).task = some taskId)
    (hrecordable : (Signal.finish i task (some state) retval t).Recordable digits) {e : TaskExecution} (he : e.Fits) :
    ∃ e', (Signal.finish i task (some state) retval t).onRow U digits (some e) = some e' ∧ e'.Fits ∧
      ∃ resourceType resourceId, e' = finishExecution state retval t (e.linked resourceType resourceId) := by
  obtain ⟨resourceType, resourceId, hrow, hfits⟩ :=
    onRow_tracked (effect_finish U i task state retval t) htask hrecordable he
  exact ⟨_, hrow, hfits, resourceType, resourceId, rfl⟩

/-- After an attempt the row describes the attempt, whatever it was before. -/
theorem attempt_row {signals : List Signal} {record : AttemptRecord} (h : IsAttempt signals record)
    (htask : ∀ s ∈ signals, s.task = some taskId) (hrecordable : ∀ s ∈ signals, s.Recordable digits)
    {e : TaskExecution} (he : e.Fits) :
    ∃ e', rowAfter U digits (some e) signals = some e' ∧ e'.Fits ∧ Describes U e.queuedAt record e' := by
  cases h with
  | success i j task task' args t t' retval =>
    simp only [List.forall_mem_cons] at htask hrecordable
    obtain ⟨ht₁, ht₂, -⟩ := htask
    obtain ⟨hr₁, hr₂, -⟩ := hrecordable
    obtain ⟨e₁, h₁, hfits₁, hs, -, -, -, -, hq⟩ := onRow_start (U := U) ht₁ hr₁ he
    obtain ⟨e₂, h₂, hfits₂, rt, ri, rfl⟩ := onRow_finish (U := U) ht₂ hr₂ hfits₁
    refine ⟨_, by rw [rowAfter, List.foldl_cons, h₁, List.foldl_cons, h₂, List.foldl_nil], hfits₂, ?_⟩
    constructor <;>
      simp [finishExecution, TaskExecution.linked, terminalTaskStates, Outcome.state, Outcome.terminal, Outcome.result,
        Outcome.error, hs, hq]
  | failure i j k task sender task' args args' t u t' exception retval =>
    simp only [List.forall_mem_cons] at htask hrecordable
    obtain ⟨ht₁, ht₂, ht₃, -⟩ := htask
    obtain ⟨hr₁, hr₂, hr₃, -⟩ := hrecordable
    obtain ⟨e₁, h₁, hfits₁, hs, -, -, hr, -, hq⟩ := onRow_start (U := U) ht₁ hr₁ he
    obtain ⟨e₂, h₂, hfits₂, rt, ri, rfl⟩ := onRow_failure (U := U) ht₂ hr₂ hfits₁
    obtain ⟨e₃, h₃, hfits₃, rt', ri', rfl⟩ := onRow_finish (U := U) ht₃ hr₃ hfits₂
    refine ⟨_, by rw [rowAfter, List.foldl_cons, h₁, List.foldl_cons, h₂, List.foldl_cons, h₃, List.foldl_nil], hfits₃,
      ?_⟩
    constructor <;>
      simp [finishExecution, TaskExecution.linked, terminalTaskStates, Outcome.state, Outcome.terminal, Outcome.result,
        Outcome.error, stringifyError, hs, hr, hq]
  | retry i j k task sender task' args args' t u t' reason retval =>
    simp only [List.forall_mem_cons] at htask hrecordable
    obtain ⟨ht₁, ht₂, ht₃, -⟩ := htask
    obtain ⟨hr₁, hr₂, hr₃, -⟩ := hrecordable
    obtain ⟨e₁, h₁, hfits₁, hs, hf, hd, hr, -, hq⟩ := onRow_start (U := U) ht₁ hr₁ he
    obtain ⟨e₂, h₂, hfits₂, rt, ri, rfl⟩ := onRow_retry (U := U) ht₂ hr₂ hfits₁
    obtain ⟨e₃, h₃, hfits₃, rt', ri', rfl⟩ := onRow_finish (U := U) ht₃ hr₃ hfits₂
    refine ⟨_, by rw [rowAfter, List.foldl_cons, h₁, List.foldl_cons, h₂, List.foldl_cons, h₃, List.foldl_nil], hfits₃,
      ?_⟩
    constructor <;>
      simp [finishExecution, TaskExecution.linked, terminalTaskStates, Outcome.state, Outcome.terminal, Outcome.result,
        Outcome.error, stringifyError, hs, hf, hd, hr, hq]

/-! ## The row of a lifecycle -/

variable (U digits) in
/-- A handler leaves a row that exists. -/
theorem onRow_isSome (s : Signal) (e : TaskExecution) : ∃ e', s.onRow U digits (some e) = some e' := by
  unfold Signal.onRow
  cases s.effect U digits with
  | error _ => exact ⟨e, rfl⟩
  | ok effect =>
    cases effect with
    | nothing => exact ⟨e, rfl⟩
    | create c => exact ⟨e, rfl⟩
    | change m =>
      simp only [Effect.onRow]
      split_ifs
      · exact ⟨_, rfl⟩
      · exact ⟨e, rfl⟩

/-- A publish handler that finds the row does nothing. -/
theorem onRow_publish (p : PublishSignal) (now : Time) (e : TaskExecution) :
    (Signal.publish p now).onRow U digits (some e) = some e := by
  unfold Signal.onRow
  cases heffect : (Signal.publish p now).effect U digits with
  | error _ => rfl
  | ok effect => obtain ⟨-, rfl⟩ | ⟨c, -, rfl⟩ := effect_ofCall heffect <;> rfl

/-- Once the row exists, only the worker changes it. -/
theorem rowAfter_worker (signals : List Signal) (e : TaskExecution) :
    rowAfter U digits (some e) signals = rowAfter U digits (some e) (signals.filter Signal.fromWorker) := by
  induction signals generalizing e with
  | nil => rfl
  | cons s signals ih =>
    cases s with
    | publish p now =>
      rw [List.filter_cons_of_neg (by simp [Signal.fromWorker]), ← ih e, rowAfter, List.foldl_cons, onRow_publish]
      rfl
    | _ =>
      rw [List.filter_cons_of_pos rfl, rowAfter, rowAfter, List.foldl_cons, List.foldl_cons]
      obtain ⟨e', he'⟩ := onRow_isSome U digits _ e
      rw [he']
      exact ih e'

/-- After attempts the row describes the last of them. -/
theorem attempts_row {signals : List Signal} {records : List AttemptRecord} (h : Attempts signals records)
    (htask : ∀ s ∈ signals, s.task = some taskId) (hrecordable : ∀ s ∈ signals, s.Recordable digits)
    {e : TaskExecution} (he : e.Fits) :
    ∃ e', rowAfter U digits (some e) signals = some e' ∧ e'.Fits ∧ e'.queuedAt = e.queuedAt ∧
      ∀ record, records.getLast? = some record → Describes U e.queuedAt record e' := by
  induction h with
  | nil => exact ⟨e, rfl, he, rfl, by simp⟩
  | @next signals more records record _ hmore ih =>
    obtain ⟨e₁, h₁, hfits₁, hq₁, -⟩ :=
      ih (fun s hs => htask s (List.mem_append_left _ hs)) fun s hs => hrecordable s (List.mem_append_left _ hs)
    obtain ⟨e', he', hfits', hdesc⟩ := attempt_row (U := U) hmore (fun s hs => htask s (List.mem_append_right _ hs))
      (fun s hs => hrecordable s (List.mem_append_right _ hs)) hfits₁
    rw [hq₁] at hdesc
    refine ⟨e', ?_, hfits', hdesc.queued, fun record' hlast => ?_⟩
    · rw [rowAfter, List.foldl_append]
      exact (congrArg (fun row => rowAfter U digits row more) h₁).trans he'
    · rw [List.getLast?_append_cons, List.getLast?_singleton, Option.some.injEq] at hlast
      exact hlast ▸ hdesc

/-! ## The resource of a task -/

/-- What a row says about the resource of its task is kept. -/
def ResourceKept (e e' : TaskExecution) : Prop :=
  (e.resourceType ≠ none → e'.resourceType = e.resourceType) ∧ (e.resourceId ≠ none → e'.resourceId = e.resourceId)

/-- A resolved resource type is not the empty string. -/
theorem resolveResourceContext_ne_empty {taskName : String} {headers : Option PyDict} {args : List PyValue}
    {context : Option String × Option Int} (h : resolveResourceContext digits taskName headers args = .ok context) :
    context.1 ≠ some "" := by
  have htask : taskResourceType taskName ≠ some "" := by
    unfold taskResourceType
    split_ifs <;> simp
  rw [resolveResourceContext_type h, contextResourceType]
  cases hheader : headers.bind fun h => stringOrNone (h.get resourceTypeHeader) with
  | none => exact htask
  | some resourceType =>
    obtain ⟨items, -, hitem⟩ := Option.bind_eq_some_iff.mp hheader
    unfold stringOrNone at hitem
    rintro hempty
    cases Option.some.inj hempty
    split at hitem
    · split_ifs at hitem with hs
      exact hs (Option.some.inj hitem)
    · cases hitem

theorem linked_kept {e : TaskExecution} {resourceType : Option String} (resourceId : Option Int)
    (he : e.resourceType ≠ some "") (ht : resourceType ≠ some "") :
    (e.linked resourceType resourceId).resourceType ≠ some "" ∧ ResourceKept e (e.linked resourceType resourceId) := by
  unfold ResourceKept TaskExecution.linked orOther
  cases htype : e.resourceType with
  | none =>
    cases e.resourceId with
    | none => simp [ht]
    | some i => simp [ht]
  | some v =>
    have hv : v ≠ "" := fun h => he (h ▸ htype)
    cases e.resourceId with
    | none => simp [hv]
    | some i => simp [hv]

/-- A signal keeps the resource when its mutation does. -/
theorem onRow_kept {s : Signal} {e : TaskExecution} (he : e.resourceType ≠ some "")
    (hm : ∀ m, s.effect U digits = .ok (.change m) →
      (m.mutate e).resourceType ≠ some "" ∧ ResourceKept e (m.mutate e)) :
    ∃ e', s.onRow U digits (some e) = some e' ∧ e'.resourceType ≠ some "" ∧ ResourceKept e e' := by
  have hsame : ResourceKept e e := ⟨fun _ => rfl, fun _ => rfl⟩
  unfold Signal.onRow
  cases heffect : s.effect U digits with
  | error _ => exact ⟨e, rfl, he, hsame⟩
  | ok effect =>
    cases effect with
    | nothing => exact ⟨e, rfl, he, hsame⟩
    | create c => exact ⟨e, rfl, he, hsame⟩
    | change m =>
      simp only [Effect.onRow]
      split_ifs
      · exact ⟨_, rfl, hm m heffect⟩
      · exact ⟨e, rfl, he, hsame⟩

theorem tracked_kept {s : Signal} {i : Option String} {task : Task} {args : List PyValue} {now : Time}
    {mutate : Option String → Option Int → TaskExecution → TaskExecution} {e : TaskExecution}
    (hs : s.effect U digits = (trackedMutation digits i task args now mutate).map .ofMutation)
    (hmutate : ∀ resourceType resourceId, (mutate resourceType resourceId e).resourceType =
      (e.linked resourceType resourceId).resourceType ∧
      (mutate resourceType resourceId e).resourceId = (e.linked resourceType resourceId).resourceId)
    (he : e.resourceType ≠ some "") :
    ∃ e', s.onRow U digits (some e) = some e' ∧ e'.resourceType ≠ some "" ∧ ResourceKept e e' := by
  refine onRow_kept he fun m hm => ?_
  obtain ⟨-, hnothing⟩ | ⟨m', hm', heq⟩ := effect_ofMutation (hs.symm.trans hm)
  · cases hnothing
  · cases heq
    obtain ⟨taskName, -, -, -, -, hcontext, heq⟩ := trackedMutation_cases hm'
    obtain ⟨hne, hkept⟩ := linked_kept m.resourceId he (resolveResourceContext_ne_empty hcontext)
    obtain ⟨htype, hid⟩ := hmutate m.resourceType m.resourceId
    rw [heq, ResourceKept, htype, hid]
    exact ⟨hne, hkept⟩

theorem finishExecution_resource (state : String) (retval : PyValue) (now : Time) (e : TaskExecution) :
    (finishExecution state retval now e).resourceType = e.resourceType ∧
      (finishExecution state retval now e).resourceId = e.resourceId := by
  unfold finishExecution
  split_ifs <;> exact ⟨rfl, rfl⟩

variable (U digits) in
/-- No handler changes the resource of a task once it is known. -/
theorem signal_kept (s : Signal) {e : TaskExecution} (he : e.resourceType ≠ some "") :
    ∃ e', s.onRow U digits (some e) = some e' ∧ e'.resourceType ≠ some "" ∧ ResourceKept e e' := by
  cases s with
  | publish p now => exact ⟨e, onRow_publish p now e, he, fun _ => rfl, fun _ => rfl⟩
  | start i task args now => exact tracked_kept rfl (fun _ _ => ⟨rfl, rfl⟩) he
  | finish i task state retval now =>
    cases state with
    | none => exact ⟨e, rfl, he, fun _ => rfl, fun _ => rfl⟩
    | some state =>
      exact tracked_kept (effect_finish U i task state retval now) (fun _ _ => finishExecution_resource _ _ _ _) he
  | failure i exception sender args now => exact tracked_kept rfl (fun _ _ => ⟨rfl, rfl⟩) he
  | retry i args reason sender now => exact tracked_kept rfl (fun _ _ => ⟨rfl, rfl⟩) he

variable (U digits) in
theorem rowAfter_kept (signals : List Signal) {e : TaskExecution} (he : e.resourceType ≠ some "") :
    ∃ e', rowAfter U digits (some e) signals = some e' ∧ e'.resourceType ≠ some "" ∧ ResourceKept e e' := by
  induction signals generalizing e with
  | nil => exact ⟨e, rfl, he, fun _ => rfl, fun _ => rfl⟩
  | cons s signals ih =>
    obtain ⟨e₁, h₁, hne₁, hk₁⟩ := signal_kept U digits s he
    obtain ⟨e', h', hne', hk'⟩ := ih hne₁
    refine ⟨e', by rw [rowAfter, List.foldl_cons, h₁]; exact h', hne', fun ht => ?_, fun hi => ?_⟩
    · rw [hk'.1 (by rw [hk₁.1 ht]; exact ht), hk₁.1 ht]
    · rw [hk'.2 (by rw [hk₁.2 hi]; exact hi), hk₁.2 hi]

end Rows

/-! ## Every lifecycle -/

section Lifecycle

variable (U : Unicode) (digits : Digits)

/-- The history of a task says what its last attempt was. -/
structure HistoryExact (h : TaskHistory) (taskId : String) (queuedAt : Time) (record : AttemptRecord)
    (signals : List Signal) : Prop where
  described : ∃ row, (runSignals U digits h signals).executions.filter (fun r => r.taskId = taskId) = [row] ∧
    Describes U queuedAt record row.toTaskExecution
  resource : ∀ first second third, signals = first ++ second ++ third →
    ∀ e₁, (runSignals U digits h first).rowOf taskId = some e₁ →
      ∃ e₂, (runSignals U digits h (first ++ second)).rowOf taskId = some e₂ ∧ ResourceKept e₁ e₂

/-- The first publish creates the row. -/
theorem onRow_first {taskId : String} {p : PublishSignal} {queuedAt : Time}
    (htask : (Signal.publish p queuedAt).task = some taskId)
    (hrecordable : (Signal.publish p queuedAt).Recordable digits) :
    ∃ e, (Signal.publish p queuedAt).onRow U digits none = some e ∧ e.Fits ∧ e.queuedAt = queuedAt ∧
      e.resourceType ≠ some "" := by
  obtain ⟨effect, heffect, hfitting⟩ := recordable_effect U hrecordable
  have htarget := (signal_effect heffect).2
  obtain ⟨-, rfl⟩ | ⟨c, hc, rfl⟩ := effect_ofCall heffect
  · rw [htask] at htarget
    cases htarget
  · obtain ⟨-, -, hq, hcontext⟩ := recordTaskPublish_cases hc
    refine ⟨c.newExecution, ?_, hfitting, hq, resolveResourceContext_ne_empty hcontext⟩
    rw [Signal.onRow, heffect]
    exact if_pos hfitting

/-- A row that began with the first publish has another resource type than the empty string. -/
theorem rowAfter_first_ne_empty {s : Signal} {signals rest : List Signal} {e e₁ : TaskExecution}
    (he : s.onRow U digits none = some e) (hne : e.resourceType ≠ some "") (hbegins : signals <+: s :: rest)
    (he₁ : rowAfter U digits none signals = some e₁) : e₁.resourceType ≠ some "" := by
  cases signals with
  | nil => cases he₁
  | cons first more =>
    obtain ⟨rfl, -⟩ := List.cons_prefix_cons.mp hbegins
    obtain ⟨e', he', hne', -⟩ := rowAfter_kept U digits more hne
    rw [rowAfter, List.foldl_cons, he] at he₁
    cases he'.symm.trans he₁
    exact hne'

/-- For every lifecycle of a task whose signals can be recorded, among any signals of other tasks: after each completed
attempt the only row of the task describes this attempt, and the resource of the task, once known, never changes. -/
theorem last_attempt_recorded (h : TaskHistory) (hs : h.Stored) (taskId : String)
    (hnew : ∀ r ∈ h.executions, r.taskId ≠ taskId) (signals : List Signal) (p : PublishSignal) (queuedAt : Time)
    (rest : List Signal) (hsignals : signalsOf taskId signals = .publish p queuedAt :: rest)
    (hrecordable : ∀ s ∈ signalsOf taskId signals, s.Recordable digits)
    (records : List AttemptRecord) (record : AttemptRecord)
    (hattempts : Attempts (rest.filter Signal.fromWorker) (records ++ [record])) :
    HistoryExact U digits h taskId queuedAt record signals := by
  have htask : ∀ s ∈ signalsOf taskId signals, s.task = some taskId := by
    intro s hmem
    simpa using (List.mem_filter.mp hmem).2
  rw [hsignals] at htask hrecordable
  obtain ⟨e, he, hfits, hq, hne⟩ :=
    onRow_first U digits (htask (.publish p queuedAt) List.mem_cons_self) (hrecordable _ List.mem_cons_self)
  obtain ⟨hs', hrow⟩ := run_row U digits hs signals
  constructor
  case described =>
    have hworker : ∀ s ∈ rest.filter Signal.fromWorker, s ∈ Signal.publish p queuedAt :: rest := fun s hmem =>
      List.mem_cons_of_mem _ (List.mem_filter.mp hmem).1
    obtain ⟨e', he', -, -, hlast⟩ := attempts_row (U := U) hattempts (fun s hmem => htask s (hworker s hmem))
      (fun s hmem => hrecordable s (hworker s hmem)) hfits
    have hfinal : (runSignals U digits h signals).rowOf taskId = some e' := by
      rw [hrow, hsignals, rowOf_none_iff.mpr hnew, rowAfter, List.foldl_cons, he]
      exact (rowAfter_worker rest e).trans he'
    obtain ⟨row, hrows, rfl⟩ := rows_of_task hs' hfinal
    exact ⟨row, hrows, hq ▸ hlast record (by simp)⟩
  case resource =>
    intro first second third hsplit e₁ he₁
    obtain ⟨hs₁, hrow₁⟩ := run_row U digits hs first
    have hrow₂ := (run_row U digits hs₁ second).2
    have hbegins : signalsOf taskId first <+: .publish p queuedAt :: rest := by
      rw [← hsignals, hsplit, signalsOf, signalsOf, List.filter_append, List.filter_append, List.append_assoc]
      exact List.prefix_append _ _
    rw [hrow₁, rowOf_none_iff.mpr hnew] at he₁
    have hne₁ := rowAfter_first_ne_empty U digits he hne hbegins he₁
    obtain ⟨e₂, he₂, -, hkept⟩ := rowAfter_kept U digits (signalsOf taskId second) hne₁
    refine ⟨e₂, ?_, hkept⟩
    rw [runSignals, List.foldl_append]
    refine (hrow₂ taskId).trans ?_
    rw [hrow₁, rowOf_none_iff.mpr hnew, he₁, he₂]

end Lifecycle

/-- What the broker hands over of a provisioner run. -/
def runPublished : PublishSignal :=
  ⟨some "provisioners.run", some [(.str "id", .str "t"), (.str "task", .str "provisioners.run"),
      (.str "x-resource-type", .str "provisioner"), (.str "x-resource-id", .int 12)],
    .sequence [.sequence [.int 12], .mapping [], .mapping []]⟩

/-- The task instance of the run. -/
def provisionerTask : Task := ⟨some "provisioners.run", .none, .sequence [.int 12]⟩

/-- A provisioner run that is retried once, published again meanwhile, and then succeeds. -/
def retriedSignals : List Signal :=
  [.publish runPublished 0, .start (some "t") provisionerTask [.int 12] 1, .publish runPublished 2,
    .retry (some "t") [.int 12] (some (.message "connector unavailable")) provisionerTask 3,
    .finish (some "t") provisionerTask (some "RETRY") .none 4, .start (some "t") provisionerTask [.int 12] 5,
    .finish (some "t") provisionerTask (some "SUCCESS") (.mapping [(.str "created", .int 1)]) 7]

/-- The signals of the run carry its id, its name and its resource. -/
theorem identified_run {headers : Option PyDict} {args : List PyValue}
    (h : resolveResourceContext .latin1 "provisioners.run" headers args = .ok (some "provisioner", some 12)) :
    Identified .latin1 (some "t") (some "provisioners.run") headers args :=
  .of_context (by decide) (by decide) h (by decide) (by decide)

theorem retriedSignals_recordable : ∀ s ∈ retriedSignals, s.Recordable .latin1 := by
  have hpublish : Identified .latin1 (some "t") (some "provisioners.run") runPublished.headers [.int 12] :=
    identified_run rfl
  have hworker : Identified .latin1 (some "t") (some "provisioners.run") none [.int 12] := identified_run rfl
  have hresult : ∀ w, Kept w (.mapping [(.str "created", .int 1)]) → w.Plain :=
    (jsonb_result_iff _).mp (by decide +kernel)
  intro s hs
  simp only [retriedSignals, List.mem_cons, List.not_mem_nil, or_false] at hs
  obtain rfl | rfl | rfl | rfl | rfl | rfl | rfl := hs
  · exact hpublish
  · exact hworker
  · exact hpublish
  · exact hworker
  · exact ⟨hworker, by decide, fun h => absurd h (by decide)⟩
  · exact hworker
  · exact ⟨hworker, by decide, fun _ => hresult⟩

theorem last_attempt_recorded_retried :
    HistoryExact Unicode.ascii .latin1 ⟨[], 1⟩ "t" 0 ⟨5, 7, .success (.mapping [(.str "created", .int 1)])⟩
      retriedSignals := by
  refine last_attempt_recorded Unicode.ascii .latin1 ⟨[], 1⟩ ⟨by simp, by simp, by simp, by simp⟩ "t" (by simp)
    retriedSignals _ 0 _ rfl ?_ [⟨1, 4, .retry (some (.message "connector unavailable"))⟩] _ ?_
  · exact retriedSignals_recordable
  · exact .next (.next .nil (.retry (some "t") (some "t") (some "t") _ _ _ _ _ 1 3 4 _ .none))
      (.success (some "t") (some "t") _ _ _ 5 7 _)

/-- A run whose total is not a number. -/
def refusedSignals : List Signal :=
  [.publish runPublished 0, .start (some "t") provisionerTask [.int 12] 1,
    .finish (some "t") provisionerTask (some "SUCCESS") (.mapping [(.str "total", .float "nan")]) 2]

/-- The column refuses the result, and the row goes on to say that the attempt is running. -/
theorem refused_result_not_recorded :
    Attempts (refusedSignals.filter Signal.fromWorker) [⟨1, 2, .success (.mapping [(.str "total", .float "nan")])⟩] ∧
      (runSignals Unicode.ascii .latin1 ⟨[], 1⟩ refusedSignals).executions.map (·.status) = ["STARTED"] ∧
      ¬ HistoryExact Unicode.ascii .latin1 ⟨[], 1⟩ "t" 0
        ⟨1, 2, .success (.mapping [(.str "total", .float "nan")])⟩ refusedSignals := by
  have hstatus : (runSignals Unicode.ascii .latin1 ⟨[], 1⟩ refusedSignals).executions.map (·.status) = ["STARTED"] := by
    decide +kernel
  refine ⟨.next .nil (.success (some "t") (some "t") _ _ _ 1 2 _), hstatus, fun h => ?_⟩
  obtain ⟨row, hrow, hdescribes⟩ := h.described
  have hmem : row ∈ (runSignals Unicode.ascii .latin1 ⟨[], 1⟩ refusedSignals).executions :=
    (List.mem_filter.mp (hrow ▸ List.mem_singleton_self row)).1
  have hstarted : row.status ∈ ["STARTED"] := hstatus ▸ List.mem_map_of_mem hmem
  rw [hdescribes.status] at hstarted
  exact absurd hstarted (by decide)

end Washing
