import Washing.Applications.Job
import Washing.Inventory.Job
import Washing.Inventory.Placement
import Washing.Lib.Schedule
import Washing.Metrics.Daily
import Washing.Metrics.Dispatch
import Washing.Metrics.Job
import Washing.Metrics.Placement

/-!
# Errors and later successes

The jobs one after the other, with the outcomes of the last runs beside the database (`JobHistory`). An inventory run
that gets through clears the error of its provisioner; a collection leaves the error of its provider alone, and only a
dispatch clears it (`providers_step`). So what decides is the history of the collections and dispatches: the errors are
those of the last runs exactly if no collection of a provider gets through after a failed one unless a dispatch came in
between (`errorsCleared_iff`).
-/

namespace Washing

/-- A job of the workers, with what fails from outside while it runs. -/
inductive WorkerJob
  | dispatch (faults : Faults Database) (providerId : Nat) (enqueueMachineSync : Nat → Nat × Nat → Option Exc)
      (now : Time)
  | sync (faults : Faults Database) (U : Unicode) (applicationId : Nat)
      (enqueueMachineSync : Nat → Nat × Nat → Option Exc) (now : Time)
  | collection (faults : Faults CollectionWork) (env : CollectionEnv) (providerId machineId : Nat)
  | inventory (faults : Faults InventoryWork) (env : InventoryEnv) (mock : InventoryConnector)
      (ticks provisionerId : Nat)

/-- The database, and whose most recent collection or inventory run succeeded. -/
structure JobHistory where
  db : Database
  collected : Nat → Bool
  inventoried : Nat → Bool

/-- No run so far. -/
def JobHistory.start (db : Database) : JobHistory := ⟨db, fun _ => false, fun _ => false⟩

/-- Whether a collection succeeded, in case it was one: a collection without a provider or a machine is none. -/
def collectionSucceeded (before : Bool) : Except Exc CollectionReport → Bool
  | .error _ => false
  | .ok report => if report.status = none then true else before

/-- Whether an inventory run succeeded. -/
def inventorySucceeded : Except Exc InventoryReport → Bool
  | .error _ => false
  | .ok _ => true

/-- One job. -/
def WorkerJob.run (s : JobHistory) : WorkerJob → JobHistory
  | dispatch faults providerId enqueue now =>
      { s with db := (dispatchJob faults s.db providerId enqueue now).2.committed }
  | sync faults U applicationId enqueue now =>
    { s with db := (syncJob faults U s.db applicationId enqueue now).2.committed }
  | collection faults env providerId machineId =>
    let run := collectionJob faults env s.db providerId machineId
    { s with
      db := run.2.committed
      collected := Function.update s.collected providerId (collectionSucceeded (s.collected providerId) run.1) }
  | inventory faults env mock ticks provisionerId =>
    let run := inventoryJob faults env mock s.db ticks provisionerId
    { s with
      db := run.2.committed
      inventoried := Function.update s.inventoried provisionerId (inventorySucceeded run.1) }

/-- The rows of those who succeeded have no error. -/
def Cleared {α : Type} [Row α] (rows : List α) (error : α → Option String) (succeeded : Nat → Bool) : Prop :=
  ∀ r ∈ rows, succeeded (Row.id r) → error r = none

/-- A success is not followed by an older error. -/
structure ErrorsCleared (s : JobHistory) : Prop where
  providers : Cleared s.db.providers (·.lastError) s.collected
  provisioners : Cleared s.db.provisioners (·.lastError) s.inventoried

/-- A collection that gets through starts without an error of its provider. -/
def WorkerJob.StartsClean (s : JobHistory) : WorkerJob → Prop
  | collection faults env providerId machineId =>
    ∀ report, (collectionJob faults env s.db providerId machineId).1 = .ok report → report.status = none →
      ∀ p ∈ s.db.providers, p.id = providerId → p.lastError = none
  | _ => True

/-! ## Histories -/

/-- What happened to a provider: a dispatch was committed, a collection failed, or a collection got through. -/
inductive ProviderEvent
  | dispatched (providerId : Nat)
  | failed (providerId : Nat)
  | collected (providerId : Nat)
  deriving DecidableEq, Repr

/-- A collection takes up its machine: the provider is stored and sees it. -/
def takesUp (db : Database) (providerId machineId : Nat) : Bool :=
  match loadProvider db providerId with
  | .ok (some provider) =>
    match scopedMachine db provider machineId with
    | .ok (some _) => true
    | _ => false
  | _ => false

/-- What a job does to a provider. -/
def WorkerJob.event (db : Database) : WorkerJob → Option ProviderEvent
  | dispatch faults providerId _ _ =>
    if dispatchCommits faults db providerId then some (.dispatched providerId) else none
  | collection faults env providerId machineId =>
    if takesUp db providerId machineId then
      match (collectionJob faults env db providerId machineId).1 with
      | .error _ => some (.failed providerId)
      | .ok _ => some (.collected providerId)
    else none
  | sync .. | inventory .. => none

/-- What happened in a run of jobs that goes on from a history, the newest event first. -/
def providerEvents (s : JobHistory) (events : List ProviderEvent) : List WorkerJob → List ProviderEvent
  | [] => events
  | job :: jobs => providerEvents (job.run s) ((job.event s.db).toList ++ events) jobs

/-- The errors that a database starts with come from earlier failures. -/
def earlierFailures (db : Database) : List ProviderEvent :=
  (db.providers.filter fun p => p.lastError ≠ none).map fun p => .failed p.id

/-- Between a failed collection of a provider and a later one that gets through, a dispatch of the provider is
committed. -/
def DispatchedBetween (events : List ProviderEvent) : Prop :=
  ∀ i later between earlier, events = later ++ .collected i :: between ++ .failed i :: earlier → .dispatched i ∈ between

/-- A collection of the provider has failed, and no dispatch of it was committed since. -/
def FailedSince (i : Nat) (events : List ProviderEvent) : Prop := Since (· ≠ .dispatched i) (· = .failed i) events

/-! ## One job -/

/-- A job that rewrites one row keeps the others cleared. -/
theorem Cleared.modify_iff {α : Type} [Row α] {rows : List α} {error : α → Option String} {succeeded : Nat → Bool}
    (h : Cleared rows error succeeded) {f : α → α} (hf : ∀ r, Row.id (f r) = Row.id r) (i : Nat) (b : Bool) :
    Cleared (Table.modify rows i f) error (Function.update succeeded i b) ↔
      (b = true → ∀ r ∈ rows, Row.id r = i → error (f r) = none) := by
  constructor
  · intro hafter hb r hr hid
    refine hafter (f r) (Table.mem_modify.mpr ⟨r, hr, (if_pos hid).symm⟩) ?_
    rw [hf, hid, Function.update_self]
    exact hb
  · intro hrow r hr hsucceeded
    obtain ⟨r₀, hr₀, rfl⟩ := Table.mem_modify.mp hr
    by_cases hid : Row.id r₀ = i
    · rw [if_pos hid, hf, hid, Function.update_self] at hsucceeded
      rw [if_pos hid]
      exact hrow hsucceeded r₀ hr₀ hid
    · rw [if_neg hid, Function.update_of_ne hid] at hsucceeded
      rw [if_neg hid]
      exact h r₀ hr₀ hsucceeded

/-- A run that fails is not followed by a success. -/
theorem Cleared.failed {α : Type} [Row α] {rows : List α} {error : α → Option String} {succeeded : Nat → Bool}
    (h : Cleared rows error succeeded) (i : Nat) : Cleared rows error (Function.update succeeded i false) := by
  intro r hr hsucceeded
  by_cases hid : Row.id r = i
  · rw [hid, Function.update_self] at hsucceeded
    cases hsucceeded
  · rw [Function.update_of_ne hid] at hsucceeded
    exact h r hr hsucceeded

/-- Without a success there is nothing to clear. -/
theorem cleared_start {α : Type} [Row α] (rows : List α) (error : α → Option String) :
    Cleared rows error fun _ => false := by
  rintro r hr ⟨⟩

section Step

variable {s : JobHistory}

/-- An inventory run that gets through clears the error of its provisioner, and no other job writes provisioners. -/
theorem provisioners_step (job : WorkerJob) (h : Cleared s.db.provisioners (·.lastError) s.inventoried) :
    Cleared (job.run s).db.provisioners (·.lastError) (job.run s).inventoried := by
  cases job with
  | dispatch faults providerId enqueue now =>
    simp only [WorkerJob.run]
    rw [dispatchJob_committed]
    split_ifs <;> exact h
  | sync faults U applicationId enqueue now =>
    simp only [WorkerJob.run]
    obtain ⟨applications, hdb⟩ := syncJob_frame faults U s.db applicationId enqueue now
    rw [hdb]
    exact h
  | collection faults env providerId machineId =>
    simp only [WorkerJob.run]
    cases hrun : (collectionJob faults env s.db providerId machineId).1 with
    | error e => obtain hdb | hdb := collectionJob_error hrun <;> rw [hdb] <;> exact h
    | ok report =>
      rw [(collectionJob_connectors hrun).1]
      exact h
  | inventory faults env mock ticks provisionerId =>
    simp only [WorkerJob.run]
    cases hrun : (inventoryJob faults env mock s.db ticks provisionerId).1 with
    | error e =>
      rw [inventoryJob_error hrun]
      exact (h.modify_iff (fun _ => by rfl) provisionerId false).mpr nofun
    | ok report =>
      rw [(inventoryJob_connectors hrun).2]
      exact (h.modify_iff (fun _ => by rfl) provisionerId true).mpr fun _ _ _ _ => rfl

/-- A collection that gets through leaves the error of its provider alone. -/
theorem collection_step (h : Cleared s.db.providers (·.lastError) s.collected) (faults : Faults CollectionWork)
    (env : CollectionEnv) (providerId machineId : Nat) :
    Cleared (WorkerJob.run s (.collection faults env providerId machineId)).db.providers (·.lastError)
        (WorkerJob.run s (.collection faults env providerId machineId)).collected ↔
      WorkerJob.StartsClean s (.collection faults env providerId machineId) := by
  simp only [WorkerJob.run, WorkerJob.StartsClean]
  cases hrun : (collectionJob faults env s.db providerId machineId).1 with
  | error e =>
    refine iff_of_true ?_ nofun
    obtain hdb | hdb := collectionJob_error hrun
    · rw [hdb]
      exact h.failed providerId
    · rw [hdb]
      exact (h.modify_iff (fun _ => by rfl) providerId false).mpr nofun
  | ok report =>
    obtain ⟨-, hproviders⟩ := collectionJob_connectors hrun
    by_cases hstatus : report.status = none
    · rw [if_pos hstatus] at hproviders
      obtain ⟨now, hproviders⟩ := hproviders
      have hsucceeded : collectionSucceeded (s.collected providerId) (.ok report) = true := if_pos hstatus
      have hrow := h.modify_iff (f := fun p => p.succeeded now) (fun _ => by rfl) providerId true
      rw [hproviders, hsucceeded, hrow]
      constructor
      · rintro hclean _ - - p hp hid
        exact hclean rfl p hp hid
      · exact fun hclean _ p hp hid => hclean report rfl hstatus p hp hid
    · rw [if_neg hstatus] at hproviders
      have hbefore : collectionSucceeded (s.collected providerId) (.ok report) = s.collected providerId :=
        if_neg hstatus
      rw [hproviders, hbefore, Function.update_eq_self]
      refine iff_of_true h fun report' hreport hstatus' => ?_
      cases hreport
      exact absurd hstatus' hstatus

/-- A job keeps the errors of the last collections exactly if it starts clean. -/
theorem providers_step (job : WorkerJob) (h : Cleared s.db.providers (·.lastError) s.collected) :
    Cleared (job.run s).db.providers (·.lastError) (job.run s).collected ↔ job.StartsClean s := by
  cases job with
  | dispatch faults providerId enqueue now =>
    refine iff_of_true ?_ trivial
    simp only [WorkerJob.run]
    rw [dispatchJob_committed]
    split_ifs
    · rw [← Function.update_eq_self providerId s.collected]
      exact (h.modify_iff (fun _ => by rfl) providerId _).mpr fun _ _ _ _ => rfl
    · exact h
  | sync faults U applicationId enqueue now =>
    refine iff_of_true ?_ trivial
    simp only [WorkerJob.run]
    obtain ⟨applications, hdb⟩ := syncJob_frame faults U s.db applicationId enqueue now
    rw [hdb]
    exact h
  | collection faults env providerId machineId => exact collection_step h faults env providerId machineId
  | inventory faults env mock ticks provisionerId =>
    refine iff_of_true ?_ trivial
    simp only [WorkerJob.run]
    cases hrun : (inventoryJob faults env mock s.db ticks provisionerId).1 with
    | error e =>
      rw [inventoryJob_error hrun]
      exact h
    | ok report =>
      rw [(inventoryJob_connectors hrun).1]
      exact h

end Step

/-! ## Errors and failures -/

section Traced

variable {db : Database} {providerId machineId : Nat}

theorem takesUp_iff : takesUp db providerId machineId = true ↔
    ∃ p m, loadProvider db providerId = .ok (some p) ∧ scopedMachine db p machineId = .ok (some m) := by
  unfold takesUp
  constructor
  · intro h
    split at h
    · next p hp =>
      split at h
      · next m hm => exact ⟨p, m, hp, hm⟩
      · cases h
    · cases h
  · rintro ⟨p, m, hp, hm⟩
    simp only [hp, hm]

/-- The rows under the id of a loaded provider are this provider. -/
theorem loadProvider_unique {p q : MachineProvider} (h : loadProvider db providerId = .ok (some p))
    (hq : q ∈ db.providers) (hid : q.id = providerId) : q = p := by
  have hmem : q ∈ selectWhere (fun p => Cond.eq (some p.id) (some providerId)) db.providers := by
    refine mem_selectWhere.mpr ⟨hq, ?_⟩
    rw [Cond.isTrue_eq_some]
    exact hid
  rw [oneOrNone_some h, List.mem_singleton] at hmem
  exact hmem

variable {faults : Faults CollectionWork} {env : CollectionEnv}

/-- A collection that takes nothing up does nothing, and is no success. -/
theorem collectionJob_untaken (h : takesUp db providerId machineId = false) :
    (collectionJob faults env db providerId machineId).2.committed = db ∧
      ∀ report, (collectionJob faults env db providerId machineId).1 = .ok report → report.status ≠ none := by
  obtain ⟨result, hstatus, hnothing⟩ | hfound := collection_lookups db providerId machineId
  · rw [(hnothing faults env).1]
    exact ⟨rfl, hstatus⟩
  · rw [takesUp_iff.mpr hfound] at h
    cases h

/-- A collection that takes its machine up and raises records the error. -/
theorem collectionJob_failed (h : takesUp db providerId machineId = true) {e : Exc}
    (herror : (collectionJob faults env db providerId machineId).1 = .error e) :
    (collectionJob faults env db providerId machineId).2.committed.providers =
      Table.modify db.providers providerId fun p => p.recordError env.unicode (some (.exception e)) := by
  obtain ⟨p, m, hp, hm⟩ := takesUp_iff.mp h
  rw [collectionJob_found hp hm] at herror ⊢
  rw [Job.guarded_error atomic_collectionBody herror]
  rfl

/-- A collection that takes its machine up and gets through is a success. -/
theorem collectionJob_collected (h : takesUp db providerId machineId = true) {report : CollectionReport}
    (hok : (collectionJob faults env db providerId machineId).1 = .ok report) : report.status = none := by
  obtain ⟨p, m, hp, hm⟩ := takesUp_iff.mp h
  obtain ⟨hresult, -⟩ := collectionJob_ok hok
  simp only [runProviderMachineCollection, hp, hm] at hresult
  cases hcollect : collectSamples env db p m with
  | error e =>
    rw [hcollect] at hresult
    cases hresult
  | ok result =>
    rw [hcollect] at hresult
    cases hresult
    exact collectSamples_status hcollect

/-- The providers with an error are those with a failed collection since their last dispatch. -/
structure ErrorsTraced (providers : List MachineProvider) (events : List ProviderEvent) : Prop where
  failed : ∀ p ∈ providers, p.lastError ≠ none → FailedSince p.id events
  kept : ∀ i, FailedSince i events → ∃ p ∈ providers, p.id = i ∧ p.lastError ≠ none

variable {providers : List MachineProvider} {events : List ProviderEvent}

theorem traced_start (db : Database) : ErrorsTraced db.providers (earlierFailures db) := by
  constructor
  case failed =>
    intro p hp herror
    have hmem : .failed p.id ∈ earlierFailures db :=
      List.mem_map.mpr ⟨p, List.mem_filter.mpr ⟨hp, decide_eq_true herror⟩, rfl⟩
    obtain ⟨later, earlier, heq⟩ := List.append_of_mem hmem
    refine since_iff.mpr ⟨later, _, earlier, heq, rfl, fun e he => ?_⟩
    have he : e ∈ earlierFailures db := heq ▸ List.mem_append_left _ he
    obtain ⟨q, -, rfl⟩ := List.mem_map.mp he
    simp
  case kept =>
    intro i h
    obtain ⟨later, e, earlier, heq, rfl, -⟩ := since_iff.mp h
    have hmem : .failed i ∈ earlierFailures db := heq ▸ List.mem_append_right _ List.mem_cons_self
    obtain ⟨p, hp, hid⟩ := List.mem_map.mp hmem
    cases hid
    exact ⟨p, (List.mem_filter.mp hp).1, rfl, of_decide_eq_true (List.mem_filter.mp hp).2⟩

/-- One event of a provider, whose row is rewritten. -/
theorem ErrorsTraced.modify (h : ErrorsTraced providers events) {f : MachineProvider → MachineProvider}
    (hid : ∀ p, (f p).id = p.id) {i : Nat} {e : ProviderEvent} (hother : ∀ j, j ≠ i → e ≠ .failed j ∧ e ≠ .dispatched j)
    (hself : ∀ p ∈ providers, p.id = i → ((f p).lastError ≠ none ↔ FailedSince i (e :: events)))
    (hrow : FailedSince i (e :: events) → ∃ p ∈ providers, p.id = i) :
    ErrorsTraced (Table.modify providers i f) (e :: events) := by
  constructor
  case failed =>
    intro p hp herror
    obtain ⟨q, hq, rfl⟩ := Table.mem_modify.mp hp
    by_cases heq : Row.id q = i
    · rw [if_pos heq] at herror ⊢
      rw [hid, show q.id = i from heq]
      exact (hself q hq heq).mp herror
    · rw [if_neg heq] at herror ⊢
      exact .inr ⟨(hother _ heq).2, h.failed q hq herror⟩
  case kept =>
    intro j hj
    by_cases heq : j = i
    · subst heq
      obtain ⟨p, hp, hpid⟩ := hrow hj
      exact ⟨f p, Table.mem_modify.mpr ⟨p, hp, (if_pos hpid).symm⟩, (hid p).trans hpid, (hself p hp hpid).mpr hj⟩
    · obtain ⟨-, hj⟩ := hj.resolve_left (hother j heq).1
      obtain ⟨p, hp, hpid, herror⟩ := h.kept j hj
      have hne : ¬ Row.id p = i := fun hp => heq (hpid.symm.trans hp)
      exact ⟨p, Table.mem_modify.mpr ⟨p, hp, (if_neg hne).symm⟩, hpid, herror⟩

/-- A job traces the errors further. -/
theorem ErrorsTraced.run {s : JobHistory} (h : ErrorsTraced s.db.providers events) (job : WorkerJob) :
    ErrorsTraced (job.run s).db.providers ((job.event s.db).toList ++ events) := by
  cases job with
  | dispatch faults providerId enqueue now =>
    simp only [WorkerJob.run, WorkerJob.event, dispatchJob_committed]
    split_ifs with hcommits
    · have hcleared : ¬ FailedSince providerId (.dispatched providerId :: events) := by
        rintro (hfailed | ⟨hne, -⟩)
        · cases hfailed
        · exact hne rfl
      refine h.modify (fun _ => by rfl) (fun j hj => ⟨by simp, ?_⟩) (fun p _ _ => ?_) fun hfailed => ?_
      · exact fun heq => hj (ProviderEvent.dispatched.inj heq).symm
      · exact iff_of_false (fun hne => hne rfl) hcleared
      · exact absurd hfailed hcleared
    · exact h
  | sync faults U applicationId enqueue now =>
    simp only [WorkerJob.run]
    obtain ⟨applications, hdb⟩ := syncJob_frame faults U s.db applicationId enqueue now
    rw [hdb]
    exact h
  | inventory faults env mock ticks provisionerId =>
    simp only [WorkerJob.run]
    cases hrun : (inventoryJob faults env mock s.db ticks provisionerId).1 with
    | error e =>
      rw [inventoryJob_error hrun]
      exact h
    | ok report =>
      rw [(inventoryJob_connectors hrun).1]
      exact h
  | collection faults env providerId machineId =>
    simp only [WorkerJob.run, WorkerJob.event]
    cases htaken : takesUp s.db providerId machineId with
    | false =>
      rw [(collectionJob_untaken htaken).1]
      exact h
    | true =>
      obtain ⟨p, m, hp, -⟩ := takesUp_iff.mp htaken
      have hrow : ∃ p ∈ s.db.providers, p.id = providerId := ⟨p, loadProvider_some hp⟩
      cases hrun : (collectionJob faults env s.db providerId machineId).1 with
      | error e =>
        rw [collectionJob_failed htaken hrun]
        refine h.modify (fun _ => by rfl) (fun j hj => ⟨?_, by simp⟩) (fun q _ _ => ?_) fun _ => hrow
        · exact fun heq => hj (ProviderEvent.failed.inj heq).symm
        · exact iff_of_true (by simp [MachineProvider.recordError, sanitizeOperationalError]) (.inl rfl)
      | ok report =>
        obtain ⟨-, hproviders⟩ := collectionJob_connectors hrun
        rw [if_pos (collectionJob_collected htaken hrun)] at hproviders
        obtain ⟨now, hproviders⟩ := hproviders
        rw [hproviders]
        have hsame : FailedSince providerId (.collected providerId :: events) ↔ FailedSince providerId events :=
          (since_cons (by simp)).trans (and_iff_right (by simp))
        refine h.modify (fun _ => by rfl) (fun j _ => ⟨by simp, by simp⟩) (fun q hq hid => ?_) fun _ => hrow
        rw [hsame, ← hid]
        constructor
        · exact h.failed q hq
        · intro hfailed
          obtain ⟨r, hr, hrid, herror⟩ := h.kept _ hfailed
          cases loadProvider_unique hp hq hid
          cases loadProvider_unique hp hr (hrid.trans hid)
          exact herror

/-- A job starts clean when its collection gets through after no failure, or after a dispatch. -/
theorem startsClean_iff {s : JobHistory} (h : ErrorsTraced s.db.providers events) (job : WorkerJob) :
    job.StartsClean s ↔ ∀ i, job.event s.db = some (.collected i) → ¬ FailedSince i events := by
  cases job with
  | dispatch faults providerId enqueue now =>
    refine iff_of_true trivial fun i hi => ?_
    simp only [WorkerJob.event] at hi
    split_ifs at hi
    cases hi
  | sync | inventory =>
    all_goals
      refine iff_of_true trivial ?_
      rintro i ⟨⟩
  | collection faults env providerId machineId =>
    simp only [WorkerJob.StartsClean, WorkerJob.event]
    cases htaken : takesUp s.db providerId machineId with
    | false =>
      refine iff_of_true (fun report hreport hstatus => ?_) ?_
      · exact absurd hstatus ((collectionJob_untaken htaken).2 report hreport)
      · rintro i ⟨⟩
    | true =>
      cases hrun : (collectionJob faults env s.db providerId machineId).1 with
      | error e =>
        refine iff_of_true ?_ ?_
        · rintro report ⟨⟩
        · rintro i ⟨⟩
      | ok report =>
        constructor
        · rintro hclean i ⟨⟩ hfailed
          obtain ⟨p, hp, hid, herror⟩ := h.kept _ hfailed
          exact herror (hclean report rfl (collectionJob_collected htaken hrun) p hp hid)
        · intro hfailed _ _ _ p hp hid
          by_contra herror
          exact hfailed providerId rfl (hid ▸ h.failed p hp herror)

end Traced

/-! ## Histories of a run -/

theorem dispatchedBetween_cons {e : ProviderEvent} {events : List ProviderEvent} : DispatchedBetween (e :: events) ↔
    (∀ i, e = .collected i → ¬ FailedSince i events) ∧ DispatchedBetween events := by
  constructor
  · intro h
    constructor
    · rintro i rfl hfailed
      obtain ⟨between, _, earlier, rfl, rfl, hnone⟩ := since_iff.mp hfailed
      exact hnone _ (h i [] between earlier rfl) rfl
    · rintro i later between earlier rfl
      exact h i (e :: later) between earlier rfl
  · rintro ⟨hfirst, hrest⟩ i later between earlier heq
    cases later with
    | nil =>
      obtain ⟨rfl, rfl⟩ := List.cons.inj heq
      by_contra hnone
      refine hfirst i rfl (since_iff.mpr ⟨between, _, earlier, rfl, rfl, fun e he hdispatched => ?_⟩)
      exact hnone (hdispatched ▸ he)
    | cons _ later =>
      obtain ⟨rfl, rfl⟩ := List.cons.inj heq
      exact hrest i later between earlier rfl

/-- The first part of a history. -/
theorem DispatchedBetween.before {events : List ProviderEvent} : ∀ {jobs : List WorkerJob} {s : JobHistory},
    DispatchedBetween (providerEvents s events jobs) → DispatchedBetween events
  | [], _, h => h
  | job :: jobs, s, h => by
    have hafter : DispatchedBetween ((job.event s.db).toList ++ events) := DispatchedBetween.before h
    cases hevent : job.event s.db with
    | none =>
      rw [hevent] at hafter
      exact hafter
    | some e =>
      rw [hevent] at hafter
      exact (dispatchedBetween_cons.mp hafter).2

/-- Every job of a run starts clean exactly if the history of the run has the dispatches that it needs. -/
theorem allStartClean_iff : ∀ {jobs : List WorkerJob} {s : JobHistory} {events : List ProviderEvent},
    ErrorsTraced s.db.providers events → DispatchedBetween events →
      (AllSteps (fun s job => some (WorkerJob.run s job)) (fun s job => job.StartsClean s) s jobs ↔
        DispatchedBetween (providerEvents s events jobs))
  | [], _, _, _, hbefore => iff_of_true trivial hbefore
  | job :: jobs, s, events, htraced, hbefore => by
    have hnow : job.StartsClean s ↔ DispatchedBetween ((job.event s.db).toList ++ events) := by
      rw [startsClean_iff htraced]
      cases job.event s.db with
      | none => exact iff_of_true (by rintro i ⟨⟩) hbefore
      | some e =>
        refine Iff.trans ?_ (dispatchedBetween_cons.trans (and_iff_left hbefore)).symm
        exact forall_congr' fun i => imp_congr_left Option.some_inj
    have htraced := htraced.run job
    constructor
    · rintro ⟨hclean, hjobs⟩
      exact (allStartClean_iff htraced (hnow.mp hclean)).mp (hjobs _ rfl)
    · intro hhistory
      have hafter : DispatchedBetween ((job.event s.db).toList ++ events) := .before hhistory
      refine ⟨hnow.mpr hafter, ?_⟩
      rintro _ ⟨⟩
      exact (allStartClean_iff htraced hafter).mpr hhistory

/-! ## A run of jobs -/

/-- Some jobs, one after the other. -/
def runJobHistory (s : JobHistory) (jobs : List WorkerJob) : JobHistory := jobs.foldl WorkerJob.run s

/-- A success of a provisioner always clears its error. -/
theorem provisioners_cleared (db : Database) (jobs : List WorkerJob) :
    Cleared (runJobHistory (.start db) jobs).db.provisioners (·.lastError)
      (runJobHistory (.start db) jobs).inventoried :=
  foldl_invariant (I := fun s : JobHistory => Cleared s.db.provisioners (·.lastError) s.inventoried)
    (fun _ job hs _ => provisioners_step job hs) (cleared_start _ _) (allSteps_true _ jobs)

/-- The failures of earlier runs are followed by nothing. -/
theorem dispatchedBetween_earlier (db : Database) : DispatchedBetween (earlierFailures db) := by
  intro i later between earlier heq
  have hmem : .collected i ∈ earlierFailures db := by
    rw [heq]
    simp
  obtain ⟨p, -, hp⟩ := List.mem_map.mp hmem
  cases hp

/-- All along a run, successes are without errors exactly if a dispatch of the provider is committed between every
failed collection and a later one of the same provider that gets through; an error in the starting database counts as a
failure before the run. -/
theorem errorsCleared_iff (db : Database) (jobs : List WorkerJob) :
    (∀ n, ErrorsCleared (runJobHistory (.start db) (jobs.take n))) ↔
      DispatchedBetween (providerEvents (.start db) (earlierFailures db) jobs) := by
  have hproviders := foldl_always_iff (I := fun s : JobHistory => Cleared s.db.providers (·.lastError) s.collected)
    (fun s job hs => providers_step job hs) jobs (.start db)
  have htraced : ErrorsTraced (JobHistory.start db).db.providers (earlierFailures db) := traced_start db
  rw [← allStartClean_iff htraced (dispatchedBetween_earlier db)]
  constructor
  · exact fun h => (hproviders.mp fun n => (h n).providers).2
  · exact fun h n => ⟨hproviders.mpr ⟨cleared_start _ _, h⟩ n, provisioners_cleared db (jobs.take n)⟩

/-! ## An error that survives -/

/-- One provider, one machine, and its application. -/
def oneMachine : Database :=
  { Database.empty with
    providers := [⟨1, 1, "metrics", "mock", .cpu, "{}", true, none, none, none⟩]
    machines := [⟨1, 1, some "A", none, none, "H1", none, none, none, none, none, "{}", 0⟩]
    applications := [⟨1, "A", "UNKNOWN", "UNKNOWN", none, none, none⟩]
    nextId := 2 }

/-- A connector that does not answer. -/
def unanswering : CollectionEnv := { answering [] with mock := fun _ _ => .error ⟨.other "ConnectError", "timed out"⟩ }

/-- A dispatch of the provider, whose collection fails, and a sync of the application, whose collection succeeds. -/
def survivingError : List WorkerJob :=
  [.dispatch .none 1 (fun _ _ => none) 0,
    .collection .none unanswering 1 1,
    .sync .none Unicode.ascii 1 (fun _ _ => none) 10,
    .collection .none (answering [⟨40, some 0, some 1, none, none⟩]) 1 1]

/-- Both jobs publish the one collection that there is; its success leaves the error of its failure. -/
theorem error_survives :
    (dispatchJob .none oneMachine 1 (fun _ _ => none) 0).1 = .ok ⟨1, [1], none⟩ ∧
    (syncJob .none Unicode.ascii oneMachine 1 (fun _ _ => none) 10).1 = .ok ⟨1, 1, 1, "dispatched"⟩ ∧
    ¬ ∀ n, ErrorsCleared (runJobHistory (.start oneMachine) (survivingError.take n)) := by
  refine ⟨by decide +kernel, by decide +kernel, fun h => ?_⟩
  have hsucceeded : (runJobHistory (.start oneMachine) survivingError).collected 1 = true := by decide +kernel
  have hprovider : ⟨1, 1, "metrics", "mock", .cpu, "{}", true, some 0, some 1, some unexpectedError⟩ ∈
      (runJobHistory (.start oneMachine) survivingError).db.providers := by decide +kernel
  exact absurd ((h 4).providers _ hprovider hsucceeded) nofun

end Washing
