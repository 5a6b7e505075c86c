import Washing.Applications.Sync

/-!
# Dispatching the application syncs

One call of `dispatch_due_application_metrics_syncs` reserves the next batch of due applications
(`reserveApplications`), commits, and publishes one sync for each; when a publish fails, the reservations that were not
published are released (`releaseApplications`). An application is due when its last sync is a window old and no
reservation is more recent than the retry delay (`Application.Due`); the longest unsynced come first
(`Application.syncOrder`).
-/

namespace Washing

/-! ## The batch -/

/-- The parameters of the dispatcher. -/
structure SyncDispatchConfig where
  windowDays : Int
  tickSeconds : Int
  configuredBatchSize : Int
  retryAfterSeconds : Int
  deriving DecidableEq, Repr

/-- Compute the number of applications to sync on each dispatcher tick. -/
def calculateApplicationMetricsSyncBatchSize (totalApplications windowDays tickSeconds configuredBatchSize : Int) :
    Int :=
  if totalApplications ≤ 0 then 0
  else if 0 < configuredBatchSize then configuredBatchSize
  else
    let windowSeconds := max 1 (windowDays * 24 * 60 * 60)
    let ticksPerWindow := max 1 (windowSeconds / max 1 tickSeconds)
    max 1 ⌈(totalApplications : ℚ) / ticksPerWindow⌉

/-- The batch size of a call. -/
def SyncDispatchConfig.batchSize (config : SyncDispatchConfig) (db : Database) : Int :=
  calculateApplicationMetricsSyncBatchSize db.applications.length config.windowDays config.tickSeconds
    config.configuredBatchSize

/-- `ORDER BY sync_at ASC NULLS FIRST, id ASC`. -/
def Application.syncOrder (a : Application) : WithBot Time ×ₗ Nat := toLex (a.syncAt, a.id)

/-- The due applications in the order of their reservation, without the rows that are locked. -/
def dueApplications (db : Database) (config : SyncDispatchConfig) (now : Time) (locked : List Nat) : List Application :=
  let dueBefore := now - days config.windowDays
  let retryBefore := now - seconds config.retryAfterSeconds
  orderBy (fun a b => a.syncOrder ≤ b.syncOrder)
    ((selectWhere (fun a => Cond.or (Cond.isNull a.syncScheduledAt) (Cond.le a.syncScheduledAt (some retryBefore)))
      (selectWhere (fun a => Cond.or (Cond.isNull a.syncAt) (Cond.le a.syncAt (some dueBefore)))
        db.applications)).filter
        fun a => a.id ∉ locked)

/-! ## Reservations -/

/-- A reserved application. -/
def Application.reserved (a : Application) (now : Time) : Application := { a with syncScheduledAt := some now }

/-- An application whose reservation was released. -/
def Application.released (a : Application) : Application :=
  { a with syncScheduledAt := none, syncError := some dispatchFailedError }

/-- Rewrite the applications with some keys. -/
def Database.updateApplications (db : Database) (ids : List Nat) (f : Application → Application) : Database :=
  { db with applications := db.applications.map fun a => if a.id ∈ ids then f a else a }

/-- Reserve the next batch: the database to commit and the reserved ids. -/
def reserveApplications (db : Database) (config : SyncDispatchConfig) (now : Time) (locked : List Nat) :
    Database × List Nat :=
  let applicationIds := ((dueApplications db config now locked).take (config.batchSize db).toNat).map (·.id)
  (db.updateApplications applicationIds fun a => a.reserved now, applicationIds)

/-- Release the rows that were never published. -/
def releaseApplications (db : Database) (remainingIds : List Nat) : Database :=
  db.updateApplications remainingIds Application.released

/-! ## A call -/

/-- What a call returns. -/
structure SyncDispatchReport where
  applications : List Nat
  batchSize : Int
  deriving DecidableEq, Repr

/-- The outcome of a call: the database after it, the published ids, and what it returns or raises. -/
structure SyncDispatchOutcome where
  db : Database
  published : List Nat
  result : Except Exc SyncDispatchReport
  deriving DecidableEq

/-- The ids that a call returns. -/
def SyncDispatchOutcome.returned (outcome : SyncDispatchOutcome) : List Nat :=
  match outcome.result with
  | .ok report => report.applications
  | .error _ => []

/-- Enqueue the next batch of due application sync jobs, no other transaction being open. -/
def dispatchDueApplicationMetricsSyncs (db : Database) (config : SyncDispatchConfig)
    (enqueueApplication : Nat → Nat → Option Exc) (now : Time) : SyncDispatchOutcome :=
  if config.batchSize db = 0 then ⟨db, [], .ok ⟨[], 0⟩⟩
  else
    let reserved := reserveApplications db config now []
    let publication := publishAll enqueueApplication 0 reserved.2
    match publication.2 with
    | some e =>
      let remainingIds := reserved.2.drop publication.1.length
      ⟨releaseApplications reserved.1 remainingIds, publication.1, .error e⟩
    | none => ⟨reserved.1, publication.1, .ok ⟨publication.1, config.batchSize db⟩⟩

/-! ## Due applications -/

/-- The application is due for a sync. -/
def Application.Due (config : SyncDispatchConfig) (now : Time) (a : Application) : Prop :=
  (∀ s ∈ a.syncAt, s ≤ now - days config.windowDays) ∧
    ∀ s ∈ a.syncScheduledAt, s ≤ now - seconds config.retryAfterSeconds

instance (config : SyncDispatchConfig) (now : Time) (a : Application) : Decidable (a.Due config now) :=
  inferInstanceAs (Decidable (_ ∧ _))

section Due

variable {db : Database} {config : SyncDispatchConfig} {now : Time} {locked : List Nat}

theorem isTrue_nullOrLe (x : Option Time) (b : Time) :
    (Cond.or (Cond.isNull x) (Cond.le x (some b))).isTrue ↔ ∀ s ∈ x, s ≤ b := by
  cases x <;> simp

theorem mem_dueApplications {a : Application} :
    a ∈ dueApplications db config now locked ↔ a ∈ db.applications ∧ a.Due config now ∧ a.id ∉ locked := by
  simp only [dueApplications, mem_orderBy, List.mem_filter, mem_selectWhere, isTrue_nullOrLe, Application.Due,
    decide_eq_true_eq]
  tauto

/-- Without locks, the due applications are the due rows of the table. -/
theorem dueApplications_eq : dueApplications db config now [] =
    orderBy (fun a b => a.syncOrder ≤ b.syncOrder) (db.applications.filter fun a => a.Due config now) := by
  refine congrArg (orderBy _) ?_
  simp only [selectWhere, List.filter_filter]
  refine List.filter_congr fun a _ => ?_
  rw [Bool.eq_iff_iff, decide_eq_true_iff, Application.Due]
  simp only [Bool.and_eq_true, decide_eq_true_eq, isTrue_nullOrLe, List.not_mem_nil, not_false_eq_true, true_and]
  exact and_comm

theorem dueApplications_perm : (dueApplications db config now []).Perm
    (db.applications.filter fun a => a.Due config now) := by
  rw [dueApplications_eq]
  exact orderBy_perm _ _

theorem dueApplications_sorted (db : Database) (config : SyncDispatchConfig) (now : Time) (locked : List Nat) :
    (dueApplications db config now locked).Pairwise fun a b => a.syncOrder ≤ b.syncOrder := orderBy_pairwise _ _

/-- An application that is due stays so. -/
theorem Application.Due.mono {a : Application} (h : a.Due config now) {later : Time} (hl : now ≤ later) :
    a.Due config later :=
  ⟨fun s hs => (h.1 s hs).trans (sub_le_sub_right hl _), fun s hs => (h.2 s hs).trans (sub_le_sub_right hl _)⟩

theorem updateApplications_ids {f : Application → Application} (hf : ∀ a, (f a).id = a.id) (db : Database)
    (ids : List Nat) : Table.ids (db.updateApplications ids f).applications = Table.ids db.applications := by
  simp only [Database.updateApplications, Table.ids, List.map_map]
  refine List.map_congr_left fun a _ => ?_
  simp only [Function.comp_apply]
  split_ifs
  · exact hf a
  · rfl

theorem reserveApplications_ids (db : Database) (config : SyncDispatchConfig) (now : Time) (locked : List Nat) :
    Table.ids (reserveApplications db config now locked).1.applications = Table.ids db.applications :=
  updateApplications_ids (f := fun a => a.reserved now) (fun _ => rfl) _ _

end Due

/-- The batch size is positive as soon as there are applications. -/
theorem batchSize_pos {config : SyncDispatchConfig} {db : Database} (h : db.applications ≠ []) :
    0 < config.batchSize db := by
  have hlength : 0 < db.applications.length := List.length_pos_iff.mpr h
  unfold SyncDispatchConfig.batchSize calculateApplicationMetricsSyncBatchSize
  split_ifs with hnone hconfigured
  · omega
  · exact hconfigured
  · exact lt_max_of_lt_left one_pos

/-- A call whose publishes all succeed returns the ids that it reserved. -/
theorem dispatch_published (config : SyncDispatchConfig) {db : Database} (h : db.applications ≠ []) (now : Time) :
    (dispatchDueApplicationMetricsSyncs db config (fun _ _ => none) now).db = (reserveApplications db config now []).1 ∧
    (dispatchDueApplicationMetricsSyncs db config (fun _ _ => none) now).returned =
      (reserveApplications db config now []).2 := by
  have hpublish : ∀ (k : Nat) (l : List Nat), publishAll (fun _ _ => none) k l = (l, none) := by
    intro k l
    induction l generalizing k with
    | nil => rfl
    | cons a l ih => simp [publishAll, ih]
  have hbatch : config.batchSize db ≠ 0 := (batchSize_pos h).ne'
  simp [dispatchDueApplicationMetricsSyncs, hbatch, hpublish, SyncDispatchOutcome.returned]

end Washing
