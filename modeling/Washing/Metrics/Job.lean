import Washing.Lib.Transaction
import Washing.Metrics.Placement

/-!
# The metric collection as a job

`run_provider_machine_collection` once more, with the session explicit and every step of the `try` block exposed to
failures from outside. When the job raises, the database is as it was before, but for the error of the provider
(`collectionJob_error`); when it gets through, it has done what the collection does (`collectionJob_ok`).
-/

namespace Washing

/-- What the session of a collection holds: the rows, and what it keeps for the records. -/
structure CollectionWork where
  db : Database
  ops : List SampleOp

/-- The session after a commit or a rollback. -/
def CollectionWork.load (db : Database) : CollectionWork := ⟨db, []⟩

/-- The records that the connector of a provider returns for a machine. -/
def collect (env : CollectionEnv) (provider : MachineProvider) (machine : Machine) :
    Except Exc (List MetricRecord) := do
  let connector ← getMetricCollector env.mock provider.type
  connector provider [machine]

namespace CollectionJob

open Job

variable (faults : Faults CollectionWork) (env : CollectionEnv)

/-- The loop over the records. -/
def samples (provider : MachineProvider) (machine : Machine) :
    Nat → List MetricRecord → Job Database CollectionWork Unit
  | _, [] => pure ()
  | k, record :: records => do
    step faults fun w =>
      (upsertDailyMetric env.unicode (w.db.metrics provider.scope) provider record [machine] (env.clock k)).map
        fun op =>
        ({ w with ops := w.ops ++ [op] }, ())
    samples provider machine (k + 1) records

/-- The steps of the `try` block before its commit. -/
def steps (provider : MachineProvider) (machine : Machine) : Job Database CollectionWork CollectionReport := do
  let records ← step faults fun w => (collect env provider machine).map fun records => (w, records)
  samples faults env provider machine 0 records
  step faults fun w =>
    (flushSamples env (w.db.metrics provider.scope) w.db provider w.ops (env.clock records.length)).map fun db =>
      ({ w with db }, ())
  step faults fun w =>
    (refreshMachineOptimization env.settings w.db machine.id (env.clock (records.length + 1))).map fun r =>
      ({ w with db := r.1 }, collectionReport provider.id machine.id w.ops)

/-- The `try` block. -/
def body (provider : MachineProvider) (machine : Machine) : Job Database CollectionWork CollectionReport :=
  committing faults (·.db) (steps faults env provider machine)

/-- The recovery: the exception is recorded on the provider. -/
def record (providerId : Nat) (e : Exc) (w : CollectionWork) : CollectionWork :=
  let providers := Table.modify w.db.providers providerId fun p => p.recordError env.unicode (some (.exception e))
  { w with db := { w.db with providers } }

/-- Run one collection for a machine and a provider. -/
def run (providerId machineId : Nat) : Job Database CollectionWork CollectionReport := do
  let loaded ← look fun w => loadProvider w.db providerId
  match loaded with
  | .error e => fail e
  | .ok none => return ⟨providerId, machineId, 0, 0, 1, some .providerNotFound⟩
  | .ok (some provider) =>
    let visible ← look fun w => scopedMachine w.db provider machineId
    match visible with
    | .error e => fail e
    | .ok none =>
      let found ← look fun w => Table.get w.db.machines machineId
      let status := if found = none then .machineNotFound else .machineOutOfScope
      return ⟨provider.id, machineId, 0, 0, 1, some status⟩
    | .ok (some machine) => guarded .load (·.db) (record env providerId) (body faults env provider machine)

end CollectionJob

open CollectionJob Job

/-- Run one collection on a database: what it returns or raises, and the session after it. -/
def collectionJob (faults : Faults CollectionWork) (env : CollectionEnv) (db : Database) (providerId machineId : Nat) :
    Except Exc CollectionReport × Work Database CollectionWork :=
  CollectionJob.run faults env providerId machineId ⟨db, .load db, 0⟩

section Steps

variable {faults : Faults CollectionWork} {env : CollectionEnv} {p : MachineProvider} {m : Machine}

theorem uncommitted_samples : ∀ (records : List MetricRecord) (k : Nat), Uncommitted (samples faults env p m k records)
  | [], _ => uncommitted_pure ()
  | _ :: records, k => (uncommitted_step faults _).bind fun _ => uncommitted_samples records (k + 1)

/-- Whatever happens in the `try` block, nothing of it lasts when it raises. -/
theorem atomic_collectionBody : Atomic (CollectionJob.body faults env p m) := by
  have hsteps : Uncommitted (CollectionJob.steps faults env p m) :=
    (uncommitted_step faults _).bind fun records => (uncommitted_samples records 0).bind fun _ =>
      (uncommitted_step faults _).bind fun _ => uncommitted_step faults _
  exact hsteps.committing faults _

/-- A block that gets through has done what it does when nothing happens from outside. -/
theorem refines_collectionBody : Refines (CollectionJob.body faults env p m) (CollectionJob.body .none env p m) := by
  have hsamples : ∀ records k, Refines (samples faults env p m k records) (samples .none env p m k records) := by
    intro records
    induction records with
    | nil => exact fun _ => .refl _
    | cons record records ih => exact fun k => (refines_step faults _).bind fun _ => ih (k + 1)
  refine Refines.committing ?_ faults _
  exact (refines_step faults _).bind fun records => (hsamples records 0).bind fun _ =>
    (refines_step faults _).bind fun _ => refines_step faults _

end Steps

/-! ## When it raises -/

section Lookups

variable {faults : Faults CollectionWork} {env : CollectionEnv} {db : Database} {providerId machineId : Nat}

/-- A collection of a machine that the provider sees is its guarded block. -/
theorem collectionJob_found {p : MachineProvider} {m : Machine} (h : loadProvider db providerId = .ok (some p))
    (hm : scopedMachine db p machineId = .ok (some m)) :
    collectionJob faults env db providerId machineId =
      guarded .load (·.db) (record env providerId) (CollectionJob.body faults env p m) ⟨db, .load db, 0⟩ := by
  unfold collectionJob CollectionJob.run
  rw [look_bind]
  simp only [CollectionWork.load, h]
  rw [look_bind]
  simp only [hm]

/-- A collection finds its provider and its machine, or it does nothing. -/
theorem collection_lookups (db : Database) (providerId machineId : Nat) :
    (∃ result, (∀ report, result = .ok report → report.status ≠ none) ∧ ∀ faults env,
      collectionJob faults env db providerId machineId = (result, ⟨db, .load db, 0⟩) ∧
      runProviderMachineCollection env db providerId machineId = (db, result)) ∨
    ∃ p m, loadProvider db providerId = .ok (some p) ∧ scopedMachine db p machineId = .ok (some m) := by
  unfold collectionJob CollectionJob.run runProviderMachineCollection
  simp only [look_bind, CollectionWork.load]
  cases loadProvider db providerId with
  | error e => exact .inl ⟨.error e, by rintro _ ⟨⟩, fun _ _ => ⟨rfl, rfl⟩⟩
  | ok found =>
    cases found with
    | none => exact .inl ⟨_, by rintro _ ⟨⟩ ⟨⟩, fun _ _ => ⟨rfl, rfl⟩⟩
    | some p =>
      simp only [look_bind]
      cases hscoped : scopedMachine db p machineId with
      | error e => exact .inl ⟨.error e, by rintro _ ⟨⟩, fun _ _ => ⟨rfl, rfl⟩⟩
      | ok visible =>
        cases visible with
        | none => exact .inl ⟨_, by rintro _ ⟨⟩ ⟨⟩, fun _ _ => ⟨rfl, rfl⟩⟩
        | some m => exact .inr ⟨p, m, rfl, hscoped⟩

/-- A collection that raises has at most written the error of its provider. -/
theorem collectionJob_error {e : Exc} (h : (collectionJob faults env db providerId machineId).1 = .error e) :
    (collectionJob faults env db providerId machineId).2.committed = db ∨
    (collectionJob faults env db providerId machineId).2.committed =
      { db with
        providers := Table.modify db.providers providerId fun p =>
          p.recordError env.unicode (some (.exception e)) } := by
  obtain ⟨result, -, hnothing⟩ | ⟨p, m, hp, hm⟩ := collection_lookups db providerId machineId
  · rw [(hnothing faults env).1]
    exact .inl rfl
  · rw [collectionJob_found hp hm] at h ⊢
    exact .inr (guarded_error atomic_collectionBody h)

end Lookups

/-! ## When it gets through -/

/-- The loop keeps what the lookups of the records find. -/
theorem computes_samples (env : CollectionEnv) (p : MachineProvider) (m : Machine) :
    ∀ (records : List MetricRecord) (k : Nat),
    Computes (samples .none env p m k records) fun w =>
      (upsertAll env (w.db.metrics p.scope) p [m] k records).map fun ops => ({ w with ops := w.ops ++ ops }, ())
  | [], _ => by
    refine (computes_pure ()).congr fun w => ?_
    simp [upsertAll, Except.map]
  | record :: records, k => by
    refine ((computes_step _).bind fun _ => computes_samples env p m records (k + 1)).congr fun w => ?_
    rw [upsertAll]
    cases upsertDailyMetric env.unicode (w.db.metrics p.scope) p record [m] (env.clock k) with
    | error e => rfl
    | ok op =>
      simp only [Except.map, bind, Except.bind]
      cases upsertAll env (w.db.metrics p.scope) p [m] (k + 1) records with
      | error e => rfl
      | ok ops => simp

/-- What the block does to the copy when nothing happens from outside. -/
def collectionEffect (env : CollectionEnv) (p : MachineProvider) (m : Machine) (w : CollectionWork) :
    Except Exc (CollectionWork × CollectionReport) := do
  let records ← collect env p m
  let ops ← upsertAll env (w.db.metrics p.scope) p [m] 0 records
  let db ← flushSamples env (w.db.metrics p.scope) w.db p (w.ops ++ ops) (env.clock records.length)
  let (db, _) ← refreshMachineOptimization env.settings db m.id (env.clock (records.length + 1))
  return (⟨db, w.ops ++ ops⟩, collectionReport p.id m.id (w.ops ++ ops))

theorem computes_collection (env : CollectionEnv) (p : MachineProvider) (m : Machine) :
    Computes (CollectionJob.steps .none env p m) (collectionEffect env p m) := by
  refine ((computes_step _).bind fun records => (computes_samples env p m records 0).bind fun _ =>
    (computes_step _).bind fun _ => computes_step _).congr fun w => ?_
  unfold collectionEffect
  cases collect env p m with
  | error e => rfl
  | ok records =>
    simp only [Except.map, bind, Except.bind]
    cases upsertAll env (w.db.metrics p.scope) p [m] 0 records with
    | error e => rfl
    | ok ops =>
      simp only
      cases flushSamples env (w.db.metrics p.scope) w.db p (w.ops ++ ops) (env.clock records.length) with
      | error e => rfl
      | ok db =>
        simp only
        cases refreshMachineOptimization env.settings db m.id (env.clock (records.length + 1)) with
        | error e => rfl
        | ok r => rfl

/-- On a fresh session the block does what the body of the collection does. -/
theorem collectionEffect_load (env : CollectionEnv) (p : MachineProvider) (m : Machine) (db : Database) :
    (∀ e, collectSamples env db p m = .error e → collectionEffect env p m (.load db) = .error e) ∧
    ∀ db' report, collectSamples env db p m = .ok (db', report) →
      ∃ w, collectionEffect env p m (.load db) = .ok (w, report) ∧ w.db = db' := by
  have hcollect : collect env p m = getMetricCollector env.mock p.type >>= fun connector => connector p [m] := rfl
  unfold collectionEffect collectSamples
  rw [hcollect]
  cases getMetricCollector env.mock p.type with
  | error e => exact ⟨by rintro _ ⟨⟩; rfl, by rintro _ _ ⟨⟩⟩
  | ok connector =>
    simp only [bind, Except.bind, CollectionWork.load, List.nil_append]
    cases connector p [m] with
    | error e => exact ⟨by rintro _ ⟨⟩; rfl, by rintro _ _ ⟨⟩⟩
    | ok records =>
      simp only
      cases upsertAll env (db.metrics p.scope) p [m] 0 records with
      | error e => exact ⟨by rintro _ ⟨⟩; rfl, by rintro _ _ ⟨⟩⟩
      | ok ops =>
        simp only
        cases flushSamples env (db.metrics p.scope) db p ops (env.clock records.length) with
        | error e => exact ⟨by rintro _ ⟨⟩; rfl, by rintro _ _ ⟨⟩⟩
        | ok db' =>
          simp only
          cases refreshMachineOptimization env.settings db' m.id (env.clock (records.length + 1)) with
          | error e => exact ⟨by rintro _ ⟨⟩; rfl, by rintro _ _ ⟨⟩⟩
          | ok r =>
            refine ⟨by rintro _ ⟨⟩, fun db'' report h => ?_⟩
            cases h
            exact ⟨_, rfl, rfl⟩

/-- A collection to which nothing happens from outside is `runProviderMachineCollection`. -/
theorem collectionJob_none (env : CollectionEnv) (db : Database) (providerId machineId : Nat) :
    (collectionJob .none env db providerId machineId).1 = (runProviderMachineCollection env db providerId machineId).2 ∧
    (collectionJob .none env db providerId machineId).2.committed =
      (runProviderMachineCollection env db providerId machineId).1 := by
  obtain ⟨result, -, hnothing⟩ | ⟨p, m, hp, hm⟩ := collection_lookups db providerId machineId
  · rw [(hnothing .none env).1, (hnothing .none env).2]
    exact ⟨rfl, rfl⟩
  · obtain ⟨herror, hok⟩ := (computes_collection env p m).guarded (collectionJob_found hp hm).symm
    have hload := collectionEffect_load env p m db
    simp only [runProviderMachineCollection, hp, hm]
    cases hcollect : collectSamples env db p m with
    | error e => exact herror e (hload.1 e hcollect)
    | ok r =>
      obtain ⟨w, heffect, hdb⟩ := hload.2 r.1 r.2 hcollect
      obtain ⟨hresult, hcommitted⟩ := hok w r.2 heffect
      exact ⟨hresult, hcommitted.trans hdb⟩

/-- A collection that gets through has done what `runProviderMachineCollection` does. -/
theorem collectionJob_ok {faults : Faults CollectionWork} {env : CollectionEnv} {db : Database}
    {providerId machineId : Nat} {report : CollectionReport}
    (h : (collectionJob faults env db providerId machineId).1 = .ok report) :
    (runProviderMachineCollection env db providerId machineId).2 = .ok report ∧
    (collectionJob faults env db providerId machineId).2.committed =
      (runProviderMachineCollection env db providerId machineId).1 := by
  have hsame : collectionJob faults env db providerId machineId = collectionJob .none env db providerId machineId := by
    obtain ⟨result, -, hnothing⟩ | ⟨p, m, hp, hm⟩ := collection_lookups db providerId machineId
    · rw [(hnothing faults env).1, (hnothing .none env).1]
    · rw [collectionJob_found hp hm] at h ⊢
      rw [collectionJob_found hp hm]
      exact refines_collectionBody.guarded h
  rw [hsame] at h ⊢
  obtain ⟨hresult, hcommitted⟩ := collectionJob_none env db providerId machineId
  exact ⟨hresult.symm.trans h, hcommitted⟩

/-- What a collection that gets through has done: nothing, or its body. -/
theorem collectionJob_cases {faults : Faults CollectionWork} {env : CollectionEnv} {db : Database}
    {providerId machineId : Nat} {report : CollectionReport}
    (h : (collectionJob faults env db providerId machineId).1 = .ok report) :
    (report.status ≠ none ∧ (collectionJob faults env db providerId machineId).2.committed = db) ∨
    ∃ p m, p.id = providerId ∧
      collectSamples env db p m = .ok ((collectionJob faults env db providerId machineId).2.committed, report) := by
  obtain ⟨result, hstatus, hnothing⟩ | ⟨p, m, hp, hm⟩ := collection_lookups db providerId machineId
  · rw [(hnothing faults env).1] at h ⊢
    exact .inl ⟨hstatus report h, rfl⟩
  · obtain ⟨hresult, hcommitted⟩ := collectionJob_ok h
    refine .inr ⟨p, m, (loadProvider_some hp).2, ?_⟩
    rw [hcommitted]
    simp only [runProviderMachineCollection, hp, hm] at hresult ⊢
    cases hcollect : collectSamples env db p m with
    | error e =>
      rw [hcollect] at hresult
      cases hresult
    | ok r =>
      rw [hcollect] at hresult
      cases hresult
      rfl

/-- The connectors after a collection that gets through: it advances the time of the last success, or does nothing. -/
theorem collectionJob_connectors {faults : Faults CollectionWork} {env : CollectionEnv} {db : Database}
    {providerId machineId : Nat} {report : CollectionReport}
    (h : (collectionJob faults env db providerId machineId).1 = .ok report) :
    (collectionJob faults env db providerId machineId).2.committed.provisioners = db.provisioners ∧
    if report.status = none then
      ∃ now, (collectionJob faults env db providerId machineId).2.committed.providers =
        Table.modify db.providers providerId fun p => p.succeeded now
    else (collectionJob faults env db providerId machineId).2.committed = db := by
  constructor
  · rw [(collectionJob_ok h).2]
    exact (collection_sampled env db providerId machineId).provisioners
  · obtain ⟨hstatus, hcommitted⟩ | ⟨p, m, hid, hcollect⟩ := collectionJob_cases h
    · rw [if_neg hstatus]
      exact hcommitted
    · rw [if_pos (collectSamples_status hcollect), ← hid]
      rw [← hid] at hcollect
      exact collectSamples_providers hcollect

end Washing
