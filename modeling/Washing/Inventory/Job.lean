import Washing.Inventory.Placement
import Washing.Lib.Transaction

/-!
# The inventory run as a job

`run_provisioner_inventory` once more, with the session explicit: the first commit, the steps of the `try` block on the
copy of the session, the last commit, and the recovery. Every step of the block may fail from outside. When the job
raises, the database is as it was before, but for two columns of the provisioner (`inventoryJob_error`); when it gets
through, it has done what the run does (`inventoryJob_ok`).
-/

namespace Washing

/-- What the session of a run holds: the rows, and the state of the loop. -/
structure InventoryWork where
  db : Database
  state : InventoryState

/-- The session after a commit or a rollback. -/
def InventoryWork.load (ticks : Nat) (db : Database) : InventoryWork := ⟨db, .start db ticks⟩

namespace InventoryJob

open Job

variable (faults : Faults InventoryWork) (env : InventoryEnv)

/-- The loop over the records. -/
def records (provisioner : MachineProvisioner) (now : Time) : List MachineRecord → Job Database InventoryWork Unit
  | [] => pure ()
  | record :: rest => do
    step faults fun w => (processRecord env provisioner now w.state record).map fun state => ({ w with state }, ())
    records provisioner now rest

/-- The flush of the first refresh, or of the commit when there is none. -/
def flush : Job Database InventoryWork InventoryState :=
  step faults fun w =>
    match w.state.session.flush (machineMapper env.clock) with
    | .error (row, other) => .error ⟨.integrityError, env.integrityMessage row other⟩
    | .ok session => .ok (⟨{ w.state with session }.store w.db, { w.state with session }⟩, { w.state with session })

/-- The refreshes. -/
def refreshes : Nat → List Nat → Job Database InventoryWork Unit
  | _, [] => pure ()
  | ticks, machineId :: machineIds => do
    step faults fun w =>
      (refreshMachineOptimization env.settings w.db machineId (env.clock ticks)).map fun r => ({ w with db := r.1 }, ())
    refreshes (ticks + 1) machineIds

/-- The assignments to the provisioner. -/
def succeeded (provisioner : MachineProvisioner) (now : Time) (db : Database) : Database :=
  { db with
    provisioners := Table.modify db.provisioners provisioner.id fun p =>
      { p with lastSuccessAt := some now, lastError := none } }

/-- The steps of the `try` block before its commit. -/
def steps (mock : InventoryConnector) (provisioner : MachineProvisioner) (now : Time) :
    Job Database InventoryWork InventoryReport := do
  let found ← step faults fun w => (discover mock provisioner).map fun found => (w, found)
  records faults env provisioner now found
  let st ← flush faults env
  refreshes faults env st.session.ticks (st.optimizationMachineIds.dedup.insertionSort (· ≤ ·))
  step faults fun w => .ok ({ w with db := succeeded provisioner now w.db }, ())
  return ⟨st.created, st.updated, st.flavorChanges⟩

/-- The `try` block. -/
def body (mock : InventoryConnector) (provisioner : MachineProvisioner) (now : Time) :
    Job Database InventoryWork InventoryReport :=
  committing faults (·.db) (steps faults env mock provisioner now)

/-- The recovery: the exception is recorded on the provisioner. -/
def record (provisionerId : Nat) (e : Exc) (w : InventoryWork) : InventoryWork :=
  { w with db := failRun env.unicode w.db provisionerId (.exception e) }

/-- Run one provisioner discovery. -/
def run (mock : InventoryConnector) (ticks provisionerId : Nat) : Job Database InventoryWork InventoryReport := do
  let found ← look fun w => Table.get w.db.provisioners provisionerId
  match found with
  | none => fail ⟨.valueError, "provisioner " ++ toString provisionerId ++ " not found"⟩
  | some provisioner =>
    let now := env.clock ticks
    save (·.db) fun w => .load (ticks + 1) (startRun w.db provisionerId now)
    if ¬ provisioner.enabled then do
      save (·.db) fun w => { w with db := failRun env.unicode w.db provisionerId (.message provisionerDisabledDetail) }
      fail ⟨.valueError, provisionerDisabledDetail⟩
    else
      guarded (.load (ticks + 1)) (·.db) (record env provisionerId) (body faults env mock (provisioner.started now) now)

end InventoryJob

open InventoryJob Job

/-- Run one provisioner discovery on a database: what it returns or raises, and the session after it. -/
def inventoryJob (faults : Faults InventoryWork) (env : InventoryEnv) (mock : InventoryConnector) (db : Database)
    (ticks provisionerId : Nat) : Except Exc InventoryReport × Work Database InventoryWork :=
  InventoryJob.run faults env mock ticks provisionerId ⟨db, .load ticks db, 0⟩

/-! ## When it raises -/

section Raises

variable {faults : Faults InventoryWork} {env : InventoryEnv} {mock : InventoryConnector} {p : MachineProvisioner}
  {now : Time}

theorem uncommitted_records : ∀ found : List MachineRecord, Uncommitted (records faults env p now found)
  | [] => uncommitted_pure ()
  | _ :: rest => (uncommitted_step faults _).bind fun _ => uncommitted_records rest

theorem uncommitted_refreshes : ∀ (machineIds : List Nat) (ticks : Nat),
    Uncommitted (refreshes faults env ticks machineIds)
  | [], _ => uncommitted_pure ()
  | _ :: machineIds, ticks => (uncommitted_step faults _).bind fun _ => uncommitted_refreshes machineIds (ticks + 1)

theorem uncommitted_steps : Uncommitted (InventoryJob.steps faults env mock p now) :=
  (uncommitted_step faults _).bind fun found =>
    (uncommitted_records found).bind fun _ =>
      (uncommitted_step faults _).bind fun _ =>
        (uncommitted_refreshes _ _).bind fun _ => (uncommitted_step faults _).bind fun _ => uncommitted_pure _

/-- Whatever happens in the `try` block, nothing of it lasts when it raises. -/
theorem atomic_body : Atomic (body faults env mock p now) :=
  uncommitted_steps.committing faults _

end Raises

/-- The provisioner after a run that raised. -/
def MachineProvisioner.failed (U : Unicode) (p : MachineProvisioner) (now : Time) (e : Exc) : MachineProvisioner :=
  { p with lastRunAt := some now, lastError := sanitizeOperationalError U (some (.exception e)) }

/-- A run that starts and fails writes two columns of its provisioner. -/
theorem failRun_startRun (U : Unicode) (db : Database) (provisionerId : Nat) (now : Time) (e : Exc) :
    failRun U (startRun db provisionerId now) provisionerId (.exception e) =
      { db with provisioners := Table.modify db.provisioners provisionerId fun p => p.failed U now e } := by
  have hid : ∀ p : MachineProvisioner, Row.id (p.started now) = Row.id p := fun _ => rfl
  simp only [failRun, startRun, Table.modify_modify hid]
  rfl

/-- A missing row is not rewritten. -/
theorem inventoryJob_not_found {faults : Faults InventoryWork} {env : InventoryEnv} {mock : InventoryConnector}
    {db : Database} {ticks provisionerId : Nat} (h : Table.get db.provisioners provisionerId = none) :
    inventoryJob faults env mock db ticks provisionerId =
      (.error ⟨.valueError, "provisioner " ++ toString provisionerId ++ " not found"⟩, ⟨db, .load ticks db, 0⟩) := by
  unfold inventoryJob InventoryJob.run
  rw [look_bind]
  simp only [InventoryWork.load, h]
  rfl

/-- A run of a disabled provisioner. -/
theorem inventoryJob_disabled {faults : Faults InventoryWork} {env : InventoryEnv} {mock : InventoryConnector}
    {db : Database} {ticks provisionerId : Nat} {p : MachineProvisioner}
    (h : Table.get db.provisioners provisionerId = some p) (hdisabled : p.enabled = false) :
    (inventoryJob faults env mock db ticks provisionerId).1 = .error ⟨.valueError, provisionerDisabledDetail⟩ ∧
    (inventoryJob faults env mock db ticks provisionerId).2.committed =
      failRun env.unicode (startRun db provisionerId (env.clock ticks)) provisionerId
        (.message provisionerDisabledDetail) := by
  unfold inventoryJob InventoryJob.run
  rw [look_bind]
  simp only [InventoryWork.load, h, hdisabled]
  exact ⟨rfl, rfl⟩

/-- A run of an enabled provisioner is its guarded block, after the first commit. -/
theorem inventoryJob_enabled {faults : Faults InventoryWork} {env : InventoryEnv} {mock : InventoryConnector}
    {db : Database} {ticks provisionerId : Nat} {p : MachineProvisioner}
    (h : Table.get db.provisioners provisionerId = some p) (henabled : p.enabled = true) :
    inventoryJob faults env mock db ticks provisionerId =
      guarded (.load (ticks + 1)) (·.db) (record env provisionerId)
        (body faults env mock (p.started (env.clock ticks)) (env.clock ticks))
        ⟨startRun db provisionerId (env.clock ticks),
          .load (ticks + 1) (startRun db provisionerId (env.clock ticks)), 1⟩ := by
  unfold inventoryJob InventoryJob.run
  rw [look_bind]
  simp only [InventoryWork.load, h, henabled]
  rfl

/-- A run that raises has written two columns of its provisioner. -/
theorem inventoryJob_error {faults : Faults InventoryWork} {env : InventoryEnv} {mock : InventoryConnector}
    {db : Database} {ticks provisionerId : Nat} {e : Exc}
    (h : (inventoryJob faults env mock db ticks provisionerId).1 = .error e) :
    (inventoryJob faults env mock db ticks provisionerId).2.committed =
      { db with
        provisioners := Table.modify db.provisioners provisionerId fun p =>
          p.failed env.unicode (env.clock ticks) e } := by
  cases hget : Table.get db.provisioners provisionerId with
  | none =>
    rw [inventoryJob_not_found hget]
    have hsame : (Table.modify db.provisioners provisionerId fun p => p.failed env.unicode (env.clock ticks) e) =
        db.provisioners := Table.modify_of_get_none hget _
    rw [hsame]
  | some p =>
    cases henabled : p.enabled with
    | false =>
      obtain ⟨herror, hcommitted⟩ := inventoryJob_disabled hget henabled
      cases herror.symm.trans h
      rw [hcommitted, ← failRun_startRun]
      rfl
    | true =>
      rw [inventoryJob_enabled hget henabled] at h ⊢
      rw [guarded_error atomic_body h]
      exact failRun_startRun env.unicode db provisionerId (env.clock ticks) e

/-! ## When it gets through -/

/-- What the block does to the copy when nothing happens from outside. -/
def blockEffect (env : InventoryEnv) (mock : InventoryConnector) (p : MachineProvisioner) (now : Time)
    (w : InventoryWork) : Except Exc (InventoryWork × InventoryReport) := do
  let found ← discover mock p
  let st ← processRecords env p now w.state found
  match st.session.flush (machineMapper env.clock) with
  | .error (row, other) => .error ⟨.integrityError, env.integrityMessage row other⟩
  | .ok session =>
    let st := { st with session }
    let db ← refreshMachines env session.ticks (st.store w.db) (st.optimizationMachineIds.dedup.insertionSort (· ≤ ·))
    return (⟨succeeded p now db, st⟩, ⟨st.created, st.updated, st.flavorChanges⟩)

theorem computes_records (env : InventoryEnv) (p : MachineProvisioner) (now : Time) : ∀ found : List MachineRecord,
    Computes (records .none env p now found) fun w =>
      (processRecords env p now w.state found).map fun state => ({ w with state }, ())
  | [] => computes_pure ()
  | record :: rest => by
    refine ((computes_step _).bind fun _ => computes_records env p now rest).congr fun w => ?_
    rw [processRecords]
    cases processRecord env p now w.state record with
    | error e => rfl
    | ok st => rfl

theorem computes_refreshes (env : InventoryEnv) : ∀ (machineIds : List Nat) (ticks : Nat),
    Computes (refreshes .none env ticks machineIds) fun w =>
      (refreshMachines env ticks w.db machineIds).map fun db => ({ w with db }, ())
  | [], _ => computes_pure ()
  | machineId :: machineIds, ticks => by
    refine ((computes_step _).bind fun _ => computes_refreshes env machineIds (ticks + 1)).congr fun w => ?_
    rw [refreshMachines]
    cases refreshMachineOptimization env.settings w.db machineId (env.clock ticks) with
    | error e => rfl
    | ok r => rfl

theorem computes_steps (env : InventoryEnv) (mock : InventoryConnector) (p : MachineProvisioner) (now : Time) :
    Computes (InventoryJob.steps .none env mock p now) (blockEffect env mock p now) := by
  refine ((computes_step _).bind fun found => (computes_records env p now found).bind fun _ =>
    (computes_step _).bind fun st => (computes_refreshes env _ _).bind fun _ => (computes_step _).bind fun _ =>
      computes_pure _).congr fun w => ?_
  unfold blockEffect
  cases hfound : discover mock p with
  | error e => rfl
  | ok found =>
    simp only [Except.map, bind, Except.bind]
    cases hst : processRecords env p now w.state found with
    | error e => rfl
    | ok st =>
      simp only
      cases hflush : st.session.flush (machineMapper env.clock) with
      | error x => rfl
      | ok session =>
        simp only
        cases refreshMachines env session.ticks ({ st with session }.store w.db)
            (st.optimizationMachineIds.dedup.insertionSort (· ≤ ·)) with
        | error e => rfl
        | ok db => rfl

/-- On a fresh session the block does what the body of the run does. -/
theorem blockEffect_load (env : InventoryEnv) (mock : InventoryConnector) (p : MachineProvisioner) (now : Time)
    (ticks : Nat) (db : Database) :
    (∀ e, discoverAndStore env mock db p now ticks = .error e →
      blockEffect env mock p now (.load ticks db) = .error e) ∧
    ∀ b, discoverAndStore env mock db p now ticks = .ok b → ∃ w, blockEffect env mock p now (.load ticks db) =
      .ok (w, ⟨b.state.created, b.state.updated, b.state.flavorChanges⟩) ∧ w.db = b.db := by
  unfold blockEffect discoverAndStore
  cases discover mock p with
  | error e => exact ⟨by rintro _ ⟨⟩; rfl, by rintro _ ⟨⟩⟩
  | ok found =>
    simp only [bind, Except.bind, InventoryWork.load]
    cases processRecords env p now (.start db ticks) found with
    | error e => exact ⟨by rintro _ ⟨⟩; rfl, by rintro _ ⟨⟩⟩
    | ok st =>
      simp only
      cases st.session.flush (machineMapper env.clock) with
      | error x => exact ⟨by rintro _ ⟨⟩; rfl, by rintro _ ⟨⟩⟩
      | ok session =>
        simp only
        cases refreshMachines env session.ticks ({ st with session }.store db)
            (st.optimizationMachineIds.dedup.insertionSort (· ≤ ·)) with
        | error e => exact ⟨by rintro _ ⟨⟩; rfl, by rintro _ ⟨⟩⟩
        | ok db' =>
          refine ⟨by rintro _ ⟨⟩, fun b hb => ?_⟩
          cases hb
          exact ⟨_, rfl, rfl⟩

/-- A block that gets through has done what it does when nothing happens from outside. -/
theorem refines_body (faults : Faults InventoryWork) (env : InventoryEnv) (mock : InventoryConnector)
    (p : MachineProvisioner) (now : Time) : Refines (body faults env mock p now) (body .none env mock p now) := by
  have hrecords : ∀ found, Refines (records faults env p now found) (records .none env p now found) := by
    intro found
    induction found with
    | nil => exact .refl _
    | cons record rest ih => exact (refines_step faults _).bind fun _ => ih
  have hrefreshes : ∀ machineIds ticks,
      Refines (refreshes faults env ticks machineIds) (refreshes .none env ticks machineIds) := by
    intro machineIds
    induction machineIds with
    | nil => exact fun _ => .refl _
    | cons machineId machineIds ih => exact fun ticks => (refines_step faults _).bind fun _ => ih (ticks + 1)
  refine Refines.committing ?_ faults _
  exact (refines_step faults _).bind fun found => (hrecords found).bind fun _ => (refines_step faults _).bind fun st =>
    (hrefreshes _ _).bind fun _ => (refines_step faults _).bind fun _ => .refl _

/-- A run to which nothing happens from outside is the inventory run. -/
theorem inventoryJob_none (env : InventoryEnv) (mock : InventoryConnector) (db : Database) (ticks provisionerId : Nat) :
    (inventoryJob .none env mock db ticks provisionerId).1 =
      (runProvisionerInventory env mock db ticks provisionerId).result ∧
    (inventoryJob .none env mock db ticks provisionerId).2.committed =
      (runProvisionerInventory env mock db ticks provisionerId).db := by
  unfold runProvisionerInventory
  cases hget : Table.get db.provisioners provisionerId with
  | none =>
    rw [inventoryJob_not_found hget]
    exact ⟨rfl, rfl⟩
  | some p =>
    cases henabled : p.enabled with
    | false =>
      have hdisabled : ¬ (p.started (env.clock ticks)).enabled = true := by
        rw [show (p.started (env.clock ticks)).enabled = p.enabled from rfl, henabled]
        decide
      simp only [if_pos hdisabled]
      exact inventoryJob_disabled hget henabled
    | true =>
      have hrunning : ¬ ¬ (p.started (env.clock ticks)).enabled = true := not_not.mpr henabled
      simp only [if_neg hrunning]
      obtain ⟨herror, hok⟩ := (computes_steps env mock (p.started (env.clock ticks)) (env.clock ticks)).guarded
        (inventoryJob_enabled hget henabled).symm
      have hload := blockEffect_load env mock (p.started (env.clock ticks)) (env.clock ticks) (ticks + 1)
        (startRun db provisionerId (env.clock ticks))
      cases hstore : discoverAndStore env mock (startRun db provisionerId (env.clock ticks))
          (p.started (env.clock ticks)) (env.clock ticks) (ticks + 1) with
      | error e => exact herror e (hload.1 e hstore)
      | ok b =>
        obtain ⟨w, hblock, hdb⟩ := hload.2 b hstore
        obtain ⟨hresult, hcommitted⟩ := hok w _ hblock
        exact ⟨hresult, hcommitted.trans hdb⟩

/-- A run that gets through has done what the inventory run does. -/
theorem inventoryJob_ok {faults : Faults InventoryWork} {env : InventoryEnv} {mock : InventoryConnector} {db : Database}
    {ticks provisionerId : Nat} {report : InventoryReport}
    (h : (inventoryJob faults env mock db ticks provisionerId).1 = .ok report) :
    (runProvisionerInventory env mock db ticks provisionerId).result = .ok report ∧
    (inventoryJob faults env mock db ticks provisionerId).2.committed =
      (runProvisionerInventory env mock db ticks provisionerId).db := by
  have hsame : inventoryJob faults env mock db ticks provisionerId =
      inventoryJob .none env mock db ticks provisionerId := by
    cases hget : Table.get db.provisioners provisionerId with
    | none => rw [inventoryJob_not_found hget, inventoryJob_not_found hget]
    | some p =>
      cases henabled : p.enabled with
      | false =>
        rw [(inventoryJob_disabled hget henabled).1] at h
        cases h
      | true =>
        rw [inventoryJob_enabled hget henabled] at h ⊢
        rw [inventoryJob_enabled hget henabled]
        exact (refines_body faults env mock _ _).guarded h
  rw [hsame] at h ⊢
  obtain ⟨hresult, hcommitted⟩ := inventoryJob_none env mock db ticks provisionerId
  exact ⟨hresult.symm.trans h, hcommitted⟩

/-- The connectors after a run that gets through. -/
theorem inventoryJob_connectors {faults : Faults InventoryWork} {env : InventoryEnv} {mock : InventoryConnector}
    {db : Database} {ticks provisionerId : Nat} {report : InventoryReport}
    (h : (inventoryJob faults env mock db ticks provisionerId).1 = .ok report) :
    (inventoryJob faults env mock db ticks provisionerId).2.committed.providers = db.providers ∧
    (inventoryJob faults env mock db ticks provisionerId).2.committed.provisioners =
      Table.modify db.provisioners provisionerId fun p =>
        { p with lastRunAt := some (env.clock ticks), lastSuccessAt := some (env.clock ticks), lastError := none } := by
  obtain ⟨hresult, hcommitted⟩ := inventoryJob_ok h
  obtain ⟨p, body, hget, -, hbody, hrun⟩ := run_ok hresult
  rw [hcommitted, hrun]
  refine ⟨(discoverAndStore_frame hbody).1, ?_⟩
  have hid : ∀ q : MachineProvisioner, Row.id (q.started (env.clock ticks)) = Row.id q := fun _ => rfl
  have hp : p.id = provisionerId := (Table.get_some hget).2
  rw [discoverAndStore_provisioners hbody]
  simp only [startRun, MachineProvisioner.started, hp]
  exact Table.modify_modify hid _ _

end Washing
