import Washing.Inventory.Outcome

/-!
# Retention

`purgeStaleMachines` judges a machine by `updated_at`. No line of the inventory loop sets this column: it is stamped
when the row is inserted, and when a flush finds a changed column and updates the row. A machine that is matched
without a change keeps its old time, and is deleted while it is still reported (`unchanged_machine_purged`). What a
purge does keep are the machines that a recent run wrote (`purge_keeps_written`).

The proof is in two steps: every row that a run leaves is as it was, or was written by the run and has a time of the run
(`run_stamps`), and so the rows that were written are never older than the run that wrote them (`Stamped`).
-/

namespace Washing

/-! ## The purge -/

/-- What a purge returns. -/
structure PurgeReport where
  deleted : Nat
  status : String
  deriving DecidableEq, Repr

/-- Delete machines whose last update is older than the configured retention window. The rows that refer to them go with
them. -/
def purgeStaleMachines (db : Database) (retentionDays : Int) (now : Time) : Database × PurgeReport :=
  let cutoff := now - days retentionDays
  let stale := db.machines.filter fun m => m.updatedAt < cutoff
  let kept := fun machineId : Nat => decide (machineId ∉ stale.map (·.id))
  ({ db with
      machines := db.machines.filter fun m => ¬ m.updatedAt < cutoff
      flavorHistory := db.flavorHistory.filter fun r => kept r.machineId
      cpuMetrics := db.cpuMetrics.filter fun r => kept r.machineId
      ramMetrics := db.ramMetrics.filter fun r => kept r.machineId
      diskMetrics := db.diskMetrics.filter fun r => kept r.machineId
      optimizations := db.optimizations.filter fun r => kept r.machineId },
    ⟨stale.length, "completed"⟩)

theorem mem_purgeStaleMachines {db : Database} {retentionDays : Int} {now : Time} {m : Machine} :
    m ∈ (purgeStaleMachines db retentionDays now).1.machines ↔
      m ∈ db.machines ∧ now - days retentionDays ≤ m.updatedAt := by
  simp [purgeStaleMachines]

/-! ## The rows of a run -/

/-- The rows of a loop that started on `rows` at the reading `lo`: written since then, or as they were. -/
structure StampInv (clock : Nat → Time) (rows : List Machine) (lo : Nat) (st : InventoryState) : Prop where
  keyed : Table.Keyed st.session.rows
  fresh : ∀ t ∈ st.session.rows, Row.id t < st.nextId
  lo_le : lo ≤ st.session.ticks
  stamped : ∀ t ∈ st.session.rows, Row.id t ∈ st.session.emitted → ∃ k, lo ≤ k ∧ t.stored.updatedAt = clock k
  kept : ∀ t ∈ st.session.rows, Row.id t ∉ st.session.emitted → t.stored ∈ rows

section Loop

variable {env : InventoryEnv} {p : MachineProvisioner} {rows : List Machine} {lo : Nat} {now : Time}
  {st : InventoryState}

theorem stampInv_start {db : Database} (hk : Table.Keyed db.machines) (hf : ∀ m ∈ db.machines, m.id < db.nextId)
    (ticks : Nat) : StampInv env.clock db.machines ticks (.start db ticks) := by
  have hrows : ∀ t ∈ (InventoryState.start db ticks).session.rows, ∃ m ∈ db.machines, t = Tracked.clean m := by
    intro t ht
    obtain ⟨m, hm, rfl⟩ := List.mem_map.mp ht
    exact ⟨m, hm, rfl⟩
  constructor
  case keyed =>
    unfold Table.Keyed Table.ids at hk ⊢
    rw [InventoryState.start, Session.load, List.map_map]
    exact hk
  case fresh =>
    intro t ht
    obtain ⟨m, hm, rfl⟩ := hrows t ht
    exact hf m hm
  case lo_le => exact le_rfl
  case stamped => simp [InventoryState.start, Session.load]
  case kept =>
    intro t ht _
    obtain ⟨m, hm, rfl⟩ := hrows t ht
    exact hm

/-- A matched record changes objects only. -/
theorem StampInv.update (h : StampInv env.clock rows lo st) (r : MachineRecord) (row : Machine) :
    StampInv env.clock rows lo (updateMachine env p now st r row) := by
  obtain ⟨hsession, -, -, -, hnext, -⟩ := updateMachine_fields env p now st r row
  have hrows : ∀ u ∈ (updateMachine env p now st r row).session.rows, ∃ t ∈ st.session.rows,
      Row.id u = Row.id t ∧ u.stored = t.stored := by
    intro u hu
    rw [hsession] at hu
    obtain ⟨t, ht, hstored, -⟩ := Session.mem_assign hu
    have hid : Row.id u.stored = Row.id t.stored := by rw [hstored]
    exact ⟨t, ht, hid, hstored⟩
  have hemitted : (updateMachine env p now st r row).session.emitted = st.session.emitted := by rw [hsession]; rfl
  constructor
  case keyed =>
    unfold Table.Keyed
    rw [hsession, Session.ids_assign]
    exact h.keyed
  case fresh =>
    intro u hu
    obtain ⟨t, ht, hid, -⟩ := hrows u hu
    exact hid ▸ (h.fresh t ht).trans_le hnext
  case lo_le =>
    rw [hsession]
    exact h.lo_le
  case stamped =>
    intro u hu hin
    obtain ⟨t, ht, hid, hstored⟩ := hrows u hu
    rw [hstored]
    exact h.stamped t ht (hid ▸ hemitted ▸ hin)
  case kept =>
    intro u hu hout
    obtain ⟨t, ht, hid, hstored⟩ := hrows u hu
    rw [hstored]
    exact h.kept t ht (hid ▸ hemitted ▸ hout)

/-- A flush stamps the rows that it writes. -/
theorem StampInv.flush (h : StampInv env.clock rows lo st) {session : Session Machine}
    (hs : st.session.flush (machineMapper env.clock) = .ok session) :
    StampInv env.clock rows lo { st with session } := by
  obtain ⟨-, hflushed⟩ := Session.flush_ok _ h.keyed hs
  have hmem := hflushed.mem_emitted
  constructor
  case keyed =>
    unfold Table.Keyed
    rw [hflushed.ids]
    exact h.keyed
  case fresh =>
    intro u hu
    obtain ⟨-, t, ht, hid, -⟩ := hflushed.row _ hu
    exact hid ▸ h.fresh t ht
  case lo_le => exact h.lo_le.trans hflushed.ticks_le
  case stamped =>
    intro u hu hin
    obtain ⟨-, t, ht, hid, ⟨-, k, hk, hstored⟩ | ⟨hclean, rfl⟩⟩ := hflushed.row _ hu
    · exact ⟨k, h.lo_le.trans hk, by rw [hstored]; rfl⟩
    · rcases (hmem _).mp hin with hin | ⟨v, hv, hvid, hp⟩
      · exact h.stamped u ht hin
      · exact absurd (h.keyed.eq_of_id hv ht hvid ▸ hp) hclean
  case kept =>
    intro u hu hout
    obtain ⟨-, t, ht, hid, ⟨hp, -⟩ | ⟨-, rfl⟩⟩ := hflushed.row _ hu
    · exact absurd ((hmem _).mpr (.inr ⟨t, ht, hid.symm, hp⟩)) hout
    · exact h.kept u ht fun hin => hout ((hmem _).mpr (.inl hin))

/-- A creation writes one more row, with a key that no row had. -/
theorem StampInv.create (h : StampInv env.clock rows lo st) {r : MachineRecord} {st' : InventoryState}
    (hok : createMachine env p now st r = .ok st') : StampInv env.clock rows lo st' := by
  unfold createMachine at hok
  split at hok
  · cases hok
  · rename_i session hinsert
    obtain ⟨s₁, hflush, -, hsession⟩ := (Session.insert_eq_ok_iff _).mp hinsert
    have hinv := h.flush hflush
    cases hok
    obtain ⟨new, hid, hstamp, hrows, hemitted, hticks⟩ : ∃ new : Machine, new.id = st.nextId ∧
        new.updatedAt = env.clock s₁.ticks ∧ session.rows = s₁.rows ++ [Tracked.clean new] ∧
        session.emitted = s₁.emitted ++ [st.nextId] ∧ session.ticks = s₁.ticks + 1 := by
      refine ⟨(machineMapper env.clock).stamp s₁.ticks (Machine.new env.unicode st.nextId p r), rfl, rfl, ?_⟩
      rw [hsession]
      exact ⟨rfl, rfl, rfl⟩
    have hmem : ∀ {t}, t ∈ session.rows ↔ t ∈ s₁.rows ∨ t = Tracked.clean new := by
      intro t
      rw [hrows, List.mem_append, List.mem_singleton]
    have hcleanId : Row.id (Tracked.clean new) = st.nextId := hid
    have hold : ∀ t ∈ s₁.rows, Row.id t ≠ st.nextId := fun t ht => (hinv.fresh t ht).ne
    have hemittedOld : ∀ t ∈ s₁.rows, (Row.id t ∈ session.emitted ↔ Row.id t ∈ s₁.emitted) := by
      intro t ht
      rw [hemitted, List.mem_append, List.mem_singleton]
      exact or_iff_left (hold t ht)
    constructor
    case keyed =>
      unfold Table.Keyed Table.ids
      rw [hrows, List.map_append, List.nodup_append']
      refine ⟨hinv.keyed, List.nodup_singleton _, ?_⟩
      simp only [List.map_cons, List.map_nil, List.disjoint_singleton, List.mem_map, not_exists, not_and, hcleanId]
      exact hold
    case fresh =>
      intro t ht
      show Row.id t < st.nextId + 2
      rcases hmem.mp ht with ht | rfl
      · exact (hinv.fresh t ht).trans (Nat.lt_add_of_pos_right (by decide))
      · exact hcleanId ▸ Nat.lt_add_of_pos_right (by decide)
    case lo_le =>
      have hlo : lo ≤ s₁.ticks := hinv.lo_le
      show lo ≤ session.ticks
      omega
    case stamped =>
      intro t ht hin
      rcases hmem.mp ht with ht | rfl
      · exact hinv.stamped t ht ((hemittedOld t ht).mp hin)
      · exact ⟨s₁.ticks, hinv.lo_le, hstamp⟩
    case kept =>
      intro t ht hout
      rcases hmem.mp ht with ht | rfl
      · exact hinv.kept t ht fun hin => hout ((hemittedOld t ht).mpr hin)
      · refine absurd ?_ hout
        show Row.id (Tracked.clean new) ∈ session.emitted
        rw [hemitted, hcleanId]
        exact List.mem_append_right _ (List.mem_singleton.mpr rfl)

/-- The loop keeps the invariant, whatever the records are. -/
theorem StampInv.run : ∀ {records : List MachineRecord} {st st' : InventoryState}, StampInv env.clock rows lo st →
    processRecords env p now st records = .ok st' → StampInv env.clock rows lo st'
  | [], st, st', h, hok => by
    cases hok
    exact h
  | record :: records, st, st', h, hok => by
    cases hst₁ : processRecord env p now st record with
    | error e => simp [processRecords, hst₁] at hok
    | ok st₁ =>
      simp only [processRecords, hst₁] at hok
      refine StampInv.run ?_ hok
      simp only [processRecord] at hst₁
      split at hst₁
      · cases hst₁
      · exact h.create hst₁
      · cases hst₁
        exact h.update _ _

end Loop

/-- Whatever a run does, every row it leaves is as it was, or was written at a reading of the clock during the run. -/
theorem run_stamps (env : InventoryEnv) (mock : InventoryConnector) {db : Database} (hk : Table.Keyed db.machines)
    (hf : ∀ m ∈ db.machines, m.id < db.nextId) (ticks provisionerId : Nat) {outcome : InventoryOutcome}
    (ho : runProvisionerInventory env mock db ticks provisionerId = outcome) :
    Table.Keyed outcome.db.machines ∧ (∀ m ∈ outcome.db.machines, m.id < outcome.db.nextId) ∧ ticks ≤ outcome.ticks ∧
      ∀ m ∈ outcome.db.machines, (m.id ∈ outcome.emitted ∧ ∃ k, ticks ≤ k ∧ m.updatedAt = env.clock k) ∨
        (m.id ∉ outcome.emitted ∧ m ∈ db.machines) := by
  subst ho
  cases hresult : (runProvisionerInventory env mock db ticks provisionerId).result with
  | error e =>
    obtain ⟨provisioners, now, hrun, hticks⟩ := run_error hresult
    rw [hrun]
    exact ⟨hk, hf, hticks, fun m hm => .inr ⟨List.not_mem_nil, hm⟩⟩
  | ok report =>
    obtain ⟨p, body, -, -, hbody, hrun⟩ := run_ok hresult
    rw [hrun]
    obtain ⟨records, st, session, -, hloop, hflush, hstate, hmachines, hticks, hnext⟩ := discoverAndStore_ok hbody
    have hstart : StampInv env.clock db.machines (ticks + 1) (.start db (ticks + 1)) := stampInv_start hk hf _
    have hfinal := (hstart.run hloop).flush hflush
    have hlo : ticks + 1 ≤ session.ticks := hfinal.lo_le
    simp only [hstate, hmachines]
    refine ⟨?_, ?_, by omega, ?_⟩
    · have hkeyed := hfinal.keyed
      unfold Table.Keyed Table.ids at hkeyed ⊢
      rw [Session.stored, List.map_map]
      exact hkeyed
    · intro m hm
      obtain ⟨t, ht, rfl⟩ := List.mem_map.mp hm
      exact (hfinal.fresh t ht).trans_le hnext
    · intro m hm
      obtain ⟨t, ht, rfl⟩ := List.mem_map.mp hm
      by_cases hin : Row.id t ∈ session.emitted
      · obtain ⟨k, hk, hstamp⟩ := hfinal.stamped t ht hin
        exact .inl ⟨hin, k, by omega, hstamp⟩
      · exact .inr ⟨hin, hfinal.kept t ht hin⟩

/-! ## Runs of tasks -/

/-- The database and the number of readings of the clock so far. -/
structure InventoryWorld where
  db : Database
  ticks : Nat

/-- The two tasks: the inventory of a provisioner, with what its connector answers, and the purge. -/
inductive InventoryTask
  | inventory (mock : InventoryConnector) (provisionerId : Nat)
  | purge (retentionDays : Int)

/-- Execute one task. -/
def runTask (env : InventoryEnv) (w : InventoryWorld) : InventoryTask → InventoryWorld
  | .inventory mock provisionerId =>
    let outcome := runProvisionerInventory env mock w.db w.ticks provisionerId
    ⟨outcome.db, outcome.ticks⟩
  | .purge retentionDays => ⟨(purgeStaleMachines w.db retentionDays (env.clock w.ticks)).1, w.ticks + 1⟩

/-- Execute tasks, one after the other. -/
def runTasks (env : InventoryEnv) : InventoryWorld → List InventoryTask → InventoryWorld
  | w, [] => w
  | w, task :: tasks => runTasks env (runTask env w task) tasks

/-- Some rows of a successful inventory run, each with the time at which the run started. -/
def taskRows (env : InventoryEnv) (rows : InventoryOutcome → List Nat) (w : InventoryWorld) :
    InventoryTask → List (Time × Nat)
  | .inventory mock provisionerId =>
    let outcome := runProvisionerInventory env mock w.db w.ticks provisionerId
    match outcome.result with
    | .ok _ => (rows outcome).map fun i => (env.clock w.ticks, i)
    | .error _ => []
  | .purge _ => []

/-- The rows of all the successful inventory runs. -/
def tasksRows (env : InventoryEnv) (rows : InventoryOutcome → List Nat) : InventoryWorld → List InventoryTask →
    List (Time × Nat)
  | _, [] => []
  | w, task :: tasks => taskRows env rows w task ++ tasksRows env rows (runTask env w task) tasks

/-- A purge after the tasks deletes none of the rows of an inventory run that started within the retention. -/
def PurgeKeeps (env : InventoryEnv) (rows : InventoryOutcome → List Nat) (w : InventoryWorld)
    (tasks : List InventoryTask) (retentionDays : Int) : Prop :=
  let now := env.clock (runTasks env w tasks).ticks
  ∀ m ∈ (runTasks env w tasks).db.machines,
    (∃ start, (start, m.id) ∈ tasksRows env rows w tasks ∧ now - days retentionDays ≤ start) →
    m ∈ (purgeStaleMachines (runTasks env w tasks).db retentionDays now).1.machines

/-- No machine is older than a run that wrote it. -/
structure Stamped (env : InventoryEnv) (w : InventoryWorld) (entries : List (Time × Nat)) : Prop where
  keyed : Table.Keyed w.db.machines
  fresh : ∀ m ∈ w.db.machines, m.id < w.db.nextId
  past : ∀ e ∈ entries, e.1 ≤ env.clock w.ticks
  stamped : ∀ e ∈ entries, ∀ m ∈ w.db.machines, m.id = e.2 → e.1 ≤ m.updatedAt

/-- A task keeps the machines no older than the runs that wrote them. -/
theorem Stamped.task {env : InventoryEnv} (hclock : Monotone env.clock) {w : InventoryWorld}
    {entries : List (Time × Nat)}
    (h : Stamped env w entries) (task : InventoryTask) :
    Stamped env (runTask env w task) (entries ++ taskRows env (·.emitted) w task) := by
  cases task with
  | inventory mock provisionerId =>
    obtain ⟨hkeyed, hfresh, hticks, hrows⟩ := run_stamps env mock h.keyed h.fresh w.ticks provisionerId rfl
    have hnew : ∀ e ∈ taskRows env (·.emitted) w (.inventory mock provisionerId), e.1 = env.clock w.ticks ∧
        e.2 ∈ (runProvisionerInventory env mock w.db w.ticks provisionerId).emitted := by
      intro e he
      simp only [taskRows] at he
      split at he
      · obtain ⟨i, hi, rfl⟩ := List.mem_map.mp he
        exact ⟨rfl, hi⟩
      · cases he
    refine ⟨hkeyed, hfresh, fun e he => ?_, fun e he m hm hid => ?_⟩
    · rcases List.mem_append.mp he with he | he
      · exact (h.past e he).trans (hclock hticks)
      · exact (hnew e he).1 ▸ hclock hticks
    · rcases hrows m hm with ⟨-, k, hk, hstamp⟩ | ⟨hout, hold⟩
      · have hstart : e.1 ≤ env.clock w.ticks := by
          rcases List.mem_append.mp he with he | he
          · exact h.past e he
          · exact (hnew e he).1.le
        rw [hstamp]
        exact hstart.trans (hclock hk)
      · rcases List.mem_append.mp he with he | he
        · exact h.stamped e he m hold hid
        · exact absurd (hid ▸ (hnew e he).2) hout
  | purge retentionDays =>
    rw [taskRows, List.append_nil]
    refine ⟨h.keyed.sublist (List.filter_sublist.map _), fun m hm => ?_, fun e he => ?_, fun e he m hm => ?_⟩
    · exact h.fresh m (mem_purgeStaleMachines.mp hm).1
    · exact (h.past e he).trans (hclock (Nat.le_succ _))
    · exact h.stamped e he m (mem_purgeStaleMachines.mp hm).1

theorem Stamped.tasks {env : InventoryEnv} (hclock : Monotone env.clock) : ∀ (tasks : List InventoryTask)
    {w : InventoryWorld} {entries : List (Time × Nat)}, Stamped env w entries →
    Stamped env (runTasks env w tasks) (entries ++ tasksRows env (·.emitted) w tasks)
  | [], w, entries, h => by
    rw [tasksRows, List.append_nil]
    exact h
  | task :: tasks, w, entries, h => by
    rw [tasksRows, ← List.append_assoc]
    exact (h.task hclock task).tasks hclock tasks

/-- After any inventory runs and purges, a purge deletes no machine that a successful run inserted or updated, if the
run started within the retention. -/
theorem purge_keeps_written (env : InventoryEnv) (hclock : Monotone env.clock) (w : InventoryWorld)
    (hc : w.db.Consistent) (tasks : List InventoryTask) (retentionDays : Int) :
    PurgeKeeps env (·.emitted) w tasks retentionDays := by
  have hstart : Stamped env w [] := ⟨hc.machines_keyed, hc.machines_fresh, by simp, by simp⟩
  have hend := hstart.tasks hclock tasks
  rintro m hm ⟨start, hrow, hrecent⟩
  have hupdated : start ≤ m.updatedAt := hend.stamped (start, m.id) (List.mem_append_right _ hrow) m hm rfl
  exact mem_purgeStaleMachines.mpr ⟨hm, hrecent.trans hupdated⟩

/-! ## A machine that does not change -/

/-- The small installation, with its clock read on day 14 and from then on on day 16. -/
def lateEnv : InventoryEnv := { smallEnv with clock := fun k => if k = 0 then days 14 else days 16 }

/-- The small installation with one machine that was updated on day 0. -/
def lateWorld : InventoryWorld := ⟨smallDb [smallMachine 1 "a" "H1"], 0⟩

theorem lateEnv_monotone : Monotone lateEnv.clock := by
  intro j k hjk
  show (if j = 0 then days 14 else days 16) ≤ if k = 0 then days 14 else days 16
  split_ifs <;> first | omega | decide

theorem purge_keeps_renamed :
    PurgeKeeps lateEnv (·.emitted) lateWorld [.inventory (fun _ => .ok [smallRecord "a" "H2"]) 1] 15 :=
  purge_keeps_written lateEnv lateEnv_monotone lateWorld (by decide)
    [.inventory (fun _ => .ok [smallRecord "a" "H2"]) 1] 15

/-- The machine is matched on day 14, without a change, and deleted on day 16 by a purge that keeps 15 days. -/
theorem unchanged_machine_purged : Monotone lateEnv.clock ∧ lateWorld.db.Consistent ∧
    ¬ PurgeKeeps lateEnv (·.written) lateWorld [.inventory (fun _ => .ok [smallRecord "a" "H1"]) 1] 15 := by
  refine ⟨lateEnv_monotone, by decide, fun h => ?_⟩
  have hgone := h (smallMachine 1 "a" "H1") (by decide +kernel) ⟨days 14, by decide +kernel, by decide +kernel⟩
  revert hgone
  decide +kernel

end Washing
