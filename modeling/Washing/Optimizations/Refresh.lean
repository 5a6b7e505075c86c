import Washing.Optimizations.Snapshot

/-!
# Storing the optimization of a machine

`refreshMachineOptimization` builds the snapshot of a machine on the flushed database and writes it to the row of the
machine, which it inserts when there is none. The two ways of updating an existing row have the same effect
(`updateOptimization_eq`): when every other field matches, only the time is new.
-/

namespace Washing

/-- The error of a refresh without a machine. -/
def machineNotFound (machineId : Nat) : Exc := ⟨.valueError, "machine " ++ toString machineId ++ " not found"⟩

/-- Whether the calculated snapshot matches the stored current row, the time apart. -/
def optimizationSnapshotMatches (current : MachineOptimization) (snapshot : OptimizationSnapshot) : Bool :=
  current.status = snapshot.status && current.action = snapshot.action && current.windowSize = snapshot.windowSize &&
  current.minCpu = snapshot.minCpu && current.maxCpu = snapshot.maxCpu && current.minRamMb = snapshot.minRamMb &&
  current.maxRamMb = snapshot.maxRamMb && current.currentCpu = snapshot.currentCpu &&
  current.currentRamMb = snapshot.currentRamMb && current.currentDiskMb = snapshot.currentDiskMb &&
  current.targetCpu = snapshot.targetCpu && current.targetRamMb = snapshot.targetRamMb &&
  current.targetDiskMb = snapshot.targetDiskMb && current.details = snapshot.details

/-- The row after a refresh found it: only the time, or all fields. -/
def updateOptimization (snapshot : OptimizationSnapshot) (current : MachineOptimization) : MachineOptimization :=
  if optimizationSnapshotMatches current snapshot then { current with computedAt := snapshot.computedAt }
  else { current with toOptimizationSnapshot := snapshot }

/-- `_current_optimization_query(db, machine_id).one_or_none()`. -/
def currentOptimization (db : Database) (machineId : Nat) : Except Exc (Option MachineOptimization) :=
  oneOrNone (selectWhere (fun r => Cond.eq (some r.machineId) (some machineId)) db.optimizations)

/-- Write a snapshot to the row that was found, or to a new row. -/
def writeOptimization (db : Database) (machineId : Nat) (current : Option MachineOptimization)
    (snapshot : OptimizationSnapshot) : Database :=
  match current with
  | none =>
    { db with
      optimizations := db.optimizations ++ [{ toOptimizationSnapshot := snapshot, id := db.nextId, machineId }]
      nextId := db.nextId + 1 }
  | some row => { db with optimizations := Table.modify db.optimizations row.id (updateOptimization snapshot) }

/-- The report of a refresh. -/
structure RefreshReport where
  machineId : Nat
  created : Nat
  updated : Nat
  status : String
  deriving DecidableEq, Repr

/-- Recompute the stored optimization for one machine, on the flushed database. -/
def refreshMachineOptimization (s : Settings) (db : Database) (machineId : Nat) (now : Time) :
    Except Exc (Database × RefreshReport) :=
  match Table.get db.machines machineId with
  | none => .error (machineNotFound machineId)
  | some machine =>
    let snapshot := buildOptimizationSnapshot s db machine now
    match currentOptimization db machineId with
    | .error e => .error e
    | .ok none => .ok (writeOptimization db machineId none snapshot, ⟨machine.id, 1, 0, "created"⟩)
    | .ok (some row) => .ok (writeOptimization db machineId (some row) snapshot, ⟨machine.id, 0, 1, "updated"⟩)

/-! ## Its effect -/

theorem eq_of_matches {row : MachineOptimization} {snapshot : OptimizationSnapshot}
    (h : optimizationSnapshotMatches row snapshot) :
    { row.toOptimizationSnapshot with computedAt := snapshot.computedAt } = snapshot := by
  simp only [optimizationSnapshotMatches, Bool.and_eq_true, decide_eq_true_eq] at h
  obtain ⟨⟨⟨⟨⟨⟨⟨⟨⟨⟨⟨⟨⟨h1, h2⟩, h3⟩, h4⟩, h5⟩, h6⟩, h7⟩, h8⟩, h9⟩, h10⟩, h11⟩, h12⟩, h13⟩, h14⟩ := h
  cases snapshot
  simp_all

/-- Both updates leave the snapshot in the row. -/
theorem updateOptimization_eq (snapshot : OptimizationSnapshot) (row : MachineOptimization) :
    updateOptimization snapshot row = { row with toOptimizationSnapshot := snapshot } := by
  unfold updateOptimization
  split_ifs with h
  · have hs := eq_of_matches h
    rw [← hs]
  · rfl

/-- With unique rows the lookup succeeds, and finds the row of the machine if there is one. -/
theorem currentOptimization_eq {db : Database} (hc : (db.optimizations.map (·.machineId)).Nodup) (machineId : Nat) :
    currentOptimization db machineId = .ok (db.optimizations.find? fun r => r.machineId = machineId) :=
  oneOrNone_eq hc machineId

/-- A refresh writes optimizations only. -/
theorem refreshMachineOptimization_frame {s : Settings} {db : Database} {machineId : Nat} {now : Time}
    {result : Database × RefreshReport} (h : refreshMachineOptimization s db machineId now = .ok result) :
    ∃ optimizations nextId, db.nextId ≤ nextId ∧ result.1 = { db with optimizations, nextId } := by
  unfold refreshMachineOptimization at h
  split at h
  · cases h
  · split at h <;> cases h
    · exact ⟨_, _, Nat.le_succ _, rfl⟩
    · exact ⟨_, _, le_rfl, rfl⟩

/-- A refresh of a stored machine writes its snapshot to its row, or to a new one. -/
theorem refreshMachineOptimization_eq {s : Settings} {db : Database}
    (hc : (db.optimizations.map (·.machineId)).Nodup) {machineId : Nat} {m : Machine}
    (hm : Table.get db.machines machineId = some m) (now : Time) :
    ∃ report, refreshMachineOptimization s db machineId now =
      .ok (writeOptimization db machineId (db.optimizations.find? fun r => r.machineId = machineId)
        (buildOptimizationSnapshot s db m now), report) := by
  unfold refreshMachineOptimization
  simp only [hm, currentOptimization_eq hc]
  cases db.optimizations.find? fun r => r.machineId = machineId with
  | none => exact ⟨_, rfl⟩
  | some row => exact ⟨_, rfl⟩

/-- The write leaves the rows of the other machines alone. -/
theorem writeOptimization_others {db : Database} (hk : Table.Keyed db.optimizations) (machineId : Nat)
    (snapshot : OptimizationSnapshot) : (writeOptimization db machineId
      (db.optimizations.find? fun r => r.machineId = machineId) snapshot).optimizations.filter
        (fun r => r.machineId ≠ machineId) = db.optimizations.filter fun r => r.machineId ≠ machineId := by
  cases hf : db.optimizations.find? fun r => r.machineId = machineId with
  | none => simp [writeOptimization]
  | some row =>
    have hrow : row ∈ db.optimizations := List.mem_of_find?_eq_some hf
    have hmachine : row.machineId = machineId := by simpa using List.find?_some hf
    simp only [writeOptimization, Table.modify, List.filter_map]
    have hsame : db.optimizations.filter ((fun r => decide (r.machineId ≠ machineId)) ∘
        fun r => if Row.id r = row.id then updateOptimization snapshot r else r) =
        db.optimizations.filter fun r => r.machineId ≠ machineId := by
      refine List.filter_congr fun r _ => ?_
      by_cases hid : Row.id r = row.id <;> simp [hid, updateOptimization_eq]
    rw [hsame]
    refine (List.map_congr_left fun r hr => ?_).trans (List.map_id _)
    obtain ⟨hr, hother⟩ := List.mem_filter.mp hr
    have hid : ¬ Row.id r = row.id := by
      intro hid
      rw [hk.eq_of_id hr hrow hid, hmachine] at hother
      simp at hother
    exact if_neg hid

end Washing
