import Washing.Lib.Timeline
import Washing.Optimizations.Inputs

/-!
# The flavor in an optimization

The compute resources of a machine are its flavor, and an optimization records the flavor for which it was computed. A
refresh leaves one row for its machine, with the flavor of the machine, and the rows of the other machines
(`refresh_flavors`).
-/

namespace Washing

/-- Compute resources. -/
structure Flavor where
  cpu : Option ℚ
  ramMb : Option ℚ
  diskMb : Option ℚ
  deriving DecidableEq, Repr

def Machine.flavor (m : Machine) : Flavor := ⟨m.cpu, m.ramMb, m.diskMb⟩

/-- The flavor for which an optimization was computed. -/
def OptimizationSnapshot.currentFlavor (o : OptimizationSnapshot) : Flavor :=
  ⟨o.currentCpu, o.currentRamMb, o.currentDiskMb⟩

/-- The flavors in the optimization rows of a machine. -/
def optimizedFlavors (optimizations : List MachineOptimization) (machineId : Nat) : List Flavor :=
  valuesOf (·.machineId) (fun o => o.currentFlavor) optimizations machineId

/-- The keys of the optimizations. -/
structure OptimizationRows (db : Database) : Prop where
  numbered : Table.Numbered db.optimizations db.nextId
  unique : (db.optimizations.map (·.machineId)).Nodup

section Refresh

variable {s : Settings} {db : Database} {machineId : Nat}

/-- A write leaves one row for its machine, with the flavor of the snapshot, and the rows of the other machines. -/
theorem writeOptimization_flavors (h : OptimizationRows db) (machineId : Nat) (snapshot : OptimizationSnapshot)
    (i : Nat) :
    optimizedFlavors (writeOptimization db machineId (db.optimizations.find? fun r => r.machineId = machineId)
      snapshot).optimizations i =
        if i = machineId then [snapshot.currentFlavor] else optimizedFlavors db.optimizations i := by
  split_ifs with hi
  · subst hi
    have hrow := @writeOptimization_current db i _ snapshot h.unique (holdsRow_find db i)
    have hcurrent := congrArg (List.map OptimizationSnapshot.currentFlavor) hrow
    rw [List.map_map] at hcurrent
    exact hcurrent
  · have hothers := writeOptimization_others h.numbered.keyed machineId snapshot
    have hkeep : ∀ rows : List MachineOptimization, optimizedFlavors (rows.filter fun r => r.machineId ≠ machineId) i =
        optimizedFlavors rows i := fun rows => valuesOf_filter (P := (· ≠ machineId)) hi
    rw [← hkeep, hothers, hkeep]

/-- A refresh leaves one row for its machine, with its flavor, and the rows of the other machines. -/
theorem refresh_flavors (h : OptimizationRows db) {now : Time} {result : Database × RefreshReport}
    (hok : refreshMachineOptimization s db machineId now = .ok result) : OptimizationRows result.1 ∧
    ∃ m, Table.get db.machines machineId = some m ∧ ∀ i, optimizedFlavors result.1.optimizations i =
      if i = machineId then [m.flavor] else optimizedFlavors db.optimizations i := by
  cases hm : Table.get db.machines machineId with
  | none =>
    rw [refreshMachineOptimization, hm] at hok
    cases hok
  | some m =>
    obtain ⟨report, heq⟩ := refreshMachineOptimization_eq (s := s) h.unique hm now
    cases heq.symm.trans hok
    refine ⟨⟨writeOptimization_numbered h.numbered _ _ _, writeOptimization_unique h.unique (holdsRow_find _ _) _⟩,
      m, rfl, fun i => ?_⟩
    exact writeOptimization_flavors h machineId _ i

end Refresh

end Washing
