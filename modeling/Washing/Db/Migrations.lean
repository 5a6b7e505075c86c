import Washing.Lib.Migration
import Washing.Db.Models

/-!
# The migrations of `machine_optimizations`

The table of the initial schema keeps every revision of an optimization: the current row of a machine is marked by
`is_current` and by a unique `current_machine_id`, the superseded rows by `superseded_at`. Revision dde2830db606
replaces the mark by a partial unique index, revision 750af5c34c18 drops the revisions and makes `machine_id` unique,
but deletes no superseded row. The first step always goes through; the second carries exactly the current rows only
when no superseded row is stored (`migration_carries_iff`).
-/

namespace Washing

open Migration

/-! ## The initial schema -/

/-- The columns of `machine_optimizations` in the initial schema. -/
inductive OptimizationColumn
  | id
  | machineId
  | revision
  | isCurrent
  | currentMachineId
  | supersededAt
  | status
  | action
  | windowSize
  | minCpu
  | maxCpu
  | minRamMb
  | maxRamMb
  | computedAt
  | acknowledgedAt
  | acknowledgedBy
  | currentCpu
  | currentRamMb
  | currentDiskMb
  | targetCpu
  | targetRamMb
  | targetDiskMb
  | details
  | createdAt
  | updatedAt
  deriving DecidableEq, Repr

/-- The values of these columns. -/
inductive Cell
  | integer (n : Int)
  | boolean (b : Bool)
  | string (s : String)
  | dateTime (t : Time)
  | float (x : ℚ)
  | json (text : String)
  deriving DecidableEq

instance : SqlTruth Cell where
  truth
    | .boolean b => some b
    | _ => none

/-- The column types. -/
inductive ColumnType
  | integer
  | boolean
  | string (length : Nat)
  | dateTime
  | float
  | json

def ColumnType.admits : ColumnType → Cell → Bool
  | .integer, .integer _ | .boolean, .boolean _ | .dateTime, .dateTime _ | .float, .float _ | .json, .json _ => true
  | .string length, .string s => s.length ≤ length
  | _, _ => false

/-- `sa.Column(name, type, nullable=...)`. -/
def column (name : OptimizationColumn) (type : ColumnType) (nullable : Bool) : Column OptimizationColumn Cell :=
  ⟨name, nullable, type.admits⟩

namespace MachineOptimizations

def pk : String × Constraint OptimizationColumn := ("pk_machine_optimizations", .unique [.id] none)

def ixMachineId : String × Constraint OptimizationColumn := ("ix_machine_optimizations_machine_id", .index [.machineId])

/-- `ck_machine_optimizations_ck_machine_optimizations_current_state`. -/
def ckCurrentState : String := "ck_machine_optimizations_ck_machine_optimizations_current_state"

/-- `ck_machine_optimizations_ck_machine_optimizations_current_machine_matches_machine`. -/
def ckCurrentMachineMatchesMachine : String :=
  "ck_machine_optimizations_ck_machine_optimizations_current_machine_matches_machine"

/-- The condition of the check of the initial schema that tells current rows from superseded ones. -/
def initialState : Condition OptimizationColumn :=
  .or (.and (.and (.column .isCurrent) (.isNotNull .currentMachineId)) (.isNull .supersededAt))
    (.and (.and (.not (.column .isCurrent)) (.isNull .currentMachineId)) (.isNotNull .supersededAt))

def matchesMachine : Condition OptimizationColumn :=
  .or (.isNull .currentMachineId) (.eq .currentMachineId .machineId)

/-- The table that revision 1365251cef3b creates. -/
def initialSchema : Schema OptimizationColumn Cell where
  columns := [
    column .id .integer false,
    column .machineId .integer false,
    column .revision .integer false,
    column .isCurrent .boolean false,
    column .currentMachineId .integer true,
    column .supersededAt .dateTime true,
    column .status (.string 32) false,
    column .action (.string 32) false,
    column .windowSize .integer false,
    column .minCpu .integer false,
    column .maxCpu .integer false,
    column .minRamMb .integer false,
    column .maxRamMb .integer false,
    column .computedAt .dateTime false,
    column .acknowledgedAt .dateTime true,
    column .acknowledgedBy (.string 255) true,
    column .currentCpu .float true,
    column .currentRamMb .float true,
    column .currentDiskMb .float true,
    column .targetCpu .float true,
    column .targetRamMb .float true,
    column .targetDiskMb .float true,
    column .details .json false,
    column .createdAt .dateTime false,
    column .updatedAt .dateTime false]
  constraints := [
    (ckCurrentState, .check initialState),
    (ckCurrentMachineMatchesMachine, .check matchesMachine),
    pk,
    ("uq_machine_optimizations_current_machine_id", .unique [.currentMachineId] none),
    ("uq_machine_optimizations_machine_revision", .unique [.machineId, .revision] none),
    ("ix_machine_optimizations_machine_current", .index [.machineId, .isCurrent]),
    ixMachineId,
    ("ix_machine_optimizations_superseded_at", .index [.supersededAt])]

/-! ## The upgrades -/

/-- The condition of the check that revision dde2830db606 creates. -/
def simplifiedState : Condition OptimizationColumn :=
  .or (.and (.column .isCurrent) (.isNull .supersededAt))
    (.and (.not (.column .isCurrent)) (.isNotNull .supersededAt))

/-- `upgrade` of revision dde2830db606. -/
def upgradeDde2830db606 : List (Change OptimizationColumn) := [
  .drop ckCurrentMachineMatchesMachine,
  .drop ckCurrentState,
  .drop "uq_machine_optimizations_current_machine_id",
  .dropColumn .currentMachineId,
  .create ckCurrentState (.check simplifiedState),
  .create "uq_machine_optimizations_current_machine" (.unique [.machineId] (some (.column .isCurrent)))]

/-- `upgrade` of revision 750af5c34c18. -/
def upgrade750af5c34c18 : List (Change OptimizationColumn) := [
  .drop "ix_machine_optimizations_machine_current",
  .drop "ix_machine_optimizations_superseded_at",
  .drop "uq_machine_optimizations_current_machine",
  .drop ckCurrentState,
  .drop "uq_machine_optimizations_machine_revision",
  .create "uq_machine_optimizations_machine_id" (.unique [.machineId] none),
  .dropColumn .acknowledgedBy,
  .dropColumn .acknowledgedAt,
  .dropColumn .isCurrent,
  .dropColumn .revision,
  .dropColumn .supersededAt]

/-- The table of the model `MachineOptimization`. -/
def currentSchema : Schema OptimizationColumn Cell where
  columns := [
    column .id .integer false,
    column .machineId .integer false,
    column .status (.string 32) false,
    column .action (.string 32) false,
    column .windowSize .integer false,
    column .minCpu .integer false,
    column .maxCpu .integer false,
    column .minRamMb .integer false,
    column .maxRamMb .integer false,
    column .computedAt .dateTime false,
    column .currentCpu .float true,
    column .currentRamMb .float true,
    column .currentDiskMb .float true,
    column .targetCpu .float true,
    column .targetRamMb .float true,
    column .targetDiskMb .float true,
    column .details .json false,
    column .createdAt .dateTime false,
    column .updatedAt .dateTime false]
  constraints := [pk, ixMachineId, ("uq_machine_optimizations_machine_id", .unique [.machineId] none)]

/-- Both upgrades. -/
def upgradeToHead : List (Change OptimizationColumn) := upgradeDde2830db606 ++ upgrade750af5c34c18

/-- The schema between the two upgrades. -/
def simplifiedSchema : Schema OptimizationColumn Cell where
  columns := initialSchema.columns.filter fun c => c.name ≠ .currentMachineId
  constraints := [
    pk,
    ("uq_machine_optimizations_machine_revision", .unique [.machineId, .revision] none),
    ("ix_machine_optimizations_machine_current", .index [.machineId, .isCurrent]),
    ixMachineId,
    ("ix_machine_optimizations_superseded_at", .index [.supersededAt]),
    (ckCurrentState, .check simplifiedState),
    ("uq_machine_optimizations_current_machine", .unique [.machineId] (some (.column .isCurrent)))]

theorem schema_dde2830db606 : initialSchema.run upgradeDde2830db606 = .ok simplifiedSchema := rfl

theorem schema_head : initialSchema.run upgradeToHead = .ok currentSchema := rfl

/-! ## Rows of the initial schema -/

/-- A row of `machine_optimizations`. -/
abbrev OptimizationRow := Tuple OptimizationColumn Cell

/-- The current row of its machine. -/
def IsCurrentRow (r : OptimizationRow) : Prop := r .isCurrent = some (.boolean true)

instance (r : OptimizationRow) : Decidable (IsCurrentRow r) := inferInstanceAs (Decidable (_ = _))

/-- The columns of a row that the current schema retains. -/
def retain (r : OptimizationRow) : OptimizationRow :=
  fun c => if c ∈ currentSchema.columns.map Column.name then r c else none

/-- The upgrades drop every other column. -/
theorem forgetAll_dropped : forgetAll (dropped upgradeToHead) = retain := by
  funext r c
  cases c <;> rfl

/-- The check of the initial schema, on a row whose mark is set. -/
theorem eval_initialState {r : OptimizationRow} {b : Bool} (hb : r .isCurrent = some (.boolean b)) :
    initialState.eval r = some (bif b then (r .currentMachineId).isSome && (r .supersededAt).isNone
      else (r .currentMachineId).isNone && (r .supersededAt).isSome) := by
  simp only [initialState, Condition.eval, hb]
  cases b <;> cases r .currentMachineId <;> cases r .supersededAt <;> rfl

/-- The check of revision dde2830db606, on a row whose mark is set. -/
theorem eval_simplifiedState {r : OptimizationRow} {b : Bool} (hb : r .isCurrent = some (.boolean b)) :
    simplifiedState.eval r = some (bif b then (r .supersededAt).isNone else (r .supersededAt).isSome) := by
  simp only [simplifiedState, Condition.eval, hb]
  cases b <;> cases r .supersededAt <;> rfl

/-- The other check of the initial schema. -/
theorem eval_matchesMachine {r : OptimizationRow} (hmachine : r .machineId ≠ none) :
    matchesMachine.eval r = some (decide (r .currentMachineId = none ∨ r .currentMachineId = r .machineId)) := by
  obtain ⟨m, hm⟩ := Option.ne_none_iff_exists'.mp hmachine
  simp only [matchesMachine, Condition.eval, hm]
  cases r .currentMachineId with
  | none => rfl
  | some c => by_cases hc : c = m <;> simp [Cond.eq, Cond.isNull, Cond.or, hc]

theorem column_not_null {name : OptimizationColumn} {type : ColumnType} {v : Option Cell}
    (h : (column name type false).Holds v) : v ≠ none := by
  rintro rfl
  cases h

theorem column_boolean {name : OptimizationColumn} : ∀ {v : Option Cell}, (column name .boolean false).Holds v →
    ∃ b, v = some (.boolean b)
  | some (.boolean b), _ => ⟨b, rfl⟩

/-- A row of a valid table of the initial schema. -/
structure InitialRow (r : OptimizationRow) : Prop where
  machine : r .machineId ≠ none
  isCurrent : ∃ b, r .isCurrent = some (.boolean b)
  current : IsCurrentRow r → r .currentMachineId = r .machineId
  simplified : simplifiedState.eval r ≠ some false

section Initial

variable {t : SqlTable OptimizationColumn Cell} (hschema : t.schema = initialSchema) (ht : t.Valid)

include hschema ht

theorem initialRow {r : OptimizationRow} (hr : r ∈ t.rows) : InitialRow r := by
  have htyped : ∀ c ∈ initialSchema.columns, c.Holds (r c.name) := hschema ▸ ht.typed r hr
  have hconstrained : ∀ k ∈ initialSchema.constraints, k.2.Holds t.rows := hschema ▸ ht.constrained
  have hmachine : r .machineId ≠ none :=
    column_not_null (htyped (column .machineId .integer false) (by simp [initialSchema]))
  obtain ⟨b, hb⟩ : ∃ b, r .isCurrent = some (.boolean b) :=
    column_boolean (htyped (column .isCurrent .boolean false) (by simp [initialSchema]))
  have hstate : initialState.eval r ≠ some false :=
    hconstrained (ckCurrentState, .check initialState) (by simp [initialSchema]) r hr
  have hmatches : matchesMachine.eval r ≠ some false :=
    hconstrained (ckCurrentMachineMatchesMachine, .check matchesMachine) (by simp [initialSchema]) r hr
  rw [eval_initialState hb] at hstate
  rw [eval_matchesMachine hmachine] at hmatches
  refine ⟨hmachine, ⟨b, hb⟩, fun hcurrent => ?_, ?_⟩
  · cases hb.symm.trans hcurrent
    have hsome : r .currentMachineId ≠ none := fun hnull => by simp [hnull] at hstate
    simpa [hsome] using hmatches
  · rw [eval_simplifiedState hb]
    cases b <;> simp_all

/-- The partial unique index of revision dde2830db606 holds: two current rows of one machine would have the same
`current_machine_id`. -/
theorem current_unique : (Constraint.unique [.machineId] (some (.column .isCurrent))).Holds t.rows := by
  have hunique : t.rows.Pairwise fun r s => ¬ SameKey [OptimizationColumn.currentMachineId] r s := by
    have h := ht.constrained ("uq_machine_optimizations_current_machine_id", .unique [.currentMachineId] none)
      (by simp [hschema, initialSchema])
    exact (Constraint.holds_unique_none _ _).mp h
  have hcurrent : ∀ r ∈ t.rows.filter (selected (some (.column .isCurrent))), InitialRow r ∧ IsCurrentRow r := by
    intro r hr
    obtain ⟨hmem, hselected⟩ := List.mem_filter.mp hr
    have hrow := initialRow hschema ht hmem
    obtain ⟨b, hb⟩ := hrow.isCurrent
    refine ⟨hrow, ?_⟩
    cases b
    · simp [selected, Condition.eval, hb, SqlTruth.truth, Cond.isTrue] at hselected
    · exact hb
  refine (hunique.filter _).imp_of_mem fun {r s} hr hs hdistinct hsame => hdistinct fun c hc => ?_
  cases List.mem_singleton.mp hc
  obtain ⟨hrow, hrcurrent⟩ := hcurrent r hr
  obtain ⟨hrow', hscurrent⟩ := hcurrent s hs
  rw [hrow.current hrcurrent, hrow'.current hscurrent]
  exact hsame .machineId (List.mem_singleton_self _)

/-- Revision dde2830db606 goes through on every valid table of the initial schema. -/
theorem upgradeDde2830db606_ok : ∃ t', t.run upgradeDde2830db606 = .ok t' ∧ t'.schema = simplifiedSchema ∧
    t'.rows = t.rows.map (forget .currentMachineId) := by
  refine ⟨⟨simplifiedSchema, _⟩, SqlTable.run_ok_iff.mpr ⟨hschema ▸ schema_dde2830db606, ?_, rfl⟩, rfl, ?_⟩
  · simp only [upgradeDde2830db606, created, List.forall_mem_cons, List.not_mem_nil, false_implies, implies_true,
      and_true]
    exact ⟨fun r hr => (initialRow hschema ht hr).simplified, current_unique hschema ht⟩
  · simp [upgradeDde2830db606, dropped, forgetAll_cons, forgetAll_nil]

/-- Both upgrades go through exactly when no machine has two rows. -/
theorem upgradeToHead_ok_iff {t' : SqlTable OptimizationColumn Cell} : t.run upgradeToHead = .ok t' ↔
    (Constraint.unique [.machineId] none).Holds t.rows ∧ t'.schema = currentSchema ∧ t'.rows = t.rows.map retain := by
  have hcreated : (∀ k ∈ created upgradeToHead, k.Holds t.rows) ↔
      (Constraint.unique [.machineId] none).Holds t.rows := by
    simp only [upgradeToHead, upgradeDde2830db606, upgrade750af5c34c18, List.cons_append, List.nil_append, created,
      List.forall_mem_cons, List.not_mem_nil, false_implies, implies_true, and_true]
    exact ⟨fun h => h.2.2, fun h => ⟨fun r hr => (initialRow hschema ht hr).simplified, current_unique hschema ht, h⟩⟩
  have hhead : t.schema.run upgradeToHead = .ok currentSchema := hschema ▸ schema_head
  rw [SqlTable.run_ok_iff, hcreated, forgetAll_dropped, hhead, Except.ok.injEq]
  constructor
  · rintro ⟨hs, hunique, hrows⟩
    exact ⟨hunique, hs.symm, hrows⟩
  · rintro ⟨hunique, hs, hrows⟩
    exact ⟨hs.symm, hunique, hrows⟩

end Initial

/-! ## What the migration carries -/

/-- The migrated table: the current schema, with the retained columns of exactly the current rows. -/
structure Carried (t t' : SqlTable OptimizationColumn Cell) : Prop where
  schema : t'.schema = currentSchema
  valid : t'.Valid
  rows : t'.rows.Perm ((t.rows.filter fun r => IsCurrentRow r).map retain)

/-- The migration goes through and carries exactly the current rows if and only if no superseded row is stored. -/
theorem migration_carries_iff {t : SqlTable OptimizationColumn Cell} (hschema : t.schema = initialSchema)
    (ht : t.Valid) :
    (∃ t', t.run upgradeToHead = .ok t' ∧ Carried t t') ↔ ∀ r ∈ t.rows, IsCurrentRow r := by
  constructor
  · rintro ⟨t', hrun, hcarried⟩
    obtain ⟨-, -, hrows⟩ := (upgradeToHead_ok_iff hschema ht).mp hrun
    have hlength : (t.rows.filter fun r => IsCurrentRow r).length = t.rows.length := by
      have h := hcarried.rows.length_eq
      rw [hrows, List.length_map, List.length_map] at h
      exact h.symm
    intro r hr
    exact of_decide_eq_true (List.length_filter_eq_length_iff.mp hlength r hr)
  · intro hcurrent
    have hselected : ∀ r ∈ t.rows, selected (some (.column .isCurrent)) r = true := by
      intro r hr
      have hb : r .isCurrent = some (.boolean true) := hcurrent r hr
      simp [selected, Condition.eval, hb, SqlTruth.truth, Cond.isTrue]
    have hunique : (Constraint.unique [.machineId] none).Holds t.rows := by
      have h := current_unique hschema ht
      simp only [Constraint.Holds, List.filter_eq_self.mpr hselected] at h
      exact (Constraint.holds_unique_none _ _).mpr h
    have hrun : t.run upgradeToHead = .ok ⟨currentSchema, t.rows.map retain⟩ :=
      (upgradeToHead_ok_iff hschema ht).mpr ⟨hunique, rfl, rfl⟩
    refine ⟨_, hrun, rfl, ht.run hrun, ?_⟩
    rw [List.filter_eq_self.mpr fun r hr => decide_eq_true (hcurrent r hr)]

/-- A row of the machine `machine` with the columns that tell the revisions apart. -/
def revisionRow (id machine revision : Int) (current : Bool) : OptimizationRow
  | .id => some (.integer id)
  | .machineId => some (.integer machine)
  | .revision => some (.integer revision)
  | .isCurrent => some (.boolean current)
  | .currentMachineId => if current then some (.integer machine) else none
  | .supersededAt => if current then none else some (.dateTime 0)
  | .status => some (.string "ready")
  | .action => some (.string "keep")
  | .windowSize => some (.integer 30)
  | .minCpu => some (.integer 1)
  | .maxCpu => some (.integer 64)
  | .minRamMb => some (.integer 2048)
  | .maxRamMb => some (.integer 262144)
  | .computedAt | .createdAt | .updatedAt => some (.dateTime 0)
  | .details => some (.json "{}")
  | .acknowledgedAt | .acknowledgedBy | .currentCpu | .currentRamMb | .currentDiskMb => none
  | .targetCpu | .targetRamMb | .targetDiskMb => none

/-- Two machines with a current row each. -/
def currentRows : SqlTable OptimizationColumn Cell :=
  ⟨initialSchema, [revisionRow 1 7 1 true, revisionRow 2 8 3 true]⟩

theorem migration_carries_currentRows :
    (∃ t', currentRows.run upgradeToHead = .ok t' ∧ Carried currentRows t') ↔ ∀ r ∈ currentRows.rows, IsCurrentRow r :=
  migration_carries_iff rfl ⟨by decide +kernel, by decide +kernel⟩

/-- A machine whose first revision was superseded by the second. -/
def supersededRows : SqlTable OptimizationColumn Cell :=
  ⟨initialSchema, [revisionRow 1 7 1 false, revisionRow 2 7 2 true]⟩

/-- The unique constraint on `machine_id` is refused. -/
theorem superseded_row_stops_migration :
    supersededRows.schema = initialSchema ∧ supersededRows.Valid ∧
      supersededRows.run upgradeToHead = .error (.violated "uq_machine_optimizations_machine_id") ∧
      ¬ ∃ t', supersededRows.run upgradeToHead = .ok t' ∧ Carried supersededRows t' := by
  have hrun : supersededRows.run upgradeToHead = .error (.violated "uq_machine_optimizations_machine_id") := rfl
  refine ⟨rfl, ⟨by decide +kernel, by decide +kernel⟩, hrun, ?_⟩
  rintro ⟨t', hok, -⟩
  cases hrun.symm.trans hok

end MachineOptimizations

end Washing
