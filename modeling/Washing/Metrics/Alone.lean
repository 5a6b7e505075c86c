import Washing.Metrics.Convergence

/-!
# A collection without interruption

The steps of one run, made one after the other, are a call of `run_provider_machine_collection`: the database and the
result are the same (`collection_alone`).
-/

namespace Washing

variable {w : CollectionWorld} {machineId : Nat}

section Alone

variable {s s₁ s' : CollectionState} {run : Nat}

/-- The run alone, from a state on, ends with a database and a result. -/
def EndsWith (w : CollectionWorld) (machineId run : Nat) (s : CollectionState)
    (outcome : Database × Except Exc CollectionReport) : Prop :=
  ∃ n s', exec (stepCollection w machineId) s (List.replicate n run) = some s' ∧ s'.db = outcome.1 ∧
    s'.phase run = .ended outcome.2

theorem EndsWith.step {outcome : Database × Except Exc CollectionReport} (h : CollectionStep w machineId s run s₁)
    (hrest : EndsWith w machineId run s₁ outcome) : EndsWith w machineId run s outcome := by
  obtain ⟨n, s', hexec, hend⟩ := hrest
  refine ⟨n + 1, s', ?_, hend⟩
  rw [List.replicate_succ, exec, h.step, Option.bind_some, hexec]

theorem EndsWith.ended {result : Except Exc CollectionReport} (h : s.phase run = .ended result) :
    EndsWith w machineId run s (s.db, result) := ⟨0, s, rfl, rfl, h⟩

/-- After a rollback the error is recorded. -/
theorem EndsWith.rolledBack {e : Exc} (h : RollsBack w machineId s run e)
    (hfree : s.locks (.provider (w.providerId run)) = none) :
    EndsWith w machineId run s
      ({ s.db with
          providers := Table.modify s.db.providers (w.providerId run)
            fun p => p.recordError (w.env run).unicode (some (.exception e)) }, .error e) := by
  have hreleased : (s.fail run e).locks (.provider (w.providerId run)) = none := by
    change s.locks.release run _ = none
    simp [Locks.release, hfree]
  exact .step (.fail e h) (.step (.record e advance_self hreleased) (.ended advance_self))

/-- The transaction of a run, by its parts. -/
theorem collectSamples_eq (env : CollectionEnv) (db : Database) (provider : MachineProvider) (machine : Machine) :
    collectSamples env db provider machine =
      match collectRecords env db provider machine with
      | .error e => .error e
      | .ok t =>
        match flushSamples env t.loaded db provider t.ops (t.flushedAt env) with
        | .error e => .error e
        | .ok db =>
          match refreshMachineOptimization env.settings db machine.id (t.computedAt env) with
          | .error e => .error e
          | .ok (db, _) => .ok (db, collectionReport provider.id machine.id t.ops) := by
  unfold collectSamples collectRecords
  cases getMetricCollector env.mock provider.type with
  | error e => rfl
  | ok connector =>
    simp only [bind, Except.bind]
    cases connector provider [machine] with
    | error e => rfl
    | ok records =>
      dsimp only
      cases upsertAll env (db.metrics provider.scope) provider [machine] 0 records with
      | error e => rfl
      | ok ops =>
        simp only [pure, Except.pure, Collected.flushedAt, Collected.computedAt]
        cases flushSamples env (db.metrics provider.scope) db provider ops (env.clock records.length) with
        | error e => rfl
        | ok db' =>
          dsimp only
          cases refreshMachineOptimization env.settings db' machine.id (env.clock (records.length + 1)) with
          | error e => rfl
          | ok result => rfl

/-- The refresh of a run that has looked up its samples succeeds on what it sees. -/
theorem LookedUp.refresh {t : Collected} (h : LookedUp w machineId s run t) (hc : s.db.Consistent) :
    ∃ report, refreshMachineOptimization (w.env run).settings (t.stored (w.env run) s.db) t.machine.id
        (t.computedAt (w.env run)) =
      .ok (committedDb w machineId s run t (buildOptimizationSnapshot w.settings (t.stored (w.env run) s.db) t.machine
        (t.computedAt (w.env run))) (s.db.optimizations.find? fun r => r.machineId = machineId), report) := by
  obtain ⟨-, -, hmachines, hoptimizations, -⟩ := writeSamples_frame s.db t.provider t.ops (t.flushedAt (w.env run))
  have hunique : ((t.stored (w.env run) s.db).optimizations.map (·.machineId)).Nodup :=
    hoptimizations.symm ▸ hc.optimizations_unique
  have hmachine : Table.get (t.stored (w.env run) s.db).machines machineId = some t.machine := hmachines ▸ h.machine_row
  obtain ⟨report, hrefresh⟩ := refreshMachineOptimization_eq (s := w.settings) hunique hmachine
    (t.computedAt (w.env run))
  have hid : t.machine.id = machineId := (Table.get_some h.machine_row).2
  rw [hid]
  refine ⟨report, hrefresh.trans ?_⟩
  rw [show (t.stored (w.env run) s.db).optimizations = s.db.optimizations from hoptimizations]

/-- After the flush, the snapshot is built, locked, written and committed. -/
theorem EndsWith.flushed {t : Collected} (hc : s.db.Consistent) (h : s.phase run = .flushed t)
    (hfree : ∀ x, x ≠ .provider t.provider.id → s.locks x = none) :
    EndsWith w machineId run s
      (writeOptimization (t.written (w.env run) s.db) machineId
        (s.db.optimizations.find? fun r => r.machineId = machineId)
        (buildOptimizationSnapshot w.settings (t.view (w.env run) (w.remembers run) s.db) t.machine
          (t.computedAt (w.env run))),
        .ok (collectionReport t.provider.id t.machine.id t.ops)) := by
  have hcurrent := currentOptimization_eq hc.optimizations_unique machineId
  have hholds := currentOptimization_holds hc.optimizations_unique hcurrent
  refine .step (.build t h) ?_
  cases hfind : s.db.optimizations.find? fun r => r.machineId = machineId with
  | none =>
    rw [hfind] at hcurrent hholds
    refine .step (.lockNone t _ advance_self hcurrent) ?_
    refine .step (.writeNew t _ advance_self (hfree _ nofun) hholds) ?_
    exact .step (.commit t _ none advance_self) (.ended advance_self)
  | some row =>
    rw [hfind] at hcurrent
    refine .step (.lockRow t _ row advance_self hcurrent (hfree _ nofun)) ?_
    refine .step (.writeRow t _ row advance_self) ?_
    exact .step (.commit t _ (some row) advance_self) (.ended advance_self)

/-- A run that nobody interrupts does what `run_provider_machine_collection` does. -/
theorem collection_alone (hc : s.db.Consistent) (hidle : s.phase run = .idle) (hfree : ∀ x, s.locks x = none) :
    EndsWith w machineId run s (runProviderMachineCollection (w.env run) s.db (w.providerId run) machineId) := by
  have hscope : Relies w machineId s run (readScope s.db (w.providerId run) machineId) := relies_readScope hc rfl
  refine .step (.read hidle) ?_
  unfold runProviderMachineCollection
  unfold readScope at hscope ⊢
  cases hload : loadProvider s.db (w.providerId run) with
  | error e => exact .ended advance_self
  | ok found =>
    cases found with
    | none => exact .ended advance_self
    | some provider =>
      simp only [hload] at hscope ⊢
      cases hscoped : scopedMachine s.db provider machineId with
      | error e => exact .ended advance_self
      | ok found =>
        cases found with
        | none => exact .ended advance_self
        | some machine =>
          simp only [hscoped] at hscope ⊢
          rw [collectSamples_eq]
          cases hcollect : collectRecords (w.env run) s.db provider machine with
          | error e => exact .rolledBack (.lookup provider machine e advance_self hcollect) (hfree _)
          | ok t =>
            refine .step (.lookup provider machine t advance_self hcollect) ?_
            have hread : ScopeRead w machineId s run provider machine := ⟨hscope.provider_id, hscope.machine_row⟩
            have hlookups : LookedUp w machineId s run t := lookedUp_of_collectRecords hc hread hcollect rfl
            have ht : t.provider = provider ∧ t.machine = machine ∧ t.loaded = s.db.metrics provider.scope := by
              simp only [collectRecords, bind_ok_iff] at hcollect
              obtain ⟨_, -, _, -, _, -, hreturn⟩ := hcollect
              cases hreturn
              exact ⟨rfl, rfl, rfl⟩
            obtain ⟨rfl, rfl, hloaded⟩ := ht
            dsimp only
            cases hflush : flushSamples (w.env run) t.loaded s.db t.provider t.ops (t.flushedAt (w.env run)) with
            | error e => exact .rolledBack (.flush t e advance_self (hfree _) hflush) (hfree _)
            | ok db' =>
              obtain ⟨-, -, -, rfl⟩ := flushSamples_ok (hc.indexed _) hlookups.found hflush
              -- nobody has written since the lookups, so that the run writes and sees all its samples
              have hwritten : t.written (w.env run) s.db = t.stored (w.env run) s.db :=
                writeSamples_emitted (hc.metrics_keyed _) hlookups.found (hloaded ▸ .refl _ _) _
              have hview : t.view (w.env run) (w.remembers run) s.db = t.stored (w.env run) s.db := by
                rw [Collected.view, hwritten]
                exact ite_self _
              obtain ⟨report, hrefresh⟩ := hlookups.refresh hc
              rw [← hwritten, Collected.written] at hrefresh
              simp only [hrefresh]
              rw [← Collected.written, hwritten, ← hview, committedDb, ← hwritten]
              refine .step (.flush t _ advance_self (hfree _) hflush) (.flushed hc advance_self fun x hx => ?_)
              change s.locks.acquire _ run x = none
              rw [Locks.acquire, Function.update_of_ne hx, hfree]

end Alone

end Washing
