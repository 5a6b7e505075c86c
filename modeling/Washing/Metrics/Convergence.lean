import Washing.Metrics.Concurrent
import Washing.Metrics.Daily

/-!
# Convergence of concurrent collections

What a run relies on is a predicate of its phase (`Relies`). A step of another run either changes no input of a
snapshot and commits nothing (`Quiet`), or is a commit; both keep what the run relies on (`Relies.quiet`,
`Relies.commit`). So in every schedule without a disturbance no run is rolled back because of another, the samples of
all runs are stored, and the optimization is current (`collections_converge`). Otherwise a second insert of the
optimization, a second insert of a day, a stale snapshot, or a row that another run has changed in the meantime may get
in between (`collections_collide`).
-/

namespace Washing

variable {w : CollectionWorld} {machineId : Nat}

/-! ## What a step can do -/

/-- What rolls a run back. -/
inductive RollsBack (w : CollectionWorld) (machineId : Nat) (s : CollectionState) (run : Nat) : Exc → Prop
  | lookup (provider : MachineProvider) (machine : Machine) (e : Exc) (phase : s.phase run = .inScope provider machine)
      (raised : collectRecords (w.env run) s.db provider machine = .error e) : RollsBack w machineId s run e
  | flush (t : Collected) (e : Exc) (phase : s.phase run = .collected t)
      (free : s.locks (.provider t.provider.id) = none)
      (raised : flushSamples (w.env run) t.loaded s.db t.provider t.ops (t.flushedAt (w.env run)) = .error e) :
    RollsBack w machineId s run e
  | lock (t : Collected) (snapshot : OptimizationSnapshot) (e : Exc) (phase : s.phase run = .built t snapshot)
      (raised : currentOptimization s.db machineId = .error e) : RollsBack w machineId s run e
  | write (t : Collected) (snapshot : OptimizationSnapshot) (phase : s.phase run = .locked t snapshot none)
      (free : s.locks .newOptimization = none) (present : ¬ HoldsRow s.db machineId none) :
      RollsBack w machineId s run (duplicateOptimization (w.env run))

/-- The steps of a run. -/
inductive CollectionStep (w : CollectionWorld) (machineId : Nat) (s : CollectionState) (run : Nat) :
    CollectionState → Prop
  | read (phase : s.phase run = .idle) :
    CollectionStep w machineId s run (s.advance run (readScope s.db (w.providerId run) machineId))
  | lookup (provider : MachineProvider) (machine : Machine) (t : Collected)
      (phase : s.phase run = .inScope provider machine)
      (collected : collectRecords (w.env run) s.db provider machine = .ok t) :
    CollectionStep w machineId s run (s.advance run (.collected t))
  | flush (t : Collected) (db : Database) (phase : s.phase run = .collected t)
      (free : s.locks (.provider t.provider.id) = none)
      (flushed : flushSamples (w.env run) t.loaded s.db t.provider t.ops (t.flushedAt (w.env run)) = .ok db) :
    CollectionStep w machineId s run
      { s.advance run (.flushed t) with locks := s.locks.acquire (.provider t.provider.id) run }
  | build (t : Collected) (phase : s.phase run = .flushed t) :
    CollectionStep w machineId s run
      { s.advance run (.built t (buildOptimizationSnapshot w.settings (t.view (w.env run) (w.remembers run) s.db)
          t.machine (t.computedAt (w.env run)))) with log := .built run :: s.log }
  | lockNone (t : Collected) (snapshot : OptimizationSnapshot) (phase : s.phase run = .built t snapshot)
      (current : currentOptimization s.db machineId = .ok none) :
    CollectionStep w machineId s run (s.advance run (.locked t snapshot none))
  | lockRow (t : Collected) (snapshot : OptimizationSnapshot) (row : MachineOptimization)
      (phase : s.phase run = .built t snapshot) (current : currentOptimization s.db machineId = .ok (some row))
      (free : s.locks .optimization = none) :
    CollectionStep w machineId s run
      { s.advance run (.locked t snapshot (some row)) with locks := s.locks.acquire .optimization run }
  | writeRow (t : Collected) (snapshot : OptimizationSnapshot) (row : MachineOptimization)
      (phase : s.phase run = .locked t snapshot (some row)) :
    CollectionStep w machineId s run (s.advance run (.written t snapshot (some row)))
  | writeNew (t : Collected) (snapshot : OptimizationSnapshot) (phase : s.phase run = .locked t snapshot none)
      (free : s.locks .newOptimization = none) (absent : HoldsRow s.db machineId none) :
    CollectionStep w machineId s run
      { s.advance run (.written t snapshot none) with locks := s.locks.acquire .newOptimization run }
  | commit (t : Collected) (snapshot : OptimizationSnapshot) (current : Option MachineOptimization)
      (phase : s.phase run = .written t snapshot current) :
    CollectionStep w machineId s run
      { s.advance run (.ended (.ok (collectionReport t.provider.id t.machine.id t.ops))) with
        db := writeOptimization (t.written (w.env run) s.db) machineId current snapshot
        locks := s.locks.release run
        log := .committed run t :: s.log }
  | fail (e : Exc) (cause : RollsBack w machineId s run e) : CollectionStep w machineId s run (s.fail run e)
  | record (e : Exc) (phase : s.phase run = .failed e) (free : s.locks (.provider (w.providerId run)) = none) :
    CollectionStep w machineId s run
      { s.advance run (.ended (.error e)) with
        db := { s.db with
          providers := Table.modify s.db.providers (w.providerId run)
            fun p => p.recordError (w.env run).unicode (some (.exception e)) } }

theorem stepCollection_cases {s s' : CollectionState} {run : Nat} (h : stepCollection w machineId s run = some s') :
    CollectionStep w machineId s run s' := by
  unfold stepCollection at h
  cases hphase : s.phase run with
  | idle =>
    simp only [hphase, Option.some.injEq] at h
    subst h
    exact .read hphase
  | inScope provider machine =>
    simp only [hphase] at h
    split at h <;> cases h
    · exact .fail _ (.lookup provider machine _ hphase ‹_›)
    · exact .lookup provider machine _ hphase ‹_›
  | collected t =>
    simp only [hphase, ite_not] at h
    split_ifs at h with hfree
    split at h <;> cases h
    · exact .fail _ (.flush t _ hphase hfree ‹_›)
    · exact .flush t _ hphase hfree ‹_›
  | flushed t =>
    simp only [hphase, Option.some.injEq] at h
    subst h
    exact .build t hphase
  | built t snapshot =>
    simp only [hphase] at h
    split at h
    · cases h
      exact .fail _ (.lock t snapshot _ hphase ‹_›)
    · cases h
      exact .lockNone t snapshot hphase ‹_›
    · split_ifs at h with hfree
      cases h
      exact .lockRow t snapshot _ hphase ‹_› (not_not.mp hfree)
  | locked t snapshot current =>
    cases current with
    | some row =>
      simp only [hphase, Option.some.injEq] at h
      subst h
      exact .writeRow t snapshot row hphase
    | none =>
      simp only [hphase] at h
      split_ifs at h with hfree hpresent
      · cases h
        exact .fail _ (.write t snapshot hphase (not_not.mp hfree)
          fun habsent => hpresent.elim fun r hr => habsent r hr.1 hr.2)
      · cases h
        exact .writeNew t snapshot hphase (not_not.mp hfree) fun r hr hid => hpresent ⟨r, hr, hid⟩
  | written t snapshot current =>
    simp only [hphase, Option.some.injEq] at h
    subst h
    exact .commit t snapshot current hphase
  | failed e =>
    simp only [hphase] at h
    split_ifs at h with hfree
    cases h
    exact .record e hphase (not_not.mp hfree)
  | ended result => simp [hphase] at h

theorem CollectionStep.step {s s' : CollectionState} {run : Nat} (h : CollectionStep w machineId s run s') :
    stepCollection w machineId s run = some s' := by
  cases h with
  | read phase => simp only [stepCollection, phase]
  | lookup provider machine t phase collected => simp only [stepCollection, phase, collected]
  | flush t db phase free flushed => simp [stepCollection, phase, free, flushed]
  | build t phase => simp only [stepCollection, phase]
  | lockNone t snapshot phase current => simp only [stepCollection, phase, current]
  | lockRow t snapshot row phase current free => simp [stepCollection, phase, current, free]
  | writeRow t snapshot row phase => simp only [stepCollection, phase]
  | writeNew t snapshot phase free absent =>
    have hnone : ¬ ∃ r ∈ s.db.optimizations, r.machineId = machineId := fun ⟨r, hr, hid⟩ => absent r hr hid
    simp [stepCollection, phase, free, hnone]
  | commit t snapshot current phase => simp only [stepCollection, phase]
  | fail e cause =>
    cases cause with
    | lookup provider machine e phase raised => simp only [stepCollection, phase, raised]
    | flush t e phase free raised => simp [stepCollection, phase, free, raised]
    | lock t snapshot e phase raised => simp only [stepCollection, phase, raised]
    | write t snapshot phase free present =>
      have hsome : ∃ r ∈ s.db.optimizations, r.machineId = machineId := by simpa [HoldsRow] using present
      simp [stepCollection, phase, free, hsome]
  | record e phase free => simp [stepCollection, phase, free]

/-! ## What a run relies on -/

/-- The provider and the machine that a run has read are those that it asked for. -/
structure ScopeRead (w : CollectionWorld) (machineId : Nat) (s : CollectionState) (run : Nat)
    (provider : MachineProvider)
    (machine : Machine) : Prop where
  provider_id : provider.id = w.providerId run
  machine_row : Table.get s.db.machines machineId = some machine

/-- A run has looked up the days of its samples, and the rows that it found are still there. -/
structure LookedUp (w : CollectionWorld) (machineId : Nat) (s : CollectionState) (run : Nat) (t : Collected) :
    Prop extends
    ScopeRead w machineId s run t.provider t.machine where
  answered : Answered (w.env run) t
  lookups : ∃ rows next, Indexed MachineMetric.day next rows ∧
    upsertAll (w.env run) rows t.provider [t.machine] 0 t.records = .ok t.ops
  found : ∀ id v, .updated id v ∈ t.ops → SampleOp.Fits (s.db.metrics t.provider.scope) (.updated id v)

/-- A run has flushed: it holds the lock of its provider, and its operations fit the committed rows. -/
structure FlushDone (w : CollectionWorld) (machineId : Nat) (s : CollectionState) (run : Nat) (t : Collected) :
    Prop extends
    LookedUp w machineId s run t where
  lock : s.locks (.provider t.provider.id) = some run
  fits : ∀ op ∈ t.ops, op.Fits (s.db.metrics t.provider.scope)
  held : StillHeld t.loaded (s.db.metrics t.provider.scope) t.ops
  nodup : ((createdSamples t.ops).map SampleValues.day).Nodup

/-- The committed rows and all samples of a run. -/
def Collected.stored (t : Collected) (env : CollectionEnv) (db : Database) : Database :=
  writeSamples db t.provider t.ops (t.flushedAt env)

/-- A run writes and sees all its samples. -/
theorem FlushDone.stored {s : CollectionState} {run : Nat} {t : Collected} (h : FlushDone w machineId s run t)
    (hdb : s.db.Consistent) : t.written (w.env run) s.db = t.stored (w.env run) s.db ∧
      t.view (w.env run) (w.remembers run) s.db = t.stored (w.env run) s.db := by
  have hwritten : t.written (w.env run) s.db = t.stored (w.env run) s.db :=
    writeSamples_emitted (hdb.metrics_keyed _) (fun id v hop => h.fits _ hop) h.held _
  refine ⟨hwritten, ?_⟩
  rw [Collected.view, hwritten]
  split_ifs
  · rfl
  · rfl

/-- The snapshot of a run is the one it would build now. -/
def SnapshotCurrent (w : CollectionWorld) (s : CollectionState) (run : Nat) (t : Collected)
    (snapshot : OptimizationSnapshot) : Prop :=
  snapshot.untimed = (buildOptimizationSnapshot w.settings (t.stored (w.env run) s.db) t.machine 0).untimed

/-- The lock that a write of the optimization needs. -/
def rowLock : Option MachineOptimization → CollectionLock
  | none => .newOptimization
  | some _ => .optimization

/-- A run holds the lock for its write, and the row is as it found it. -/
structure RowTaken (machineId : Nat) (s : CollectionState) (run : Nat) (current : Option MachineOptimization) :
    Prop where
  lock : s.locks (rowLock current) = some run
  row : HoldsRow s.db machineId current

/-- What a run relies on, phase by phase. -/
def Relies (w : CollectionWorld) (machineId : Nat) (s : CollectionState) (run : Nat) : CollectionPhase → Prop
  | .idle | .failed _ | .ended (.error _) => True
  | .inScope provider machine => ScopeRead w machineId s run provider machine
  | .collected t => LookedUp w machineId s run t
  | .flushed t => FlushDone w machineId s run t
  | .built t snapshot => FlushDone w machineId s run t ∧ (NoCommitSince s run → SnapshotCurrent w s run t snapshot)
  | .locked t snapshot current => FlushDone w machineId s run t ∧
    (NoCommitSince s run → SnapshotCurrent w s run t snapshot ∧ HoldsRow s.db machineId current) ∧
    ∀ row, current = some row → RowTaken machineId s run (some row)
  | .written t snapshot current => FlushDone w machineId s run t ∧ SnapshotCurrent w s run t snapshot ∧
    RowTaken machineId s run current
  | .ended (.ok report) => report.status = none →
    ∃ t, .committed run t ∈ s.log ∧ report = collectionReport t.provider.id t.machine.id t.ops

/-! ## Quiet steps -/

/-- A step of a run that changes no input of a snapshot and no optimization, and commits no samples. -/
structure Quiet (s s' : CollectionState) (run : Nat) : Prop where
  inputs : SameInputs s.db s'.db
  nextId : s'.db.nextId = s.db.nextId
  optimizations : s'.db.optimizations = s.db.optimizations
  log : s'.log = s.log ∨ s'.log = .built run :: s.log

theorem HoldsRow.congr {db db' : Database} {current : Option MachineOptimization} (h : HoldsRow db machineId current)
    (heq : db'.optimizations = db.optimizations) : HoldsRow db' machineId current := by
  cases current with
  | none =>
    intro r hr
    rw [heq] at hr
    exact h r hr
  | some row => exact ⟨heq ▸ h.1, h.2⟩

section Quiet

variable {s s' : CollectionState} {run other : Nat} {t : Collected} {snapshot : OptimizationSnapshot}

theorem ScopeRead.quiet {provider : MachineProvider} {machine : Machine}
    (h : ScopeRead w machineId s other provider machine) (hmachines : s'.db.machines = s.db.machines) :
    ScopeRead w machineId s' other provider machine := ⟨h.provider_id, hmachines ▸ h.machine_row⟩

theorem LookedUp.quiet (h : LookedUp w machineId s other t) (hq : Quiet s s' run) : LookedUp w machineId s' other t :=
  ⟨h.toScopeRead.quiet hq.inputs.machines, h.answered, h.lookups, (hq.inputs.metrics _).symm ▸ h.found⟩

theorem FlushDone.quiet (h : FlushDone w machineId s other t) (hq : Quiet s s' run)
    (hlocks : ∀ x, s.locks x = some other → s'.locks x = some other) : FlushDone w machineId s' other t :=
  ⟨h.toLookedUp.quiet hq, hlocks _ h.lock, (hq.inputs.metrics _).symm ▸ h.fits,
    (hq.inputs.metrics _).symm ▸ h.held, h.nodup⟩

theorem SnapshotCurrent.quiet (h : SnapshotCurrent w s other t snapshot) (hq : Quiet s s' run) :
    SnapshotCurrent w s' other t snapshot := by
  rw [SnapshotCurrent, Collected.stored, build_congr (hq.inputs.writeSamples hq.nextId)]
  exact h

theorem NoCommitSince.of_quiet (hne : other ≠ run) (hq : Quiet s s' run) (h : NoCommitSince s' other) :
    NoCommitSince s other := by
  unfold NoCommitSince at h ⊢
  rcases hq.log with hlog | hlog
  · rwa [hlog] at h
  · rw [hlog] at h
    have hother : ¬ CollectionEvent.built run = .built other := fun e => hne (CollectionEvent.built.inj e).symm
    exact ((since_cons (q := (· = CollectionEvent.built other)) hother).mp h).2

theorem RowTaken.quiet {current : Option MachineOptimization} (h : RowTaken machineId s other current)
    (hq : Quiet s s' run) (hlocks : ∀ x, s.locks x = some other → s'.locks x = some other) :
    RowTaken machineId s' other current := ⟨hlocks _ h.lock, h.row.congr hq.optimizations⟩

/-- A quiet step keeps what another run relies on. -/
theorem Relies.quiet {phase : CollectionPhase} (h : Relies w machineId s other phase) (hne : other ≠ run)
    (hq : Quiet s s' run) (hlocks : ∀ x, s.locks x = some other → s'.locks x = some other) :
    Relies w machineId s' other phase := by
  cases phase with
  | idle => trivial
  | failed e => trivial
  | inScope provider machine => exact ScopeRead.quiet h hq.inputs.machines
  | collected t => exact LookedUp.quiet h hq
  | flushed t => exact FlushDone.quiet h hq hlocks
  | built t snapshot =>
    obtain ⟨hflush, hcurrent⟩ := h
    exact ⟨hflush.quiet hq hlocks, fun hno => (hcurrent (hno.of_quiet hne hq)).quiet hq⟩
  | locked t snapshot current =>
    obtain ⟨hflush, hcurrent, htaken⟩ := h
    refine ⟨hflush.quiet hq hlocks, fun hno => ?_, fun row hrow => (htaken row hrow).quiet hq hlocks⟩
    obtain ⟨hsnapshot, hholds⟩ := hcurrent (hno.of_quiet hne hq)
    exact ⟨hsnapshot.quiet hq, hholds.congr hq.optimizations⟩
  | written t snapshot current =>
    obtain ⟨hflush, hcurrent, htaken⟩ := h
    exact ⟨hflush.quiet hq hlocks, hcurrent.quiet hq, htaken.quiet hq hlocks⟩
  | ended result =>
    cases result with
    | error e => trivial
    | ok report =>
      intro hstatus
      obtain ⟨t, ht, hreport⟩ := h hstatus
      refine ⟨t, ?_, hreport⟩
      rcases hq.log with hlog | hlog
      · exact hlog ▸ ht
      · exact hlog ▸ List.mem_cons_of_mem _ ht

end Quiet

/-! ## Commits -/

/-- The database that a run commits. -/
abbrev committedDb (w : CollectionWorld) (machineId : Nat) (s : CollectionState) (run : Nat) (t : Collected)
    (snapshot : OptimizationSnapshot) (current : Option MachineOptimization) : Database :=
  writeOptimization (t.stored (w.env run) s.db) machineId current snapshot

theorem returnedSamples_provider {env : CollectionEnv} {provider : MachineProvider} {machines : List Machine}
    {records : List MetricRecord} {k : Nat} {v : SampleValues}
    (h : v ∈ returnedSamples env provider machines k records) : v.providerId = provider.id := by
  induction records generalizing k with
  | nil => cases h
  | cons record records ih =>
    rw [returnedSamples] at h
    split at h
    · next values hvalues =>
      rcases List.mem_cons.mp h with rfl | h
      · exact (recordValues_some hvalues).1
      · exact ih h
    · exact ih h
    · exact ih h

section Commit

variable {s s' : CollectionState} {run other : Nat} {t t' : Collected} {snapshot snapshot' : OptimizationSnapshot}
  {current current' : Option MachineOptimization}

/-- What the operations of a run write is the answer of its connector. -/
theorem LookedUp.values (h : LookedUp w machineId s run t) :
    t.ops.filterMap SampleOp.values = returnedSamples (w.env run) t.provider [t.machine] 0 t.records := by
  obtain ⟨rows, next, hindexed, hops⟩ := h.lookups
  exact (upsertAll_ok hindexed hops).2

theorem LookedUp.entries (h : LookedUp w machineId s run t) : sampleEntries t.ops = t.returned (w.env run) := by
  rw [sampleEntries, h.values, Collected.returned]

theorem LookedUp.values_provider (h : LookedUp w machineId s run t) {v : SampleValues}
    (hv : v ∈ t.ops.filterMap SampleOp.values) : v.providerId = t.provider.id := by
  rw [h.values] at hv
  exact returnedSamples_provider hv

/-- What a commit does to the samples of a scope. -/
theorem FlushDone.upserted (h : FlushDone w machineId s run t) (hdb : s.db.Consistent) (snapshot : OptimizationSnapshot)
    (current : Option MachineOptimization) (scope : ScopeName) :
    Upserted MachineMetric.day MachineMetric.value (s.db.metrics scope)
      (if scope = t.provider.scope then sampleEntries t.ops else [])
      ((committedDb w machineId s run t snapshot current).metrics scope) := by
  rw [(writeOptimization_sameInputs _ machineId current snapshot).metrics scope]
  exact writeSamples_upserted hdb h.fits h.nodup scope

/-- A commit keeps the days unique. -/
theorem FlushDone.indexed (h : FlushDone w machineId s run t) (hdb : s.db.Consistent) (snapshot : OptimizationSnapshot)
    (current : Option MachineOptimization) (scope : ScopeName) :
    Indexed MachineMetric.day (t.stored (w.env run) s.db).nextId
      ((committedDb w machineId s run t snapshot current).metrics scope) := by
  rw [(writeOptimization_sameInputs _ machineId current snapshot).metrics scope]
  exact (hdb.writeSamples h.fits h.nodup).indexed scope

theorem FlushDone.machines (w : CollectionWorld) (machineId : Nat) (s : CollectionState) (run : Nat) (t : Collected)
    (snapshot : OptimizationSnapshot) (current : Option MachineOptimization) :
    (committedDb w machineId s run t snapshot current).machines = s.db.machines := by
  rw [(writeOptimization_sameInputs _ machineId current snapshot).machines]
  exact (writeSamples_frame s.db t.provider t.ops _).2.2.1

/-- The entries of a commit are days of its provider. -/
theorem FlushDone.entries_provider (h : FlushDone w machineId s run t) {scope : ScopeName} {e : SampleDay × Int}
    (he : e ∈ if scope = t.provider.scope then sampleEntries t.ops else []) : e.1.1 = t.provider.id := by
  split_ifs at he
  · obtain ⟨v, hv, rfl⟩ := List.mem_map.mp he
    exact h.values_provider hv
  · cases he

theorem LookedUp.commit (h : LookedUp w machineId s other t') (hrun : FlushDone w machineId s run t)
    (hdb : s.db.Consistent) (hs' : s'.db = committedDb w machineId s run t snapshot current) :
    LookedUp w machineId s' other t' := by
  refine ⟨h.toScopeRead.quiet ?_, h.answered, h.lookups, fun id v hmem => ?_⟩
  · rw [hs', FlushDone.machines]
  · rw [hs']
    exact (h.found id v hmem).upserted (hrun.upserted hdb _ _ _) nofun

/-- Two runs that have flushed have different providers, so that neither creates a day of the other. -/
theorem FlushDone.commit (h : FlushDone w machineId s other t') (hrun : FlushDone w machineId s run t)
    (hne : other ≠ run) (hdb : s.db.Consistent) (hs' : s'.db = committedDb w machineId s run t snapshot current)
    (hlocks : ∀ x, s.locks x = some other → s'.locks x = some other) : FlushDone w machineId s' other t' := by
  have hproviders : t.provider.id ≠ t'.provider.id := by
    intro heq
    have hlock := hrun.lock
    rw [heq, h.lock] at hlock
    exact hne (Option.some.inj hlock)
  -- the entries of the commit are of no day of the other run
  have hother : ∀ {op : SampleOp} {v : SampleValues}, op ∈ t'.ops → v ∈ op.values → ∀ scope,
      ∀ e ∈ if scope = t.provider.scope then sampleEntries t.ops else [], e.1 ≠ v.day := by
    intro op v hop hv scope e he hday
    apply hproviders
    calc t.provider.id = e.1.1 := (hrun.entries_provider he).symm
      _ = v.providerId := by rw [hday]; rfl
      _ = t'.provider.id := h.values_provider (List.mem_filterMap.mpr ⟨op, hop, hv⟩)
  have hput := hrun.upserted hdb snapshot current t'.provider.scope
  refine ⟨h.toLookedUp.commit hrun hdb hs', hlocks _ h.lock, fun op hop => ?_, fun op hop => ?_, h.nodup⟩
  · rw [hs']
    exact (h.fits op hop).upserted hput fun v hv => hother hop (by rw [hv]; rfl) _
  · rw [hs']
    refine fun hchanges => h.held op hop ?_
    cases op with
    | skipped | created _ => trivial
    | updated id v =>
      intro r hr hid hvalue
      obtain ⟨r₀, hr₀, hid₀, hday⟩ := h.fits _ (mem_lastUpdates hop)
      obtain rfl := (hdb.metrics_keyed _).eq_of_id hr₀ hr (hid₀.trans hid.symm)
      have hkept := hput.kept (hdb.indexed _) (hrun.indexed hdb snapshot current _) hr
        (sameDay_iff.mp hday ▸ hother (mem_lastUpdates hop) rfl _)
      obtain ⟨r', hr', hid', hvalue'⟩ := hkept
      exact hchanges r' hr' (hid'.trans hid) (hvalue'.trans hvalue)

/-- Two runs never have taken the row both. -/
theorem RowTaken.unique (h : RowTaken machineId s run current) (h' : RowTaken machineId s other current') :
    other = run := by
  cases current with
  | none =>
    cases current' with
    | none => exact Option.some.inj (h'.lock.symm.trans h.lock)
    | some row => exact absurd h'.row.2 (h.row row h'.row.1)
  | some row =>
    cases current' with
    | none => exact absurd h.row.2 (h'.row row h.row.1)
    | some row' => exact Option.some.inj (h'.lock.symm.trans h.lock)

/-- A commit keeps what another run relies on. -/
theorem Relies.commit {phase : CollectionPhase} (h : Relies w machineId s other phase) (hne : other ≠ run)
    (hrun : FlushDone w machineId s run t) (htaken : RowTaken machineId s run current) (hdb : s.db.Consistent)
    (hs' : s'.db = committedDb w machineId s run t snapshot current) (hlog : s'.log = .committed run t :: s.log)
    (hlocks : ∀ x, s.locks x = some other → s'.locks x = some other) : Relies w machineId s' other phase := by
  have hcommit : ¬ NoCommitSince s' other := by
    unfold NoCommitSince
    rw [hlog]
    rintro (he | ⟨he, -⟩)
    · cases he
    · cases he
  cases phase with
  | idle => trivial
  | failed e => trivial
  | inScope provider machine => exact ScopeRead.quiet h (by rw [hs', FlushDone.machines])
  | collected t' => exact LookedUp.commit h hrun hdb hs'
  | flushed t' => exact FlushDone.commit h hrun hne hdb hs' hlocks
  | built t' snapshot' => exact ⟨h.1.commit hrun hne hdb hs' hlocks, fun hno => absurd hno hcommit⟩
  | locked t' snapshot' current' =>
    refine ⟨h.1.commit hrun hne hdb hs' hlocks, fun hno => absurd hno hcommit, fun row hrow => ?_⟩
    exact absurd (htaken.unique (h.2.2 row hrow)) hne
  | written t' snapshot' current' => exact absurd (htaken.unique h.2.2) hne
  | ended result =>
    cases result with
    | error e => trivial
    | ok report =>
      intro hstatus
      obtain ⟨t', ht', hreport⟩ := h hstatus
      exact ⟨t', hlog ▸ List.mem_cons_of_mem _ ht', hreport⟩

end Commit

/-! ## Steps without a disturbance -/

/-- What holds after every step. -/
structure Converging (w : CollectionWorld) (machineId : Nat) (db : Database) (s : CollectionState) : Prop where
  consistent : s.db.Consistent
  relies : ∀ run, Relies w machineId s run (s.phase run)
  answered : ∀ run t, .committed run t ∈ s.log → Answered (w.env run) t
  stored : ∀ scope, sampleAt s.db scope = samplesAfter w scope (sampleAt db scope) s.log
  current : (∃ run t, .committed run t ∈ s.log) → OptimizationCurrent w.settings s.db machineId

theorem converging_start {db : Database} (hc : db.Consistent) : Converging w machineId db (.start db) := by
  constructor
  case consistent => exact hc
  case relies => exact fun _ => trivial
  case answered => exact fun run t hmem => absurd hmem List.not_mem_nil
  case stored => exact fun scope => rfl
  case current =>
    rintro ⟨run, t, hmem⟩
    exact absurd hmem List.not_mem_nil

section Step

variable {db : Database} {s s' : CollectionState} {run : Nat}

/-- What a run relies on after it has read its provider and its machine. -/
theorem relies_readScope (hc : s.db.Consistent) (hs' : s'.db = s.db) :
    Relies w machineId s' run (readScope s.db (w.providerId run) machineId) := by
  unfold readScope
  split
  · trivial
  · rintro ⟨⟩
  · rename_i provider hprovider
    have hid : provider.id = w.providerId run := by
      have hmem : provider ∈ selectWhere (fun p => Cond.eq (some p.id) (some (w.providerId run))) s.db.providers := by
        rw [oneOrNone_some hprovider]
        exact List.mem_singleton_self provider
      simpa using (mem_selectWhere.mp hmem).2
    split
    · trivial
    · rintro ⟨⟩
    · rename_i machine hmachine
      refine ⟨hid, ?_⟩
      rw [scopedMachine_eq hc.machines_keyed, Except.ok.injEq] at hmachine
      have hmem := (mem_scopedMachineQuery.mp (List.mem_of_find?_eq_some hmachine)).1
      have hmid : machine.id = machineId := by simpa using List.find?_some hmachine
      rw [hs', ← hmid]
      exact Table.get_of_mem hc.machines_keyed hmem

/-- The lookups of a run. -/
theorem lookedUp_of_collectRecords (hc : s.db.Consistent) {provider : MachineProvider} {machine : Machine}
    (hread : ScopeRead w machineId s run provider machine) {t : Collected}
    (h : collectRecords (w.env run) s.db provider machine = .ok t) (hs' : s'.db = s.db) :
    LookedUp w machineId s' run t := by
  simp only [collectRecords, bind_ok_iff] at h
  obtain ⟨connector, hconnector, records, hrecords, ops, hops, hreturn⟩ := h
  cases hreturn
  have hindexed := hc.indexed provider.scope
  refine ⟨hread.quiet (by rw [hs']), ⟨connector, hconnector, hrecords⟩, ⟨_, _, hindexed, hops⟩, fun id v hmem => ?_⟩
  rw [hs']
  exact (upsertAll_ok hindexed hops).1 _ hmem

/-- The consistency of a database whose providers were modified. -/
theorem Database.Consistent.withProviders {db : Database} (h : db.Consistent) {providers : List MachineProvider}
    (hp : Table.Keyed providers) : { db with providers }.Consistent :=
  ⟨h.provisioners_keyed, hp, h.machines_keyed, h.machines_unique, h.machines_fresh, h.metrics_keyed, h.metrics_unique,
    h.metrics_fresh, h.optimizations_keyed, h.optimizations_unique, h.optimizations_fresh, h.applications_keyed⟩

/-- A quiet step keeps what has been achieved, and what the other runs rely on. -/
theorem Converging.quiet (h : Converging w machineId db s) (run : Nat) (hc : s'.db.Consistent) (hq : Quiet s s' run)
    (hother : ∀ other ≠ run, s'.phase other = s.phase other ∧ ∀ x, s.locks x = some other → s'.locks x = some other)
    (hrun : Relies w machineId s' run (s'.phase run)) : Converging w machineId db s' := by
  have hcommitted : ∀ run t, .committed run t ∈ s'.log → .committed run t ∈ s.log := by
    intro run t hmem
    rcases hq.log with hlog | hlog
    · exact hlog ▸ hmem
    · rw [hlog] at hmem
      exact (List.mem_cons.mp hmem).resolve_left nofun
  constructor
  case consistent => exact hc
  case relies =>
    intro other
    by_cases hne : other = run
    · exact hne ▸ hrun
    · obtain ⟨hphase, hlocks⟩ := hother other hne
      exact hphase ▸ (h.relies other).quiet hne hq hlocks
  case answered => exact fun run t hmem => h.answered run t (hcommitted run t hmem)
  case stored =>
    intro scope
    have hlog : samplesAfter w scope (sampleAt db scope) s'.log = samplesAfter w scope (sampleAt db scope) s.log := by
      rcases hq.log with hlog | hlog <;> rw [hlog]
      rfl
    rw [hlog, ← h.stored, sampleAt, sampleAt, hq.inputs.metrics]
  case current =>
    rintro ⟨run, t, hmem⟩ m hm
    rw [hq.inputs.machines] at hm
    rw [hq.optimizations, build_congr hq.inputs]
    exact h.current ⟨run, t, hcommitted run t hmem⟩ m hm

/-- The other runs, after a step that changes the phase of a run only. -/
theorem others_advance {phase : CollectionPhase} {other : Nat} (hne : other ≠ run) :
    (s.advance run phase).phase other = s.phase other := Function.update_of_ne hne _ _

@[simp] theorem advance_self {phase : CollectionPhase} : (s.advance run phase).phase run = phase :=
  Function.update_self ..

/-- A commit in turn stores the samples of the run and brings the optimization up to date. -/
theorem Converging.commit (h : Converging w machineId db s) {t : Collected} {snapshot : OptimizationSnapshot}
    {current : Option MachineOptimization} (hrun : FlushDone w machineId s run t)
    (hcurrent : SnapshotCurrent w s run t snapshot) (htaken : RowTaken machineId s run current)
    (hs' : s'.db = committedDb w machineId s run t snapshot current) (hlog : s'.log = .committed run t :: s.log)
    (hother : ∀ other ≠ run, s'.phase other = s.phase other ∧ ∀ x, s.locks x = some other → s'.locks x = some other)
    (hended : s'.phase run = .ended (.ok (collectionReport t.provider.id t.machine.id t.ops))) :
    Converging w machineId db s' := by
  have hoptimizations : (t.stored (w.env run) s.db).optimizations = s.db.optimizations :=
    (writeSamples_frame s.db t.provider t.ops _).2.2.2.1
  have hview : (t.stored (w.env run) s.db).Consistent := h.consistent.writeSamples hrun.fits hrun.nodup
  have hholds : HoldsRow (t.stored (w.env run) s.db) machineId current := htaken.row.congr hoptimizations
  constructor
  case consistent => exact hs' ▸ hview.writeOptimization hholds
  case relies =>
    intro other
    by_cases hne : other = run
    · rw [hne, hended]
      exact fun _ => ⟨t, hlog ▸ List.mem_cons_self, rfl⟩
    · obtain ⟨hphase, hlocks⟩ := hother other hne
      exact hphase ▸ (h.relies other).commit hne hrun htaken h.consistent hs' hlog hlocks
  case answered =>
    intro r t' hmem
    rw [hlog] at hmem
    rcases List.mem_cons.mp hmem with he | hmem
    · cases he
      exact hrun.answered
    · exact h.answered r t' hmem
  case stored =>
    intro scope
    have hput := (hrun.upserted h.consistent snapshot current scope).lookup
    rw [sampleAt, hs', hput, hlog, samplesAfter, ← h.stored, hrun.entries]
    split_ifs
    · rfl
    · rfl
  case current =>
    rintro - m hm
    have hmachine : m = t.machine := by
      rw [hs', FlushDone.machines, hrun.machine_row] at hm
      exact (Option.some.inj hm).symm
    rw [hs', writeOptimization_current hview.optimizations_unique hholds,
      build_congr (writeOptimization_sameInputs _ machineId current snapshot), hcurrent, hmachine]

/-- A step that changes neither the database nor the log is quiet. -/
theorem quiet_of_eq (run : Nat) (hdb : s'.db = s.db) (hlog : s'.log = s.log ∨ s'.log = .built run :: s.log) :
    Quiet s s' run :=
  ⟨hdb ▸ SameInputs.refl s.db, by rw [hdb], by rw [hdb], hlog⟩

/-- A step that changes the locks, the log and the phase of the run only. -/
theorem Converging.advance (h : Converging w machineId db s) {locks : Locks CollectionLock} {phase : CollectionPhase}
    {log : List CollectionEvent} (hlocks : ∀ other ≠ run, ∀ x, s.locks x = some other → locks x = some other)
    (hlog : log = s.log ∨ log = .built run :: s.log)
    (hrun : Relies w machineId ⟨s.db, locks, Function.update s.phase run phase, log⟩ run phase) :
    Converging w machineId db ⟨s.db, locks, Function.update s.phase run phase, log⟩ := by
  refine h.quiet run h.consistent (quiet_of_eq run rfl hlog) (fun other hne => ?_) ?_
  · exact ⟨Function.update_of_ne hne _ _, hlocks other hne⟩
  · dsimp only
    rwa [Function.update_self]

/-- Every step of an undisturbed run keeps what has been achieved. -/
theorem Converging.step (h : Converging w machineId db s) (hturn : Undisturbed s run)
    (hs : stepCollection w machineId s run = some s') : Converging w machineId db s' := by
  have hrelies := h.relies run
  cases stepCollection_cases hs with
  | read phase => exact h.advance (fun _ _ _ => id) (.inl rfl) (relies_readScope h.consistent rfl)
  | lookup provider machine t phase collected =>
    rw [phase] at hrelies
    exact h.advance (fun _ _ _ => id) (.inl rfl) (lookedUp_of_collectRecords h.consistent hrelies collected rfl)
  | flush t db' phase free flushed =>
    rw [phase] at hrelies
    have hlookups : LookedUp w machineId s run t := hrelies
    obtain ⟨hfits, hnodup, -⟩ := flushSamples_ok (h.consistent.indexed _) hlookups.found flushed
    have hheld : StillHeld t.loaded (s.db.metrics t.provider.scope) t.ops := by
      simp only [Undisturbed, phase] at hturn
      exact hturn.2
    refine h.advance (fun _ _ _ => Locks.held_acquire free) (.inl rfl)
      ⟨?_, Locks.acquire_self _ _ _, hfits, hheld, hnodup⟩
    exact ⟨⟨hlookups.provider_id, hlookups.machine_row⟩, hlookups.answered, hlookups.lookups, hlookups.found⟩
  | build t phase =>
    rw [phase] at hrelies
    have hflush : FlushDone w machineId s run t := hrelies
    refine h.advance (fun _ _ _ => id) (.inr rfl) ⟨?_, fun _ => ?_⟩
    · exact hflush.quiet (quiet_of_eq run rfl (.inr rfl)) fun _ => id
    · rw [(hflush.stored h.consistent).2]
      exact build_untimed _ _ _ _ _
  | lockNone t snapshot phase current =>
    rw [phase] at hrelies
    obtain ⟨hflush, hsnapshot⟩ := hrelies
    have hholds := currentOptimization_holds h.consistent.optimizations_unique current
    refine h.advance (fun _ _ _ => id) (.inl rfl) ⟨?_, fun hno => ⟨hsnapshot hno, hholds⟩, fun row hrow => ?_⟩
    · exact hflush.quiet (quiet_of_eq run rfl (.inl rfl)) fun _ => id
    · cases hrow
  | lockRow t snapshot row phase current free =>
    rw [phase] at hrelies
    obtain ⟨hflush, hsnapshot⟩ := hrelies
    have hholds := currentOptimization_holds h.consistent.optimizations_unique current
    refine h.advance (fun _ _ _ => Locks.held_acquire free) (.inl rfl)
      ⟨?_, fun hno => ⟨hsnapshot hno, hholds⟩, fun row' hrow => ?_⟩
    · exact hflush.quiet (quiet_of_eq run rfl (.inl rfl)) fun _ => Locks.held_acquire free
    · cases hrow
      exact ⟨Locks.acquire_self s.locks .optimization run, hholds⟩
  | writeRow t snapshot row phase =>
    rw [phase] at hrelies
    obtain ⟨hflush, hsnapshot, htaken⟩ := hrelies
    have hno : NoCommitSince s run := by simpa [Undisturbed, phase] using hturn
    refine h.advance (fun _ _ _ => id) (.inl rfl) ⟨?_, (hsnapshot hno).1, ?_⟩
    · exact hflush.quiet (quiet_of_eq run rfl (.inl rfl)) fun _ => id
    · exact (htaken row rfl).quiet (quiet_of_eq run rfl (.inl rfl)) fun _ => id
  | writeNew t snapshot phase free absent =>
    rw [phase] at hrelies
    obtain ⟨hflush, hsnapshot, -⟩ := hrelies
    have hno : NoCommitSince s run := by simpa [Undisturbed, phase] using hturn
    refine h.advance (fun _ _ _ => Locks.held_acquire free) (.inl rfl)
      ⟨?_, (hsnapshot hno).1, ⟨Locks.acquire_self s.locks .newOptimization run, absent⟩⟩
    exact hflush.quiet (quiet_of_eq run rfl (.inl rfl)) fun _ => Locks.held_acquire free
  | commit t snapshot current phase =>
    rw [phase] at hrelies
    obtain ⟨hflush, hsnapshot, htaken⟩ := hrelies
    have hdb := congrArg (writeOptimization · machineId current snapshot) (hflush.stored h.consistent).1
    refine h.commit hflush hsnapshot htaken hdb rfl (fun other hne => ⟨others_advance hne, fun _ => ?_⟩) advance_self
    exact Locks.held_release hne
  | fail e cause => exact h.advance (fun _ hne _ => Locks.held_release hne) (.inl rfl) trivial
  | record e phase free =>
    have hid : ∀ p : MachineProvider, Row.id (p.recordError (w.env run).unicode (some (.exception e))) = Row.id p :=
      fun _ => rfl
    have hbare : ∀ p : MachineProvider, (p.recordError (w.env run).unicode (some (.exception e))).bare = p.bare :=
      fun _ => rfl
    refine h.quiet run (h.consistent.withProviders (h.consistent.providers_keyed.modify hid _)) ?_
      (fun other hne => ⟨others_advance hne, fun _ => id⟩) ?_
    · exact ⟨⟨rfl, rfl, rfl, Table.map_modify hbare _ _, fun scope => by cases scope <;> rfl⟩, rfl, rfl, .inl rfl⟩
    · rw [show CollectionState.phase _ run = .ended (.error e) from advance_self]
      trivial

/-- Only a rollback makes a run fail. -/
theorem CollectionStep.rollsBack (h : CollectionStep w machineId s run s') {e : Exc}
    (hfailed : s'.phase run = .failed e) :
    RollsBack w machineId s run e := by
  cases h with
  | read _ =>
    rw [advance_self, readScope] at hfailed
    split at hfailed
    · cases hfailed
    · cases hfailed
    · split at hfailed <;> cases hfailed
  | fail e' cause =>
    rw [CollectionState.fail, advance_self] at hfailed
    cases hfailed
    exact cause
  | lookup | flush | build | lockNone | lockRow | writeRow | writeNew | commit | record =>
    rw [advance_self] at hfailed
    cases hfailed

/-- A run that goes through alone has looked up its samples and flushed them. -/
theorem collectSamples_ok {env : CollectionEnv} {provider : MachineProvider} {machine : Machine}
    {result : Database × CollectionReport} (h : collectSamples env db provider machine = .ok result) :
    ∃ connector records ops db', getMetricCollector env.mock provider.type = .ok connector ∧
      connector provider [machine] = .ok records ∧
      upsertAll env (db.metrics provider.scope) provider [machine] 0 records = .ok ops ∧
      flushSamples env (db.metrics provider.scope) db provider ops (env.clock records.length) = .ok db' := by
  simp only [collectSamples, bind_ok_iff] at h
  obtain ⟨connector, hconnector, records, hrecords, ops, hops, db', hflush, -⟩ := h
  exact ⟨connector, records, ops, db', hconnector, hrecords, hops, hflush⟩

/-- An undisturbed run is not rolled back because of another one. -/
theorem Converging.not_rolledBack (h : Converging w machineId db s) (hturn : Undisturbed s run) :
    ¬ RolledBackByOther w machineId s run := by
  rintro ⟨s', e, provider, machine, result, hs, hfailed, hreads, halone⟩
  have hrelies := h.relies run
  obtain ⟨connector, records, ops, db', hconnector, hrecords, hops, hflush⟩ := collectSamples_ok halone
  cases (stepCollection_cases hs).rollsBack hfailed with
  | lookup provider' machine' e phase raised =>
    rw [phase] at hreads
    cases hreads
    have hok : collectRecords (w.env run) s.db provider machine =
        .ok ⟨provider, machine, s.db.metrics provider.scope, records, ops⟩ := by
      simp only [collectRecords, bind_ok_iff]
      exact ⟨connector, hconnector, records, hrecords, ops, hops, rfl⟩
    rw [raised] at hok
    cases hok
  | flush t e phase free raised =>
    rw [phase] at hreads hrelies
    cases hreads
    have hlookups : LookedUp w machineId s run t := hrelies
    obtain ⟨connector', hconnector', hrecords'⟩ := hlookups.answered
    rw [hconnector', Except.ok.injEq] at hconnector
    rw [← hconnector, hrecords', Except.ok.injEq] at hrecords
    rw [← hrecords] at hops hflush
    -- the operations still fit, so that the run alone would come to the same ones
    have hfits : ∀ op ∈ t.ops, op.Fits (s.db.metrics t.provider.scope) := by
      intro op hop
      cases op with
      | skipped => trivial
      | created v =>
        simp only [Undisturbed, phase] at hturn
        exact hturn.1 v (mem_createdSamples.mpr hop)
      | updated id v => exact hlookups.found id v hop
    obtain ⟨rows, next, hindexed, hlooked⟩ := hlookups.lookups
    rw [upsertAll_transfer hindexed (h.consistent.indexed _) hlooked hfits, Except.ok.injEq] at hops
    rw [← hops] at hflush
    obtain ⟨-, hnodup, hupdates, -⟩ := flushSamples_ok (h.consistent.indexed _) hlookups.found hflush
    have hchecked := (flushSamples_writes hflush).2
    obtain ⟨db'', hdone⟩ := flushSamples_succeeds hfits hupdates
      (fun v hv => (hchecked v (mem_createdSamples.mp hv)).1)
      (fun v hv => Table.mem_ids.mp (hchecked v (mem_createdSamples.mp hv)).2) hnodup t.loaded _
    exact absurd (raised.symm.trans hdone) nofun
  | lock t snapshot e phase raised =>
    rw [currentOptimization_eq h.consistent.optimizations_unique] at raised
    cases raised
  | write t snapshot phase free present =>
    rw [phase] at hrelies
    have hno : NoCommitSince s run := by simpa [Undisturbed, phase] using hturn
    exact present (hrelies.2.1 hno).2

end Step

/-! ## Schedules -/

/-- In every schedule of any number of runs of a machine in which no run is disturbed, no run is rolled back because of
another, the samples of all runs are stored, and the optimization of the machine is current. -/
theorem collections_converge (w : CollectionWorld) (machineId : Nat) (db : Database) (hc : db.Consistent)
    (schedule : List Nat) (s : CollectionState)
    (hturn : AllSteps (stepCollection w machineId) Undisturbed (.start db) schedule)
    (hexec : exec (stepCollection w machineId) (.start db) schedule = some s) :
    (∀ first run rest s', schedule = first ++ run :: rest →
      exec (stepCollection w machineId) (.start db) first = some s' → ¬ RolledBackByOther w machineId s' run) ∧
    Converged w machineId db s := by
  have hstep : ∀ s run s', Converging w machineId db s → Undisturbed s run →
      stepCollection w machineId s run = some s' →
      Converging w machineId db s' := fun _ _ _ h hturn hs => h.step hturn hs
  constructor
  · rintro first run rest s' rfl hfirst
    obtain ⟨hconverging, hundisturbed⟩ := hturn.invariant_at hstep (converging_start hc) hfirst
    exact hconverging.not_rolledBack hundisturbed
  · have hend := exec_invariant hstep (converging_start hc) hturn hexec
    refine ⟨fun run report hphase hstatus => ?_, hend.answered, hend.stored, hend.current⟩
    have hrelies := hend.relies run
    rw [hphase] at hrelies
    exact hrelies hstatus

/-- A machine with a CPU and a RAM provider. -/
def observedMachine : Database :=
  { Database.empty with
    providers := [⟨1, 1, "cpu", "mock", .cpu, "{}", true, none, none, none⟩,
      ⟨2, 1, "ram", "mock", .ram, "{}", true, none, none, none⟩]
    machines := [⟨1, 1, none, none, none, "H1", none, none, some 4, some 8192, none, "{}", 0⟩]
    nextId := 2 }

/-- The runs of the listed providers; each of them receives one sample of the same day, with the listed value. -/
def dailyWorld (runs : List (Nat × MetricValue)) : CollectionWorld where
  unicode := Unicode.ascii
  settings := .default
  integrityMessage := id
  providerId run := (runs.getD run (0, 0)).1
  mock run _ _ := .ok [⟨(runs.getD run (0, 0)).2, some 100, some 1, none, none⟩]
  clock _ k := seconds k
  remembers _ := true

/-- Two runs of different providers are flushed before one of them commits; a third run has read its scope by then, and
goes on afterwards. -/
def interleaved : List Nat := [0, 1, 2, 0, 1, 0, 1] ++ List.replicate 4 0 ++ List.replicate 4 1 ++ List.replicate 6 2

theorem collections_converge_interleaved : ∃ s,
    exec (stepCollection (dailyWorld [(1, 50), (2, 50), (1, 60)]) 1) (.start observedMachine) interleaved = some s ∧
    (∀ first run rest s', interleaved = first ++ run :: rest →
      exec (stepCollection (dailyWorld [(1, 50), (2, 50), (1, 60)]) 1) (.start observedMachine) first = some s' →
      ¬ RolledBackByOther (dailyWorld [(1, 50), (2, 50), (1, 60)]) 1 s' run) ∧
    Converged (dailyWorld [(1, 50), (2, 50), (1, 60)]) 1 observedMachine s := by
  have hruns : (exec (stepCollection (dailyWorld [(1, 50), (2, 50), (1, 60)]) 1) (.start observedMachine)
      interleaved).isSome := by
    decide +kernel
  obtain ⟨s, hs⟩ := Option.isSome_iff_exists.mp hruns
  exact ⟨s, hs, collections_converge (dailyWorld [(1, 50), (2, 50), (1, 60)]) 1 observedMachine (by decide) interleaved
    s (by decide +kernel) hs⟩

/-! ## Disturbed runs -/

/-- The error with which the next step rolls a run back, if the run alone would go through. -/
def rolledBackWith (w : CollectionWorld) (machineId : Nat) (s : CollectionState) (run : Nat) : Option Exc :=
  match (s.phase run).reads with
  | none => none
  | some (provider, machine) =>
    match collectSamples (w.env run) s.db provider machine with
    | .error _ => none
    | .ok _ => (stepCollection w machineId s run).bind fun s' =>
      match s'.phase run with | .failed e => some e | _ => none

theorem rolledBackByOther_of_error {s : CollectionState} {run : Nat} {e : Exc}
    (h : rolledBackWith w machineId s run = some e) : RolledBackByOther w machineId s run := by
  unfold rolledBackWith at h
  split at h
  · cases h
  · rename_i provider machine hreads
    split at h
    · cases h
    · rename_i result halone
      obtain ⟨s', hs', hphase⟩ := Option.bind_eq_some_iff.mp h
      split at hphase
      · rename_i hfailed
        exact ⟨s', _, provider, machine, result, hs', hfailed, hreads, halone⟩
      · cases hphase

/-- The run has ended. -/
def CollectionPhase.isEnded : CollectionPhase → Bool
  | .ended _ => true
  | _ => false

/-- Both runs find no optimization and insert one. -/
def bothInsert : List Nat := List.replicate 5 0 ++ List.replicate 5 1 ++ [0, 0]

/-- Both runs find no sample of the day and insert one. -/
def bothCreate : List Nat := [0, 0, 1, 1] ++ List.replicate 5 0

/-- A run builds its snapshot, another one stores a sample and a newer snapshot, and the first one overwrites it. -/
def staleWrite : List Nat := List.replicate 7 0 ++ List.replicate 4 1 ++ List.replicate 7 2 ++ List.replicate 3 1

/-- A run finds the value of its sample stored already, another one stores a new value, and the first one, which has
nothing to write, builds its snapshot from the row in its memory. -/
def staleRow : List Nat := List.replicate 7 0 ++ [1, 1] ++ List.replicate 7 2 ++ List.replicate 5 1

/-- A run is rolled back, and its sample lost, when two runs insert the optimization or the sample of the day; and all
runs may end well with a stale optimization, or without the sample of the last one. -/
theorem collections_collide :
    (∃ s, exec (stepCollection (dailyWorld [(1, 50), (2, 50)]) 1) (.start observedMachine) bothInsert = some s ∧
      RolledBackByOther (dailyWorld [(1, 50), (2, 50)]) 1 s 1) ∧
    (∃ s, exec (stepCollection (dailyWorld [(1, 50), (1, 50)]) 1) (.start observedMachine) bothCreate = some s ∧
      RolledBackByOther (dailyWorld [(1, 50), (1, 50)]) 1 s 1) ∧
    (∃ s, exec (stepCollection (dailyWorld [(1, 50), (1, 60), (2, 50)]) 1) (.start observedMachine) staleWrite =
        some s ∧
      (∀ run ∈ staleWrite, (s.phase run).isEnded) ∧ ¬ OptimizationCurrent .default s.db 1) ∧
    ∃ s, exec (stepCollection (dailyWorld [(1, 50), (1, 50), (1, 60)]) 1) (.start observedMachine) staleRow = some s ∧
      (∀ run ∈ staleRow, (s.phase run).isEnded) ∧ s.db.cpuMetrics.map (·.value) = [60] ∧
      ¬ OptimizationCurrent .default s.db 1 := by
  refine ⟨?_, ?_, ?_, ?_⟩
  · have hfails : ((exec (stepCollection (dailyWorld [(1, 50), (2, 50)]) 1) (.start observedMachine) bothInsert).bind
        fun s => rolledBackWith (dailyWorld [(1, 50), (2, 50)]) 1 s 1) =
        some (duplicateOptimization ((dailyWorld [(1, 50), (2, 50)]).env 1)) := by
      decide +kernel
    obtain ⟨s, hs, herror⟩ := Option.bind_eq_some_iff.mp hfails
    exact ⟨s, hs, rolledBackByOther_of_error herror⟩
  · have hfails : ((exec (stepCollection (dailyWorld [(1, 50), (1, 50)]) 1) (.start observedMachine) bothCreate).bind
        fun s => rolledBackWith (dailyWorld [(1, 50), (1, 50)]) 1 s 1) =
        some ⟨.integrityError, dayConstraint .cpu⟩ := by
      decide +kernel
    obtain ⟨s, hs, herror⟩ := Option.bind_eq_some_iff.mp hfails
    exact ⟨s, hs, rolledBackByOther_of_error herror⟩
  · have hstale : (exec (stepCollection (dailyWorld [(1, 50), (1, 60), (2, 50)]) 1) (.start observedMachine)
        staleWrite).map (fun s =>
          (decide (∀ run ∈ staleWrite, (s.phase run).isEnded), decide (OptimizationCurrent .default s.db 1))) =
        some (true, false) := by decide +kernel
    obtain ⟨s, hs, hend⟩ := Option.map_eq_some_iff.mp hstale
    rw [Prod.mk.injEq, decide_eq_true_eq, decide_eq_false_iff_not] at hend
    exact ⟨s, hs, hend⟩
  · have hstale : (exec (stepCollection (dailyWorld [(1, 50), (1, 50), (1, 60)]) 1) (.start observedMachine)
        staleRow).map (fun s =>
          (decide (∀ run ∈ staleRow, (s.phase run).isEnded), decide (s.db.cpuMetrics.map (·.value) = [60]),
            decide (OptimizationCurrent .default s.db 1))) =
        some (true, true, false) := by decide +kernel
    obtain ⟨s, hs, hend⟩ := Option.map_eq_some_iff.mp hstale
    rw [Prod.mk.injEq, Prod.mk.injEq, decide_eq_true_eq, decide_eq_true_eq, decide_eq_false_iff_not] at hend
    exact ⟨s, hs, hend⟩

end Washing
