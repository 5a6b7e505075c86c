import Washing.Worker.System

/-!
# Fanning out to the collections

A sync of the providers is published as one task, which publishes one task for each enabled provider, which publishes
one collection for each machine that it sees; a sync of an application publishes the collections of its machines
directly. However the workers take these tasks off the queue, and whatever the collections run into, what has been
collected and what the queue still stands for stay the same together (`FanOut.step`): a queue that is empty again has
collected what it stood for, each pair once.

- `collections` says which pairs of a provider and a machine a task stands for;
- collections and their dispatchers change no pair (`SameFleet`).
-/

namespace Washing

/-! ## What a task stands for -/

/-- The collections of a provider. -/
def providerPairs (db : Database) (p : MachineProvider) : List (Nat × Nat) :=
  (scopedMachines db p).map fun m => (p.id, m.id)

/-- The pairs of a provider and a machine that are collected once the task and all that follows from it is done. -/
def WorkerTask.collections (db : Database) : WorkerTask → Multiset (Nat × Nat)
  | runProviderMachine providerId machineId => {(providerId, machineId)}
  | runProvider providerId => ((Table.get db.providers providerId).map (providerPairs db)).getD []
  | dispatchEnabledProviderSyncs => (db.providers.filter (·.enabled)).flatMap (providerPairs db)
  | syncApplicationMetrics applicationId =>
    ((Table.get db.applications applicationId).map fun a => (applicationPairs db a).map Prod.swap).getD []
  | _ => 0

/-- The pairs that the events collect. -/
def collectedPairs (events : List SystemEvent) : Multiset (Nat × Nat) :=
  events.filterMap fun event => match event with
    | .execute (.runProviderMachine providerId machineId) _ => some (providerId, machineId)
    | _ => none

/-- A task that stands for collections. -/
def WorkerTask.Collecting : WorkerTask → Prop
  | runProviderMachine _ _ | runProvider _ | dispatchEnabledProviderSyncs | syncApplicationMetrics _ => True
  | _ => False

theorem collections_eq_zero {task : WorkerTask} (h : ¬ task.Collecting) (db : Database) : task.collections db = 0 := by
  cases task with
  | runProviderMachine | runProvider | dispatchEnabledProviderSyncs | syncApplicationMetrics => exact absurd trivial h
  | _ => rfl

/-- Beat publishes no task that stands for collections. -/
theorem not_collecting_of_beat {task : WorkerTask} (h : task ∈ beatSchedule) : ¬ task.Collecting := by
  simp only [beatSchedule, List.mem_cons, List.not_mem_nil, or_false] at h
  obtain rfl | rfl | rfl | rfl | rfl | rfl := h <;> exact id

/-- No publication and no commit fails, nor anything on the way to them. -/
def TaskEnv.Serves (env : TaskEnv) : Prop :=
  (∀ k, env.enqueue k = none) ∧ (∀ k, env.commitFaults k = none) ∧ env.syncFaults = .none

/-- Of the tasks only collections, their dispatchers, refreshes and purges of the history are executed; no dispatcher
fails, and no task that stands for collections is lost. -/
def SystemEvent.Collects : SystemEvent → Prop
  | execute (.runProviderMachine _ _) _ | execute (.recalculateMachineOptimizations _) _
  | execute .purgeOldTaskExecutions _ | signal _ | beat _ => True
  | execute (.runProvider _) env | execute .dispatchEnabledProviderSyncs env
  | execute (.syncApplicationMetrics _) env => env.Serves
  | lose task => ¬ task.Collecting
  | _ => False

/-! ## The same fleet -/

/-- An application without its bookkeeping. -/
def Application.bare (a : Application) : Application :=
  { a with syncAt := none, syncScheduledAt := none, syncError := none }

/-- Two databases with the same pairs. -/
structure SameFleet (db db' : Database) : Prop where
  machines : db'.machines = db.machines
  provisioners : db'.provisioners = db.provisioners
  attachments : db'.attachments = db.attachments
  providers : db'.providers.map MachineProvider.bare = db.providers.map MachineProvider.bare
  applications : db'.applications.map Application.bare = db.applications.map Application.bare

namespace SameFleet

variable {db db' db'' : Database}

theorem refl (db : Database) : SameFleet db db := ⟨rfl, rfl, rfl, rfl, rfl⟩

theorem trans (h : SameFleet db db') (h' : SameFleet db' db'') : SameFleet db db'' :=
  ⟨h'.machines.trans h.machines, h'.provisioners.trans h.provisioners, h'.attachments.trans h.attachments,
    h'.providers.trans h.providers, h'.applications.trans h.applications⟩

/-- A provider has the same pairs. -/
theorem providerPairs (h : SameFleet db db') {p p' : MachineProvider} (hp : p'.bare = p.bare) :
    Washing.providerPairs db' p' = Washing.providerPairs db p := by
  have hbare : ∀ (db : Database) (p : MachineProvider), Washing.providerPairs db p.bare = Washing.providerPairs db p :=
    fun _ _ => rfl
  have hsame : Washing.providerPairs db' p.bare = Washing.providerPairs db p.bare := by
    unfold Washing.providerPairs scopedMachines scopedMachineQuery provisionerIds Database.provisionersOf
    rw [h.machines, h.provisioners, h.attachments]
  rw [← hbare, hp, hsame, hbare]

/-- The same providers see the same machines. -/
theorem sees_iff (h : SameFleet db db') {p p' : MachineProvider} (hp : p'.bare = p.bare) (m : Machine) :
    Sees db' p' m ↔ Sees db p m := by
  have hbare : ∀ (db : Database) (p : MachineProvider), Sees db p.bare m ↔ Sees db p m := fun _ _ => Iff.rfl
  have hsame : Sees db' p.bare m ↔ Sees db p.bare m := by
    unfold Sees attached
    rw [h.provisioners, h.attachments]
  rw [← hbare, hp, hsame, hbare]

/-- An application has the same pairs. -/
theorem applicationPairs (h : SameFleet db db') (hc : db.Consistent) (hc' : db'.Consistent) {a a' : Application}
    (ha : a'.bare = a.bare) : (Washing.applicationPairs db' a').Perm (Washing.applicationPairs db a) := by
  have hmem : ∀ {db₁ db₂ : Database}, SameFleet db₁ db₂ → db₁.Consistent → db₂.Consistent → ∀ {a₁ a₂ : Application},
      a₂.bare = a₁.bare → ∀ x ∈ Washing.applicationPairs db₁ a₁, x ∈ Washing.applicationPairs db₂ a₂ := by
    intro db₁ db₂ h₁₂ hc₁ hc₂ a₁ a₂ ha₁₂ x hx
    obtain ⟨m, hm, p, hp, rfl⟩ := exists_of_mem_applicationPairs hx
    obtain ⟨henabled, hcontains, hsees⟩ := (mem_applicationPairs hc₁ hp hm).mp hx
    obtain ⟨p', hp', hbare⟩ := Table.exists_of_map_eq h₁₂.providers hp
    have hid : p'.id = p.id := congrArg (·.id) hbare
    have henabled' : p'.enabled = p.enabled := congrArg (·.enabled) hbare
    have hkey : a₂.name = a₁.name ∧ a₂.environment = a₁.environment ∧ a₂.region = a₁.region :=
      ⟨congrArg (·.name) ha₁₂, congrArg (·.environment) ha₁₂, congrArg (·.region) ha₁₂⟩
    have hcontains' : a₂.Contains m := by
      unfold Application.Contains
      rw [hkey.1, hkey.2.1, hkey.2.2]
      exact hcontains
    rw [← hid]
    exact (mem_applicationPairs hc₂ hp' (h₁₂.machines ▸ hm)).mpr
      ⟨henabled'.trans henabled, hcontains', (h₁₂.sees_iff hbare m).mpr hsees⟩
  have hsymm : SameFleet db' db :=
    ⟨h.machines.symm, h.provisioners.symm, h.attachments.symm, h.providers.symm, h.applications.symm⟩
  exact (List.perm_ext_iff_of_nodup (nodup_applicationPairs hc' a') (nodup_applicationPairs hc a)).mpr
    fun x => ⟨hmem hsymm hc' hc ha.symm x, hmem h hc hc' ha x⟩

/-- Every task stands for the same pairs. -/
theorem collections (h : SameFleet db db') (hc : db.Consistent) (hc' : db'.Consistent) (task : WorkerTask) :
    task.collections db' = task.collections db := by
  cases task with
  | runProvider providerId =>
    have hget : (Table.get db'.providers providerId).map MachineProvider.bare =
        (Table.get db.providers providerId).map MachineProvider.bare := by
      rw [← Table.get_map fun p => by rfl, ← Table.get_map fun p => by rfl, h.providers]
    simp only [WorkerTask.collections]
    cases hp : Table.get db.providers providerId with
    | none =>
      rw [hp] at hget
      rw [Option.map_eq_none_iff.mp hget]
      rfl
    | some p =>
      rw [hp] at hget
      obtain ⟨p', hp', hbare⟩ := Option.map_eq_some_iff.mp hget
      rw [hp']
      exact congrArg _ (h.providerPairs hbare)
  | dispatchEnabledProviderSyncs =>
    have hbare : ∀ db : Database, (db.providers.filter (·.enabled)).flatMap (Washing.providerPairs db) =
        ((db.providers.map MachineProvider.bare).filter (·.enabled)).flatMap (Washing.providerPairs db) := by
      intro db
      rw [List.filter_map, List.flatMap_map]
      rfl
    simp only [WorkerTask.collections]
    rw [hbare db', hbare db, h.providers]
    exact congrArg _ (List.flatMap_congr fun p _ => h.providerPairs rfl)
  | syncApplicationMetrics applicationId =>
    have hget : (Table.get db'.applications applicationId).map Application.bare =
        (Table.get db.applications applicationId).map Application.bare := by
      rw [← Table.get_map fun a => by rfl, ← Table.get_map fun a => by rfl, h.applications]
    simp only [WorkerTask.collections]
    cases ha : Table.get db.applications applicationId with
    | none =>
      rw [ha] at hget
      rw [Option.map_eq_none_iff.mp hget]
      rfl
    | some a =>
      rw [ha] at hget
      obtain ⟨a', ha', hbare⟩ := Option.map_eq_some_iff.mp hget
      rw [ha']
      exact Multiset.coe_eq_coe.mpr ((h.applicationPairs hc hc' hbare).map _)
  | _ => rfl

end SameFleet

/-! ## Executions -/

/-- A collection changes no pair. -/
theorem sameFleet_collection (faults : Faults CollectionWork) (env : CollectionEnv) (db : Database)
    (providerId machineId : Nat) :
    SameFleet db (collectionJob faults env db providerId machineId).2.committed := by
  cases hrun : (collectionJob faults env db providerId machineId).1 with
  | error e =>
    obtain hdb | hdb := collectionJob_error hrun
    · rw [hdb]
      exact SameFleet.refl db
    · rw [hdb]
      exact { SameFleet.refl db with providers := Table.map_modify (fun p => by rfl) _ _ }
  | ok report =>
    obtain ⟨-, hdb⟩ | ⟨p, m, -, hcollect⟩ := collectionJob_cases hrun
    · rw [hdb]
      exact SameFleet.refl db
    · obtain ⟨_, records, ops, _, -, -, -, -, hrefresh⟩ := collectSamples_eq_ok hcollect
      obtain ⟨hprovisioners, hattachments, hmachines, -, happlications, -, hproviders⟩ :=
        writeSamples_frame db p (emitted (db.metrics p.scope) ops) (env.clock records.length)
      obtain ⟨o, n, -, hdb⟩ := refreshMachineOptimization_frame hrefresh
      have hdb : (collectionJob faults env db providerId machineId).2.committed =
          { writeSamples db p (emitted (db.metrics p.scope) ops) (env.clock records.length) with
            optimizations := o, nextId := n } := hdb
      rw [hdb]
      refine ⟨hmachines, hprovisioners, hattachments, ?_, congrArg _ happlications⟩
      exact (congrArg _ hproviders).trans (Table.map_modify (fun p => by rfl) _ _)

/-- The collections of a provider are published. -/
theorem runProvider_published {db : Database} (hk : Table.Keyed db.providers) {enqueue : Nat → Nat × Nat → Option Exc}
    (henqueue : ∀ k x, enqueue k x = none) (providerId : Nat) (now : Time) :
    SameFleet db (dispatchProviderMachineSyncs db providerId enqueue now).db ∧
    (dispatchProviderMachineSyncs db providerId enqueue now).published =
      ((Table.get db.providers providerId).map (providerPairs db)).getD [] := by
  have hload : ∀ {db : Database}, Table.Keyed db.providers →
      loadProvider db providerId = .ok (Table.get db.providers providerId) := fun hk => oneOrNone_eq hk providerId
  have hid : ∀ p : MachineProvider, Row.id (p.dispatched now) = Row.id p := fun _ => rfl
  have hstarted : SameFleet db (startDispatch db providerId now) :=
    { SameFleet.refl db with providers := Table.map_modify (fun p => by rfl) _ _ }
  have hget : Table.get (startDispatch db providerId now).providers providerId =
      (Table.get db.providers providerId).map (·.dispatched now) := by
    rw [startDispatch, Table.get_modify hid]
    simp
  unfold dispatchProviderMachineSyncs
  rw [hload hk]
  cases hp : Table.get db.providers providerId with
  | none => exact ⟨SameFleet.refl db, rfl⟩
  | some p =>
    have hkeyed : Table.Keyed (startDispatch db providerId now).providers := hk.modify hid providerId
    have hreload : loadProvider (startDispatch db providerId now) providerId = .ok (some (p.dispatched now)) := by
      rw [hload hkeyed, hget, hp]
      rfl
    simp only [hreload, publishAll_all henqueue]
    refine ⟨hstarted, ?_⟩
    rw [List.map_map]
    exact hstarted.providerPairs (p := p) rfl

section Execute

variable {config : WorkerConfig} {t : Tables} {env : TaskEnv}

theorem sum_map_pairs {α β : Type} (f : α → List β) (l : List α) :
    (l.map fun a => (f a : Multiset β)).sum = (l.flatMap f : List β) := by
  induction l with
  | nil => rfl
  | cons a l ih => rw [List.map_cons, List.sum_cons, ih, List.flatMap_cons, Multiset.coe_add]

/-- Collections stand for themselves. -/
theorem sum_collections (db : Database) (pairs : List (Nat × Nat)) :
    ((pairs.map fun x => WorkerTask.runProviderMachine x.1 x.2).map (WorkerTask.collections db)).sum = pairs := by
  rw [List.map_map]
  exact (sum_map_pairs (fun x => [x]) pairs).trans (congrArg _ (List.flatMap_singleton' pairs))

/-- The dispatcher of the providers publishes what it stands for. -/
theorem sum_enabledProviders {db : Database} (hk : Table.Keyed db.providers) :
    (((orderBy (fun p q => p.id ≤ q.id) (selectWhere (fun p => Cond.ofBool p.enabled) db.providers)).map
      fun p => WorkerTask.runProvider p.id).map (WorkerTask.collections db)).sum =
      WorkerTask.dispatchEnabledProviderSyncs.collections db := by
  have hselected : selectWhere (fun p => Cond.ofBool p.enabled) db.providers = db.providers.filter (·.enabled) := by
    refine List.filter_congr fun p _ => ?_
    rw [Bool.eq_iff_iff]
    exact Cond.isTrue_ofBool p.enabled
  have hpairs : ∀ p ∈ db.providers.filter (·.enabled),
      (WorkerTask.runProvider p.id).collections db = (providerPairs db p : Multiset (Nat × Nat)) := by
    intro p hp
    have hget : Table.get db.providers p.id = some p := Table.get_of_mem hk (List.mem_of_mem_filter hp)
    simp only [WorkerTask.collections, hget, Option.map_some, Option.getD_some]
  rw [List.map_map, ((orderBy_perm _ _).map _).sum_eq, hselected]
  exact (congrArg List.sum (List.map_congr_left hpairs)).trans (sum_map_pairs _ _)

/-- A commit that does not fail. -/
theorem TaskEnv.Serves.committing (h : env.Serves) (outcome : TaskOutcome) : env.committing t outcome = outcome := by
  rw [TaskEnv.committing, h.2.1 0]

/-- A task that stands for nothing and publishes nothing. -/
theorem fanOut_of_frame {task : WorkerTask} (htask : ¬ task.Collecting) {outcome : TaskOutcome}
    (hpublished : outcome.published = []) (hfleet : SameFleet t.toDatabase outcome.tables.toDatabase) :
    SameFleet t.toDatabase (env.committing t outcome).tables.toDatabase ∧
    task.collections t.toDatabase = collectedPairs [.execute task env] +
      ((env.committing t outcome).published.map (WorkerTask.collections t.toDatabase)).sum := by
  have hnothing : (env.committing t outcome).published = [] := by
    obtain ⟨e, hsame⟩ | hdone := committing_cases env t outcome
    · rw [hsame]
    · rw [hdone, hpublished]
  refine ⟨?_, ?_⟩
  · obtain ⟨e, hsame⟩ | hdone := committing_cases env t outcome
    · rw [hsame]
      exact SameFleet.refl _
    · rw [hdone]
      exact hfleet
  · rw [collections_eq_zero htask, hnothing]
    cases task with
    | runProviderMachine _ _ => exact absurd trivial htask
    | _ => rfl

/-- An execution changes no pair, and what it does itself and publishes is what its task stands for. -/
theorem fanOut_execute (h : t.Stored config) {task : WorkerTask} (hc : (SystemEvent.execute task env).Collects) :
    SameFleet t.toDatabase (task.execute config env t).tables.toDatabase ∧
    task.collections t.toDatabase = collectedPairs [.execute task env] +
      ((task.execute config env t).published.map (WorkerTask.collections t.toDatabase)).sum := by
  cases task with
  | runProviderMachine providerId machineId => exact ⟨sameFleet_collection _ _ _ _ _, rfl⟩
  | purgeOldTaskExecutions => exact fanOut_of_frame id rfl (SameFleet.refl _)
  | runProvider providerId =>
    have hserves : env.Serves := hc
    have henqueue : ∀ k (x : Nat × Nat), (fun k _ => env.enqueue k) k x = none := fun k _ => hserves.1 k
    obtain ⟨hfleet, hpublished⟩ :=
      runProvider_published h.kept.consistent.providers_keyed henqueue providerId (env.clock 0)
    simp only [WorkerTask.execute, hserves.committing, hpublished]
    refine ⟨hfleet, ?_⟩
    rw [sum_collections]
    exact (zero_add _).symm
  | dispatchEnabledProviderSyncs =>
    have hserves : env.Serves := hc
    have henqueue : ∀ k (x : Nat), (fun k _ => env.enqueue k) k x = none := fun k _ => hserves.1 k
    refine ⟨SameFleet.refl _, ?_⟩
    have hsum := sum_enabledProviders h.kept.consistent.providers_keyed
    simp only [WorkerTask.execute, dispatchEnabledProviderSyncs, publishAll_all henqueue]
    rw [← hsum, List.map_map, List.map_map, List.map_map]
    exact (zero_add _).symm
  | syncApplicationMetrics applicationId =>
    have hserves : env.Serves := hc
    constructor
    · obtain ⟨f, hf, hdb⟩ := applicationSync_frame env.syncFaults config.api.unicode t.toDatabase applicationId
        (fun k _ => env.enqueue k) (env.clock 0)
      have hbare : ∀ a, (f a).bare = a.bare := by
        intro a
        obtain ⟨hname, hrest⟩ := Prod.mk.inj (hf a).2
        obtain ⟨henvironment, hregion⟩ := Prod.mk.inj hrest
        simp only [Application.bare, Application.mk.injEq]
        exact ⟨(hf a).1, hname, henvironment, hregion, trivial, trivial, trivial⟩
      have hfleet : SameFleet t.toDatabase { t.toDatabase with applications := t.applications.map f } := by
        refine { SameFleet.refl t.toDatabase with applications := ?_ }
        rw [List.map_map]
        exact List.map_congr_left fun a _ => hbare a
      rw [← hdb] at hfleet
      exact hfleet
    · have henqueue : ∀ k (x : Nat × Nat), (fun k _ => env.enqueue k) k x = none := fun k _ => hserves.1 k
      simp only [WorkerTask.execute, WorkerTask.collections, hserves.2.2, syncPublished_none henqueue]
      rw [sum_collections]
      exact (zero_add _).symm
  | recalculateMachineOptimizations machineId =>
    simp only [WorkerTask.execute]
    cases hrefresh : refreshMachineOptimization config.settings t.toDatabase machineId (env.clock 0) with
    | error e => exact ⟨SameFleet.refl _, rfl⟩
    | ok refreshed =>
      obtain ⟨o, n, -, hdb⟩ := refreshMachineOptimization_frame hrefresh
      refine fanOut_of_frame id rfl ?_
      show SameFleet t.toDatabase refreshed.1
      rw [hdb]
      exact ⟨rfl, rfl, rfl, rfl, rfl⟩
  | _ => exact hc.elim

end Execute

/-! ## Runs -/

/-- What holds while the tasks of `s₀` are carried out: the pairs are those of `s₀`, and what has been collected and
what the queue stands for make up what the queue of `s₀` stood for. -/
structure FanningOut (config : WorkerConfig) (s₀ s : System) (collected : Multiset (Nat × Nat)) : Prop where
  stored : s.tables.Stored config
  fleet : SameFleet s₀.tables.toDatabase s.tables.toDatabase
  conserved : collected + (s.queue.map (WorkerTask.collections s₀.tables.toDatabase)).sum =
    (s₀.queue.map (WorkerTask.collections s₀.tables.toDatabase)).sum

/-- A collection of the queue is not refused: it returns without a status, or it raises. -/
def SystemEvent.Accepted (config : WorkerConfig) (s : System) (event : SystemEvent) : Prop :=
  ∀ providerId machineId env report, event = .execute (.runProviderMachine providerId machineId) env →
    .runProviderMachine providerId machineId ∈ s.queue →
    (collectionJob env.collectionFaults (env.collectionEnv config) s.tables.toDatabase providerId machineId).1 =
      .ok report → report.status = none

section Runs

variable {config : WorkerConfig} {s₀ s s' : System} {collected : Multiset (Nat × Nat)}

theorem fanningOut_start (h : s.tables.Stored config) : FanningOut config s s 0 :=
  ⟨h, SameFleet.refl _, zero_add _⟩

/-- One event. -/
theorem FanningOut.step (hdefault : config.api.cronIsValid defaultCron) (h₀ : s₀.tables.Stored config)
    (h : FanningOut config s₀ s collected) {event : SystemEvent} (hc : event.Collects)
    (hstep : s.step config event = some s') : FanningOut config s₀ s' (collected + collectedPairs [event]) := by
  have hstored := stored_step hdefault h.stored hstep
  cases event with
  | signal signal =>
    have hnone : collected + collectedPairs [.signal signal] = collected := add_zero collected
    rw [hnone]
    cases hstep
    exact ⟨hstored, h.fleet, h.conserved⟩
  | beat task =>
    have hnone : collected + collectedPairs [.beat task] = collected := add_zero collected
    rw [hnone]
    simp only [System.step] at hstep
    split_ifs at hstep with hbeat
    cases hstep
    refine ⟨hstored, h.fleet, ?_⟩
    rw [Multiset.map_cons, Multiset.sum_cons, collections_eq_zero (not_collecting_of_beat hbeat), zero_add]
    exact h.conserved
  | lose task =>
    have hnone : collected + collectedPairs [.lose task] = collected := add_zero collected
    rw [hnone]
    simp only [System.step] at hstep
    split_ifs at hstep with hmem
    cases hstep
    refine ⟨hstored, h.fleet, ?_⟩
    have hconserved := h.conserved
    rw [← Multiset.cons_erase hmem, Multiset.map_cons, Multiset.sum_cons, collections_eq_zero hc,
      zero_add] at hconserved
    exact hconserved
  | execute task env =>
    simp only [System.step] at hstep
    split_ifs at hstep with hmem
    cases hstep
    obtain ⟨hfleet, hwork⟩ := fanOut_execute h.stored hc
    have hsame := h.fleet.collections h₀.kept.consistent h.stored.kept.consistent
    have hwork' : task.collections s₀.tables.toDatabase = collectedPairs [.execute task env] +
        ((task.execute config env s.tables).published.map (WorkerTask.collections s₀.tables.toDatabase)).sum := by
      rw [← hsame, hwork, funext hsame]
    refine ⟨hstored, h.fleet.trans hfleet, ?_⟩
    exact ((takes_erase hmem _).conserved hwork').trans h.conserved
  | _ => exact hc.elim

theorem collectedPairs_cons (event : SystemEvent) (events : List SystemEvent) :
    collectedPairs (event :: events) = collectedPairs [event] + collectedPairs events := by
  unfold collectedPairs
  rw [Multiset.coe_add, ← List.filterMap_append]
  rfl

/-- All events. -/
theorem FanningOut.run (hdefault : config.api.cronIsValid defaultCron) (h₀ : s₀.tables.Stored config) :
    ∀ {events : List SystemEvent} {s : System} {collected : Multiset (Nat × Nat)}, FanningOut config s₀ s collected →
      (∀ event ∈ events, event.Collects) → exec (System.step config) s events = some s' →
      FanningOut config s₀ s' (collected + collectedPairs events)
  | [], _, collected, h, _, hrun => by
    cases hrun
    have hnone : collected + collectedPairs [] = collected := add_zero collected
    rwa [hnone]
  | event :: events, s, collected, h, hcollects, hrun => by
    obtain ⟨s₁, hs₁, hrest⟩ := Option.bind_eq_some_iff.mp hrun
    have hfirst := h.step hdefault h₀ (hcollects event List.mem_cons_self) hs₁
    rw [collectedPairs_cons, ← add_assoc]
    exact hfirst.run hdefault h₀ (fun e he => hcollects e (List.mem_cons_of_mem _ he)) hrest

/-- While the queue stands for visible pairs only, no collection is refused. -/
theorem FanningOut.accepted (h : FanningOut config s₀ s collected)
    (hvisible : ∀ x ∈ (s₀.queue.map (WorkerTask.collections s₀.tables.toDatabase)).sum, ∃ p ∈ s₀.tables.providers,
      ∃ m ∈ s₀.tables.machines, Sees s₀.tables.toDatabase p m ∧ x = (p.id, m.id)) (event : SystemEvent) :
    event.Accepted config s := by
  rintro providerId machineId env report - hmem hok
  have hx : (providerId, machineId) ∈ (s.queue.map (WorkerTask.collections s₀.tables.toDatabase)).sum := by
    obtain ⟨rest, hrest⟩ := Multiset.exists_cons_of_mem hmem
    rw [hrest, Multiset.map_cons, Multiset.sum_cons]
    exact Multiset.mem_add.mpr (.inl (Multiset.mem_singleton_self _))
  have hall := h.conserved ▸ Multiset.mem_add.mpr (.inr hx)
  obtain ⟨p, hp, m, hm, hsees, heq⟩ := hvisible _ hall
  obtain ⟨rfl, rfl⟩ := Prod.mk.inj heq
  obtain ⟨p', hp', hbare⟩ := Table.exists_of_map_eq h.fleet.providers hp
  have hid : p'.id = p.id := congrArg (·.id) hbare
  have hresult := (collectionJob_ok hok).1
  rw [← hid] at hresult
  exact status_of_sees h.stored.kept.consistent.providers_keyed h.stored.kept.consistent.machines_keyed hp'
    (h.fleet.machines ▸ hm) ((h.fleet.sees_iff hbare m).mpr hsees) hresult

theorem accepted_run (hdefault : config.api.cronIsValid defaultCron) (h : s.tables.Stored config)
    {events : List SystemEvent} (hcollects : ∀ event ∈ events, event.Collects)
    (hvisible : ∀ x ∈ (s.queue.map (WorkerTask.collections s.tables.toDatabase)).sum, ∃ p ∈ s.tables.providers,
      ∃ m ∈ s.tables.machines, Sees s.tables.toDatabase p m ∧ x = (p.id, m.id)) :
    AllSteps (System.step config) (fun s event => event.Accepted config s) s events := by
  refine AllSteps.imp (I := fun t => ∃ collected, FanningOut config s t collected) ?_ ?_ ⟨0, fanningOut_start h⟩
    (allSteps_of_forall hcollects s)
  · rintro t event t' ⟨collected, ht⟩ hevent hstep
    exact ⟨_, ht.step hdefault h hevent hstep⟩
  · rintro t event ⟨collected, ht⟩ -
    exact ht.accepted hvisible event

end Runs

/-! ## Each pair once -/

/-- The wanted pairs were collected once each, and no others. -/
structure CollectedOnce (db : Database) (wanted : MachineProvider → Machine → Prop) (collected : Multiset (Nat × Nat)) :
    Prop where
  once : ∀ p ∈ db.providers, ∀ m ∈ db.machines, wanted p m → collected.count (p.id, m.id) = 1
  only : ∀ x ∈ collected, ∃ p ∈ db.providers, ∃ m ∈ db.machines, wanted p m ∧ x = (p.id, m.id)

theorem sum_not_collecting {queue : Multiset WorkerTask} (h : ∀ task ∈ queue, ¬ task.Collecting) (db : Database) :
    (queue.map (WorkerTask.collections db)).sum = 0 := by
  refine Multiset.sum_eq_zero fun x hx => ?_
  obtain ⟨task, htask, rfl⟩ := Multiset.mem_map.mp hx
  exact collections_eq_zero (h task htask) db

/-- Two machines in the pairs of one provider. -/
theorem nodup_providerPairs {db : Database} (hk : Table.Keyed db.machines) (p : MachineProvider) :
    (providerPairs db p).Nodup := by
  obtain ⟨q, hq, -⟩ := scopedMachineQuery_eq_filter db p
  have hids : ((scopedMachines db p).map (·.id)).Nodup := by
    refine ((orderBy_perm _ _).map _).nodup_iff.mpr ?_
    rw [hq]
    exact hk.sublist (List.filter_sublist.map _)
  refine List.Nodup.of_map Prod.snd ?_
  rw [providerPairs, List.map_map]
  exact hids

theorem mem_providerPairs {db : Database} {p : MachineProvider} {x : Nat × Nat} :
    x ∈ providerPairs db p ↔ ∃ m ∈ db.machines, Sees db p m ∧ x = (p.id, m.id) := by
  simp only [providerPairs, List.mem_map, mem_scopedMachines, and_assoc, eq_comm]

/-- A queue that stands for a list without repetition has collected it, once it stands for nothing any more. -/
theorem FanningOut.finished {config : WorkerConfig} {s s' : System} {collected : Multiset (Nat × Nat)}
    (h : FanningOut config s s' (0 + collected)) {pairs : List (Nat × Nat)} (hnodup : pairs.Nodup)
    (hpairs : (s.queue.map (WorkerTask.collections s.tables.toDatabase)).sum = pairs)
    (hdone : ∀ task ∈ s'.queue, ¬ task.Collecting) {wanted : MachineProvider → Machine → Prop}
    (hmem : ∀ x, x ∈ pairs ↔ ∃ p ∈ s.tables.providers, ∃ m ∈ s.tables.machines, wanted p m ∧ x = (p.id, m.id)) :
    CollectedOnce s.tables.toDatabase wanted collected := by
  have hconserved := h.conserved
  rw [sum_not_collecting hdone, hpairs, add_zero, zero_add] at hconserved
  rw [hconserved]
  constructor
  case once =>
    intro p hp m hm hwanted
    have hpair : (p.id, m.id) ∈ pairs := (hmem _).mpr ⟨p, hp, m, hm, hwanted, rfl⟩
    exact Multiset.count_eq_one_of_mem (Multiset.coe_nodup.mpr hnodup) (Multiset.mem_coe.mpr hpair)
  case only => exact fun x hx => (hmem x).mp (Multiset.mem_coe.mp hx)

/-- A sync of the providers, on any tables that the system reaches: whichever way its tasks are taken off the queue, and
whatever its collections run into, once they are done every enabled provider has collected every machine that it sees
exactly once, and nothing else was collected; no collection was refused. -/
theorem provider_sync_collects_once {config : WorkerConfig} (hdefault : config.api.cronIsValid defaultCron)
    {earlier events : List SystemEvent} {s s' : System} {rest : Multiset WorkerTask}
    (hreached : exec (System.step config) .empty earlier = some s)
    (hqueue : s.queue = .dispatchEnabledProviderSyncs ::ₘ rest) (hrest : ∀ task ∈ rest, ¬ task.Collecting)
    (hcollects : ∀ event ∈ events, event.Collects) (hrun : exec (System.step config) s events = some s')
    (hdone : ∀ task ∈ s'.queue, ¬ task.Collecting) :
    CollectedOnce s.tables.toDatabase (fun p m => p.enabled ∧ Sees s.tables.toDatabase p m) (collectedPairs events) ∧
      AllSteps (System.step config) (fun s event => event.Accepted config s) s events := by
  have hstored := stored_run hdefault (stored_empty config) hreached
  have hc := hstored.kept.consistent
  have hsum : (s.queue.map (WorkerTask.collections s.tables.toDatabase)).sum =
      ((s.tables.providers.filter (·.enabled)).flatMap (providerPairs s.tables.toDatabase) : List (Nat × Nat)) := by
    rw [hqueue, Multiset.map_cons, Multiset.sum_cons, sum_not_collecting hrest, add_zero]
    rfl
  have hmem : ∀ x, x ∈ (s.tables.providers.filter (·.enabled)).flatMap (providerPairs s.tables.toDatabase) ↔
      ∃ p ∈ s.tables.providers, ∃ m ∈ s.tables.machines,
        (p.enabled ∧ Sees s.tables.toDatabase p m) ∧ x = (p.id, m.id) := by
    intro x
    simp only [List.mem_flatMap, List.mem_filter, mem_providerPairs]
    constructor
    · rintro ⟨p, ⟨hp, henabled⟩, m, hm, hsees, rfl⟩
      exact ⟨p, hp, m, hm, ⟨henabled, hsees⟩, rfl⟩
    · rintro ⟨p, hp, m, hm, ⟨henabled, hsees⟩, rfl⟩
      exact ⟨p, ⟨hp, henabled⟩, m, hm, hsees, rfl⟩
  have hnodup : ((s.tables.providers.filter (·.enabled)).flatMap (providerPairs s.tables.toDatabase)).Nodup := by
    refine List.nodup_flatMap.mpr ⟨fun p _ => nodup_providerPairs hc.machines_keyed p, ?_⟩
    have hids : ((s.tables.providers.filter (·.enabled)).map (·.id)).Nodup :=
      hc.providers_keyed.sublist (List.filter_sublist.map _)
    refine (List.pairwise_map.mp hids).imp fun {p q} hpq x hx hy => ?_
    obtain ⟨m, -, -, rfl⟩ := mem_providerPairs.mp hx
    obtain ⟨n, -, -, heq⟩ := mem_providerPairs.mp hy
    exact hpq (congrArg Prod.fst heq)
  refine ⟨((fanningOut_start hstored).run hdefault hstored hcollects hrun).finished hnodup hsum hdone hmem, ?_⟩
  refine accepted_run hdefault hstored hcollects fun x hx => ?_
  rw [hsum] at hx
  obtain ⟨p, hp, m, hm, ⟨-, hsees⟩, rfl⟩ := (hmem x).mp (Multiset.mem_coe.mp hx)
  exact ⟨p, hp, m, hm, hsees, rfl⟩

theorem smallTaskEnv_serves : smallTaskEnv.Serves := ⟨fun _ => rfl, fun _ => rfl, rfl⟩

/-- A sync of the small installation in which a connector does not answer, while Beat publishes a task that is lost. -/
def unevenSync : List SystemEvent :=
  [.execute .dispatchEnabledProviderSyncs smallTaskEnv,
    .execute (.runProvider 4) smallTaskEnv,
    .execute (.runProviderMachine 4 7) smallTaskEnv,
    .beat .purgeStaleMachines,
    .execute (.runProvider 3) smallTaskEnv,
    .execute (.runProviderMachine 3 5)
      { smallTaskEnv with metrics := fun _ _ => .error ⟨.other "ConnectError", "timed out"⟩ },
    .lose .purgeStaleMachines,
    .execute (.runProviderMachine 4 5) smallTaskEnv,
    .execute (.runProviderMachine 3 7) smallTaskEnv]

theorem provider_sync_collects_once_small : ∃ s s',
    exec (System.step smallConfig) .empty (smallSetup ++ [.beat .purgeOldTaskExecutions, .enqueue .providerSync]) =
      some s ∧
    exec (System.step smallConfig) s unevenSync = some s' ∧
    collectedPairs unevenSync = ({(4, 7), (3, 5), (4, 5), (3, 7)} : Multiset (Nat × Nat)) ∧
    CollectedOnce s.tables.toDatabase (fun p m => p.enabled ∧ Sees s.tables.toDatabase p m)
      (collectedPairs unevenSync) ∧
    AllSteps (System.step smallConfig) (fun s event => event.Accepted smallConfig s) s unevenSync := by
  have hruns : ((exec (System.step smallConfig) .empty
      (smallSetup ++ [.beat .purgeOldTaskExecutions, .enqueue .providerSync])).bind fun s =>
        (exec (System.step smallConfig) s unevenSync).map fun s' => (s.queue, s'.queue)) =
      some (.dispatchEnabledProviderSyncs ::ₘ {.purgeOldTaskExecutions}, {.purgeOldTaskExecutions}) := by
    decide +kernel
  obtain ⟨s, hs, hrest⟩ := Option.bind_eq_some_iff.mp hruns
  obtain ⟨s', hs', heq⟩ := Option.map_eq_some_iff.mp hrest
  obtain ⟨hqueue, hdone⟩ := Prod.mk.inj heq
  have hpurge : ∀ task ∈ ({.purgeOldTaskExecutions} : Multiset WorkerTask), ¬ task.Collecting := by
    intro task htask
    rw [Multiset.mem_singleton.mp htask]
    exact id
  have hcollects : ∀ event ∈ unevenSync, event.Collects := by
    simp only [unevenSync, List.forall_mem_cons, List.not_mem_nil, IsEmpty.forall_iff, implies_true, and_true]
    exact ⟨smallTaskEnv_serves, smallTaskEnv_serves, trivial, trivial, smallTaskEnv_serves, trivial, id, trivial,
      trivial⟩
  refine ⟨s, s', hs, hs', rfl, ?_⟩
  exact provider_sync_collects_once rfl hs hqueue hpurge hcollects hs' (hdone ▸ hpurge)

/-- The pairs of all applications. -/
def applicationCollections (db : Database) : List (Nat × Nat) :=
  db.applications.flatMap fun a => (applicationPairs db a).map Prod.swap

theorem mem_applicationCollections {db : Database} (hc : db.Consistent) {x : Nat × Nat} :
    x ∈ applicationCollections db ↔ ∃ p ∈ db.providers, ∃ m ∈ db.machines,
      (p.enabled ∧ Sees db p m ∧ ∃ a ∈ db.applications, a.Contains m) ∧ x = (p.id, m.id) := by
  simp only [applicationCollections, List.mem_flatMap, List.mem_map]
  constructor
  · rintro ⟨a, ha, y, hy, rfl⟩
    obtain ⟨m, hm, p, hp, rfl⟩ := exists_of_mem_applicationPairs hy
    obtain ⟨henabled, hcontains, hsees⟩ := (mem_applicationPairs hc hp hm).mp hy
    exact ⟨p, hp, m, hm, ⟨henabled, hsees, a, ha, hcontains⟩, rfl⟩
  · rintro ⟨p, hp, m, hm, ⟨henabled, hsees, a, ha, hcontains⟩, rfl⟩
    exact ⟨a, ha, (m.id, p.id), (mem_applicationPairs hc hp hm).mpr ⟨henabled, hcontains, hsees⟩, rfl⟩

/-- A machine is in one application at most. -/
theorem nodup_applicationCollections {db : Database} (hc : db.Consistent) (hs : ApplicationsStored db) :
    (applicationCollections db).Nodup := by
  refine List.nodup_flatMap.mpr ⟨fun a _ => (nodup_applicationPairs hc a).map Prod.swap_injective, ?_⟩
  refine (List.pairwise_map.mp hs.unique).imp fun {a b} hab x hx hy => ?_
  obtain ⟨y, hy', rfl⟩ := List.mem_map.mp hx
  obtain ⟨z, hz, heq⟩ := List.mem_map.mp hy
  cases Prod.swap_injective heq
  obtain ⟨m, hm, p, hp, rfl⟩ := exists_of_mem_applicationPairs hy'
  obtain ⟨-, ⟨hname, henvironment, hregion⟩, -⟩ := (mem_applicationPairs hc hp hm).mp hy'
  obtain ⟨-, ⟨hname', henvironment', hregion'⟩, -⟩ := (mem_applicationPairs hc hp hm).mp hz
  refine hab (Prod.ext ?_ (Prod.ext ?_ ?_))
  · exact Option.some.inj (hname.symm.trans hname')
  · exact henvironment.symm.trans henvironment'
  · exact hregion.symm.trans hregion'

/-- Syncs of all applications, on any tables that the system reaches: once they are done, whatever the order was, every
enabled provider has collected every machine of an application that it sees exactly once, and nothing else was
collected; no collection was refused. -/
theorem application_syncs_collect_once {config : WorkerConfig} (hdefault : config.api.cronIsValid defaultCron)
    {earlier events : List SystemEvent} {s s' : System} {rest : Multiset WorkerTask}
    (hreached : exec (System.step config) .empty earlier = some s)
    (hqueue : s.queue = ↑(s.tables.applications.map fun a => WorkerTask.syncApplicationMetrics a.id) + rest)
    (hrest : ∀ task ∈ rest, ¬ task.Collecting) (hcollects : ∀ event ∈ events, event.Collects)
    (hrun : exec (System.step config) s events = some s') (hdone : ∀ task ∈ s'.queue, ¬ task.Collecting) :
    CollectedOnce s.tables.toDatabase (fun p m => p.enabled ∧ Sees s.tables.toDatabase p m ∧
        ∃ a ∈ s.tables.applications, a.Contains m) (collectedPairs events) ∧
      AllSteps (System.step config) (fun s event => event.Accepted config s) s events := by
  have hstored := stored_run hdefault (stored_empty config) hreached
  have hc := hstored.kept.consistent
  have hsum : (s.queue.map (WorkerTask.collections s.tables.toDatabase)).sum =
      (applicationCollections s.tables.toDatabase : Multiset (Nat × Nat)) := by
    have hpairs : ∀ a ∈ s.tables.applications,
        (WorkerTask.syncApplicationMetrics a.id).collections s.tables.toDatabase =
          ((applicationPairs s.tables.toDatabase a).map Prod.swap : Multiset (Nat × Nat)) := by
      intro a ha
      have hget : Table.get s.tables.applications a.id = some a := Table.get_of_mem hc.applications_keyed ha
      simp only [WorkerTask.collections, hget, Option.map_some, Option.getD_some]
    rw [hqueue, Multiset.map_add, Multiset.sum_add, sum_not_collecting hrest, add_zero, Multiset.map_coe,
      Multiset.sum_coe, List.map_map]
    exact (congrArg List.sum (List.map_congr_left hpairs)).trans (sum_map_pairs _ _)
  have hmem : ∀ x, x ∈ applicationCollections s.tables.toDatabase ↔ _ := fun x => mem_applicationCollections hc
  refine ⟨((fanningOut_start hstored).run hdefault hstored hcollects hrun).finished
    (nodup_applicationCollections hc hstored.kept.applications) hsum hdone hmem, ?_⟩
  refine accepted_run hdefault hstored hcollects fun x hx => ?_
  rw [hsum] at hx
  obtain ⟨p, hp, m, hm, ⟨-, hsees, -⟩, rfl⟩ := (hmem x).mp (Multiset.mem_coe.mp hx)
  exact ⟨p, hp, m, hm, hsees, rfl⟩

/-- The applications of the small installation are projected, and their syncs are queued. -/
def shopEvents : List SystemEvent :=
  smallSetup ++
    [.beat .syncApplicationInventoryDiscovery,
      .execute .syncApplicationInventoryDiscovery smallTaskEnv,
      .enqueue (.singleApplicationMetricsSync 11),
      .enqueue (.singleApplicationMetricsSync 12)]

/-- The syncs of both applications, with the collections that they publish. -/
def shopSync : List SystemEvent :=
  [.execute (.syncApplicationMetrics 12) smallTaskEnv,
    .execute (.runProviderMachine 4 5) smallTaskEnv,
    .execute (.syncApplicationMetrics 11) smallTaskEnv,
    .execute (.runProviderMachine 3 7) smallTaskEnv,
    .execute (.runProviderMachine 3 5) smallTaskEnv,
    .execute (.runProviderMachine 4 7) smallTaskEnv]

theorem application_syncs_collect_once_shop : ∃ s s', exec (System.step smallConfig) .empty shopEvents = some s ∧
    exec (System.step smallConfig) s shopSync = some s' ∧
    collectedPairs shopSync = ({(4, 5), (3, 7), (3, 5), (4, 7)} : Multiset (Nat × Nat)) ∧
    CollectedOnce s.tables.toDatabase (fun p m => p.enabled ∧ Sees s.tables.toDatabase p m ∧
      ∃ a ∈ s.tables.applications, a.Contains m) (collectedPairs shopSync) ∧
    AllSteps (System.step smallConfig) (fun s event => event.Accepted smallConfig s) s shopSync := by
  have hruns : ((exec (System.step smallConfig) .empty shopEvents).bind fun s =>
      (exec (System.step smallConfig) s shopSync).map fun s' => (s.queue, s.tables.applications.map (·.id), s'.queue)) =
        some (.syncApplicationMetrics 11 ::ₘ {.syncApplicationMetrics 12}, [11, 12], 0) := by decide +kernel
  obtain ⟨s, hs, hrest⟩ := Option.bind_eq_some_iff.mp hruns
  obtain ⟨s', hs', heq⟩ := Option.map_eq_some_iff.mp hrest
  obtain ⟨hqueue, heq⟩ := Prod.mk.inj heq
  obtain ⟨happlications, hdone⟩ := Prod.mk.inj heq
  have hqueue : s.queue = ↑(s.tables.applications.map fun a => WorkerTask.syncApplicationMetrics a.id) + 0 := by
    have hids := congrArg (List.map WorkerTask.syncApplicationMetrics) happlications
    rw [List.map_map] at hids
    rw [hqueue, add_zero]
    exact (congrArg _ hids).symm
  have hcollects : ∀ event ∈ shopSync, event.Collects := by
    simp only [shopSync, List.forall_mem_cons, List.not_mem_nil, IsEmpty.forall_iff, implies_true, and_true]
    exact ⟨smallTaskEnv_serves, trivial, smallTaskEnv_serves, trivial, trivial, trivial⟩
  refine ⟨s, s', hs, hs', rfl, ?_⟩
  refine application_syncs_collect_once rfl hs hqueue (fun _ htask => absurd htask (Multiset.notMem_zero _)) hcollects
    hs' fun _ htask => ?_
  exact absurd (hdone ▸ htask) (Multiset.notMem_zero _)

end Washing
