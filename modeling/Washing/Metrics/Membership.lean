import Washing.Api.Metrics
import Washing.Connectors.Membership

/-!
# Metrics and platforms

A sample links a provider and a machine of one platform when it is stored. The machine stays on its platform, but a
provider that is not attached to a provisioner can be moved to another one, together with its samples
(`moved_samples`). A provisioner with machines cannot be moved. If no PATCH moves a provider that has samples, all
samples stay on one platform, and the metric lists of a platform show samples of its machines only (`samples_placed`).
-/

namespace Washing

open Resources Routes

/-- Every sample links a provider and a machine of the same platform. -/
def Store.SamplesPlaced (s : Store) : Prop :=
  ∀ scope, ∀ r ∈ s.metrics scope, ∃ p ∈ s.providers, ∃ m ∈ s.machines,
    p.id = r.providerId ∧ m.id = r.machineId ∧ m.platformId = p.platformId

instance (s : Store) : Decidable s.SamplesPlaced :=
  decidable_of_iff (∀ scope ∈ ScopeName.all, ∀ r ∈ s.metrics scope, ∃ p ∈ s.providers, ∃ m ∈ s.machines,
    p.id = r.providerId ∧ m.id = r.machineId ∧ m.platformId = p.platformId)
    ⟨fun h scope => h scope (ScopeName.mem_all scope), fun h scope _ => h scope⟩

/-- The metric lists of a platform show samples of its machines only. -/
def Store.ListsOwnSamples (s : Store) : Prop :=
  ∀ scope (filters : MetricFilters) platformId offset limit, filters.platformId = some platformId →
    ∀ r ∈ (listMachineMetrics s.toDatabase scope filters offset limit).items,
      ∃ m ∈ s.machines, m.id = r.machineId ∧ m.platformId = platformId

/-! ## PATCHes of the platform -/

/-- The provider and the platform that a PATCH names. -/
def Request.providerPlatform : Request → Option (Nat × Nat)
  | updatePrometheusProvider id body => body.platformId.toOption.map fun target => (id, target)
  | updateDynatraceProvider id body => body.platformId.toOption.map fun target => (id, target)
  | updateMockProvider id body => body.platformId.toOption.map fun target => (id, target)
  | _ => none

/-- A PATCH moves a provider that has samples, and no provisioner, to another platform. -/
def Request.MovesSamples (s : Store) (request : Request) : Prop :=
  ∃ x ∈ request.providerPlatform, s.HasPlatform x.2 ∧ ∃ p ∈ s.providers, p.id = x.1 ∧ p.platformId ≠ x.2 ∧
    s.provisionersOf p = [] ∧ ∃ scope ∈ ScopeName.all, ∃ r ∈ s.metrics scope, r.providerId = x.1

instance (s : Store) (request : Request) : Decidable (request.MovesSamples s) :=
  inferInstanceAs (Decidable (∃ x ∈ request.providerPlatform, _))

/-- The move that a plan makes is the move of its request. -/
def Plan.Moves (s : Store) (move : Option (Nat × Nat)) (plan : Plan) : Prop :=
  ∀ id c target, plan.statement = some (.updateProvider id c) → c.platformId = .value target →
    move = some (id, target) ∧ ∀ p, Table.get s.providers id = some p → p.platformId ≠ target

section Plans

variable {env : ApiEnv} {s : Store} {move : Option (Nat × Nat)}

theorem moves_of_ne {plan : Plan} (h : ∀ id c, plan.statement ≠ some (.updateProvider id c)) : plan.Moves s move :=
  fun id c _ hstatement => absurd hstatement (h id c)

theorem createProvider_moves (columns : ProviderColumns) (ids : List Nat) (view : Nat → View) :
    Ensures (createProvider s columns ids view) (Plan.Moves s move) :=
  .skip fun _ => .skip fun _ => .pure (moves_of_ne (by rintro i c ⟨⟩))

theorem updateProvider_moves (id : Nat) (connectorType : String) (platformId : Patch Nat) (name : Patch String)
    (scope : Patch ScopeName) (change : ConnectorConfig → ConnectorConfig) (view : View) :
    Ensures (updateProvider env s id connectorType platformId name scope change view)
      (Plan.Moves s (platformId.toOption.map fun target => (id, target))) := by
  refine (ensures_loadProviderOfType _ _).bind fun p hp => .skip fun _ => ?_
  refine .skip fun _ => .pure ?_
  intro i c target hstatement htarget
  simp only at hstatement
  split_ifs at hstatement
  cases hstatement
  obtain ⟨hvalue, hne⟩ := Patch.changing_eq_value.mp htarget
  refine ⟨by rw [hvalue]; rfl, fun p' hp' => ?_⟩
  cases hp.symm.trans hp'
  exact hne.symm

theorem setProviderEnabled_moves (id : Nat) (enabled : Bool) :
    Ensures (setProviderEnabled s id enabled) (Plan.Moves s move) := by
  refine .skip fun p => .pure ?_
  intro i c target hstatement htarget
  simp only at hstatement
  split_ifs at hstatement
  cases hstatement
  cases htarget

theorem attachProviderProvisioner_moves (id provisionerId : Nat) :
    Ensures (attachProviderProvisioner s id provisionerId) (Plan.Moves s move) := by
  refine .skip fun p => .skip fun q => .guard fun _ => ?_
  split_ifs
  · exact .pure (moves_of_ne (by rintro i c ⟨⟩))
  · exact .error _
  · exact .pure (moves_of_ne (by rintro i c ⟨⟩))

/-- A statement that is emitted under a condition and is no update of a provider. -/
theorem moves_ite {c : Prop} [Decidable c] {statement : Statement} {conflict : Option String} {view : View}
    (h : ∀ id c, statement ≠ .updateProvider id c) :
    Plan.Moves s move ⟨if c then none else some statement, conflict, view⟩ := by
  refine moves_of_ne fun id c' hstatement => ?_
  simp only at hstatement
  split_ifs at hstatement
  exact h id c' (Option.some.inj hstatement)

theorem updateProvisioner_moves (id : Nat) (connectorType : String) (platformId : Patch Nat) (name cron : Patch String)
    (change : ConnectorConfig → Except HttpException ConnectorConfig) (view : View) :
    Ensures (updateProvisioner env s id connectorType platformId name cron change view) (Plan.Moves s move) :=
  .skip fun _ => .skip fun _ => .skip fun _ =>
    .pure (moves_ite (by rintro i c ⟨⟩))

theorem prometheusUpdate_platform (b : PrometheusProviderUpdate) :
    Ensures (b.validate env) fun payload => payload.platformId = b.platformId :=
  .skip fun _ => .skip fun _ => .skip fun _ => .pure rfl

theorem dynatraceProviderUpdate_platform (b : DynatraceProviderUpdate) :
    Ensures (b.validate env) fun payload => payload.platformId = b.platformId :=
  .skip fun _ => .skip fun _ => .skip fun _ => .pure rfl

theorem mockProviderUpdate_platform (b : MockProviderUpdate) :
    Ensures (b.validate env) fun payload => payload.platformId = b.platformId :=
  .skip fun _ => .pure rfl

/-- A plan moves the provider that its request names, if any. -/
theorem plan_moves {request : Request} {plan : Plan} (h : request.plan env s = .ok plan) :
    plan.Moves s request.providerPlatform := by
  revert plan
  show Ensures (request.plan env s) (Plan.Moves s request.providerPlatform)
  cases request with
  | createPlatform body => exact .skip fun _ => .pure (moves_of_ne (by rintro i c ⟨⟩))
  | updatePlatform id body => exact .skip fun _ => .pure (moves_ite (by rintro i c ⟨⟩))
  | deletePlatform id => exact .skip fun _ => .pure (moves_of_ne (by rintro i c ⟨⟩))
  | createPrometheusProvider body => exact .skip fun _ => createProvider_moves _ _ _
  | createDynatraceProvider body => exact .skip fun _ => createProvider_moves _ _ _
  | createMockProvider body => exact .skip fun _ => createProvider_moves _ _ _
  | updatePrometheusProvider id body =>
    exact (prometheusUpdate_platform body).bind fun payload hplatform => by
      rw [Request.providerPlatform, ← hplatform]
      exact updateProvider_moves _ _ _ _ _ _ _
  | updateDynatraceProvider id body =>
    exact (dynatraceProviderUpdate_platform body).bind fun payload hplatform => by
      rw [Request.providerPlatform, ← hplatform]
      exact updateProvider_moves _ _ _ _ _ _ _
  | updateMockProvider id body =>
    exact (mockProviderUpdate_platform body).bind fun payload hplatform => by
      rw [Request.providerPlatform, ← hplatform]
      exact updateProvider_moves _ _ _ _ _ _ _
  | enableProvider id => exact setProviderEnabled_moves id true
  | disableProvider id => exact setProviderEnabled_moves id false
  | deleteProvider id => exact .skip fun _ => .pure (moves_of_ne (by rintro i c ⟨⟩))
  | attachProviderProvisioner id provisionerId => exact attachProviderProvisioner_moves id provisionerId
  | detachProviderProvisioner id provisionerId =>
    refine .skip fun _ => .skip fun _ => .guard fun _ => .pure (moves_of_ne fun i c hstatement => ?_)
    simp only at hstatement
    split_ifs at hstatement
    cases hstatement
  | createCapsuleProvisioner body => exact .skip fun _ => .skip fun _ => .pure (moves_of_ne (by rintro i c ⟨⟩))
  | createDynatraceProvisioner body => exact .skip fun _ => .skip fun _ => .pure (moves_of_ne (by rintro i c ⟨⟩))
  | createMockProvisioner body =>
    exact .skip fun _ => .skip fun _ => .skip fun _ => .skip fun _ => .pure (moves_of_ne (by rintro i c ⟨⟩))
  | updateCapsuleProvisioner id body => exact .skip fun _ => updateProvisioner_moves _ _ _ _ _ _ _
  | updateDynatraceProvisioner id body => exact .skip fun _ => updateProvisioner_moves _ _ _ _ _ _ _
  | updateMockProvisioner id body => exact .skip fun _ => updateProvisioner_moves _ _ _ _ _ _ _
  | enableProvisioner id => exact .skip fun _ => .pure (moves_ite (by rintro i c ⟨⟩))
  | disableProvisioner id => exact .skip fun _ => .pure (moves_ite (by rintro i c ⟨⟩))
  | deleteProvisioner id => exact .skip fun _ => .pure (moves_of_ne (by rintro i c ⟨⟩))
  | deleteMachine id => exact .skip fun _ => .pure (moves_of_ne (by rintro i c ⟨⟩))

end Plans

/-! ## Operations -/

/-- The connector of a collection returns records of the collected machine only. -/
def Operation.Own : Operation → Prop
  | request _ | inventory _ _ _ => True
  | collection env _ _ => env.mock.Own

/-- A PATCH moves a provider together with its samples. -/
def Operation.MovesSamples (s : Store) : Operation → Prop
  | request r => r.MovesSamples s
  | inventory _ _ _ | collection _ _ _ => False

instance (s : Store) : DecidablePred (Operation.MovesSamples s)
  | .request r => inferInstanceAs (Decidable (r.MovesSamples s))
  | .inventory _ _ _ | .collection _ _ _ => inferInstanceAs (Decidable False)

section Steps

variable {env : ApiEnv} {s s' : Store}

/-- The samples of the rows that a deletion leaves. -/
theorem Store.SamplesPlaced.shrinks (h : s.SamplesPlaced) (hs : s.Intact) (hshrinks : s.Shrinks s') :
    s'.cascade.SamplesPlaced := by
  have hcascade := hshrinks.cascade
  intro scope r hr
  obtain ⟨p, hp, m, hm, hpid, hmid, hplatform⟩ := h scope r ((hcascade.metrics scope).subset hr)
  obtain ⟨hprovider, hmachine⟩ := (hs.toNumbered.shrinks hshrinks).cascade.samples scope r hr
  obtain ⟨p', hp', hpid'⟩ := Table.mem_ids.mp hprovider
  obtain ⟨m', hm', hmid'⟩ := Table.mem_ids.mp hmachine
  obtain ⟨m₀, hm₀, hid, hkept, -⟩ := hcascade.machines m' hm'
  refine ⟨p', hp', m', hm', hpid', hmid', ?_⟩
  rw [hs.providers.keyed.eq_of_id (hcascade.providers.subset hp') hp (hpid'.trans hpid.symm), hkept, ← hplatform]
  rw [hs.machines.keyed.eq_of_id hm₀ hm (hid.symm.trans (hmid'.trans hmid.symm))]

/-- A PATCH that moves no samples. -/
theorem Store.SamplesPlaced.updateProvider (h : s.SamplesPlaced) (hs : s.Intact) {id : Nat} {p r : MachineProvider}
    (hp : Table.get s.providers id = some p) (hr : r.id = p.id)
    (hmove : r.platformId ≠ p.platformId → ∀ scope, ∀ x ∈ s.metrics scope, x.providerId ≠ id) :
    Store.SamplesPlaced { s with providers := Table.modify s.providers id fun _ => r } := by
  intro scope x hx
  have hx : x ∈ s.metrics scope := by
    revert hx
    cases scope <;> exact fun hx => hx
  obtain ⟨hmem, hid⟩ := Table.get_some hp
  obtain ⟨p', hp', m, hm, hpid, hmid, hplatform⟩ := h scope x hx
  by_cases hown : p'.id = id
  · have heq : p' = p := hs.providers.keyed.eq_of_id hp' hmem (hown.trans hid.symm)
    have hkept : r.platformId = p.platformId := by
      by_contra hne
      exact hmove hne scope x hx (hpid.symm.trans hown)
    have hnew : r ∈ Table.modify s.providers id fun _ => r := Table.mem_modify.mpr ⟨p, hmem, (if_pos hid).symm⟩
    refine ⟨r, hnew, m, hm, ?_, hmid, ?_⟩
    · rw [hr, ← heq, hpid]
    · rw [hkept, ← heq, hplatform]
  · exact ⟨p', Table.mem_modify.mpr ⟨p', hp', (if_neg hown).symm⟩, m, hm, hpid, hmid, hplatform⟩

/-- The commit of a request that moves no samples. -/
theorem Store.SamplesPlaced.commit (h : s.SamplesPlaced) (hs : s.Sound env) {request : Request}
    (hkeeps : ¬ request.MovesSamples s) {plan : Plan} (hplan : request.plan env s = .ok plan)
    (hcommit : plan.commit env.storable s = .ok s') : s'.SamplesPlaced := by
  obtain ⟨-, rfl⟩ | ⟨statement, hstatement, hexecute⟩ := Plan.commit_cases hcommit
  · exact h
  have hchecked := plan_checked hplan statement hstatement
  cases Statement.execute_cases hexecute with
  | platformInserted | platformUpdated | provisionerInserted | provisionerUpdated | attached | detached => exact h
  | providerInserted v ids =>
    intro scope r hr
    obtain ⟨p, hp, hrest⟩ := h scope r hr
    exact ⟨p, List.mem_append_left _ hp, hrest⟩
  | providerUpdated id c p r stored updated accepted =>
    obtain ⟨hid, -, hassign, -⟩ := ProviderChanges.update_some updated
    obtain ⟨hp, hpid⟩ := Table.get_some stored
    refine h.updateProvider hs.toIntact stored hid fun hne scope x hx hsample => ?_
    cases hpatch : c.platformId with
    | unset =>
      rw [hpatch] at hassign
      exact hne (Option.some.inj hassign).symm
    | null => simp [hpatch, Patch.assign] at hassign
    | value target =>
      rw [hpatch] at hassign
      obtain rfl : target = r.platformId := Option.some.inj hassign
      obtain ⟨hmove, -⟩ := plan_moves hplan id c _ hstatement hpatch
      obtain ⟨_, hget, hattached, -⟩ := hchecked
      cases stored.symm.trans hget
      have hnone : s.provisionersOf p = [] := by
        refine List.eq_nil_iff_forall_not_mem.mpr fun q hq => hne ?_
        rw [← hattached _ hpatch q hq, hs.attached p hp q hq]
      exact hkeeps ⟨_, hmove, accepted.1, p, hp, hpid, fun heq => hne heq.symm, hnone, scope,
        ScopeName.mem_all scope, x,
        hx, hsample⟩
  | deleted _ _ s' shrinks => exact h.shrinks hs.toIntact shrinks

theorem Store.SamplesPlaced.inventory (h : s.SamplesPlaced) {db : Database} (hrun : Inventoried s.toDatabase db) :
    Store.SamplesPlaced { s with toDatabase := db } := by
  intro scope r hr
  obtain ⟨p, hp, m, hm, hpid, hmid, hplatform⟩ := h scope r (hrun.metrics scope ▸ hr)
  obtain ⟨m', hm', hid, hkept⟩ := hrun.kept m hm
  exact ⟨p, hrun.providers.symm ▸ hp, m', hm', hpid, hid.trans hmid, hkept.trans hplatform⟩

theorem Store.SamplesPlaced.collection (h : s.SamplesPlaced) {collect : MetricCollector} (hown : collect.Own)
    {db : Database} (hrun : Sampled collect s.toDatabase db) : Store.SamplesPlaced { s with toDatabase := db } := by
  have hkept : ∀ p ∈ s.providers, ∃ p' ∈ db.providers, p'.id = p.id ∧ p'.platformId = p.platformId := by
    intro p hp
    obtain ⟨p', hp', hbare⟩ := Table.exists_of_map_eq hrun.providers hp
    exact ⟨p', hp', MachineProvider.of_bare hbare⟩
  intro scope r hr
  obtain ⟨p, hp, m, hm, hpid, hmid, hplatform⟩ : ∃ p ∈ s.providers, ∃ m ∈ s.machines,
      p.id = r.providerId ∧ m.id = r.machineId ∧ m.platformId = p.platformId := by
    obtain ⟨r₀, hr₀, hprovider, hmachine⟩ | ⟨p, hp, m, hm, hsees, hprovider, -, hmachine⟩ := hrun.samples scope r hr
    · rw [hprovider, hmachine]
      exact h scope r₀ hr₀
    · exact ⟨p, hp, m, hm, hprovider.symm, (hmachine hown).symm, hsees.1⟩
  obtain ⟨p', hp', hid, hplatform'⟩ := hkept p hp
  exact ⟨p', hp', m, hrun.machines.symm ▸ hm, hid.trans hpid, hmid, hplatform.trans hplatform'.symm⟩

/-- An operation that moves no samples keeps them placed. -/
theorem Store.SamplesPlaced.operation (h : s.SamplesPlaced) (hs : s.Sound env) {operation : Operation}
    (hown : operation.Own) (hkeeps : ¬ operation.MovesSamples s) : (operation.run env s).SamplesPlaced := by
  cases operation with
  | request request =>
    obtain ⟨e, hhandle⟩ | ⟨plan, s', hplan, hcommit, hhandle⟩ := request.handle_cases env s
    · rw [Operation.run, hhandle]
      exact h
    · rw [Operation.run, hhandle]
      exact h.commit hs hkeeps hplan hcommit
  | inventory run mock id =>
    exact h.inventory (run_inventoried run mock hs.machines hs.provisioners.keyed (fun m hm => hs.sourced hm) 0 id)
  | collection run providerId machineId =>
    exact h.collection hown (collection_sampled run s.toDatabase providerId machineId)

/-- The lists of a platform show the samples of its machines, if the samples are placed. -/
theorem Store.SamplesPlaced.lists (h : s.SamplesPlaced) (hs : s.Intact) : s.ListsOwnSamples := by
  intro scope filters platformId offset limit hfilter r hr
  obtain ⟨hmem, ⟨p, hp, hpid, hplatform⟩, -⟩ := mem_metricQuery.mp (mem_listMachineMetrics hr)
  obtain ⟨p', hp', m, hm, hpid', hmid, hsame⟩ := h scope r hmem
  refine ⟨m, hm, hmid, ?_⟩
  rw [hsame, hs.providers.keyed.eq_of_id hp' hp (hpid'.trans hpid), hplatform platformId hfilter]

end Steps

/-- Starting without rows, the samples link providers and machines of one platform after any operations, as long as no
PATCH moves a provider that has samples. -/
theorem samples_placed (env : ApiEnv) (hdefault : env.cronIsValid defaultCron) (operations : List Operation)
    (hown : ∀ operation ∈ operations, operation.Own)
    (hkeeps : AllSteps (fun s operation => some (Operation.run env s operation))
      (fun s operation => ¬ operation.MovesSamples s) .empty operations) :
    (runOperations env .empty operations).SamplesPlaced ∧ (runOperations env .empty operations).ListsOwnSamples := by
  have hstart : Store.SamplesPlaced .empty := fun scope r hr => by cases scope <;> exact absurd hr List.not_mem_nil
  obtain ⟨hsound, hplaced⟩ : (runOperations env .empty operations).Sound env ∧
      (runOperations env .empty operations).SamplesPlaced := by
    refine foldl_invariant (I := fun s => s.Sound env ∧ s.SamplesPlaced) (fun s operation hs hcondition => ?_)
      ⟨Store.sound_empty env, hstart⟩ ((allSteps_of_forall hown _).and hkeeps)
    exact ⟨hs.1.operation hdefault operation, hs.2.operation hs.1 hcondition.1 hcondition.2⟩
  exact ⟨hplaced, hplaced.lists hsound.toIntact⟩

/-! ## A provider that is moved -/

/-- A connector that answers with one record of each machine it is asked for. -/
def smallCollection : CollectionEnv where
  unicode := Unicode.ascii
  settings := Settings.default
  mock _ machines := .ok (machines.map fun m => ⟨1, some 0, some m.id, none, none⟩)
  clock k := k
  integrityMessage _ := "duplicate key value"

theorem smallCollection_own : smallCollection.mock.Own := by
  rintro p m records ⟨⟩ r hr i hi
  rw [List.mem_singleton.mp hr] at hi
  exact (Option.some.inj hi).symm

/-- Two platforms; a provider of the first one collects a sample of a machine. -/
def sampleOperations : List Operation :=
  [.request (.createPlatform { name := "north" }),
    .request (.createPlatform { name := "south" }),
    .request (.createMockProvisioner { platformId := 1, name := "inventory" }),
    .request (.enableProvisioner 3),
    .inventory smallEnv (fun _ => .ok [smallRecord "a" "H1"]) 3,
    .request (.createMockProvider { platformId := 1, name := "metrics", scope := .cpu }),
    .collection smallCollection 7 4]

theorem sampleOperations_own : ∀ operation ∈ sampleOperations, operation.Own := by
  simp only [sampleOperations, List.forall_mem_cons, List.not_mem_nil, IsEmpty.forall_iff, implies_true, and_true]
  exact ⟨trivial, trivial, trivial, trivial, trivial, trivial, smallCollection_own⟩

theorem samples_placed_small : (runOperations smallApi .empty sampleOperations).cpuMetrics.length = 1 ∧
    (runOperations smallApi .empty sampleOperations).SamplesPlaced ∧
    (runOperations smallApi .empty sampleOperations).ListsOwnSamples :=
  ⟨by decide +kernel, samples_placed smallApi rfl sampleOperations sampleOperations_own (by decide +kernel)⟩

/-- The provider is moved to the second platform: the list of that platform shows the sample. -/
theorem moved_samples : ∃ operations : List Operation, (∀ operation ∈ operations, operation.Own) ∧
    ¬ (runOperations smallApi .empty operations).SamplesPlaced ∧
    ¬ (runOperations smallApi .empty operations).ListsOwnSamples := by
  refine ⟨sampleOperations ++ [.request (.updateMockProvider 7 { platformId := .value 2 })], ?_, by decide +kernel, ?_⟩
  · exact List.forall_mem_append.mpr ⟨sampleOperations_own, List.forall_mem_singleton.mpr trivial⟩
  · intro h
    have hlisted := h .cpu { platformId := some 2 } 2 0 10 rfl ⟨8, 7, 4, 0, 1⟩ (by decide +kernel)
    revert hlisted
    decide +kernel

end Washing
