import Washing.Db.Models

/-!
# Which provider sees which machine

A provider observes the machines of its platform; once it is attached to provisioners, only those that these
provisioners discovered (`Sees`). The rule is written four times: as a query in the metric collection and in the routes,
as a function on loaded rows in the application sync and in the optimizations. Each of them is shown to be `Sees`.
-/

namespace Washing

/-! ## The rule -/

/-- The provisioners that a provider is attached to. -/
def attached (db : Database) (provider : MachineProvider) : Set Nat :=
  {s | ∃ q ∈ db.provisioners, q.id = s ∧ ⟨provider.id, s⟩ ∈ db.attachments}

/-- The provider can observe the machine. -/
def Sees (db : Database) (provider : MachineProvider) (machine : Machine) : Prop :=
  machine.platformId = provider.platformId ∧
    (attached db provider = ∅ ∨ ∃ s ∈ attached db provider, machine.sourceProvisionerId = some s)

/-- `[provisioner.id for provisioner in provider.provisioners]`. -/
def provisionerIds (db : Database) (provider : MachineProvider) : List Nat := (db.provisionersOf provider).map (·.id)

theorem mem_provisionerIds {db : Database} {p : MachineProvider} {s : Nat} :
    s ∈ provisionerIds db p ↔ s ∈ attached db p := by
  simp only [provisionerIds, Database.provisionersOf, attached, List.mem_map, List.mem_filter, decide_eq_true_eq,
    Set.mem_ofPred_eq]
  constructor
  · rintro ⟨q, ⟨hq, ha⟩, rfl⟩
    exact ⟨q, hq, rfl, ha⟩
  · rintro ⟨q, hq, rfl, ha⟩
    exact ⟨q, ⟨hq, ha⟩, rfl⟩

theorem provisionerIds_eq_nil_iff {db : Database} {p : MachineProvider} :
    provisionerIds db p = [] ↔ attached db p = ∅ := by
  rw [List.eq_nil_iff_forall_not_mem, Set.eq_empty_iff_forall_notMem]
  simp only [mem_provisionerIds]

/-! ## Queries -/

/-- `metrics._scoped_machine_query`. -/
def scopedMachineQuery (db : Database) (provider : MachineProvider) : List Machine :=
  let query := selectWhere (fun m => Cond.eq (some m.platformId) (some provider.platformId)) db.machines
  let ids := provisionerIds db provider
  if ids ≠ [] then selectWhere (fun m => Cond.inList m.sourceProvisionerId ids) query else query

/-- `metrics._scoped_machines`. -/
def scopedMachines (db : Database) (provider : MachineProvider) : List Machine :=
  orderBy (fun m n => m.id ≤ n.id) (scopedMachineQuery db provider)

/-- `metrics._scoped_machine`. -/
def scopedMachine (db : Database) (provider : MachineProvider) (machineId : Nat) : Except Exc (Option Machine) :=
  oneOrNone (selectWhere (fun m => Cond.eq (some m.id) (some machineId)) (scopedMachineQuery db provider))

/-- `routes.providers._provider_machine_query`. -/
def providerMachineQuery (db : Database) (provider : MachineProvider) : List Machine :=
  let query := selectWhere (fun m => Cond.eq (some m.platformId) (some provider.platformId)) db.machines
  let ids := provisionerIds db provider
  if ids ≠ [] then selectWhere (fun m => Cond.inList m.sourceProvisionerId ids) query else query

/-- Both queries are one filter of the table, so they return the rows in one order and without repetition. -/
theorem scopedMachineQuery_eq_filter (db : Database) (p : MachineProvider) : ∃ q : Machine → Bool,
    scopedMachineQuery db p = db.machines.filter q ∧ ∀ m, q m ↔ Sees db p m := by
  by_cases h : provisionerIds db p = []
  · refine ⟨fun m => (Cond.eq (some m.platformId) (some p.platformId)).isTrue, ?_, fun m => ?_⟩
    · simp [scopedMachineQuery, h, selectWhere]
    · simp [Sees, provisionerIds_eq_nil_iff.mp h]
  · refine ⟨fun m => (Cond.inList m.sourceProvisionerId (provisionerIds db p)).isTrue &&
      (Cond.eq (some m.platformId) (some p.platformId)).isTrue, ?_, fun m => ?_⟩
    · simp [scopedMachineQuery, h, selectWhere, List.filter_filter]
    · have hne : attached db p ≠ ∅ := fun e => h (provisionerIds_eq_nil_iff.mpr e)
      simp only [Bool.and_eq_true, Cond.isTrue_inList, Cond.isTrue_eq_some, mem_provisionerIds, Sees, hne, false_or]
      exact and_comm

theorem mem_scopedMachineQuery {db : Database} {p : MachineProvider} {m : Machine} :
    m ∈ scopedMachineQuery db p ↔ m ∈ db.machines ∧ Sees db p m := by
  obtain ⟨q, hq, hs⟩ := scopedMachineQuery_eq_filter db p
  rw [hq, List.mem_filter, hs]

theorem mem_scopedMachines {db : Database} {p : MachineProvider} {m : Machine} :
    m ∈ scopedMachines db p ↔ m ∈ db.machines ∧ Sees db p m := by
  rw [scopedMachines, mem_orderBy, mem_scopedMachineQuery]

theorem mem_providerMachineQuery {db : Database} {p : MachineProvider} {m : Machine} :
    m ∈ providerMachineQuery db p ↔ m ∈ db.machines ∧ Sees db p m := mem_scopedMachineQuery

/-- `_scoped_machine` returns the row with the given id exactly when the provider sees it. -/
theorem scopedMachine_eq {db : Database} (hk : Table.Keyed db.machines) (p : MachineProvider) (id : Nat) :
    scopedMachine db p id = .ok ((scopedMachineQuery db p).find? fun m => m.id = id) := by
  obtain ⟨q, hq, -⟩ := scopedMachineQuery_eq_filter db p
  have hn : ((scopedMachineQuery db p).map Machine.id).Nodup := by
    rw [hq]
    exact hk.sublist (List.filter_sublist.map _)
  exact oneOrNone_eq hn id

theorem scopedMachine_of_sees {db : Database} (hk : Table.Keyed db.machines) {p : MachineProvider} {m : Machine}
    (hm : m ∈ db.machines) (hs : Sees db p m) : scopedMachine db p m.id = .ok (some m) := by
  rw [scopedMachine_eq hk]
  cases h : (scopedMachineQuery db p).find? fun n => n.id = m.id with
  | none =>
    have hno := List.find?_eq_none.mp h m (mem_scopedMachineQuery.mpr ⟨hm, hs⟩)
    simp at hno
  | some n =>
    have hn := (mem_scopedMachineQuery.mp (List.mem_of_find?_eq_some h)).1
    have hid : n.id = m.id := by simpa using List.find?_some h
    rw [hk.eq_of_id hn hm hid]

/-! ## Functions on loaded rows -/

/-- `applications._provider_sees_machine`. -/
def Applications.providerSeesMachine (db : Database) (provider : MachineProvider) (machine : Machine) : Bool :=
  if provider.platformId ≠ machine.platformId then false
  else
    let ids := provisionerIds db provider
    if ids = [] then true else machine.sourceProvisionerId ∈ ids.map some

/-- `optimizations._provider_sees_machine`, which leaves the platform to its caller. -/
def Optimizations.providerSeesMachine (db : Database) (provider : MachineProvider) (machine : Machine) : Bool :=
  let ids := provisionerIds db provider
  if ids = [] then true else machine.sourceProvisionerId ∈ ids.map some

/-- `optimizations._visible_enabled_providers_for_scope`. -/
def visibleEnabledProvidersForScope (db : Database) (machine : Machine) (scope : ScopeName) : List MachineProvider :=
  let providers := orderBy (fun p q => p.id ≤ q.id) (selectWhere (fun p => Cond.eq (some p.scope) (some scope))
    (selectWhere (fun p => Cond.eq (some p.platformId) (some machine.platformId))
      (selectWhere (fun p => Cond.ofBool p.enabled) db.providers)))
  providers.filter fun p => Optimizations.providerSeesMachine db p machine

/-- `applications._visible_enabled_providers`. -/
def visibleEnabledProviders (db : Database) (platformIds : List Nat) : List MachineProvider :=
  if platformIds = [] then []
  else orderBy (fun p q => p.id ≤ q.id) (selectWhere (fun p => Cond.inList (some p.platformId) platformIds)
    (selectWhere (fun p => Cond.ofBool p.enabled) db.providers))

theorem Optimizations.providerSeesMachine_iff {db : Database} {p : MachineProvider} {m : Machine} :
    Optimizations.providerSeesMachine db p m ↔
      (attached db p = ∅ ∨ ∃ s ∈ attached db p, m.sourceProvisionerId = some s) := by
  unfold Optimizations.providerSeesMachine
  simp only [provisionerIds_eq_nil_iff]
  split_ifs with h
  · simp [h]
  · simp [h, mem_provisionerIds, eq_comm]

theorem Applications.providerSeesMachine_iff {db : Database} {p : MachineProvider} {m : Machine} :
    Applications.providerSeesMachine db p m ↔ Sees db p m := by
  have h := @Optimizations.providerSeesMachine_iff db p m
  unfold Applications.providerSeesMachine Sees
  rw [← h, Optimizations.providerSeesMachine]
  by_cases hp : m.platformId = p.platformId
  · simp [hp]
  · simp [hp, Ne.symm hp]

theorem mem_visibleEnabledProvidersForScope {db : Database} {p : MachineProvider} {m : Machine} {scope : ScopeName} :
    p ∈ visibleEnabledProvidersForScope db m scope ↔
      p ∈ db.providers ∧ p.enabled ∧ p.scope = scope ∧ Sees db p m := by
  simp only [visibleEnabledProvidersForScope, List.mem_filter, mem_orderBy, mem_selectWhere, Cond.isTrue_eq_some,
    Cond.isTrue_ofBool, Optimizations.providerSeesMachine_iff, Sees]
  constructor
  · rintro ⟨⟨⟨⟨hp, he⟩, hpl⟩, hs⟩, hv⟩
    exact ⟨hp, he, hs, hpl.symm, hv⟩
  · rintro ⟨hp, he, hs, hpl, hv⟩
    exact ⟨⟨⟨⟨hp, he⟩, hpl.symm⟩, hs⟩, hv⟩

theorem mem_visibleEnabledProviders {db : Database} {p : MachineProvider} {platformIds : List Nat} :
    p ∈ visibleEnabledProviders db platformIds ↔ p ∈ db.providers ∧ p.enabled ∧ p.platformId ∈ platformIds := by
  unfold visibleEnabledProviders
  split_ifs with h
  · simp [h]
  · simp [and_assoc]

/-- The providers of an application batch are listed once each. -/
theorem nodup_visibleEnabledProviders {db : Database} (hk : Table.Keyed db.providers) (platformIds : List Nat) :
    ((visibleEnabledProviders db platformIds).map (·.id)).Nodup := by
  unfold visibleEnabledProviders
  split_ifs
  · simp
  · refine ((orderBy_perm _ _).map _).nodup_iff.mpr ?_
    exact hk.sublist ((List.filter_sublist.trans List.filter_sublist).map _)

/-! ## One rule -/

/-- The four definitions give one answer for a provider and a machine. -/
structure VisibilityAgrees (db : Database) (p : MachineProvider) (m : Machine) : Prop where
  collection_routes : m ∈ scopedMachines db p ↔ m ∈ providerMachineQuery db p
  collection_applications : m ∈ scopedMachines db p ↔ Applications.providerSeesMachine db p m
  collection_optimizations : p.enabled → (m ∈ scopedMachines db p ↔ p ∈ visibleEnabledProvidersForScope db m p.scope)

theorem visibilityAgrees {db : Database} {p : MachineProvider} {m : Machine} (hp : p ∈ db.providers)
    (hm : m ∈ db.machines) : VisibilityAgrees db p m := by
  refine ⟨?_, ?_, fun he => ?_⟩
  · rw [mem_scopedMachines, mem_providerMachineQuery]
  · rw [mem_scopedMachines, Applications.providerSeesMachine_iff]
    exact and_iff_right hm
  · rw [mem_scopedMachines, mem_visibleEnabledProvidersForScope]
    constructor
    · rintro ⟨-, hs⟩
      exact ⟨hp, he, rfl, hs⟩
    · rintro ⟨-, -, -, hs⟩
      exact ⟨hm, hs⟩

end Washing
