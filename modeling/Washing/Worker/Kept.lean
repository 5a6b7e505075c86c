import Washing.Api.PlatformSummary
import Washing.Jobs.Timeline
import Washing.Worker.Tasks

/-!
# What is kept of the stored rows

`Database.Kept` collects what the results about single operations assume of the stored rows: the keys and the unique
constraints hold, the rows about a machine have their machine, and texts are in their canonical form. Together with
`Store.Sound` it is kept by every request (`Kept.request`) and by every task, whatever fails on the way.

- deletions (`Lawful.thins`), and the cascade after them (`Lawful.cascade`, `Kept.purge`);
- the rebuild of the applications (`Kept.rebuild`);
- columns that `Kept` does not read (`Kept.frame`).
-/

namespace Washing

/-! ## Canonical rows -/

/-- The columns were written through the validators of `Machine`. -/
structure Machine.Canonical (U : Unicode) (m : Machine) : Prop extends m.Validated U where
  hostname : hostnameOr U m.hostname = m.hostname
  externalId : normalizeExternalId U m.externalId = m.externalId

/-- The columns were written through the validators of `Application`. -/
structure Application.Canonical (U : Unicode) (a : Application) : Prop where
  name : normalizeApplicationCode U (some a.name) = some a.name
  environment : coalesceDimension U (some a.environment) = a.environment
  region : coalesceDimension U (some a.region) = a.region

/-- What the constraints and the validators guarantee of the stored rows. -/
structure Database.Lawful (U : Unicode) (db : Database) : Prop where
  consistent : db.Consistent
  applications : ApplicationsStored db
  machines : ∀ m ∈ db.machines, m.Canonical U
  keys : ∀ a ∈ db.applications, a.Canonical U

/-- The rows are lawful, and the rows about a machine have their machine. -/
structure Database.Kept (U : Unicode) (db : Database) : Prop extends db.Lawful U where
  histories : ∀ r ∈ db.flavorHistory, r.machineId ∈ Table.ids db.machines
  optimizations : ∀ r ∈ db.optimizations, r.machineId ∈ Table.ids db.machines

/-- An assignment through the validators leaves a canonical machine. -/
theorem Machine.canonical_assign (U : Unicode) (p : MachineProvisioner) (r : MachineRecord) (m : Machine) :
    (m.assign U p r).Canonical U where
  application := ⟨_, rfl⟩
  environment := ⟨_, rfl⟩
  region := ⟨_, rfl⟩
  hostname := hostnameOr_idem r.hostname
  externalId := normalizeExternalId_idem r.externalId

/-- A new application has canonical columns. -/
theorem newApplication_canonical {U : Unicode} {machines : List Machine} (id : Nat) {k : ApplicationKey}
    (hk : k ∈ applicationSnapshot U machines) : (newApplication U id k).Canonical U := by
  have hkey := newApplication_key id hk
  simp only [applicationSnapshot, List.mem_dedup, List.mem_filterMap, canonicalKey, Option.map_eq_some_iff] at hk
  obtain ⟨row, -, name, hname, rfl⟩ := hk
  obtain ⟨h1, h2⟩ := Prod.mk.inj hkey
  obtain ⟨h2, h3⟩ := Prod.mk.inj h2
  have hidem := normalizeApplicationCode_idem (U := U) row.1
  rw [hname] at hidem
  constructor
  · rw [h1, hidem]
  · rw [h2, coalesceDimension_idem]
  · rw [h3, coalesceDimension_idem]

/-! ## Deletions -/

/-- Rows were deleted, and sources of machines were set to `NULL`. -/
structure Database.Thins (db db' : Database) : Prop where
  provisioners : (Table.ids db'.provisioners).Sublist (Table.ids db.provisioners)
  providers : (Table.ids db'.providers).Sublist (Table.ids db.providers)
  machineIds : (Table.ids db'.machines).Sublist (Table.ids db.machines)
  machines : ∀ m' ∈ db'.machines, ∃ m ∈ db.machines, ∃ source, (∀ i ∈ source, m.sourceProvisionerId = some i) ∧
    m' = { m with sourceProvisionerId := source }
  metrics : ∀ scope, (db'.metrics scope).Sublist (db.metrics scope)
  optimizations : db'.optimizations.Sublist db.optimizations
  applications : db'.applications = db.applications
  nextId : db'.nextId = db.nextId

namespace Database

variable {U : Unicode} {db db' db'' : Database}

theorem Thins.refl (db : Database) : db.Thins db :=
  ⟨.refl _, .refl _, .refl _, fun m hm => ⟨m, hm, _, fun _ h => h, rfl⟩, fun _ => .refl _, .refl _, rfl, rfl⟩

theorem Thins.trans (h : db.Thins db') (h' : db'.Thins db'') : db.Thins db'' where
  provisioners := h'.provisioners.trans h.provisioners
  providers := h'.providers.trans h.providers
  machineIds := h'.machineIds.trans h.machineIds
  machines := by
    intro m'' hm''
    obtain ⟨m', hm', source', hsource', rfl⟩ := h'.machines m'' hm''
    obtain ⟨m, hm, source, hsource, rfl⟩ := h.machines m' hm'
    exact ⟨m, hm, source', fun i hi => hsource i (hsource' i hi), rfl⟩
  metrics := fun scope => (h'.metrics scope).trans (h.metrics scope)
  optimizations := h'.optimizations.trans h.optimizations
  applications := h'.applications.trans h.applications
  nextId := h'.nextId.trans h.nextId

/-- Deletions leave lawful rows. -/
theorem Lawful.thins (h : db.Lawful U) (ht : db.Thins db') : db'.Lawful U := by
  have hc := h.consistent
  have hmachines := (Table.Numbered.mk hc.machines_keyed hc.machines_fresh).sublist ht.machineIds
  constructor
  case consistent =>
    constructor
    case provisioners_keyed => exact hc.provisioners_keyed.sublist ht.provisioners
    case providers_keyed => exact hc.providers_keyed.sublist ht.providers
    case machines_keyed => exact hmachines.keyed
    case machines_unique =>
      intro m' hm' n' hn' hconflicts
      obtain ⟨m, hm, source, hsource, rfl⟩ := ht.machines m' hm'
      obtain ⟨n, hn, source', hsource', rfl⟩ := ht.machines n' hn'
      refine hc.machines_unique m hm n hn (hconflicts.imp id ?_)
      rintro ⟨hsame, hexternal, hnone, hsome⟩
      obtain ⟨i, hi⟩ := Option.ne_none_iff_exists'.mp hnone
      have hm := hsource i hi
      have hn := hsource' i (hsame.symm.trans hi)
      exact ⟨hm.trans hn.symm, hexternal, Option.ne_none_iff_exists'.mpr ⟨i, hm⟩, hsome⟩
    case machines_fresh => exact ht.nextId ▸ hmachines.fresh
    case metrics_keyed => exact fun scope => (hc.metrics_keyed scope).sublist ((ht.metrics scope).map _)
    case metrics_unique => exact fun scope => (hc.metrics_unique scope).sublist ((ht.metrics scope).map _)
    case metrics_fresh =>
      exact fun scope r hr => ht.nextId ▸ hc.metrics_fresh scope r ((ht.metrics scope).subset hr)
    case optimizations_keyed => exact hc.optimizations_keyed.sublist (ht.optimizations.map _)
    case optimizations_unique => exact hc.optimizations_unique.sublist (ht.optimizations.map _)
    case optimizations_fresh => exact fun r hr => ht.nextId ▸ hc.optimizations_fresh r (ht.optimizations.subset hr)
    case applications_keyed => exact ht.applications ▸ hc.applications_keyed
  case applications =>
    constructor
    · exact ht.applications ▸ h.applications.keyed
    · exact ht.applications ▸ ht.nextId ▸ h.applications.fresh
    · exact ht.applications ▸ h.applications.unique
  case machines =>
    intro m' hm'
    obtain ⟨m, hm, source, -, rfl⟩ := ht.machines m' hm'
    have hm := h.machines m hm
    exact ⟨⟨hm.application, hm.environment, hm.region⟩, hm.hostname, hm.externalId⟩
  case keys => exact ht.applications ▸ h.keys

end Database

/-- A cascade deletes rows and sets sources to `NULL`. -/
theorem Store.thins_cascade (s : Store) : s.toDatabase.Thins s.cascade.toDatabase where
  provisioners := List.filter_sublist.map _
  providers := List.filter_sublist.map _
  machineIds := s.shrinks_cascade.machineIds
  machines := by
    intro m' hm'
    obtain ⟨m, hm, rfl⟩ := List.mem_map.mp hm'
    exact ⟨m, List.mem_of_mem_filter hm, _, fun i hi => (Option.filter_eq_some_iff.mp hi).1, rfl⟩
  metrics := s.shrinks_cascade.metrics
  optimizations := List.filter_sublist
  applications := rfl
  nextId := rfl

/-- After a cascade the rows about a machine have their machine. -/
theorem Database.Lawful.cascade {U : Unicode} {s : Store} (h : s.toDatabase.Lawful U) :
    s.cascade.toDatabase.Kept U where
  toLawful := h.thins s.thins_cascade
  histories := by
    intro r' hr'
    obtain ⟨r, hr, rfl⟩ := List.mem_map.mp hr'
    exact of_decide_eq_true (List.mem_filter.mp hr).2
  optimizations := fun r hr => of_decide_eq_true (List.mem_filter.mp hr).2

/-- A purge deletes rows. -/
theorem thins_purge (db : Database) (retentionDays : Int) (now : Time) :
    db.Thins (purgeStaleMachines db retentionDays now).1 where
  provisioners := .refl _
  providers := .refl _
  machineIds := List.filter_sublist.map _
  machines := fun m hm => ⟨m, List.mem_of_mem_filter hm, _, fun _ h => h, rfl⟩
  metrics := fun scope => by cases scope <;> exact List.filter_sublist
  optimizations := List.filter_sublist
  applications := rfl
  nextId := rfl

/-! ## Everything else -/

namespace Database.Kept

variable {U : Unicode} {db db' : Database}

/-- The machines that were updated recently stay, with the rows about them. -/
theorem purge (h : db.Kept U) (retentionDays : Int) (now : Time) :
    (purgeStaleMachines db retentionDays now).1.Kept U := by
  have hstay : ∀ i ∈ Table.ids db.machines, i ∉ (db.machines.filter fun m =>
      m.updatedAt < now - days retentionDays).map (·.id) →
      i ∈ Table.ids (purgeStaleMachines db retentionDays now).1.machines := by
    intro i hi hkept
    obtain ⟨m, hm, rfl⟩ := Table.mem_ids.mp hi
    refine Table.mem_ids.mpr ⟨m, List.mem_filter.mpr ⟨hm, decide_eq_true fun hold => hkept ?_⟩, rfl⟩
    exact List.mem_map_of_mem (List.mem_filter.mpr ⟨hm, decide_eq_true hold⟩)
  constructor
  case toLawful => exact h.thins (thins_purge db retentionDays now)
  case histories =>
    intro r hr
    obtain ⟨hr, hkept⟩ := List.mem_filter.mp hr
    exact hstay _ (h.histories r hr) (of_decide_eq_true hkept)
  case optimizations =>
    intro r hr
    obtain ⟨hr, hkept⟩ := List.mem_filter.mp hr
    exact hstay _ (h.optimizations r hr) (of_decide_eq_true hkept)

/-- The tables of the connectors and the applications are written, and keys are taken. -/
theorem rewrite (h : db.Kept U) (hprovisioners : Table.Keyed db'.provisioners) (hproviders : Table.Keyed db'.providers)
    (hmachines : db'.machines = db.machines) (hhistory : db'.flavorHistory = db.flavorHistory)
    (hmetrics : ∀ scope, db'.metrics scope = db.metrics scope) (hoptimizations : db'.optimizations = db.optimizations)
    (hnext : db.nextId ≤ db'.nextId) (happlications : ApplicationsStored db')
    (hkeys : ∀ a ∈ db'.applications, a.Canonical U) : db'.Kept U := by
  have hc := h.consistent
  refine ⟨⟨?consistent, happlications, ?machines, hkeys⟩, ?histories, ?optimizations⟩
  case consistent =>
    constructor
    case provisioners_keyed => exact hprovisioners
    case providers_keyed => exact hproviders
    case machines_keyed => exact hmachines ▸ hc.machines_keyed
    case machines_unique => exact hmachines ▸ hc.machines_unique
    case machines_fresh => exact hmachines ▸ fun m hm => (hc.machines_fresh m hm).trans_le hnext
    case metrics_keyed => exact fun scope => hmetrics scope ▸ hc.metrics_keyed scope
    case metrics_unique => exact fun scope => hmetrics scope ▸ hc.metrics_unique scope
    case metrics_fresh => exact fun scope => hmetrics scope ▸ fun r hr => (hc.metrics_fresh scope r hr).trans_le hnext
    case optimizations_keyed => exact hoptimizations ▸ hc.optimizations_keyed
    case optimizations_unique => exact hoptimizations ▸ hc.optimizations_unique
    case optimizations_fresh => exact hoptimizations ▸ fun r hr => (hc.optimizations_fresh r hr).trans_le hnext
    case applications_keyed => exact happlications.keyed
  case machines => exact hmachines ▸ h.machines
  case histories =>
    rw [hhistory, hmachines]
    exact h.histories
  case optimizations =>
    rw [hoptimizations, hmachines]
    exact h.optimizations

/-- The tables of the connectors are written, and keys are taken. -/
theorem frame (h : db.Kept U) (hprovisioners : Table.Keyed db'.provisioners) (hproviders : Table.Keyed db'.providers)
    (hmachines : db'.machines = db.machines) (hhistory : db'.flavorHistory = db.flavorHistory)
    (hmetrics : ∀ scope, db'.metrics scope = db.metrics scope) (hoptimizations : db'.optimizations = db.optimizations)
    (happlications : db'.applications = db.applications) (hnext : db.nextId ≤ db'.nextId) : db'.Kept U := by
  refine h.rewrite hprovisioners hproviders hmachines hhistory hmetrics hoptimizations hnext ?_ (happlications ▸ h.keys)
  constructor
  · exact happlications ▸ h.applications.keyed
  · exact happlications ▸ fun a ha => (h.applications.fresh a ha).trans_le hnext
  · exact happlications ▸ h.applications.unique

/-- The applications are written. -/
theorem withApplications (h : db.Kept U) {applications : List Application} {nextId : Nat} (hnext : db.nextId ≤ nextId)
    (hstored : ApplicationsStored { db with applications, nextId }) (hkeys : ∀ a ∈ applications, a.Canonical U) :
    Database.Kept U { db with applications, nextId } :=
  h.rewrite h.consistent.provisioners_keyed h.consistent.providers_keyed rfl rfl
    (fun scope => by cases scope <;> rfl) rfl hnext hstored hkeys

/-- Columns of the applications are written that belong to no key. -/
theorem mapApplications (h : db.Kept U) {f : Application → Application}
    (hf : ∀ a, (f a).id = a.id ∧ (f a).key = a.key) :
    Database.Kept U { db with applications := db.applications.map f } := by
  have hcolumns : ∀ a, a.Canonical U → (f a).Canonical U := by
    intro a ha
    obtain ⟨hname, hrest⟩ := Prod.mk.inj (hf a).2
    obtain ⟨henvironment, hregion⟩ := Prod.mk.inj hrest
    exact ⟨hname ▸ ha.name, henvironment ▸ ha.environment, hregion ▸ ha.region⟩
  refine h.withApplications le_rfl ⟨?_, fun a' ha' => ?_, ?_⟩ fun a' ha' => ?_
  · have hids : Table.ids (db.applications.map f) = Table.ids db.applications := by
      simp only [Table.ids, List.map_map]
      exact List.map_congr_left fun a _ => (hf a).1
    unfold Table.Keyed
    exact hids ▸ h.applications.keyed
  · obtain ⟨a, ha, rfl⟩ := List.mem_map.mp ha'
    exact (hf a).1 ▸ h.applications.fresh a ha
  · have hkeys : (db.applications.map f).map Application.key = db.applications.map Application.key := by
      rw [List.map_map]
      exact List.map_congr_left fun a _ => (hf a).2
    exact hkeys ▸ h.applications.unique
  · obtain ⟨a, ha, rfl⟩ := List.mem_map.mp ha'
    exact hcolumns a (h.keys a ha)

/-- Applications are deleted. -/
theorem filterApplications (h : db.Kept U) (q : Application → Bool) :
    Database.Kept U { db with applications := db.applications.filter q } :=
  h.withApplications le_rfl
    ⟨h.applications.keyed.sublist (List.filter_sublist.map _),
      fun a ha => h.applications.fresh a (List.mem_of_mem_filter ha),
      h.applications.unique.sublist (List.filter_sublist.map _)⟩
    fun a ha => h.keys a (List.mem_of_mem_filter ha)

/-- The applications are rebuilt. -/
theorem rebuild (h : db.Kept U) : (rebuildApplicationsFromMachines U db).1.Kept U := by
  have hmake : ∀ i, ∀ k ∈ orderBy keyLe (applicationSnapshot U db.machines), (newApplication U i k).Canonical U :=
    fun i k hk => newApplication_canonical i (mem_orderBy.mp hk)
  refine h.withApplications (Nat.le_add_right _ _) ⟨rebuilt_keyed h.applications.keyed h.applications.fresh, ?_,
    rebuilt_nodup h.applications.unique⟩ ?_
  · intro a ha
    obtain ha | ha := List.mem_append.mp ha
    · exact (h.applications.fresh a (List.mem_of_mem_filter ha)).trans_le (Nat.le_add_right _ _)
    · have hids : ∀ i k, Application.id (newApplication U i k) = i := fun _ _ => rfl
      have hid := List.mem_map_of_mem (f := Application.id) ha
      rw [makeRows_ids hids] at hid
      exact (List.mem_range'_1.mp hid).2
  · intro a ha
    obtain ha | ha := List.mem_append.mp ha
    · exact h.keys a (List.mem_of_mem_filter ha)
    · obtain ⟨i, k, hk, rfl⟩ := mem_makeRows ha
      exact hmake i k (List.mem_of_mem_filter hk)

end Database.Kept

/-! ## Requests -/

section Request

variable {U : Unicode} {s s' : Store}

/-- A statement of a request. -/
theorem Database.Kept.statement (h : s.toDatabase.Kept U) (hi : s.Intact) {statement : Statement}
    (hrun : statement.run s = .ok s') : s'.toDatabase.Kept U := by
  by_cases hdeletes : statement.Deletes
  · have hdeleted : ∀ {s₀ : Store}, s.toDatabase.Thins s₀.toDatabase → s₀.cascade.toDatabase.Kept U :=
      fun ht => (h.thins ht).cascade
    have hsame := Database.Thins.refl s.toDatabase
    cases statement with
    | deletePlatform id =>
      cases hrun
      exact hdeleted hsame
    | deleteProvider id provisionerIds =>
      simp only [Statement.run] at hrun
      split_ifs at hrun
      cases hrun
      exact hdeleted { hsame with providers := List.filter_sublist.map _ }
    | deleteProvisioner id =>
      cases hrun
      exact hdeleted { hsame with provisioners := List.filter_sublist.map _ }
    | deleteMachine id =>
      cases hrun
      exact hdeleted
        { hsame with
          machineIds := List.filter_sublist.map _
          machines := fun m hm => ⟨m, List.mem_of_mem_filter hm, _, fun _ hi => hi, rfl⟩ }
    | _ => exact hdeletes.elim
  · have hran := Statement.run_cases hrun
    have hnumbered := (hi.ran hran).toNumbered
    have hframe : s'.machines = s.machines ∧ s'.flavorHistory = s.flavorHistory ∧
        (∀ scope, s'.metrics scope = s.metrics scope) ∧ s'.optimizations = s.optimizations ∧
        s'.applications = s.applications ∧ s.nextId ≤ s'.nextId := by
      cases hran with
      | deleted _ deletes => exact absurd deletes hdeletes
      | platformInserted | providerInserted | provisionerInserted =>
        exact ⟨rfl, rfl, fun scope => by cases scope <;> rfl, rfl, rfl, Nat.le_succ _⟩
      | platformUpdated | providerUpdated | provisionerUpdated | attached | detached =>
        exact ⟨rfl, rfl, fun scope => by cases scope <;> rfl, rfl, rfl, le_rfl⟩
    obtain ⟨hmachines, hhistory, hmetrics, hoptimizations, happlications, hnext⟩ := hframe
    exact h.frame hnumbered.provisioners.keyed hnumbered.providers.keyed hmachines hhistory hmetrics hoptimizations
      happlications hnext

/-- A request, whatever the answer is. -/
theorem Database.Kept.request (h : s.toDatabase.Kept U) (hi : s.Intact) (api : ApiEnv) (request : Request) :
    (request.handle api s).1.toDatabase.Kept U := by
  obtain ⟨e, hhandle⟩ | ⟨plan, s', -, hcommit, hhandle⟩ := request.handle_cases api s
  · rw [hhandle]
    exact h
  · rw [hhandle]
    obtain ⟨-, rfl⟩ | ⟨statement, -, hexecute⟩ := Plan.commit_cases hcommit
    · exact h
    · unfold Statement.execute at hexecute
      split_ifs at hexecute
      exact h.statement hi hexecute

end Request

end Washing
