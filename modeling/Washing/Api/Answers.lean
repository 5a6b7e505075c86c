import Washing.Api.Checked

/-!
# What is read back

A request that committed is answered with a representation of the row it wrote. The row is there (`plan_shown`), so
that the answer is an error only if the read model refuses the row (`respond_ok`).
-/

namespace Washing

open Resources Routes

/-! ## Read models -/

/-- `PlatformRead` accepts the row. -/
def Platform.Valid (env : ApiEnv) (p : Platform) : Prop := env.unicode.strip p.name ≠ "" ∧ p.extra ≠ none

/-- `ProvisionerRead` accepts the row. -/
def MachineProvisioner.Valid (env : ApiEnv) (q : MachineProvisioner) : Prop := env.cronIsValid q.cron

instance (env : ApiEnv) (p : Platform) : Decidable (p.Valid env) := inferInstanceAs (Decidable (_ ∧ _))
instance (env : ApiEnv) (q : MachineProvisioner) : Decidable (q.Valid env) := inferInstanceAs (Decidable (_ = _))

theorem platformRead_ok_iff {env : ApiEnv} {p : Platform} :
    (∃ read, PlatformRead.modelValidate env p = .ok read) ↔ p.Valid env := by
  unfold PlatformRead.modelValidate Platform.Valid
  by_cases hname : env.unicode.strip p.name = ""
  · simp [hname]
  · cases p.extra <;> simp [hname]

theorem provisionerRead_ok_iff {env : ApiEnv} {q : MachineProvisioner} :
    (∃ read, ProvisionerRead.modelValidate env q = .ok read) ↔ q.Valid env := by
  unfold ProvisionerRead.modelValidate MachineProvisioner.Valid
  split_ifs with hcron <;> simp [hcron]

/-- A checked statement keeps the stored cron expressions valid. -/
theorem provisioners_valid_ran {env : ApiEnv} {s s' : Store} {statement : Statement}
    (hdefault : env.cronIsValid defaultCron) (h : ∀ q ∈ s.provisioners, q.Valid env) (hc : statement.Checked env s)
    (hran : statement.Ran s s') : ∀ q ∈ s'.provisioners, q.Valid env := by
  cases hran with
  | platformInserted => exact h
  | platformUpdated => exact h
  | providerInserted => exact h
  | providerUpdated => exact h
  | provisionerInserted v =>
    intro q hq
    obtain hq | hq := List.mem_append.mp hq
    · exact h q hq
    · rw [List.mem_singleton.mp hq]
      cases hc with
      | inl hcron => exact (congrArg env.cronIsValid hcron).trans hdefault
      | inr hvalid => exact hvalid
  | provisionerUpdated id c q r stored updated =>
    intro q' hq'
    obtain rfl | ⟨hold, -⟩ := Table.mem_replace hq'
    · obtain ⟨_, -, -, hcron⟩ := hc
      obtain ⟨-, -, -, -, hassign⟩ := ProvisionerChanges.update_some updated
      cases hpatch : c.cron with
      | unset =>
        rw [hpatch] at hassign
        exact (congrArg env.cronIsValid (Option.some.inj hassign)).symm.trans (h q (Table.get_some stored).1)
      | null => simp [hpatch, Patch.assign] at hassign
      | value text =>
        rw [hpatch] at hassign
        exact (congrArg env.cronIsValid (Option.some.inj hassign)).symm.trans (hcron text hpatch)
    · exact h q' hold
  | attached => exact h
  | detached => exact h
  | deleted _ _ s' shrinks => exact fun q hq => h q (shrinks.cascade.provisioners.subset hq)

/-- A checked statement keeps the stored platforms valid, unless it sets `extra` to `null`. -/
theorem platforms_valid_ran {env : ApiEnv} {s s' : Store} {statement : Statement} (h : ∀ p ∈ s.platforms, p.Valid env)
    (hc : statement.Checked env s) (hextra : ∀ id c, statement = .updatePlatform id c → c.extra ≠ .null)
    (hran : statement.Ran s s') : ∀ p ∈ s'.platforms, p.Valid env := by
  cases hran with
  | platformInserted name description extra =>
    intro p hp
    obtain hp | hp := List.mem_append.mp hp
    · exact h p hp
    · rw [List.mem_singleton.mp hp]
      exact ⟨fun hblank => hc.2 (hc.1.symm.trans hblank), nofun⟩
  | platformUpdated id c =>
    intro p hp
    obtain ⟨p₀, hp₀, rfl⟩ := Table.mem_modify.mp hp
    obtain ⟨hname, hobject⟩ := h p₀ hp₀
    split_ifs
    · refine ⟨hname, ?_⟩
      have hset := hextra id c rfl
      cases hpatch : c.extra with
      | unset => simpa [PlatformChanges.update, hpatch, Patch.assignNullable] using hobject
      | null => exact absurd hpatch hset
      | value json => simp [PlatformChanges.update, hpatch, Patch.assignNullable]
    · exact ⟨hname, hobject⟩
  | providerInserted | providerUpdated | provisionerInserted | provisionerUpdated | attached | detached => exact h
  | deleted _ _ s' shrinks => exact fun p hp => h p (shrinks.cascade.platforms.subset hp)

/-! ## Views -/

/-- The row that a representation is read from is stored. -/
def View.Stored (s : Store) : View → Prop
  | platform id => ∃ p, Table.get s.platforms id = some p
  | provider id | prometheusProvider id | dynatraceProvider id => ∃ p, Table.get s.providers id = some p
  | mockProvider id => ∃ p, Table.get s.providers id = some p ∧ p.type = "mock_metric"
  | provisioner id | capsuleProvisioner id | dynatraceProvisioner id | mockProvisioner id =>
    ∃ q, Table.get s.provisioners id = some q
  | noContent => True

/-- A representation of a provider. -/
def View.OfProvider (id : Nat) (type : String) : View → Prop
  | provider i | prometheusProvider i | dynatraceProvider i => i = id
  | mockProvider i => i = id ∧ type = "mock_metric"
  | _ => False

/-- A representation of a provisioner. -/
def View.OfProvisioner (id : Nat) : View → Prop
  | provisioner i | capsuleProvisioner i | dynatraceProvisioner i | mockProvisioner i => i = id
  | _ => False

theorem View.OfProvider.stored {s : Store} {id : Nat} {view : View} {p : MachineProvider}
    (h : view.OfProvider id p.type) (hp : Table.get s.providers id = some p) : view.Stored s := by
  cases view with
  | provider i | prometheusProvider i | dynatraceProvider i => exact ⟨p, h ▸ hp⟩
  | mockProvider i => exact ⟨p, h.1 ▸ hp, h.2⟩
  | platform _ | provisioner _ | capsuleProvisioner _ | dynatraceProvisioner _ | mockProvisioner _ | noContent =>
    exact h.elim

theorem View.OfProvisioner.stored {s : Store} {id : Nat} {view : View} {q : MachineProvisioner}
    (h : view.OfProvisioner id) (hq : Table.get s.provisioners id = some q) : view.Stored s := by
  cases view with
  | provisioner i | capsuleProvisioner i | dynatraceProvisioner i | mockProvisioner i => exact ⟨q, h ▸ hq⟩
  | platform _ | provider _ | prometheusProvider _ | dynatraceProvider _ | mockProvider _ | noContent => exact h.elim

theorem getOr404_ok {α : Type} [Row α] {rows : List α} {id : Nat} {r : α} (h : Table.get rows id = some r)
    (detail : String) : getOr404 rows id detail = .ok r := by
  rw [getOr404, h]

/-- The representation of a stored row is read back if the read model accepts the row. -/
theorem respond_ok {env : ApiEnv} {s : Store} {view : View} (h : view.Stored s)
    (hplatforms : ∀ id, view = .platform id → ∀ p ∈ s.platforms, p.Valid env)
    (hprovisioners : ∀ q ∈ s.provisioners, q.Valid env) : ∃ body, view.respond env s = .ok body := by
  have hread : ∀ {id q}, Table.get s.provisioners id = some q →
      ∃ read, ProvisionerRead.modelValidate env q = .ok read := fun hq =>
    provisionerRead_ok_iff.mpr (hprovisioners _ (Table.get_some hq).1)
  cases view with
  | platform id =>
    obtain ⟨p, hp⟩ := h
    obtain ⟨read, hr⟩ := platformRead_ok_iff.mpr (hplatforms id rfl p (Table.get_some hp).1)
    exact ⟨.platform read, by simp [View.respond, getPlatform, getOr404_ok hp, hr, Except.map, bind, Except.bind]⟩
  | provider id =>
    obtain ⟨p, hp⟩ := h
    exact ⟨_, by rw [View.respond, getProvider, Routes.loadProvider, getOr404_ok hp]; rfl⟩
  | prometheusProvider id | dynatraceProvider id =>
    obtain ⟨p, hp⟩ := h
    exact ⟨_, by rw [View.respond, Routes.loadProvider, getOr404_ok hp]; rfl⟩
  | mockProvider id =>
    obtain ⟨p, hp, htype⟩ := h
    refine ⟨.mockProvider (mockProviderReadModel env p), ?_⟩
    simp [View.respond, getMockProvider, loadProviderOfType, Routes.loadProvider, getOr404_ok hp, htype, Except.map,
      bind,
      Except.bind, pure, Except.pure]
  | provisioner id =>
    obtain ⟨q, hq⟩ := h
    obtain ⟨read, hr⟩ := hread hq
    exact ⟨.provisioner read, by simp [View.respond, getProvisioner, getOr404_ok hq, hr, Except.map, bind, Except.bind]⟩
  | capsuleProvisioner id | dynatraceProvisioner id | mockProvisioner id =>
    obtain ⟨q, hq⟩ := h
    obtain ⟨read, hr⟩ := hread hq
    simp [View.respond, capsuleReadModel, dynatraceProvisionerReadModel, mockReadModel, getOr404_ok hq, hr, bind,
      Except.bind, pure, Except.pure]
  | noContent => exact ⟨.noContent, rfl⟩

/-! ## Plans -/

/-- The tables of the connector graph are the same. -/
def Store.SameConnectors (s s' : Store) : Prop :=
  s'.providers = s.providers ∧ s'.provisioners = s.provisioners ∧ s'.attachments = s.attachments ∧
    s'.machines = s.machines

/-- Once it is committed, a plan reads a stored row back; a platform is read back after writes of platforms only. -/
structure Plan.Shown (storable : Storable) (s : Store) (plan : Plan) : Prop where
  stored : ∀ s', plan.commit storable s = .ok s' → plan.view.Stored s'
  platform : ∀ id, plan.view = .platform id → ∀ s', plan.commit storable s = .ok s' → s.SameConnectors s'

section Shown

variable {env : ApiEnv} {storable : Storable} {s : Store} {conflict : Option String} {view : View}

theorem shown_unchanged (h : view.Stored s) : Plan.Shown storable s ⟨none, conflict, view⟩ := by
  constructor
  case stored =>
    rintro s' ⟨⟩
    exact h
  case platform =>
    rintro id - s' ⟨⟩
    exact ⟨rfl, rfl, rfl, rfl⟩

/-- It suffices to look at the rows after the statement. -/
theorem shown_of_ran {statement : Statement} (h : ∀ s', statement.Ran s s' → view.Stored s')
    (hplatform : ∀ id, view = .platform id → ∀ s', statement.Ran s s' → s.SameConnectors s') :
    Plan.Shown storable s ⟨some statement, conflict, view⟩ := by
  have hran : ∀ s', Plan.commit storable ⟨some statement, conflict, view⟩ s = .ok s' → statement.Ran s s' := by
    intro s' hs'
    obtain ⟨hnone, -⟩ | ⟨_, hstatement, hexecute⟩ := Plan.commit_cases hs'
    · cases hnone
    · cases hstatement
      exact Statement.execute_cases hexecute
  exact ⟨fun s' hs' => h s' (hran s' hs'), fun id hid s' hs' => hplatform id hid s' (hran s' hs')⟩

/-- A statement that is emitted under a condition. -/
theorem shown_ite {c : Prop} [Decidable c] {statement : Statement} (h : view.Stored s)
    (hstatement : Plan.Shown storable s ⟨some statement, conflict, view⟩) :
    Plan.Shown storable s ⟨if c then none else some statement, conflict, view⟩ := by
  split_ifs
  · exact shown_unchanged h
  · exact hstatement

theorem shown_noContent {statement : Option Statement} : Plan.Shown storable s ⟨statement, conflict, .noContent⟩ :=
  ⟨fun _ _ => trivial, nofun⟩

theorem View.OfProvider.not_platform {id : Nat} {type : String} (h : view.OfProvider id type) (i : Nat) :
    view ≠ .platform i := by
  rintro rfl
  exact h

theorem View.OfProvisioner.not_platform {id : Nat} (h : view.OfProvisioner id) (i : Nat) : view ≠ .platform i := by
  rintro rfl
  exact h

theorem shown_insertProvider (hs : s.Numbered) {v : ProviderColumns} {ids : List Nat}
    (hview : view.OfProvider s.nextId v.type) :
    Plan.Shown storable s ⟨some (.insertProvider v ids), conflict, view⟩ := by
  refine shown_of_ran (fun s' hran => ?_) fun i hi => absurd hi (hview.not_platform i)
  cases hran with
  | providerInserted => exact View.OfProvider.stored (p := v.row s.nextId) hview (hs.providers.get_append rfl)
  | deleted _ deletes => exact deletes.elim

theorem shown_updateProvider {id : Nat} {c : ProviderChanges} {p : MachineProvider}
    (hp : Table.get s.providers id = some p) (hview : view.OfProvider id p.type) :
    Plan.Shown storable s ⟨some (.updateProvider id c), conflict, view⟩ := by
  refine shown_of_ran (fun s' hran => ?_) fun i hi => absurd hi (hview.not_platform i)
  cases hran with
  | providerUpdated _ _ p' r stored updated =>
    cases hp.symm.trans stored
    obtain ⟨hid, htype, -⟩ := ProviderChanges.update_some updated
    exact View.OfProvider.stored (htype ▸ hview) (Table.get_replace hp (hid.trans (Table.get_some hp).2))
  | deleted _ deletes => exact deletes.elim

theorem shown_insertProvisioner (hs : s.Numbered) {v : ProvisionerColumns} (hview : view.OfProvisioner s.nextId) :
    Plan.Shown storable s ⟨some (.insertProvisioner v), conflict, view⟩ := by
  refine shown_of_ran (fun s' hran => ?_) fun i hi => absurd hi (hview.not_platform i)
  cases hran with
  | provisionerInserted => exact hview.stored (hs.provisioners.get_append (r := v.row s.nextId) rfl)
  | deleted _ deletes => exact deletes.elim

theorem shown_updateProvisioner {id : Nat} {c : ProvisionerChanges} {q : MachineProvisioner}
    (hq : Table.get s.provisioners id = some q) (hview : view.OfProvisioner id) :
    Plan.Shown storable s ⟨some (.updateProvisioner id c), conflict, view⟩ := by
  refine shown_of_ran (fun s' hran => ?_) fun i hi => absurd hi (hview.not_platform i)
  cases hran with
  | provisionerUpdated _ _ q' r stored updated =>
    cases hq.symm.trans stored
    obtain ⟨hid, -⟩ := ProvisionerChanges.update_some updated
    exact hview.stored (Table.get_replace hq (hid.trans (Table.get_some hq).2))
  | deleted _ deletes => exact deletes.elim

/-! ## Plans of the routes -/

theorem ensures_type {id : Nat} {connectorType : String} :
    Ensures (loadProviderOfType s id connectorType) fun p =>
      Table.get s.providers id = some p ∧ p.type = connectorType :=
  (ensures_getOr404 _ _ _).bind fun _ hp => .guard fun htype => .ok ⟨hp, not_not.mp htype⟩

theorem createProvider_shown (hs : s.Numbered) {columns : ProviderColumns} {ids : List Nat} {view : Nat → View}
    (hview : (view s.nextId).OfProvider s.nextId columns.type) :
    Ensures (createProvider s columns ids view) (Plan.Shown storable s) :=
  .skip fun _ => .skip fun _ => .pure (shown_insertProvider hs hview)

theorem updateProvider_shown {id : Nat} {connectorType : String} {platformId : Patch Nat} {name : Patch String}
    {scope : Patch ScopeName} {change : ConnectorConfig → ConnectorConfig} (hview : view.OfProvider id connectorType) :
    Ensures (updateProvider env s id connectorType platformId name scope change view) (Plan.Shown storable s) := by
  refine ensures_type.bind fun p hp => .skip fun _ => .skip fun _ => .pure ?_
  obtain ⟨hget, rfl⟩ := hp
  exact shown_ite (hview.stored hget) (shown_updateProvider hget hview)

theorem setProviderEnabled_shown (id : Nat) (enabled : Bool) :
    Ensures (setProviderEnabled s id enabled) (Plan.Shown storable s) :=
  (ensures_getOr404 _ _ _).bind fun p hp => .pure (shown_ite ⟨p, hp⟩ (shown_updateProvider hp rfl))

theorem attachProviderProvisioner_shown (id provisionerId : Nat) :
    Ensures (attachProviderProvisioner s id provisionerId) (Plan.Shown storable s) := by
  refine (ensures_getOr404 _ _ _).bind fun p hp => .skip fun q => .guard fun _ => ?_
  split_ifs
  · exact .pure (shown_unchanged ⟨p, hp⟩)
  · exact .error _
  · refine .pure (shown_of_ran (fun s' hran => ?_) nofun)
    cases hran with
    | attached => exact ⟨p, hp⟩
    | deleted _ deletes => exact deletes.elim

theorem createProvisioner_shown (hs : s.Numbered) {columns : ProvisionerColumns} {view : Nat → View}
    (hview : (view s.nextId).OfProvisioner s.nextId) :
    Ensures (createProvisioner s columns view) (Plan.Shown storable s) :=
  .skip fun _ => .pure (shown_insertProvisioner hs hview)

theorem updateProvisioner_shown {id : Nat} {connectorType : String} {platformId : Patch Nat} {name cron : Patch String}
    {change : ConnectorConfig → Except HttpException ConnectorConfig} (hview : view.OfProvisioner id) :
    Ensures (updateProvisioner env s id connectorType platformId name cron change view) (Plan.Shown storable s) := by
  refine (ensures_loadProvisionerOfType _ _).bind fun q hq => .skip fun _ => ?_
  exact .skip fun _ => .pure (shown_ite (hview.stored hq) (shown_updateProvisioner hq hview))

theorem setProvisionerEnabled_shown (id : Nat) (enabled : Bool) :
    Ensures (setProvisionerEnabled s id enabled) (Plan.Shown storable s) :=
  (ensures_getOr404 _ _ _).bind fun q hq => .pure (shown_ite ⟨q, hq⟩ (shown_updateProvisioner hq rfl))

theorem createPlatform_shown (hs : s.Numbered) (body : PlatformCreate) :
    Ensures (createPlatform env s body) (Plan.Shown storable s) := by
  refine .skip fun payload => .pure (shown_of_ran (fun s' hran => ?_) fun _ _ s' hran => ?_)
  · cases hran with
    | platformInserted => exact ⟨_, hs.platforms.get_append rfl⟩
    | deleted _ deletes => exact deletes.elim
  · cases hran with
    | platformInserted => exact ⟨rfl, rfl, rfl, rfl⟩
    | deleted _ deletes => exact deletes.elim

theorem updatePlatform_shown (id : Nat) (body : PlatformUpdate) :
    Ensures (updatePlatform s id body) (Plan.Shown storable s) := by
  refine (ensures_getOr404 _ _ _).bind fun p hp => .pure (shown_ite ⟨p, hp⟩ ?_)
  refine shown_of_ran (fun s' hran => ?_) fun _ _ s' hran => ?_
  · cases hran with
    | platformUpdated =>
      show ∃ r, Table.get (Table.modify s.platforms id _) id = some r
      rw [Table.get_modify fun r => by rfl, hp]
      exact ⟨_, rfl⟩
    | deleted _ deletes => exact deletes.elim
  · cases hran with
    | platformUpdated => exact ⟨rfl, rfl, rfl, rfl⟩
    | deleted _ deletes => exact deletes.elim

/-- Every plan that a route accepts reads back a stored row. -/
theorem plan_shown (hs : s.Numbered) {request : Request} {plan : Plan} (h : request.plan env s = .ok plan) :
    plan.Shown storable s := by
  revert plan
  show Ensures (request.plan env s) (Plan.Shown storable s)
  cases request with
  | createPlatform body => exact createPlatform_shown hs body
  | updatePlatform id body => exact updatePlatform_shown id body
  | deletePlatform id => exact .skip fun _ => .pure shown_noContent
  | createPrometheusProvider body => exact .skip fun _ => createProvider_shown hs rfl
  | createDynatraceProvider body => exact .skip fun _ => createProvider_shown hs rfl
  | createMockProvider body => exact .skip fun _ => createProvider_shown hs ⟨rfl, rfl⟩
  | updatePrometheusProvider id body => exact .skip fun _ => updateProvider_shown rfl
  | updateDynatraceProvider id body => exact .skip fun _ => updateProvider_shown rfl
  | updateMockProvider id body => exact .skip fun _ => updateProvider_shown ⟨rfl, rfl⟩
  | enableProvider id => exact setProviderEnabled_shown id true
  | disableProvider id => exact setProviderEnabled_shown id false
  | deleteProvider id => exact .skip fun _ => .pure shown_noContent
  | attachProviderProvisioner id provisionerId => exact attachProviderProvisioner_shown id provisionerId
  | detachProviderProvisioner id provisionerId =>
    exact .skip fun _ => .skip fun _ => .guard fun _ => .pure shown_noContent
  | createCapsuleProvisioner body => exact .skip fun _ => createProvisioner_shown hs rfl
  | createDynatraceProvisioner body => exact .skip fun _ => createProvisioner_shown hs rfl
  | createMockProvisioner body =>
    exact .skip fun _ => .skip fun _ => .skip fun _ =>
      createProvisioner_shown hs rfl
  | updateCapsuleProvisioner id body => exact .skip fun _ => updateProvisioner_shown rfl
  | updateDynatraceProvisioner id body => exact .skip fun _ => updateProvisioner_shown rfl
  | updateMockProvisioner id body => exact .skip fun _ => updateProvisioner_shown rfl
  | enableProvisioner id => exact setProvisionerEnabled_shown id true
  | disableProvisioner id => exact setProvisionerEnabled_shown id false
  | deleteProvisioner id => exact .skip fun _ => .pure shown_noContent
  | deleteMachine id => exact .skip fun _ => .pure shown_noContent

end Shown

end Washing
