import Washing.Api.Answers
import Washing.Inventory.Placement
import Washing.Lib.Schedule
import Washing.Metrics.Placement
import Washing.Operations

/-!
# Platform membership

Attached providers and provisioners are on one platform, and machines are on the platform of their source (`Placed`). No
constraint of the database says so: the routes check it on the rows that they load, and the inventory relies on it for
the machines that it matches. `Sound` is what all operations preserve together: membership, the references, and the
validity of the stored cron expressions, on which the answers depend.
-/

namespace Washing

/-- Providers are on the platform of their provisioners, and machines on the platform of their source. -/
structure Store.Placed (s : Store) : Prop where
  attached : ∀ p ∈ s.providers, ∀ q ∈ s.provisionersOf p, q.platformId = p.platformId
  placed : ∀ m ∈ s.machines, ∀ q ∈ s.provisioners, m.sourceProvisionerId = some q.id → m.platformId = q.platformId

/-- What all operations preserve. -/
structure Store.Sound (env : ApiEnv) (s : Store) : Prop extends s.Intact, s.Placed where
  crons : ∀ q ∈ s.provisioners, q.Valid env

namespace Store

variable {env : ApiEnv} {s s' : Store}

theorem sound_empty (env : ApiEnv) : empty.Sound env where
  toIntact := intact_empty
  attached := fun _ h => absurd h List.not_mem_nil
  placed := fun _ h => absurd h List.not_mem_nil
  crons := fun _ h => absurd h List.not_mem_nil

theorem Sound.sourced (h : s.Sound env) {m : Machine} (hm : m ∈ s.machines) : Sourced s.provisioners m := by
  intro i hi
  obtain ⟨q, hq, rfl⟩ := Table.mem_ids.mp (h.sources m hm i hi)
  exact ⟨q, hq, rfl, (h.placed m hm q hq hi).symm⟩

/-- Attached rows, by their keys. -/
theorem Placed.platform (h : s.Placed) {p : MachineProvider} {q : MachineProvisioner} (hp : p ∈ s.providers)
    (hq : q ∈ s.provisioners) (ha : ⟨p.id, q.id⟩ ∈ s.attachments) : q.platformId = p.platformId :=
  h.attached p hp q (mem_provisionersOf.mpr ⟨hq, ha⟩)

/-! ## Statements -/

/-- A new provider is on the platform of the provisioners that it is attached to. -/
theorem Sound.insertProvider (h : s.Sound env) {v : ProviderColumns} {ids : List Nat}
    (hc : (Statement.insertProvider v ids).Checked env s) (hs' : s' = { s with
      providers := s.providers ++ [v.row s.nextId]
      attachments := s.attachments ++ ids.map (⟨s.nextId, ·⟩)
      nextId := s.nextId + 1 }) : s'.Placed := by
  subst hs'
  refine ⟨fun p hp q hq => ?_, h.placed⟩
  obtain ⟨hq, ha⟩ := mem_provisionersOf.mp hq
  have hnew : ∀ a ∈ s.attachments, a.providerId ≠ s.nextId := by
    intro a ha hid
    obtain ⟨p', hp', hid'⟩ := Table.mem_ids.mp (h.attachments a ha).1
    exact (h.providers.fresh p' hp').ne (hid'.trans hid)
  obtain hp | hp := List.mem_append.mp hp <;> obtain ha | ha := List.mem_append.mp ha
  · exact h.platform hp hq ha
  · obtain ⟨i, -, heq⟩ := List.mem_map.mp ha
    obtain ⟨hid, -⟩ := MachineProviderProvisioner.mk.inj heq
    exact absurd hid.symm (h.providers.fresh p hp).ne
  · rw [List.mem_singleton.mp hp] at ha
    exact absurd rfl (hnew _ ha)
  · obtain ⟨i, hi, heq⟩ := List.mem_map.mp ha
    obtain ⟨-, rfl⟩ := MachineProviderProvisioner.mk.inj heq
    obtain ⟨q', hget, hplatform, -⟩ := hc q.id hi
    cases (Table.get_of_mem h.provisioners.keyed hq).symm.trans hget
    rw [hplatform, List.mem_singleton.mp hp]
    rfl

/-- An updated provider stays on the platform of its provisioners. -/
theorem Sound.updateProvider (h : s.Sound env) {id : Nat} {c : ProviderChanges} {p r : MachineProvider}
    (hc : (Statement.updateProvider id c).Checked env s) (hp : Table.get s.providers id = some p)
    (hr : c.update p = some r) : Placed { s with providers := Table.modify s.providers id fun _ => r } := by
  refine ⟨fun p' hp' q hq => ?_, h.placed⟩
  obtain ⟨hq, ha⟩ := mem_provisionersOf.mp hq
  obtain rfl | ⟨hold, -⟩ := Table.mem_replace hp'
  · obtain ⟨_, hget, hmove, -⟩ := hc
    cases hp.symm.trans hget
    obtain ⟨hid, -, hplatform, -⟩ := ProviderChanges.update_some hr
    have hattached : q ∈ s.provisionersOf p := mem_provisionersOf.mpr ⟨hq, hid ▸ ha⟩
    cases hpatch : c.platformId with
    | unset =>
      rw [hpatch] at hplatform
      rw [← Option.some.inj hplatform]
      exact h.attached p (Table.get_some hp).1 q hattached
    | null => simp [hpatch, Patch.assign] at hplatform
    | value target =>
      rw [hpatch] at hplatform
      rw [← Option.some.inj hplatform]
      exact hmove target hpatch q hattached
  · exact h.platform hold hq ha

/-- An updated provisioner stays on the platform of its providers and machines. -/
theorem Sound.updateProvisioner (h : s.Sound env) {id : Nat} {c : ProvisionerChanges} {q r : MachineProvisioner}
    (hc : (Statement.updateProvisioner id c).Checked env s) (hq : Table.get s.provisioners id = some q)
    (hr : c.update q = some r) : Placed { s with provisioners := Table.modify s.provisioners id fun _ => r } := by
  obtain ⟨_, hget, hmove, -⟩ := hc
  cases hq.symm.trans hget
  obtain ⟨hid, -, hplatform, -⟩ := ProvisionerChanges.update_some hr
  have hmem := (Table.get_some hq).1
  constructor
  case attached =>
    intro p hp q' hq'
    obtain ⟨hq', ha⟩ := mem_provisionersOf.mp hq'
    obtain rfl | ⟨hold, -⟩ := Table.mem_replace hq'
    · rw [hid] at ha
      cases hpatch : c.platformId with
      | unset =>
        rw [hpatch] at hplatform
        rw [← Option.some.inj hplatform]
        exact h.platform hp hmem ha
      | null => simp [hpatch, Patch.assign] at hplatform
      | value target =>
        rw [hpatch] at hplatform
        rw [← Option.some.inj hplatform]
        exact ((hmove target hpatch).2 p (mem_providersOf.mpr ⟨hp, ha⟩)).symm
    · exact h.platform hp hold ha
  case placed =>
    intro m hm q' hq' hsource
    obtain rfl | ⟨hold, -⟩ := Table.mem_replace hq'
    · rw [hid] at hsource
      cases hpatch : c.platformId with
      | unset =>
        rw [hpatch] at hplatform
        rw [← Option.some.inj hplatform]
        exact h.placed m hm q hmem hsource
      | null => simp [hpatch, Patch.assign] at hplatform
      | value target => exact absurd hsource ((hmove target hpatch).1 m hm)
    · exact h.placed m hm q' hold hsource

/-- Deletions keep the rows that are left where they are. -/
theorem Sound.shrinks (h : s.Sound env) (hs : s.Shrinks s') : s'.cascade.Placed := by
  have hs := hs.cascade
  constructor
  case attached =>
    intro p hp q hq
    obtain ⟨hq, ha⟩ := mem_provisionersOf.mp hq
    exact h.platform (hs.providers.subset hp) (hs.provisioners.subset hq) (hs.attachments.subset ha)
  case placed =>
    intro m' hm' q hq hsource
    obtain ⟨m, hm, -, hplatform, hkept⟩ := hs.machines m' hm'
    rw [hplatform]
    exact h.placed m hm q (hs.provisioners.subset hq) (hkept q.id hsource)

/-- A checked statement keeps providers, provisioners and machines placed. -/
theorem Sound.placed_ran {statement : Statement} (h : s.Sound env) (hc : statement.Checked env s)
    (hran : statement.Ran s s') : s'.Placed := by
  cases hran with
  | platformInserted => exact ⟨h.attached, h.placed⟩
  | platformUpdated => exact ⟨h.attached, h.placed⟩
  | providerInserted v ids => exact h.insertProvider hc rfl
  | providerUpdated id c p r stored updated => exact h.updateProvider hc stored updated
  | provisionerInserted v =>
    have hnew : ∀ i ∈ Table.ids s.provisioners, i ≠ s.nextId := by
      intro i hi hid
      obtain ⟨q, hq, rfl⟩ := Table.mem_ids.mp hi
      exact (h.provisioners.fresh q hq).ne hid
    refine ⟨fun p hp q hq => ?_, fun m hm q hq hsource => ?_⟩
    · obtain ⟨hq, ha⟩ := mem_provisionersOf.mp hq
      obtain hq | hq := List.mem_append.mp hq
      · exact h.platform hp hq ha
      · have hid := hnew _ (h.attachments _ ha).2
        rw [List.mem_singleton.mp hq] at hid
        exact absurd rfl hid
    · obtain hq | hq := List.mem_append.mp hq
      · exact h.placed m hm q hq hsource
      · have hid := hnew _ (h.sources m hm q.id hsource)
        rw [List.mem_singleton.mp hq] at hid
        exact absurd rfl hid
  | provisionerUpdated id c q r stored updated => exact h.updateProvisioner hc stored updated
  | attached pair accepted =>
    obtain ⟨p₀, q₀, hp₀, hq₀, hplatform, -⟩ := hc
    refine ⟨fun p hp q hq => ?_, h.placed⟩
    obtain ⟨hq, ha⟩ := mem_provisionersOf.mp hq
    obtain ha | ha := List.mem_append.mp ha
    · exact h.platform hp hq ha
    · cases List.mem_singleton.mp ha
      cases (Table.get_of_mem h.providers.keyed hp).symm.trans hp₀
      cases (Table.get_of_mem h.provisioners.keyed hq).symm.trans hq₀
      exact hplatform
  | detached pair =>
    refine ⟨fun p hp q hq => ?_, h.placed⟩
    obtain ⟨hq, ha⟩ := mem_provisionersOf.mp hq
    exact h.platform hp hq (List.mem_of_mem_filter ha)
  | deleted _ _ s' shrinks => exact h.shrinks shrinks

theorem Sound.ran {statement : Statement} (hdefault : env.cronIsValid defaultCron) (h : s.Sound env)
    (hc : statement.Checked env s) (hran : statement.Ran s s') : s'.Sound env :=
  { h.toIntact.ran hran, h.placed_ran hc hran with crons := provisioners_valid_ran hdefault h.crons hc hran }

end Store

/-! ## Operations -/

section Operations

variable {env : ApiEnv} {s : Store}

/-- The commit of a plan that was made from the committed rows. -/
theorem Store.Sound.commit (hdefault : env.cronIsValid defaultCron) (h : s.Sound env) {request : Request} {plan : Plan}
    (hplan : request.plan env s = .ok plan) {s' : Store} (hcommit : plan.commit env.storable s = .ok s') :
    s'.Sound env := by
  obtain ⟨-, rfl⟩ | ⟨statement, hstatement, hexecute⟩ := Plan.commit_cases hcommit
  · exact h
  · exact h.ran hdefault (plan_checked hplan statement hstatement) (Statement.execute_cases hexecute)

theorem Store.Sound.request (hdefault : env.cronIsValid defaultCron) (h : s.Sound env) (request : Request) :
    (request.handle env s).1.Sound env := by
  obtain ⟨e, hhandle⟩ | ⟨plan, s', hplan, hcommit, hhandle⟩ := request.handle_cases env s
  · exact hhandle ▸ h
  · exact hhandle ▸ h.commit hdefault hplan hcommit

/-- An error of a committed request is about a platform, and nothing else was written. -/
theorem Store.Sound.request_error (hdefault : env.cronIsValid defaultCron) (h : s.Sound env) {request : Request}
    {e : HttpException} (herror : (request.handle env s).2 = .error e) :
    s.SameConnectors (request.handle env s).1 := by
  obtain ⟨e', hhandle⟩ | ⟨plan, s', hplan, hcommit, hhandle⟩ := request.handle_cases env s
  · rw [hhandle]
    exact ⟨rfl, rfl, rfl, rfl⟩
  · rw [hhandle] at herror ⊢
    have hshown : plan.Shown env.storable s := plan_shown h.toNumbered hplan
    by_cases hview : ∃ id, plan.view = .platform id
    · obtain ⟨id, hid⟩ := hview
      exact hshown.platform id hid s' hcommit
    · obtain ⟨body, hbody⟩ := respond_ok (hshown.stored s' hcommit) (fun id hid => absurd ⟨id, hid⟩ hview)
        (h.commit hdefault hplan hcommit).crons
      exact absurd (herror.symm.trans hbody) nofun

/-- An inventory run finds the machines placed, and leaves them placed. -/
theorem Store.Sound.inventory (h : s.Sound env) {db : Database} (hrun : Inventoried s.toDatabase db) :
    Store.Sound env { s with toDatabase := db } where
  platforms := h.platforms.mono hrun.next_le
  providers := by
    show Table.Numbered db.providers db.nextId
    rw [hrun.providers]
    exact h.providers.mono hrun.next_le
  provisioners := (h.provisioners.of_ids hrun.ids_provisioners).mono hrun.next_le
  machines := hrun.numbered
  attachments := by
    show ∀ a ∈ db.attachments, a.providerId ∈ Table.ids db.providers ∧ a.provisionerId ∈ Table.ids db.provisioners
    rw [hrun.attachments, hrun.providers, hrun.ids_provisioners]
    exact h.attachments
  sources := by
    intro m hm i hi
    obtain ⟨q, hq, rfl, -⟩ := hrun.sourced m hm i hi
    exact Table.mem_ids.mpr ⟨q, hq, rfl⟩
  samples := by
    intro scope r hr
    obtain ⟨hprovider, hmachine⟩ := h.samples scope r (hrun.metrics scope ▸ hr)
    obtain ⟨m, hm, hid⟩ := Table.mem_ids.mp hmachine
    obtain ⟨m', hm', hid', -⟩ := hrun.kept m hm
    show r.providerId ∈ Table.ids db.providers ∧ r.machineId ∈ Table.ids db.machines
    rw [hrun.providers]
    exact ⟨hprovider, Table.mem_ids.mpr ⟨m', hm', hid'.trans hid⟩⟩
  attached := by
    intro p hp q hq
    obtain ⟨hq, ha⟩ := mem_provisionersOf.mp hq
    obtain ⟨q₀, hq₀, hbare⟩ := Table.exists_of_map_eq hrun.provisioners.symm hq
    obtain ⟨hid, hplatform, -⟩ := MachineProvisioner.of_bare hbare
    rw [← hplatform]
    exact h.platform (hrun.providers ▸ hp : p ∈ s.providers) hq₀ (hid ▸ hrun.attachments ▸ ha)
  placed := fun m hm q hq hsource =>
    (hrun.sourced m hm).platform (h.provisioners.of_ids hrun.ids_provisioners).keyed hq hsource
  crons := by
    intro q hq
    obtain ⟨q₀, hq₀, hbare⟩ := Table.exists_of_map_eq hrun.provisioners.symm hq
    obtain ⟨-, -, hcron⟩ := MachineProvisioner.of_bare hbare
    exact (congrArg env.cronIsValid hcron).symm.trans (h.crons q₀ hq₀)

/-- A collection writes samples of stored machines. -/
theorem Store.Sound.collection (h : s.Sound env) {collect : MetricCollector} {db : Database}
    (hrun : Sampled collect s.toDatabase db) : Store.Sound env { s with toDatabase := db } where
  platforms := h.platforms.mono hrun.next_le
  providers := (h.providers.of_ids hrun.ids_providers).mono hrun.next_le
  provisioners := by
    show Table.Numbered db.provisioners db.nextId
    rw [hrun.provisioners]
    exact h.provisioners.mono hrun.next_le
  machines := by
    show Table.Numbered db.machines db.nextId
    rw [hrun.machines]
    exact h.machines.mono hrun.next_le
  attachments := by
    show ∀ a ∈ db.attachments, a.providerId ∈ Table.ids db.providers ∧ a.provisionerId ∈ Table.ids db.provisioners
    rw [hrun.attachments, hrun.provisioners, hrun.ids_providers]
    exact h.attachments
  sources := by
    show ∀ m ∈ db.machines, ∀ i ∈ m.sourceProvisionerId, i ∈ Table.ids db.provisioners
    rw [hrun.machines, hrun.provisioners]
    exact h.sources
  samples := by
    intro scope r hr
    show r.providerId ∈ Table.ids db.providers ∧ r.machineId ∈ Table.ids db.machines
    rw [hrun.ids_providers, hrun.machines]
    obtain ⟨r₀, hr₀, hprovider, hmachine⟩ | ⟨p, hp, m, -, -, hprovider, hmachine, -⟩ := hrun.samples scope r hr
    · rw [hprovider, hmachine]
      exact h.samples scope r₀ hr₀
    · exact ⟨Table.mem_ids.mpr ⟨p, hp, hprovider.symm⟩, hmachine⟩
  attached := by
    intro p hp q hq
    obtain ⟨hq, ha⟩ := mem_provisionersOf.mp hq
    obtain ⟨p₀, hp₀, hbare⟩ := Table.exists_of_map_eq hrun.providers.symm hp
    obtain ⟨hid, hplatform⟩ := MachineProvider.of_bare hbare
    rw [← hplatform]
    exact h.platform hp₀ (hrun.provisioners ▸ hq : q ∈ s.provisioners) (hid ▸ hrun.attachments ▸ ha)
  placed := by
    show ∀ m ∈ db.machines, ∀ q ∈ db.provisioners, m.sourceProvisionerId = some q.id → m.platformId = q.platformId
    rw [hrun.machines, hrun.provisioners]
    exact h.placed
  crons := by
    show ∀ q ∈ db.provisioners, q.Valid env
    rw [hrun.provisioners]
    exact h.crons

theorem Store.Sound.operation (hdefault : env.cronIsValid defaultCron) (h : s.Sound env) (operation : Operation) :
    (operation.run env s).Sound env := by
  cases operation with
  | request r => exact h.request hdefault r
  | inventory run mock id =>
    exact h.inventory (run_inventoried run mock h.machines h.provisioners.keyed (fun m hm => h.sourced hm) 0 id)
  | collection run providerId machineId => exact h.collection (collection_sampled run s.toDatabase providerId machineId)

/-- Operations that start without rows keep everything sound. -/
theorem sound_operations (hdefault : env.cronIsValid defaultCron) (operations : List Operation) :
    (runOperations env .empty operations).Sound env :=
  foldl_invariant (fun _ operation hs _ => hs.operation hdefault operation) (Store.sound_empty env)
    (allSteps_true _ operations)

end Operations

/-- After any operations providers, provisioners and machines are on one platform where they belong together; a request
that is answered with an error leaves them as they are. -/
theorem membership_consistent (env : ApiEnv) (hdefault : env.cronIsValid defaultCron) (operations : List Operation) :
    (runOperations env .empty operations).Placed ∧ ∀ (request : Request) (e : HttpException),
      (request.handle env (runOperations env .empty operations)).2 = .error e →
      (runOperations env .empty operations).SameConnectors
        (request.handle env (runOperations env .empty operations)).1 := by
  have hsound := sound_operations hdefault operations
  exact ⟨hsound.toPlaced, fun request e herror => hsound.request_error hdefault herror⟩

/-- A platform with an attached provider and provisioner, and a machine that the provisioner discovers. -/
def smallOperations : List Operation :=
  [.request (.createPlatform { name := "north" }),
    .request (.createMockProvisioner { platformId := 1, name := "inventory" }),
    .request (.enableProvisioner 2),
    .request (.createMockProvider { platformId := 1, name := "metrics", scope := .cpu }),
    .request (.attachProviderProvisioner 3 2),
    .inventory smallEnv (fun _ => .ok [smallRecord "a" "H1"]) 2]

theorem membership_consistent_small : let s := runOperations smallApi .empty smallOperations
    s.attachments.length = 1 ∧ s.machines.length = 1 ∧ s.Placed ∧ ∀ (request : Request) (e : HttpException),
      (request.handle smallApi s).2 = .error e → s.SameConnectors (request.handle smallApi s).1 :=
  ⟨by decide +kernel, by decide +kernel, membership_consistent smallApi rfl smallOperations⟩

end Washing
