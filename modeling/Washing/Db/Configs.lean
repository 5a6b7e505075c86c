import Washing.Api.Requests

/-!
# Rows under a change of their configurations

`Store.mapConfig f` puts `f` over the `config` of every connector. No constraint and no check looks at this column: on
the changed rows they come to the same result, and a statement whose configurations are changed alike has the result
that is changed alike (`run_mapConfig`).
-/

namespace Washing

def MachineProvider.mapConfig (f : String → String) (p : MachineProvider) : MachineProvider :=
  { p with config := f p.config }

def MachineProvisioner.mapConfig (f : String → String) (q : MachineProvisioner) : MachineProvisioner :=
  { q with config := f q.config }

/-- Change the configurations of the connectors. -/
def Store.mapConfig (f : String → String) (s : Store) : Store :=
  { s with
    providers := s.providers.map (MachineProvider.mapConfig f)
    provisioners := s.provisioners.map (MachineProvisioner.mapConfig f) }

def Patch.map {α β : Type} (f : α → β) : Patch α → Patch β
  | .unset => .unset
  | .null => .null
  | .value a => .value (f a)

/-- Change the configurations that a statement writes. -/
def Statement.mapConfig (f : String → String) : Statement → Statement
  | insertProvider v ids => insertProvider { v with config := f v.config } ids
  | updateProvider id c => updateProvider id { c with config := c.config.map f }
  | insertProvisioner v => insertProvisioner { v with config := f v.config }
  | updateProvisioner id c => updateProvisioner id { c with config := c.config.map f }
  | statement => statement

/-! ## Rows -/

section Rows

variable (f : String → String) (s : Store)

theorem ids_mapProviders (rows : List MachineProvider) :
    Table.ids (rows.map (MachineProvider.mapConfig f)) = Table.ids rows := by
  rw [Table.ids, List.map_map]
  rfl

theorem ids_mapProvisioners (rows : List MachineProvisioner) :
    Table.ids (rows.map (MachineProvisioner.mapConfig f)) = Table.ids rows := by
  rw [Table.ids, List.map_map]
  rfl

theorem get_mapProvider (id : Nat) :
    Table.get (s.mapConfig f).providers id = (Table.get s.providers id).map (MachineProvider.mapConfig f) :=
  Table.get_map (g := MachineProvider.mapConfig f) (fun _ => rfl) s.providers id

theorem get_mapProvisioner (id : Nat) :
    Table.get (s.mapConfig f).provisioners id = (Table.get s.provisioners id).map (MachineProvisioner.mapConfig f) :=
  Table.get_map (g := MachineProvisioner.mapConfig f) (fun _ => rfl) s.provisioners id

theorem mapConfig_provisionersOf (p : MachineProvider) :
    (s.mapConfig f).provisionersOf (p.mapConfig f) = (s.provisionersOf p).map (MachineProvisioner.mapConfig f) := by
  rw [Database.provisionersOf, Database.provisionersOf, Store.mapConfig, List.filter_map]
  rfl

theorem mapConfig_providersOf (q : MachineProvisioner) :
    (s.mapConfig f).providersOf (q.mapConfig f) = (s.providersOf q).map (MachineProvider.mapConfig f) := by
  rw [Store.providersOf, Store.providersOf, Store.mapConfig, List.filter_map]
  rfl

theorem mapConfig_provisionerIds (p : MachineProvider) :
    provisionerIds (s.mapConfig f).toDatabase (p.mapConfig f) = provisionerIds s.toDatabase p := by
  rw [provisionerIds, provisionerIds, mapConfig_provisionersOf, List.map_map]
  rfl

theorem mapConfig_findProviderScopeConflict (q : MachineProvisioner) (scope : ScopeName) (providerId : Option Nat) :
    (findProviderScopeConflict (s.mapConfig f) (q.mapConfig f) scope providerId).isSome =
      (findProviderScopeConflict s q scope providerId).isSome := by
  rw [findProviderScopeConflict, findProviderScopeConflict, mapConfig_providersOf, List.find?_map, Option.isSome_map]
  rfl

theorem mapConfig_acceptsProvider (r : MachineProvider) :
    (s.mapConfig f).AcceptsProvider (r.mapConfig f) ↔ s.AcceptsProvider r := by
  simp only [Store.AcceptsProvider, Store.HasPlatform, Store.mapConfig, List.forall_mem_map]
  rfl

theorem mapConfig_acceptsProvisioner (r : MachineProvisioner) :
    (s.mapConfig f).AcceptsProvisioner (r.mapConfig f) ↔ s.AcceptsProvisioner r := by
  simp only [Store.AcceptsProvisioner, Store.HasPlatform, Store.mapConfig, List.forall_mem_map]
  rfl

theorem mapConfig_cascade : (s.mapConfig f).cascade = s.cascade.mapConfig f := by
  have hplatform : ∀ id, (s.mapConfig f).HasPlatform id = s.HasPlatform id := fun _ => rfl
  have hproviders : (s.providers.map (MachineProvider.mapConfig f)).filter (fun p => s.HasPlatform p.platformId) =
      (s.providers.filter fun p => s.HasPlatform p.platformId).map (MachineProvider.mapConfig f) := by
    rw [List.filter_map]
    rfl
  have hprovisioners : (s.provisioners.map (MachineProvisioner.mapConfig f)).filter
      (fun q => s.HasPlatform q.platformId) =
      (s.provisioners.filter fun q => s.HasPlatform q.platformId).map (MachineProvisioner.mapConfig f) := by
    rw [List.filter_map]
    rfl
  simp only [Store.cascade, hplatform]
  simp only [Store.mapConfig, hproviders, hprovisioners, ids_mapProviders, ids_mapProvisioners]

theorem mapConfig_modifyProvider (id : Nat) (r : MachineProvider) :
    (Table.modify s.providers id fun _ => r).map (MachineProvider.mapConfig f) =
      Table.modify (s.providers.map (MachineProvider.mapConfig f)) id fun _ => r.mapConfig f := by
  rw [Table.modify_map (g := MachineProvider.mapConfig f) (fun _ => rfl), Table.modify, List.map_map]
  exact List.map_congr_left fun p _ => apply_ite (MachineProvider.mapConfig f) _ _ _

theorem mapConfig_modifyProvisioner (id : Nat) (r : MachineProvisioner) :
    (Table.modify s.provisioners id fun _ => r).map (MachineProvisioner.mapConfig f) =
      Table.modify (s.provisioners.map (MachineProvisioner.mapConfig f)) id fun _ => r.mapConfig f := by
  rw [Table.modify_map (g := MachineProvisioner.mapConfig f) (fun _ => rfl), Table.modify, List.map_map]
  exact List.map_congr_left fun p _ => apply_ite (MachineProvisioner.mapConfig f) _ _ _

end Rows

/-! ## Statements -/

section Statements

variable (f : String → String)

theorem mapConfig_assign (patch : Patch String) (old : String) :
    (patch.map f).assign (f old) = (patch.assign old).map f := by
  cases patch <;> rfl

theorem mapConfig_updateProvider (c : ProviderChanges) (p : MachineProvider) :
    ({ c with config := c.config.map f } : ProviderChanges).update (p.mapConfig f) =
      (c.update p).map (MachineProvider.mapConfig f) := by
  simp only [ProviderChanges.update, MachineProvider.mapConfig, mapConfig_assign]
  cases c.platformId.assign p.platformId with
  | none => rfl
  | some platformId =>
    cases c.name.assign p.name with
    | none => rfl
    | some name =>
      cases c.scope.assign p.scope with
      | none => rfl
      | some scope =>
        cases c.config.assign p.config with
        | none => rfl
        | some config => cases c.enabled.assign p.enabled <;> rfl

theorem mapConfig_updateProvisioner (c : ProvisionerChanges) (q : MachineProvisioner) :
    ({ c with config := c.config.map f } : ProvisionerChanges).update (q.mapConfig f) =
      (c.update q).map (MachineProvisioner.mapConfig f) := by
  simp only [ProvisionerChanges.update, MachineProvisioner.mapConfig, mapConfig_assign]
  cases c.platformId.assign q.platformId with
  | none => rfl
  | some platformId =>
    cases c.name.assign q.name with
    | none => rfl
    | some name =>
      cases c.cron.assign q.cron with
      | none => rfl
      | some cron =>
        cases c.config.assign q.config with
        | none => rfl
        | some config => cases c.enabled.assign q.enabled <;> rfl

/-- A statement does to the changed rows what it does to the rows. -/
theorem run_mapConfig (s : Store) (statement : Statement) :
    (statement.mapConfig f).run (s.mapConfig f) = (statement.run s).map (Store.mapConfig f) := by
  cases statement with
  | insertPlatform name description extra =>
    simp only [Statement.mapConfig, Statement.run]
    have hplatforms : (s.mapConfig f).platforms = s.platforms := rfl
    rw [hplatforms]
    by_cases h : name ∈ s.platforms.map Platform.name
    · rw [if_pos h, if_pos h]
      rfl
    · rw [if_neg h, if_neg h]
      rfl
  | updatePlatform id c =>
    simp only [Statement.mapConfig, Statement.run]
    have hplatforms : (s.mapConfig f).platforms = s.platforms := rfl
    rw [hplatforms]
    by_cases h : id ∈ Table.ids s.platforms
    · rw [if_pos h, if_pos h]
      rfl
    · rw [if_neg h, if_neg h]
      rfl
  | deletePlatform id =>
    exact congrArg Except.ok (mapConfig_cascade f { s with platforms := s.platforms.filter fun p => p.id ≠ id })
  | insertProvider v ids =>
    have hrow : ({ v with config := f v.config } : ProviderColumns).row (s.mapConfig f).nextId =
        (v.row s.nextId).mapConfig f := rfl
    have hids : Table.ids (s.mapConfig f).provisioners = Table.ids s.provisioners :=
      ids_mapProvisioners f s.provisioners
    simp only [Statement.mapConfig, Statement.run]
    rw [hrow, hids]
    simp only [mapConfig_acceptsProvider]
    by_cases h : s.AcceptsProvider (v.row s.nextId) ∧ ids.Nodup ∧ ∀ i ∈ ids, i ∈ Table.ids s.provisioners
    · rw [if_pos h, if_pos h]
      simp only [Except.map, Store.mapConfig, List.map_append]
      rfl
    · rw [if_neg h, if_neg h]
      rfl
  | updateProvider id c =>
    simp only [Statement.mapConfig, Statement.run, get_mapProvider]
    cases Table.get s.providers id with
    | none => rfl
    | some p =>
      simp only [Option.map_some, mapConfig_updateProvider]
      cases c.update p with
      | none => rfl
      | some r =>
        simp only [Option.map_some, mapConfig_acceptsProvider]
        by_cases h : s.AcceptsProvider r
        · rw [if_pos h, if_pos h]
          simp only [Except.map, Store.mapConfig, mapConfig_modifyProvider]
        · rw [if_neg h, if_neg h]
          rfl
  | deleteProvider id ids =>
    simp only [Statement.mapConfig, Statement.run]
    have hkept : (s.mapConfig f).providers.filter (fun p => p.id ≠ id) =
        (s.providers.filter fun p => p.id ≠ id).map (MachineProvider.mapConfig f) := by
      rw [Store.mapConfig, List.filter_map]
      rfl
    have hattachments : (s.mapConfig f).attachments = s.attachments := rfl
    rw [hattachments]
    by_cases h : ∀ i ∈ ids, ⟨id, i⟩ ∈ s.attachments
    · rw [if_pos h, if_pos h, hkept]
      exact congrArg Except.ok (mapConfig_cascade f { s with providers := s.providers.filter fun p => p.id ≠ id })
    · rw [if_neg h, if_neg h]
      rfl
  | insertProvisioner v =>
    have hrow : ({ v with config := f v.config } : ProvisionerColumns).row (s.mapConfig f).nextId =
        (v.row s.nextId).mapConfig f := rfl
    simp only [Statement.mapConfig, Statement.run]
    rw [hrow]
    simp only [mapConfig_acceptsProvisioner]
    by_cases h : s.AcceptsProvisioner (v.row s.nextId)
    · rw [if_pos h, if_pos h]
      simp only [Except.map, Store.mapConfig, List.map_append]
      rfl
    · rw [if_neg h, if_neg h]
      rfl
  | updateProvisioner id c =>
    simp only [Statement.mapConfig, Statement.run, get_mapProvisioner]
    cases Table.get s.provisioners id with
    | none => rfl
    | some q =>
      simp only [Option.map_some, mapConfig_updateProvisioner]
      cases c.update q with
      | none => rfl
      | some r =>
        simp only [Option.map_some, mapConfig_acceptsProvisioner]
        by_cases h : s.AcceptsProvisioner r
        · rw [if_pos h, if_pos h]
          simp only [Except.map, Store.mapConfig, mapConfig_modifyProvisioner]
        · rw [if_neg h, if_neg h]
          rfl
  | deleteProvisioner id =>
    have hkept : (s.mapConfig f).provisioners.filter (fun q => q.id ≠ id) =
        (s.provisioners.filter fun q => q.id ≠ id).map (MachineProvisioner.mapConfig f) := by
      rw [Store.mapConfig, List.filter_map]
      rfl
    simp only [Statement.mapConfig, Statement.run, hkept]
    exact congrArg Except.ok (mapConfig_cascade f { s with provisioners := s.provisioners.filter fun q => q.id ≠ id })
  | attach pair =>
    have haccepts : (s.mapConfig f).AcceptsAttachment pair ↔ s.AcceptsAttachment pair := by
      simp only [Store.AcceptsAttachment, Store.mapConfig, ids_mapProviders, ids_mapProvisioners]
    simp only [Statement.mapConfig, Statement.run]
    by_cases h : s.AcceptsAttachment pair
    · rw [if_pos h, if_pos (haccepts.mpr h)]
      rfl
    · rw [if_neg h, if_neg fun h' => h (haccepts.mp h')]
      rfl
  | detach pair =>
    simp only [Statement.mapConfig, Statement.run]
    have hattachments : (s.mapConfig f).attachments = s.attachments := rfl
    rw [hattachments]
    by_cases h : pair ∈ s.attachments
    · rw [if_pos h, if_pos h]
      rfl
    · rw [if_neg h, if_neg h]
      rfl
  | deleteMachine id =>
    exact congrArg Except.ok (mapConfig_cascade f { s with machines := s.machines.filter fun m => m.id ≠ id })

end Statements

end Washing
