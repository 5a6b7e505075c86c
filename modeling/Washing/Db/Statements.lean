import Washing.Db.Platforms

/-!
# The statements of a request

What a request changes is emitted as one statement when its session commits. `execute` runs it on the committed rows:
a `NULL` in a column that is not nullable, a missing referenced row and a duplicate key are refused as integrity errors,
an update or a detachment of a row that is gone as stale data, a text that the column cannot hold as a data error.
Deleting a row deletes or detaches whatever refers to it (`cascade`).
-/

namespace Washing

/-! ## Columns to write -/

/-- A field of a partial update: absent, `null`, or a value. -/
inductive Patch (α : Type)
  | unset
  | null
  | value (a : α)
  deriving DecidableEq, Repr

namespace Patch

variable {α : Type}

/-- The column after an update, for a column that is not nullable. -/
def assign (old : α) : Patch α → Option α
  | unset => some old
  | null => none
  | value a => some a

/-- The column after an update, for a nullable column. -/
def assignNullable (old : Option α) : Patch α → Option α
  | unset => old
  | null => none
  | value a => some a

/-- A value that the column has already is not written. -/
def changing [DecidableEq α] (old : α) : Patch α → Patch α
  | unset => unset
  | null => null
  | value a => if a = old then unset else value a

/-- The field, when it is neither absent nor `null`. -/
def toOption : Patch α → Option α
  | unset | null => none
  | value a => some a

end Patch

/-- The columns of a new provider. -/
structure ProviderColumns where
  platformId : Nat
  name : String
  type : String
  scope : ScopeName
  config : String
  deriving DecidableEq, Repr

/-- The columns of a new provisioner. -/
structure ProvisionerColumns where
  platformId : Nat
  name : String
  type : String
  config : String
  cron : String
  deriving DecidableEq, Repr

/-- The columns that an update of a provider writes. -/
structure ProviderChanges where
  platformId : Patch Nat
  name : Patch String
  scope : Patch ScopeName
  config : Patch String
  enabled : Patch Bool
  deriving DecidableEq, Repr

/-- The columns that an update of a provisioner writes. -/
structure ProvisionerChanges where
  platformId : Patch Nat
  name : Patch String
  cron : Patch String
  config : Patch String
  enabled : Patch Bool
  deriving DecidableEq, Repr

/-- The columns that an update of a platform writes. -/
structure PlatformChanges where
  description : Patch String
  extra : Patch String
  deriving DecidableEq, Repr

def ProviderColumns.row (v : ProviderColumns) (id : Nat) : MachineProvider where
  id := id
  platformId := v.platformId
  name := v.name
  type := v.type
  scope := v.scope
  config := v.config
  enabled := false
  lastRunAt := none
  lastSuccessAt := none
  lastError := none

def ProvisionerColumns.row (v : ProvisionerColumns) (id : Nat) : MachineProvisioner where
  id := id
  platformId := v.platformId
  name := v.name
  type := v.type
  config := v.config
  enabled := false
  cron := v.cron
  lastScheduledAt := none
  lastRunAt := none
  lastSuccessAt := none
  lastError := none

/-- The updated row, unless a column that is not nullable would be `NULL`. -/
def ProviderChanges.update (c : ProviderChanges) (p : MachineProvider) : Option MachineProvider := do
  let platformId ← c.platformId.assign p.platformId
  let name ← c.name.assign p.name
  let scope ← c.scope.assign p.scope
  let config ← c.config.assign p.config
  let enabled ← c.enabled.assign p.enabled
  return { p with platformId, name, scope, config, enabled }

/-- The updated row, unless a column that is not nullable would be `NULL`. -/
def ProvisionerChanges.update (c : ProvisionerChanges) (p : MachineProvisioner) : Option MachineProvisioner := do
  let platformId ← c.platformId.assign p.platformId
  let name ← c.name.assign p.name
  let cron ← c.cron.assign p.cron
  let config ← c.config.assign p.config
  let enabled ← c.enabled.assign p.enabled
  return { p with platformId, name, cron, config, enabled }

/-- What an update leaves and what it writes. -/
theorem ProviderChanges.update_some {c : ProviderChanges} {p r : MachineProvider} (h : c.update p = some r) :
    r.id = p.id ∧ r.type = p.type ∧ c.platformId.assign p.platformId = some r.platformId ∧
      c.name.assign p.name = some r.name ∧ c.scope.assign p.scope = some r.scope := by
  simp only [update, Option.bind_eq_bind, Option.bind_eq_some_iff, Option.pure_def, Option.some.injEq] at h
  obtain ⟨platformId, hplatform, name, hname, scope, hscope, config, -, enabled, -, rfl⟩ := h
  exact ⟨rfl, rfl, hplatform, hname, hscope⟩

theorem ProvisionerChanges.update_some {c : ProvisionerChanges} {p r : MachineProvisioner} (h : c.update p = some r) :
    r.id = p.id ∧ r.type = p.type ∧ c.platformId.assign p.platformId = some r.platformId ∧
      c.name.assign p.name = some r.name ∧ c.cron.assign p.cron = some r.cron := by
  simp only [update, Option.bind_eq_bind, Option.bind_eq_some_iff, Option.pure_def, Option.some.injEq] at h
  obtain ⟨platformId, hplatform, name, hname, cron, hcron, config, -, enabled, -, rfl⟩ := h
  exact ⟨rfl, rfl, hplatform, hname, hcron⟩

/-- The updated row: `description` is nullable, and `extra` holds `None` as the JSON value `null`. -/
def PlatformChanges.update (c : PlatformChanges) (p : Platform) : Platform :=
  { p with description := c.description.assignNullable p.description, extra := c.extra.assignNullable p.extra }

/-! ## Constraints -/

namespace Store

/-- The platform exists. -/
def HasPlatform (s : Store) (platformId : Nat) : Prop := platformId ∈ Table.ids s.platforms

/-- The constraints of `machine_providers`: the platform exists and has no other provider of that name. -/
def AcceptsProvider (s : Store) (r : MachineProvider) : Prop :=
  s.HasPlatform r.platformId ∧ ∀ p ∈ s.providers, p.platformId = r.platformId → p.name = r.name → p.id = r.id

/-- The constraints of `machine_provisioners`. -/
def AcceptsProvisioner (s : Store) (r : MachineProvisioner) : Prop :=
  s.HasPlatform r.platformId ∧ ∀ p ∈ s.provisioners, p.platformId = r.platformId → p.name = r.name → p.id = r.id

/-- The constraints of the association table, for a new row. -/
def AcceptsAttachment (s : Store) (a : MachineProviderProvisioner) : Prop :=
  a.providerId ∈ Table.ids s.providers ∧ a.provisionerId ∈ Table.ids s.provisioners ∧ a ∉ s.attachments

instance (s : Store) (i : Nat) : Decidable (s.HasPlatform i) := inferInstanceAs (Decidable (_ ∈ _))
instance (s : Store) (r : MachineProvider) : Decidable (s.AcceptsProvider r) := inferInstanceAs (Decidable (_ ∧ _))
instance (s : Store) (r : MachineProvisioner) : Decidable (s.AcceptsProvisioner r) :=
  inferInstanceAs (Decidable (_ ∧ _))
instance (s : Store) (a : MachineProviderProvisioner) : Decidable (s.AcceptsAttachment a) :=
  inferInstanceAs (Decidable (_ ∧ _ ∧ _))

/-- Delete the rows that refer to a deleted row; the source of a machine is set to `NULL` instead. -/
def cascade (s : Store) : Store :=
  let providers := s.providers.filter fun p => s.HasPlatform p.platformId
  let provisioners := s.provisioners.filter fun p => s.HasPlatform p.platformId
  let source (i : Option Nat) := i.filter fun i => i ∈ Table.ids provisioners
  let machines := (s.machines.filter fun m => s.HasPlatform m.platformId).map fun m =>
    { m with sourceProvisionerId := source m.sourceProvisionerId }
  let samples (rows : List MachineMetric) := rows.filter fun r =>
    r.providerId ∈ Table.ids providers ∧ r.machineId ∈ Table.ids machines
  { s with
    providers := providers
    provisioners := provisioners
    machines := machines
    attachments := s.attachments.filter fun a =>
      a.providerId ∈ Table.ids providers ∧ a.provisionerId ∈ Table.ids provisioners
    flavorHistory := (s.flavorHistory.filter fun h => h.machineId ∈ Table.ids machines).map fun h =>
      { h with sourceProvisionerId := source h.sourceProvisionerId }
    cpuMetrics := samples s.cpuMetrics
    ramMetrics := samples s.ramMetrics
    diskMetrics := samples s.diskMetrics
    optimizations := s.optimizations.filter fun o => o.machineId ∈ Table.ids machines }

end Store

/-! ## Statements -/

/-- What a session emits when it commits. -/
inductive Statement
  | insertPlatform (name : String) (description : Option String) (extra : String)
  | updatePlatform (id : Nat) (changes : PlatformChanges)
  | deletePlatform (id : Nat)
  | insertProvider (columns : ProviderColumns) (provisionerIds : List Nat)
  | updateProvider (id : Nat) (changes : ProviderChanges)
  | deleteProvider (id : Nat) (provisionerIds : List Nat)
  | insertProvisioner (columns : ProvisionerColumns)
  | updateProvisioner (id : Nat) (changes : ProvisionerChanges)
  | deleteProvisioner (id : Nat)
  | attach (pair : MachineProviderProvisioner)
  | detach (pair : MachineProviderProvisioner)
  | deleteMachine (id : Nat)
  deriving DecidableEq, Repr

inductive DbError
  | integrityError
  | staleDataError
  | dataError
  deriving DecidableEq, Repr

/-- The texts that a statement writes, with the declared length of their columns. -/
def Statement.texts : Statement → List (Option Nat × String)
  | insertPlatform name description extra => (some 255, name) :: (none, extra) :: description.toList.map (none, ·)
  | updatePlatform _ c => (c.description.toOption.toList ++ c.extra.toOption.toList).map (none, ·)
  | insertProvider v _ => [(some 255, v.name), (none, v.config)]
  | updateProvider _ c => c.name.toOption.toList.map (some 255, ·) ++ c.config.toOption.toList.map (none, ·)
  | insertProvisioner v => [(some 255, v.name), (some 64, v.cron), (none, v.config)]
  | updateProvisioner _ c => c.name.toOption.toList.map (some 255, ·) ++ c.cron.toOption.toList.map (some 64, ·) ++
      c.config.toOption.toList.map (none, ·)
  | deletePlatform _ | deleteProvider _ _ | deleteProvisioner _ | attach _ | detach _ | deleteMachine _ => []

/-- Run a statement whose texts fit. -/
def Statement.run (s : Store) : Statement → Except DbError Store
  | insertPlatform name description extra =>
    if name ∈ s.platforms.map Platform.name then .error .integrityError
    else .ok { s with platforms := s.platforms ++ [⟨s.nextId, name, description, some extra⟩], nextId := s.nextId + 1 }
  | updatePlatform id c =>
    if id ∈ Table.ids s.platforms then .ok { s with platforms := Table.modify s.platforms id c.update }
    else .error .staleDataError
  | deletePlatform id => .ok (Store.cascade { s with platforms := s.platforms.filter fun p => p.id ≠ id })
  | insertProvider v provisionerIds =>
    let attachments := provisionerIds.map (⟨s.nextId, ·⟩)
    if s.AcceptsProvider (v.row s.nextId) ∧ provisionerIds.Nodup ∧
        ∀ i ∈ provisionerIds, i ∈ Table.ids s.provisioners then
      .ok { s with
        providers := s.providers ++ [v.row s.nextId]
        attachments := s.attachments ++ attachments
        nextId := s.nextId + 1 }
    else .error .integrityError
  | updateProvider id c =>
    match Table.get s.providers id with
    | none => .error .staleDataError
    | some p =>
      match c.update p with
      | none => .error .integrityError
      | some r =>
        if s.AcceptsProvider r then .ok { s with providers := Table.modify s.providers id fun _ => r }
        else .error .integrityError
  | deleteProvider id provisionerIds =>
    -- the rows of the association table are deleted one by one, and counted
    if ∀ i ∈ provisionerIds, ⟨id, i⟩ ∈ s.attachments then
      .ok (Store.cascade { s with providers := s.providers.filter fun p => p.id ≠ id })
    else .error .staleDataError
  | insertProvisioner v =>
    if s.AcceptsProvisioner (v.row s.nextId) then
      .ok { s with provisioners := s.provisioners ++ [v.row s.nextId], nextId := s.nextId + 1 }
    else .error .integrityError
  | updateProvisioner id c =>
    match Table.get s.provisioners id with
    | none => .error .staleDataError
    | some p =>
      match c.update p with
      | none => .error .integrityError
      | some r =>
        if s.AcceptsProvisioner r then .ok { s with provisioners := Table.modify s.provisioners id fun _ => r }
        else .error .integrityError
  | deleteProvisioner id => .ok (Store.cascade { s with provisioners := s.provisioners.filter fun p => p.id ≠ id })
  | attach pair =>
    if s.AcceptsAttachment pair then .ok { s with attachments := s.attachments ++ [pair] } else .error .integrityError
  | detach pair =>
    if pair ∈ s.attachments then .ok { s with attachments := s.attachments.filter fun a => a ≠ pair }
    else .error .staleDataError
  | deleteMachine id => .ok (Store.cascade { s with machines := s.machines.filter fun m => m.id ≠ id })

/-- Whether a column of a declared length can hold a text; this is up to the database. -/
abbrev Storable := Option Nat → String → Bool

/-- Run a statement. -/
def Statement.execute (storable : Storable) (s : Store) (statement : Statement) : Except DbError Store :=
  if ∀ x ∈ statement.texts, storable x.1 x.2 then statement.run s else .error .dataError

/-! ## What a statement can do -/

/-- Rows were deleted, and the sources of machines were set to `NULL`. -/
structure Store.Shrinks (s s' : Store) : Prop where
  platforms : s'.platforms.Sublist s.platforms
  providers : s'.providers.Sublist s.providers
  provisioners : s'.provisioners.Sublist s.provisioners
  attachments : s'.attachments.Sublist s.attachments
  machineIds : (Table.ids s'.machines).Sublist (Table.ids s.machines)
  machines : ∀ m' ∈ s'.machines, ∃ m ∈ s.machines, m'.id = m.id ∧ m'.platformId = m.platformId ∧
    ∀ i ∈ m'.sourceProvisionerId, m.sourceProvisionerId = some i
  metrics : ∀ scope, (s'.metrics scope).Sublist (s.metrics scope)
  histories : (Table.ids s'.flavorHistory).Sublist (Table.ids s.flavorHistory)
  nextId : s'.nextId = s.nextId

namespace Store

variable {s s' s'' : Store}

theorem Shrinks.refl (s : Store) : s.Shrinks s :=
  ⟨.refl _, .refl _, .refl _, .refl _, .refl _, fun m hm => ⟨m, hm, rfl, rfl, fun _ h => h⟩, fun _ => .refl _, .refl _,
    rfl⟩

theorem Shrinks.trans (h : s.Shrinks s') (h' : s'.Shrinks s'') : s.Shrinks s'' where
  platforms := h'.platforms.trans h.platforms
  providers := h'.providers.trans h.providers
  provisioners := h'.provisioners.trans h.provisioners
  attachments := h'.attachments.trans h.attachments
  machineIds := h'.machineIds.trans h.machineIds
  machines := by
    intro m'' hm''
    obtain ⟨m', hm', hid', hplatform', hsource'⟩ := h'.machines m'' hm''
    obtain ⟨m, hm, hid, hplatform, hsource⟩ := h.machines m' hm'
    exact ⟨m, hm, hid'.trans hid, hplatform'.trans hplatform, fun i hi => hsource i (hsource' i hi)⟩
  metrics := fun scope => (h'.metrics scope).trans (h.metrics scope)
  histories := h'.histories.trans h.histories
  nextId := h'.nextId.trans h.nextId

theorem shrinks_cascade (s : Store) : s.Shrinks s.cascade where
  platforms := .refl _
  providers := List.filter_sublist
  provisioners := List.filter_sublist
  attachments := List.filter_sublist
  machineIds := by
    have hids : Table.ids s.cascade.machines = Table.ids (s.machines.filter fun m => s.HasPlatform m.platformId) := by
      simp only [cascade, Table.ids, List.map_map]
      rfl
    rw [hids]
    exact List.filter_sublist.map _
  machines := by
    intro m' hm'
    obtain ⟨m, hm, rfl⟩ := List.mem_map.mp hm'
    exact ⟨m, List.mem_of_mem_filter hm, rfl, rfl, fun i hi => (Option.filter_eq_some_iff.mp hi).1⟩
  metrics := fun scope => by cases scope <;> exact List.filter_sublist
  histories := by
    have hids : Table.ids s.cascade.flavorHistory =
        Table.ids (s.flavorHistory.filter fun r => r.machineId ∈ Table.ids s.cascade.machines) := by
      simp only [cascade, Table.ids, List.map_map]
      rfl
    rw [hids]
    exact List.filter_sublist.map _
  nextId := rfl

/-- Nothing but deletions of rows, and what follows from them. -/
theorem Shrinks.cascade (h : s.Shrinks s') : s.Shrinks s'.cascade := h.trans s'.shrinks_cascade

end Store

/-- The statements that delete rows. -/
def Statement.Deletes : Statement → Prop
  | deletePlatform _ | deleteProvider _ _ | deleteProvisioner _ | deleteMachine _ => True
  | _ => False

/-- A successful statement: its row is stored under the constraints of its table, or rows are deleted. -/
inductive Statement.Ran (s : Store) : Statement → Store → Prop
  | platformInserted (name : String) (description : Option String) (extra : String)
      (free : name ∉ s.platforms.map Platform.name) :
      Ran s (.insertPlatform name description extra)
        { s with platforms := s.platforms ++ [⟨s.nextId, name, description, some extra⟩], nextId := s.nextId + 1 }
  | platformUpdated (id : Nat) (c : PlatformChanges) (stored : id ∈ Table.ids s.platforms) :
      Ran s (.updatePlatform id c) { s with platforms := Table.modify s.platforms id c.update }
  | providerInserted (v : ProviderColumns) (provisionerIds : List Nat) (accepted : s.AcceptsProvider (v.row s.nextId))
      (once : provisionerIds.Nodup) (stored : ∀ i ∈ provisionerIds, i ∈ Table.ids s.provisioners) :
      Ran s (.insertProvider v provisionerIds)
        { s with
          providers := s.providers ++ [v.row s.nextId]
          attachments := s.attachments ++ provisionerIds.map (⟨s.nextId, ·⟩)
          nextId := s.nextId + 1 }
  | providerUpdated (id : Nat) (c : ProviderChanges) (p r : MachineProvider)
      (stored : Table.get s.providers id = some p)
      (updated : c.update p = some r) (accepted : s.AcceptsProvider r) :
      Ran s (.updateProvider id c) { s with providers := Table.modify s.providers id fun _ => r }
  | provisionerInserted (v : ProvisionerColumns) (accepted : s.AcceptsProvisioner (v.row s.nextId)) :
      Ran s (.insertProvisioner v)
        { s with provisioners := s.provisioners ++ [v.row s.nextId], nextId := s.nextId + 1 }
  | provisionerUpdated (id : Nat) (c : ProvisionerChanges) (p r : MachineProvisioner)
      (stored : Table.get s.provisioners id = some p) (updated : c.update p = some r)
      (accepted : s.AcceptsProvisioner r) :
      Ran s (.updateProvisioner id c) { s with provisioners := Table.modify s.provisioners id fun _ => r }
  | attached (pair : MachineProviderProvisioner) (accepted : s.AcceptsAttachment pair) :
      Ran s (.attach pair) { s with attachments := s.attachments ++ [pair] }
  | detached (pair : MachineProviderProvisioner) (stored : pair ∈ s.attachments) :
      Ran s (.detach pair) { s with attachments := s.attachments.filter fun a => a ≠ pair }
  | deleted (statement : Statement) (deletes : statement.Deletes) (s' : Store) (shrinks : s.Shrinks s') :
      Ran s statement s'.cascade

theorem Statement.run_cases {s s' : Store} {statement : Statement} (h : statement.run s = .ok s') :
    statement.Ran s s' := by
  cases statement with
  | insertPlatform name description extra =>
    simp only [run] at h
    split_ifs at h with hname
    cases h
    exact .platformInserted name description extra hname
  | updatePlatform id c =>
    simp only [run] at h
    split_ifs at h with hid
    cases h
    exact .platformUpdated id c hid
  | deletePlatform id =>
    cases h
    exact .deleted (.deletePlatform id) trivial _ { Store.Shrinks.refl s with platforms := List.filter_sublist }
  | insertProvider v provisionerIds =>
    simp only [run] at h
    split_ifs at h with haccepted
    cases h
    exact .providerInserted v provisionerIds haccepted.1 haccepted.2.1 haccepted.2.2
  | updateProvider id c =>
    simp only [run] at h
    cases hp : Table.get s.providers id with
    | none => simp [hp] at h
    | some p =>
      cases hr : c.update p with
      | none => simp [hp, hr] at h
      | some r =>
        simp only [hp, hr] at h
        split_ifs at h with haccepted
        cases h
        exact .providerUpdated id c p r hp hr haccepted
  | deleteProvider id provisionerIds =>
    simp only [run] at h
    split_ifs at h
    cases h
    exact .deleted (.deleteProvider id provisionerIds) trivial _
      { Store.Shrinks.refl s with providers := List.filter_sublist }
  | insertProvisioner v =>
    simp only [run] at h
    split_ifs at h with haccepted
    cases h
    exact .provisionerInserted v haccepted
  | updateProvisioner id c =>
    simp only [run] at h
    cases hp : Table.get s.provisioners id with
    | none => simp [hp] at h
    | some p =>
      cases hr : c.update p with
      | none => simp [hp, hr] at h
      | some r =>
        simp only [hp, hr] at h
        split_ifs at h with haccepted
        cases h
        exact .provisionerUpdated id c p r hp hr haccepted
  | deleteProvisioner id =>
    cases h
    exact .deleted (.deleteProvisioner id) trivial _ { Store.Shrinks.refl s with provisioners := List.filter_sublist }
  | attach pair =>
    simp only [run] at h
    split_ifs at h with haccepted
    cases h
    exact .attached pair haccepted
  | detach pair =>
    simp only [run] at h
    split_ifs at h with hmem
    cases h
    exact .detached pair hmem
  | deleteMachine id =>
    cases h
    refine .deleted (.deleteMachine id) trivial _
      { Store.Shrinks.refl s with machineIds := List.filter_sublist.map _, machines := fun m hm => ?_ }
    exact ⟨m, List.mem_of_mem_filter hm, rfl, rfl, fun _ hi => hi⟩

theorem Statement.execute_cases {storable : Storable} {s s' : Store} {statement : Statement}
    (h : statement.execute storable s = .ok s') : statement.Ran s s' := by
  unfold execute at h
  split_ifs at h
  exact run_cases h

/-! ## What the database guarantees -/

/-- Primary keys are distinct and below the next value of their identity column. -/
structure Store.Numbered (s : Store) : Prop where
  platforms : Table.Numbered s.platforms s.nextId
  providers : Table.Numbered s.providers s.nextId
  provisioners : Table.Numbered s.provisioners s.nextId
  machines : Table.Numbered s.machines s.nextId

/-- References are to stored rows. -/
structure Store.Intact (s : Store) : Prop extends s.Numbered where
  attachments : ∀ a ∈ s.attachments, a.providerId ∈ Table.ids s.providers ∧ a.provisionerId ∈ Table.ids s.provisioners
  sources : ∀ m ∈ s.machines, ∀ i ∈ m.sourceProvisionerId, i ∈ Table.ids s.provisioners
  samples : ∀ scope, ∀ r ∈ s.metrics scope, r.providerId ∈ Table.ids s.providers ∧ r.machineId ∈ Table.ids s.machines

namespace Store

variable {s s' : Store}

theorem Numbered.shrinks (h : s.Numbered) (hs : s.Shrinks s') : s'.Numbered := by
  constructor <;> rw [hs.nextId]
  · exact h.platforms.sublist (hs.platforms.map _)
  · exact h.providers.sublist (hs.providers.map _)
  · exact h.provisioners.sublist (hs.provisioners.map _)
  · exact h.machines.sublist hs.machineIds

/-- After a cascade no reference is left dangling. -/
theorem Numbered.cascade (h : s.Numbered) : s.cascade.Intact where
  toNumbered := h.shrinks s.shrinks_cascade
  attachments := fun a ha => of_decide_eq_true (List.mem_filter.mp ha).2
  sources := by
    intro m hm i hi
    obtain ⟨m, -, rfl⟩ := List.mem_map.mp hm
    exact of_decide_eq_true (Option.filter_eq_some_iff.mp hi).2
  samples := by
    intro scope r hr
    cases scope <;> exact of_decide_eq_true (List.mem_filter.mp hr).2

/-- A statement keeps what the database guarantees. -/
theorem Intact.ran {statement : Statement} (h : s.Intact) (hran : statement.Ran s s') : s'.Intact := by
  have hnext : s.nextId ≤ s.nextId + 1 := Nat.le_succ _
  cases hran with
  | platformInserted name description extra free =>
    exact { h with
      platforms := h.platforms.append rfl
      providers := h.providers.mono hnext
      provisioners := h.provisioners.mono hnext
      machines := h.machines.mono hnext }
  | platformUpdated id c stored => exact { h with platforms := h.platforms.modify fun _ _ hid => hid }
  | providerInserted v provisionerIds accepted once stored =>
    have hids : Table.ids (s.providers ++ [v.row s.nextId]) = Table.ids s.providers ++ [s.nextId] :=
      Table.ids_append _ _
    refine { h with
      platforms := h.platforms.mono hnext
      providers := h.providers.append rfl
      provisioners := h.provisioners.mono hnext
      machines := h.machines.mono hnext
      attachments := fun a ha => ?_
      samples := fun scope r hr => ?_ }
    · rw [hids]
      obtain ha | ha := List.mem_append.mp ha
      · exact ⟨List.mem_append_left _ (h.attachments a ha).1, (h.attachments a ha).2⟩
      · obtain ⟨i, hi, rfl⟩ := List.mem_map.mp ha
        exact ⟨List.mem_append_right _ (List.mem_singleton_self _), stored i hi⟩
    · rw [hids]
      exact ⟨List.mem_append_left _ (h.samples scope r hr).1, (h.samples scope r hr).2⟩
  | providerUpdated id c p r stored updated accepted =>
    have hid : Row.id r = id := (ProviderChanges.update_some updated).1.trans (Table.get_some stored).2
    have hids : Table.ids (Table.modify s.providers id fun _ => r) = Table.ids s.providers :=
      Table.ids_modify_row fun _ _ _ => hid
    exact { h with
      providers := h.providers.modify fun _ _ _ => hid
      attachments := hids.symm ▸ h.attachments
      samples := hids.symm ▸ h.samples }
  | provisionerInserted v accepted =>
    have hids : Table.ids (s.provisioners ++ [v.row s.nextId]) = Table.ids s.provisioners ++ [s.nextId] :=
      Table.ids_append _ _
    refine { h with
      platforms := h.platforms.mono hnext
      providers := h.providers.mono hnext
      provisioners := h.provisioners.append rfl
      machines := h.machines.mono hnext
      attachments := fun a ha => ⟨(h.attachments a ha).1, ?_⟩
      sources := fun m hm i hi => ?_ }
    · rw [hids]
      exact List.mem_append_left _ (h.attachments a ha).2
    · rw [hids]
      exact List.mem_append_left _ (h.sources m hm i hi)
  | provisionerUpdated id c p r stored updated accepted =>
    have hid : Row.id r = id := (ProvisionerChanges.update_some updated).1.trans (Table.get_some stored).2
    have hids : Table.ids (Table.modify s.provisioners id fun _ => r) = Table.ids s.provisioners :=
      Table.ids_modify_row fun _ _ _ => hid
    exact { h with
      provisioners := h.provisioners.modify fun _ _ _ => hid
      attachments := hids.symm ▸ h.attachments
      sources := hids.symm ▸ h.sources }
  | attached pair accepted =>
    refine { h with attachments := fun a ha => ?_ }
    obtain ha | ha := List.mem_append.mp ha
    · exact h.attachments a ha
    · rw [List.mem_singleton.mp ha]
      exact ⟨accepted.1, accepted.2.1⟩
  | detached pair stored => exact { h with attachments := fun a ha => h.attachments a (List.mem_of_mem_filter ha) }
  | deleted statement _ s' shrinks => exact (h.toNumbered.shrinks shrinks).cascade

end Store

end Washing
