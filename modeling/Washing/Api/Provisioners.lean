import Washing.Api.Providers

/-!
# Machine provisioner routes

The typed sub-routes of `provisioners.py` and `mock_provisioners.py`. As with the providers, the create and PATCH routes
differ in the connector type and in the configuration (`createProvisioner`, `updateProvisioner`).
-/

namespace Washing

/-- `DEFAULT_MOCK_PRESET`. -/
def defaultMockPreset : String := "single-vm"

namespace Routes

open Resources

section Provisioners

variable (env : ApiEnv) (s : Store)

/-! ## Loading and checking -/

/-- Load a provisioner and validate the typed sub-route being used. -/
def loadProvisionerOfType (provisionerId : Nat) (connectorType : String) : Except HttpException MachineProvisioner := do
  let provisioner ← getOr404 s.provisioners provisionerId "provisioner not found"
  if provisioner.type ≠ connectorType then .error ⟨404, "provisioner not found"⟩ else .ok provisioner

/-- Protect platform moves that would break linked machines or providers. -/
def ensureProvisionerPlatformCanChange (provisioner : MachineProvisioner) (platformId : Nat) :
    Except HttpException Unit :=
  if platformId = provisioner.platformId then .ok ()
  else if ∃ m ∈ s.machines, m.sourceProvisionerId = some provisioner.id then
    .error ⟨409, "cannot move provisioner with linked machines"⟩
  else if ∃ p ∈ s.providersOf provisioner, p.platformId ≠ platformId then
    .error ⟨400, "provider and provisioner must belong to the same platform"⟩
  else .ok ()

/-- The platform of a PATCH exists and may be taken; there is no platform with the id `null`. -/
def ensurePlatformPatchCanChange (provisioner : MachineProvisioner) : Patch Nat → Except HttpException Unit
  | .unset => .ok ()
  | .null => .error ⟨404, "platform not found"⟩
  | .value platformId => do
    let _ ← getOr404 s.platforms platformId "platform not found"
    ensureProvisionerPlatformCanChange s provisioner platformId

/-- Validate that the preset exists and can be loaded from the mock directory. -/
def validateMockPresetOr400 (preset : String) : Except HttpException String :=
  match env.resolveMockPresetPath preset with
  | .ok _ => .ok preset
  | .error detail => .error ⟨400, detail⟩

/-! ## Read models -/

/-- Build the Capsule-specific read model without returning the token. -/
def capsuleReadModel (provisioner : MachineProvisioner) : Except HttpException CapsuleProvisionerRead := do
  let read ← ProvisionerRead.modelValidate env provisioner
  return { read with
    hasToken := (env.loads provisioner.config).hasToken
    parameters := (env.loads provisioner.config).parameters.getD [] }

/-- Build the Dynatrace read model with visible URL and hidden token. -/
def dynatraceProvisionerReadModel (provisioner : MachineProvisioner) :
    Except HttpException DynatraceProvisionerRead := do
  let read ← ProvisionerRead.modelValidate env provisioner
  return { read with
    url := (env.loads provisioner.config).url.getD ""
    hasToken := (env.loads provisioner.config).hasToken }

/-- Build the typed mock read model without exposing raw config storage. -/
def mockReadModel (provisioner : MachineProvisioner) : Except HttpException MockProvisionerRead := do
  let read ← ProvisionerRead.modelValidate env provisioner
  return { read with preset := (env.loads provisioner.config).preset.getD defaultMockPreset }

/-- Return one provisioner without exposing its typed config. -/
def getProvisioner (provisionerId : Nat) : Except HttpException ProvisionerRead := do
  let provisioner ← getOr404 s.provisioners provisionerId "provisioner not found"
  ProvisionerRead.modelValidate env provisioner

/-- Return the Capsule-specific view for a provisioner. -/
def getCapsuleProvisioner (provisionerId : Nat) : Except HttpException CapsuleProvisionerRead := do
  let provisioner ← loadProvisionerOfType s provisionerId "capsule"
  capsuleReadModel env provisioner

/-- Return the Dynatrace-specific view for a provisioner. -/
def getDynatraceProvisioner (provisionerId : Nat) : Except HttpException DynatraceProvisionerRead := do
  let provisioner ← loadProvisionerOfType s provisionerId "dynatrace"
  dynatraceProvisionerReadModel env provisioner

/-- Return the typed view for a development-only mock provisioner. -/
def getMockProvisioner (provisionerId : Nat) : Except HttpException MockProvisionerRead := do
  let provisioner ← loadProvisionerOfType s provisionerId "mock"
  mockReadModel env provisioner

/-- List provisioners through the generic metadata view. -/
def listProvisioners (platformId : Option Nat) (enabled : Option Bool) (offset limit : Nat) :
    Except HttpException (PaginatedResponse ProvisionerRead) :=
  let query := s.provisioners.filter fun p => platformId.all (p.platformId = ·) && enabled.all (p.enabled = ·)
  (paginateQuery query (fun a b => namedLe (a.name, a.id) (b.name, b.id)) offset limit).serialize
    (ProvisionerRead.modelValidate env)

/-- List the provisioners currently attached to a provider. -/
def listProviderProvisioners (providerId offset limit : Nat) :
    Except HttpException (PaginatedResponse ProvisionerRead) := do
  let provider ← getOr404 s.providers providerId "provider not found"
  (paginateQuery (s.provisionersOf provider) (fun a b => namedLe (a.name, a.id) (b.name, b.id)) offset limit).serialize
    (ProvisionerRead.modelValidate env)

/-- List metric providers attached to one provisioner. -/
def listProvisionerProviders (provisionerId offset limit : Nat) :
    Except HttpException (PaginatedResponse ProviderRead) := do
  let provisioner ← getOr404 s.provisioners provisionerId "provisioner not found"
  (paginateQuery (s.providersOf provisioner) (fun a b => namedLe (a.name, a.id) (b.name, b.id)) offset limit).serialize
    fun p => .ok (ProviderRead.modelValidate env s p)

/-! ## Creation -/

/-- Create a provisioner of a type on an existing platform. -/
def createProvisioner (columns : ProvisionerColumns) (view : Nat → View) : Except HttpException Plan := do
  let _ ← getOr404 s.platforms columns.platformId "platform not found"
  return {
    statement := some (.insertProvisioner columns)
    conflict := some "provisioner name already exists for this platform"
    view := view s.nextId }

/-- Create a Capsule provisioner from a typed payload. -/
def createCapsuleProvisioner (body : CapsuleProvisionerCreate) : Except HttpException Plan := do
  let payload ← body.validate env
  let config : ConnectorConfig :=
    { ConnectorConfig.empty with token := some payload.token, parameters := some payload.parameters }
  createProvisioner s
    ⟨payload.platformId, payload.name, "capsule", env.dumps config, payload.cron.getD defaultCron⟩ .capsuleProvisioner

/-- Create a Dynatrace provisioner with typed URL and token inputs. -/
def createDynatraceProvisioner (body : DynatraceProvisionerCreate) : Except HttpException Plan := do
  let payload ← body.validate env
  let config : ConnectorConfig := { ConnectorConfig.empty with url := some payload.url, token := some payload.token }
  createProvisioner s
    ⟨payload.platformId, payload.name, "dynatrace", env.dumps config, payload.cron.getD defaultCron⟩
    .dynatraceProvisioner

/-- Create a development-only mock provisioner backed by a JSON preset. -/
def createMockProvisioner (body : MockProvisionerCreate) : Except HttpException Plan := do
  let payload ← body.validate env
  let _ ← getOr404 s.platforms payload.platformId "platform not found"
  let preset ← validateMockPresetOr400 env payload.preset
  let config : ConnectorConfig := { ConnectorConfig.empty with preset := some preset }
  createProvisioner s
    ⟨payload.platformId, payload.name, "mock", env.dumps config, payload.cron.getD defaultCron⟩ .mockProvisioner

/-! ## Updates -/

/-- Patch a provisioner through its typed sub-route. -/
def updateProvisioner (provisionerId : Nat) (connectorType : String) (platformId : Patch Nat) (name cron : Patch String)
    (change : ConnectorConfig → Except HttpException ConnectorConfig) (view : View) : Except HttpException Plan := do
  let provisioner ← loadProvisionerOfType s provisionerId connectorType
  let _ ← ensurePlatformPatchCanChange s provisioner platformId
  let config ← change (env.loads provisioner.config)
  let changes : ProvisionerChanges := {
    platformId := platformId.changing provisioner.platformId
    name := name.changing provisioner.name
    cron := cron.changing provisioner.cron
    config := changeConfig env provisioner.config fun _ => config
    enabled := .unset }
  return {
    statement := if changes = ⟨.unset, .unset, .unset, .unset, .unset⟩ then none
      else some (.updateProvisioner provisionerId changes)
    conflict := some "provisioner name already exists for this platform"
    view := view }

/-- Patch a Capsule provisioner through its typed sub-route. -/
def updateCapsuleProvisioner (provisionerId : Nat) (body : CapsuleProvisionerUpdate) : Except HttpException Plan := do
  let payload ← body.validate env
  let change (c : ConnectorConfig) : ConnectorConfig :=
    { c with
      token := payload.token.toOption.or c.token
      -- an explicit null empties the parameters
      parameters := match payload.parameters with
        | .unset => c.parameters
        | .null => some []
        | .value parameters => some parameters }
  updateProvisioner env s provisionerId "capsule" payload.platformId payload.name payload.cron
    (fun c => .ok (change c)) (.capsuleProvisioner provisionerId)

/-- Patch a Dynatrace provisioner while keeping the secret hidden. The inherited `parameters` are ignored. -/
def updateDynatraceProvisioner (provisionerId : Nat) (body : DynatraceProvisionerUpdate) :
    Except HttpException Plan := do
  let payload ← body.validate env
  let change (c : ConnectorConfig) : ConnectorConfig :=
    { c with url := payload.url.toOption.or c.url, token := payload.token.toOption.or c.token }
  updateProvisioner env s provisionerId "dynatrace" payload.platformId payload.name payload.cron
    (fun c => .ok (change c)) (.dynatraceProvisioner provisionerId)

/-- Patch a development-only mock provisioner and its preset. -/
def updateMockProvisioner (provisionerId : Nat) (body : MockProvisionerUpdate) : Except HttpException Plan := do
  let payload ← body.validate env
  let change (c : ConnectorConfig) : Except HttpException ConnectorConfig :=
    match payload.preset with
    | .unset | .null => .ok c
    | .value preset => do
      let preset ← validateMockPresetOr400 env preset
      return { c with preset := some preset }
  updateProvisioner env s provisionerId "mock" payload.platformId payload.name payload.cron change
    (.mockProvisioner provisionerId)

/-- Set `enabled` of a provisioner. -/
def setProvisionerEnabled (provisionerId : Nat) (enabled : Bool) : Except HttpException Plan := do
  let provisioner ← getOr404 s.provisioners provisionerId "provisioner not found"
  let changes : ProvisionerChanges := ⟨.unset, .unset, .unset, .unset, .value enabled⟩
  return {
    statement := if provisioner.enabled = enabled then none else some (.updateProvisioner provisionerId changes)
    conflict := none
    view := .provisioner provisionerId }

/-- Enable one provisioner through an idempotent action endpoint. -/
def enableProvisioner (provisionerId : Nat) : Except HttpException Plan := setProvisionerEnabled s provisionerId true

/-- Disable one provisioner through an idempotent action endpoint. -/
def disableProvisioner (provisionerId : Nat) : Except HttpException Plan := setProvisionerEnabled s provisionerId false

/-- Delete a provisioner and cascade its dependent relations. -/
def deleteProvisioner (provisionerId : Nat) : Except HttpException Plan := do
  let _ ← getOr404 s.provisioners provisionerId "provisioner not found"
  return { statement := some (.deleteProvisioner provisionerId), conflict := none, view := .noContent }

/-- Delete a machine. -/
def deleteMachine (machineId : Nat) : Except HttpException Plan := do
  let _ ← getOr404 s.machines machineId "machine not found"
  return { statement := some (.deleteMachine machineId), conflict := none, view := .noContent }

end Provisioners

end Routes

end Washing
