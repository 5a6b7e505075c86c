import Washing.Api.Platforms

/-!
# Machine provider routes

The typed sub-routes of `providers.py` and `mock_providers.py`. The three create routes and the three PATCH routes
differ in the connector type, in the configuration and in the provisioners of a new provider only (`createProvider`,
`updateProvider`).
-/

namespace Washing

/-- The providers attached to a provisioner, as the relationship loads them. -/
def Store.providersOf (s : Store) (provisioner : MachineProvisioner) : List MachineProvider :=
  s.providers.filter fun p => ⟨p.id, provisioner.id⟩ ∈ s.attachments

/-- `PROVISIONER_PROVIDER_SCOPE_CONFLICT_DETAIL`. -/
def provisionerProviderScopeConflictDetail : String :=
  "provisioner cannot have more than one provider for the same scope"

/-- Return the conflicting provider already attached to a provisioner, if any. -/
def findProviderScopeConflict (s : Store) (provisioner : MachineProvisioner) (scope : ScopeName)
    (providerId : Option Nat) : Option MachineProvider :=
  (s.providersOf provisioner).find? fun p => providerId ≠ some p.id ∧ p.scope = scope

/-- A token is stored and not empty. -/
def ConnectorConfig.hasToken (c : ConnectorConfig) : Bool := c.token.any fun token => token ≠ ""

namespace Routes

open Resources

section Providers

variable (env : ApiEnv) (s : Store)

/-! ## Loading and checking -/

/-- Load a provider with the relations needed by the API responses. -/
def loadProvider (providerId : Nat) : Except HttpException MachineProvider :=
  getOr404 s.providers providerId "provider not found"

/-- Load a provider and enforce the expected typed sub-route. -/
def loadProviderOfType (providerId : Nat) (connectorType : String) : Except HttpException MachineProvider := do
  let provider ← loadProvider s providerId
  if provider.type ≠ connectorType then .error ⟨404, "provider not found"⟩ else .ok provider

/-- Resolve attached provisioners and validate their platform ownership. -/
def loadProvisionersForProvider (platformId : Nat) (providerScope : ScopeName) :
    List Nat → Except HttpException (List MachineProvisioner)
  | [] => .ok []
  | provisionerId :: provisionerIds => do
    let provisioner ← getOr404 s.provisioners provisionerId "provisioner not found"
    if provisioner.platformId ≠ platformId then
      .error ⟨400, "provider and provisioners must belong to the same platform"⟩
    else if (findProviderScopeConflict s provisioner providerScope none).isSome then
      .error ⟨409, provisionerProviderScopeConflictDetail⟩
    else
      let provisioners ← loadProvisionersForProvider platformId providerScope provisionerIds
      return provisioner :: provisioners

/-- Prevent moving a provider to a platform that mismatches its provisioners. -/
def ensureProviderPlatformMatchesProvisioners (provider : MachineProvider) (platformId : Nat) :
    Except HttpException Unit :=
  if ∃ q ∈ s.provisionersOf provider, q.platformId ≠ platformId then
    .error ⟨400, "provider and provisioners must belong to the same platform"⟩
  else .ok ()

/-- Prevent changing a provider scope to one already attached on its provisioners. -/
def ensureProviderScopeMatchesProvisioners (provider : MachineProvider) (scope : ScopeName) :
    Except HttpException Unit :=
  if ∃ q ∈ s.provisionersOf provider, (findProviderScopeConflict s q scope (some provider.id)).isSome then
    .error ⟨409, provisionerProviderScopeConflictDetail⟩
  else .ok ()

/-- The scope of a PATCH, when there is one, may be taken. -/
def ensureScopeCanChange (provider : MachineProvider) : Patch ScopeName → Except HttpException Unit
  | .value scope => ensureProviderScopeMatchesProvisioners s provider scope
  | .unset | .null => .ok ()

/-- The platform of a PATCH exists and may be taken; there is no platform with the id `null`. -/
def ensureProviderPlatformCanChange (provider : MachineProvider) : Patch Nat → Except HttpException Unit
  | .unset => .ok ()
  | .null => .error ⟨404, "platform not found"⟩
  | .value platformId => do
    let _ ← getOr404 s.platforms platformId "platform not found"
    ensureProviderPlatformMatchesProvisioners s provider platformId

/-! ## Read models -/

/-- Build the typed read model without exposing the raw config blob. -/
def prometheusReadModel (provider : MachineProvider) : PrometheusProviderRead :=
  { ProviderRead.modelValidate env s provider with
    url := (env.loads provider.config).url.getD ""
    query := (env.loads provider.config).query.getD "" }

/-- Build the Dynatrace read model while replacing the token with a flag. -/
def dynatraceProviderReadModel (provider : MachineProvider) : DynatraceProviderRead :=
  { ProviderRead.modelValidate env s provider with
    url := (env.loads provider.config).url.getD ""
    hasToken := (env.loads provider.config).hasToken }

/-- Build the typed mock read model without exposing the raw config blob. -/
def mockProviderReadModel (provider : MachineProvider) : MockProviderRead :=
  ⟨provider.id, provider.platformId, provider.name, provider.type, provider.scope, provider.enabled,
    provider.lastRunAt, provider.lastSuccessAt, Washing.ProviderRead.lastError env.unicode provider⟩

/-- Return a provider through the generic public representation. -/
def getProvider (providerId : Nat) : Except HttpException ProviderRead := do
  let provider ← loadProvider s providerId
  return ProviderRead.modelValidate env s provider

/-- Return the Prometheus-specific configuration view for one provider. -/
def getPrometheusProvider (providerId : Nat) : Except HttpException PrometheusProviderRead := do
  let provider ← loadProviderOfType s providerId "prometheus"
  return prometheusReadModel env s provider

/-- Return the Dynatrace-specific configuration view for one provider. -/
def getDynatraceProvider (providerId : Nat) : Except HttpException DynatraceProviderRead := do
  let provider ← loadProviderOfType s providerId "dynatrace"
  return dynatraceProviderReadModel env s provider

/-- Return the typed view for a development-only mock metric provider. -/
def getMockProvider (providerId : Nat) : Except HttpException MockProviderRead := do
  let provider ← loadProviderOfType s providerId "mock_metric"
  return mockProviderReadModel env provider

/-- List providers through the generic view. -/
def listProviders (platformId : Option Nat) (scope : Option ScopeName) (enabled : Option Bool) (offset limit : Nat) :
    Except HttpException (PaginatedResponse ProviderRead) :=
  let query := s.providers.filter fun p =>
    platformId.all (p.platformId = ·) && scope.all (p.scope = ·) && enabled.all (p.enabled = ·)
  (paginateQuery query (fun a b => namedLe (a.name, a.id) (b.name, b.id)) offset limit).serialize
    fun p => .ok (ProviderRead.modelValidate env s p)

/-! ## Creation -/

/-- Create a provider of a type on an existing platform. -/
def createProvider (columns : ProviderColumns) (provisionerIds : List Nat) (view : Nat → View) :
    Except HttpException Plan := do
  let _ ← getOr404 s.platforms columns.platformId "platform not found"
  let provisioners ← loadProvisionersForProvider s columns.platformId columns.scope provisionerIds
  return {
    statement := some (.insertProvider columns (provisioners.map (·.id)))
    conflict := some "provider name already exists for this platform"
    view := view s.nextId }

/-- Create a typed Prometheus provider. -/
def createPrometheusProvider (body : PrometheusProviderCreate) : Except HttpException Plan := do
  let payload ← body.validate env
  let config : ConnectorConfig := { ConnectorConfig.empty with url := some payload.url, query := some payload.query }
  createProvider s ⟨payload.platformId, payload.name, "prometheus", payload.scope, env.dumps config⟩ []
    .prometheusProvider

/-- Create a typed Dynatrace provider. -/
def createDynatraceProvider (body : DynatraceProviderCreate) : Except HttpException Plan := do
  let payload ← body.validate env
  let config : ConnectorConfig := { ConnectorConfig.empty with url := some payload.url, token := some payload.token }
  createProvider s ⟨payload.platformId, payload.name, "dynatrace", payload.scope, env.dumps config⟩
    payload.provisionerIds .dynatraceProvider

/-- Create a development-only mock metric provider with random samples. -/
def createMockProvider (body : MockProviderCreate) : Except HttpException Plan := do
  let payload ← body.validate env
  createProvider s ⟨payload.platformId, payload.name, "mock_metric", payload.scope, env.dumps .empty⟩ []
    .mockProvider

/-! ## Updates -/

/-- The new value of `config`, when the dictionary changes. -/
def changeConfig (config : String) (change : ConnectorConfig → ConnectorConfig) : Patch String :=
  if change (env.loads config) = env.loads config then .unset else .value (env.dumps (change (env.loads config)))

/-- Patch a provider through its typed sub-route. -/
def updateProvider (providerId : Nat) (connectorType : String) (platformId : Patch Nat) (name : Patch String)
    (scope : Patch ScopeName) (change : ConnectorConfig → ConnectorConfig) (view : View) :
    Except HttpException Plan := do
  let provider ← loadProviderOfType s providerId connectorType
  let _ ← ensureScopeCanChange s provider scope
  let _ ← ensureProviderPlatformCanChange s provider platformId
  let changes : ProviderChanges := {
    platformId := platformId.changing provider.platformId
    name := name.changing provider.name
    -- an explicit null scope is ignored
    scope := match scope with
      | .value scope => (Patch.value scope).changing provider.scope
      | .unset | .null => .unset
    config := changeConfig env provider.config change
    enabled := .unset }
  return {
    statement := if changes = ⟨.unset, .unset, .unset, .unset, .unset⟩ then none
      else some (.updateProvider providerId changes)
    conflict := some "provider name already exists for this platform"
    view := view }

/-- Patch a Prometheus provider through its typed sub-route. -/
def updatePrometheusProvider (providerId : Nat) (body : PrometheusProviderUpdate) : Except HttpException Plan := do
  let payload ← body.validate env
  let change (c : ConnectorConfig) :=
    { c with url := payload.url.toOption.or c.url, query := payload.query.toOption.or c.query }
  updateProvider env s providerId "prometheus" payload.platformId payload.name payload.scope change
    (.prometheusProvider providerId)

/-- Patch a Dynatrace provider without ever returning the raw token. -/
def updateDynatraceProvider (providerId : Nat) (body : DynatraceProviderUpdate) : Except HttpException Plan := do
  let payload ← body.validate env
  let change (c : ConnectorConfig) :=
    { c with url := payload.url.toOption.or c.url, token := payload.token.toOption.or c.token }
  updateProvider env s providerId "dynatrace" payload.platformId payload.name payload.scope change
    (.dynatraceProvider providerId)

/-- Patch a development-only mock metric provider. -/
def updateMockProvider (providerId : Nat) (body : MockProviderUpdate) : Except HttpException Plan := do
  let payload ← body.validate env
  updateProvider env s providerId "mock_metric" payload.platformId payload.name payload.scope id
    (.mockProvider providerId)

/-- Set `enabled` of a provider. -/
def setProviderEnabled (providerId : Nat) (enabled : Bool) : Except HttpException Plan := do
  let provider ← loadProvider s providerId
  let changes : ProviderChanges := ⟨.unset, .unset, .unset, .unset, .value enabled⟩
  return {
    statement := if provider.enabled = enabled then none else some (.updateProvider providerId changes)
    conflict := none
    view := .provider providerId }

/-- Enable one provider through an idempotent action endpoint. -/
def enableProvider (providerId : Nat) : Except HttpException Plan := setProviderEnabled s providerId true

/-- Disable one provider through an idempotent action endpoint. -/
def disableProvider (providerId : Nat) : Except HttpException Plan := setProviderEnabled s providerId false

/-! ## Attachments and deletion -/

/-- Delete a provider and its association rows. -/
def deleteProvider (providerId : Nat) : Except HttpException Plan := do
  let provider ← loadProvider s providerId
  return {
    statement := some (.deleteProvider providerId (provisionerIds s.toDatabase provider))
    conflict := none
    view := .noContent }

/-- Attach a provisioner to a provider after platform validation. -/
def attachProviderProvisioner (providerId provisionerId : Nat) : Except HttpException Plan := do
  let provider ← loadProvider s providerId
  let provisioner ← getOr404 s.provisioners provisionerId "provisioner not found"
  if provisioner.platformId ≠ provider.platformId then
    .error ⟨400, "provider and provisioner must belong to the same platform"⟩
  else if provisioner ∈ s.provisionersOf provider then
    return { statement := none, conflict := none, view := .provider providerId }
  else if (findProviderScopeConflict s provisioner provider.scope (some provider.id)).isSome then
    .error ⟨409, provisionerProviderScopeConflictDetail⟩
  else
    return {
      statement := some (.attach ⟨providerId, provisionerId⟩)
      conflict := some "provider/provisioner association already exists"
      view := .provider providerId }

/-- Detach a provisioner from a provider if the pair exists. -/
def detachProviderProvisioner (providerId provisionerId : Nat) : Except HttpException Plan := do
  let provider ← loadProvider s providerId
  let provisioner ← getOr404 s.provisioners provisionerId "provisioner not found"
  if provisioner.platformId ≠ provider.platformId then
    .error ⟨400, "provider and provisioner must belong to the same platform"⟩
  else
    return {
      statement := if provisioner ∈ s.provisionersOf provider then some (.detach ⟨providerId, provisionerId⟩) else none
      conflict := none
      view := .noContent }

end Providers

end Routes

end Washing
