import Washing.Api.Common
import Washing.Connectors.Visibility
import Washing.Db.Statements
import Washing.Security.Sanitization

/-!
# Request and response schemas

The payloads of `internal/contracts/http/resources.py` with their validators, and the read models that every response is
built from. A body that its schema refuses is answered with 422; a row that its read model refuses makes the response,
or the list that the row is on, a server error.
-/

namespace Washing

/-! ## Surroundings -/

/-- The keys that the routes keep in the `config` of a connector. -/
structure ConnectorConfig where
  url : Option String
  query : Option String
  token : Option String
  parameters : Option (List (String × String))
  preset : Option String
  deriving DecidableEq, Repr

/-- `{}`. -/
def ConnectorConfig.empty : ConnectorConfig := ⟨none, none, none, none, none⟩

/-- What the routes find outside the database: the Unicode tables, `croniter.is_valid`, the URL parser, the preset
directory (`resolve_mock_preset_path` with the text of its `ValueError`), the encrypted JSON column, and which texts the
columns of the database can hold. -/
structure ApiEnv where
  unicode : Unicode
  cronIsValid : String → Bool
  parseUrl : String → Option String
  resolveMockPresetPath : String → Except String Unit
  dumps : ConnectorConfig → String
  loads : String → ConnectorConfig
  storable : Storable

/-- An exception that no route handles. -/
def internalServerError : HttpException := ⟨500, "Internal Server Error"⟩

/-- The body does not pass its schema; the detail names the field. -/
def unprocessable (field : String) : HttpException := ⟨422, field⟩

/-- The default of the `cron` fields. -/
def defaultCron : String := "*/5 * * * *"

namespace Resources

/-! ## Fields -/

section Fields

variable (env : ApiEnv) (field : String)

/-- `NonEmptyStr`: the stripped text. -/
def nonEmptyStr (s : String) : Except HttpException String :=
  if env.unicode.strip s = "" then .error (unprocessable field) else .ok (env.unicode.strip s)

/-- `validate_cron_expression`. -/
def validateCronExpression (expression : String) : Except HttpException String :=
  if env.cronIsValid expression then .ok expression else .error (unprocessable field)

/-- `AnyHttpUrl`: the normalised URL. -/
def anyHttpUrl (s : String) : Except HttpException String :=
  match env.parseUrl s with
  | some url => .ok url
  | none => .error (unprocessable field)

/-- A field of a PATCH body: `null` passes. -/
def patchField {α : Type} (validate : α → Except HttpException α) : Patch α → Except HttpException (Patch α)
  | .unset => .ok .unset
  | .null => .ok .null
  | .value a => (validate a).map .value

end Fields

/-! ## Payloads -/

structure PlatformCreate where
  name : String
  description : Option String := none
  extra : String := "{}"

structure PlatformUpdate where
  description : Patch String := .unset
  extra : Patch String := .unset

structure CapsuleProvisionerCreate where
  platformId : Nat
  name : String
  cron : Option String := none
  token : String
  parameters : List (String × String) := []

structure CapsuleProvisionerUpdate where
  platformId : Patch Nat := .unset
  name : Patch String := .unset
  cron : Patch String := .unset
  token : Patch String := .unset
  parameters : Patch (List (String × String)) := .unset

structure DynatraceProvisionerCreate extends CapsuleProvisionerCreate where
  url : String

structure DynatraceProvisionerUpdate extends CapsuleProvisionerUpdate where
  url : Patch String := .unset

structure MockProvisionerCreate where
  platformId : Nat
  name : String
  cron : Option String := none
  preset : String := "single-vm"

structure MockProvisionerUpdate where
  platformId : Patch Nat := .unset
  name : Patch String := .unset
  cron : Patch String := .unset
  preset : Patch String := .unset

structure PrometheusProviderCreate where
  platformId : Nat
  name : String
  scope : ScopeName
  url : String
  query : String

structure PrometheusProviderUpdate where
  platformId : Patch Nat := .unset
  name : Patch String := .unset
  scope : Patch ScopeName := .unset
  url : Patch String := .unset
  query : Patch String := .unset

structure DynatraceProviderCreate where
  platformId : Nat
  name : String
  scope : ScopeName
  url : String
  token : String
  provisionerIds : List Nat := []

structure DynatraceProviderUpdate where
  platformId : Patch Nat := .unset
  name : Patch String := .unset
  scope : Patch ScopeName := .unset
  url : Patch String := .unset
  token : Patch String := .unset

structure MockProviderCreate where
  platformId : Nat
  name : String
  scope : ScopeName

structure MockProviderUpdate where
  platformId : Patch Nat := .unset
  name : Patch String := .unset
  scope : Patch ScopeName := .unset

/-! ## Validation of the payloads -/

section Validate

variable (env : ApiEnv)

/-- The default is not validated. -/
def cronField : Option String → Except HttpException (Option String)
  | none => .ok none
  | some expression => (validateCronExpression env "cron" expression).map some

def PlatformCreate.validate (b : PlatformCreate) : Except HttpException PlatformCreate := do
  let name ← nonEmptyStr env "name" b.name
  return { b with name }

def CapsuleProvisionerCreate.validate (b : CapsuleProvisionerCreate) :
    Except HttpException CapsuleProvisionerCreate := do
  let name ← nonEmptyStr env "name" b.name
  let cron ← cronField env b.cron
  let token ← nonEmptyStr env "token" b.token
  return { b with name, cron, token }

def CapsuleProvisionerUpdate.validate (b : CapsuleProvisionerUpdate) :
    Except HttpException CapsuleProvisionerUpdate := do
  let name ← patchField (nonEmptyStr env "name") b.name
  let cron ← patchField (validateCronExpression env "cron") b.cron
  let token ← patchField (nonEmptyStr env "token") b.token
  return { b with name, cron, token }

def DynatraceProvisionerCreate.validate (b : DynatraceProvisionerCreate) :
    Except HttpException DynatraceProvisionerCreate := do
  let shared ← b.toCapsuleProvisionerCreate.validate env
  let url ← anyHttpUrl env "url" b.url
  return { toCapsuleProvisionerCreate := shared, url }

def DynatraceProvisionerUpdate.validate (b : DynatraceProvisionerUpdate) :
    Except HttpException DynatraceProvisionerUpdate := do
  let shared ← b.toCapsuleProvisionerUpdate.validate env
  let url ← patchField (anyHttpUrl env "url") b.url
  return { toCapsuleProvisionerUpdate := shared, url }

def MockProvisionerCreate.validate (b : MockProvisionerCreate) : Except HttpException MockProvisionerCreate := do
  let name ← nonEmptyStr env "name" b.name
  let cron ← cronField env b.cron
  let preset ← nonEmptyStr env "preset" b.preset
  return { b with name, cron, preset }

def MockProvisionerUpdate.validate (b : MockProvisionerUpdate) : Except HttpException MockProvisionerUpdate := do
  let name ← patchField (nonEmptyStr env "name") b.name
  let cron ← patchField (validateCronExpression env "cron") b.cron
  let preset ← patchField (nonEmptyStr env "preset") b.preset
  return { b with name, cron, preset }

def PrometheusProviderCreate.validate (b : PrometheusProviderCreate) :
    Except HttpException PrometheusProviderCreate := do
  let name ← nonEmptyStr env "name" b.name
  let url ← anyHttpUrl env "url" b.url
  let query ← nonEmptyStr env "query" b.query
  return { b with name, url, query }

def PrometheusProviderUpdate.validate (b : PrometheusProviderUpdate) :
    Except HttpException PrometheusProviderUpdate := do
  let name ← patchField (nonEmptyStr env "name") b.name
  let url ← patchField (anyHttpUrl env "url") b.url
  let query ← patchField (nonEmptyStr env "query") b.query
  return { b with name, url, query }

def DynatraceProviderCreate.validate (b : DynatraceProviderCreate) : Except HttpException DynatraceProviderCreate := do
  let name ← nonEmptyStr env "name" b.name
  let url ← anyHttpUrl env "url" b.url
  let token ← nonEmptyStr env "token" b.token
  return { b with name, url, token }

def DynatraceProviderUpdate.validate (b : DynatraceProviderUpdate) : Except HttpException DynatraceProviderUpdate := do
  let name ← patchField (nonEmptyStr env "name") b.name
  let url ← patchField (anyHttpUrl env "url") b.url
  let token ← patchField (nonEmptyStr env "token") b.token
  return { b with name, url, token }

def MockProviderCreate.validate (b : MockProviderCreate) : Except HttpException MockProviderCreate := do
  let name ← nonEmptyStr env "name" b.name
  return { b with name }

def MockProviderUpdate.validate (b : MockProviderUpdate) : Except HttpException MockProviderUpdate := do
  let name ← patchField (nonEmptyStr env "name") b.name
  return { b with name }

end Validate

/-! ## Read models -/

structure PlatformRead where
  id : Nat
  name : String
  description : Option String
  extra : String
  deriving DecidableEq, Repr

structure ProvisionerRead where
  id : Nat
  platformId : Nat
  name : String
  type : String
  enabled : Bool
  cron : String
  lastScheduledAt : Option Time
  lastRunAt : Option Time
  lastSuccessAt : Option Time
  lastError : Option String
  deriving DecidableEq, Repr

structure CapsuleProvisionerRead extends ProvisionerRead where
  hasToken : Bool
  parameters : List (String × String)
  deriving DecidableEq, Repr

structure DynatraceProvisionerRead extends ProvisionerRead where
  url : String
  hasToken : Bool
  deriving DecidableEq, Repr

structure MockProvisionerRead extends ProvisionerRead where
  preset : String
  deriving DecidableEq, Repr

structure ProviderRead where
  id : Nat
  platformId : Nat
  name : String
  type : String
  scope : ScopeName
  enabled : Bool
  provisionerIds : List Nat
  lastRunAt : Option Time
  lastSuccessAt : Option Time
  lastError : Option String
  deriving DecidableEq, Repr

structure PrometheusProviderRead extends ProviderRead where
  url : String
  query : String
  deriving DecidableEq, Repr

structure DynatraceProviderRead extends ProviderRead where
  url : String
  hasToken : Bool
  deriving DecidableEq, Repr

structure MockProviderRead where
  id : Nat
  platformId : Nat
  name : String
  type : String
  scope : ScopeName
  enabled : Bool
  lastRunAt : Option Time
  lastSuccessAt : Option Time
  lastError : Option String
  deriving DecidableEq, Repr

/-- A body of a response. -/
inductive Body
  | platform (read : PlatformRead)
  | provider (read : ProviderRead)
  | prometheusProvider (read : PrometheusProviderRead)
  | dynatraceProvider (read : DynatraceProviderRead)
  | mockProvider (read : MockProviderRead)
  | provisioner (read : ProvisionerRead)
  | capsuleProvisioner (read : CapsuleProvisionerRead)
  | dynatraceProvisioner (read : DynatraceProvisionerRead)
  | mockProvisioner (read : MockProvisionerRead)
  | noContent
  deriving DecidableEq, Repr

section Read

variable (env : ApiEnv)

/-- `PlatformRead.model_validate`: the name must not be blank and `extra` must be an object. -/
def PlatformRead.modelValidate (p : Platform) : Except HttpException PlatformRead :=
  if env.unicode.strip p.name = "" then .error internalServerError
  else
    match p.extra with
    | none => .error internalServerError
    | some extra => .ok ⟨p.id, env.unicode.strip p.name, p.description, extra⟩

/-- `ProvisionerRead.model_validate`: the stored cron expression is validated again. -/
def ProvisionerRead.modelValidate (p : MachineProvisioner) : Except HttpException ProvisionerRead :=
  if env.cronIsValid p.cron then
    .ok ⟨p.id, p.platformId, p.name, p.type, p.enabled, p.cron, p.lastScheduledAt, p.lastRunAt, p.lastSuccessAt,
      Washing.ProvisionerRead.lastError env.unicode p⟩
  else .error internalServerError

/-- `ProviderRead.model_validate`, with the loaded provisioners of the provider. -/
def ProviderRead.modelValidate (s : Store) (p : MachineProvider) : ProviderRead :=
  ⟨p.id, p.platformId, p.name, p.type, p.scope, p.enabled, Washing.provisionerIds s.toDatabase p, p.lastRunAt,
    p.lastSuccessAt,
    Washing.ProviderRead.lastError env.unicode p⟩

end Read

end Resources

end Washing
