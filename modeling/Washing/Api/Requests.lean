import Washing.Api.Provisioners

/-!
# Requests

Every request that writes, as one transition of the committed rows: the route makes its plan from the rows it loads, the
commit emits the statement, and the response is read back. Whatever raises before or during the commit leaves the rows
as they are; what is read back afterwards no longer does.
-/

namespace Washing

open Resources Routes

/-- The requests that write. -/
inductive Request
  | createPlatform (body : PlatformCreate)
  | updatePlatform (platformId : Nat) (body : PlatformUpdate)
  | deletePlatform (platformId : Nat)
  | createPrometheusProvider (body : PrometheusProviderCreate)
  | createDynatraceProvider (body : DynatraceProviderCreate)
  | createMockProvider (body : MockProviderCreate)
  | updatePrometheusProvider (providerId : Nat) (body : PrometheusProviderUpdate)
  | updateDynatraceProvider (providerId : Nat) (body : DynatraceProviderUpdate)
  | updateMockProvider (providerId : Nat) (body : MockProviderUpdate)
  | enableProvider (providerId : Nat)
  | disableProvider (providerId : Nat)
  | deleteProvider (providerId : Nat)
  | attachProviderProvisioner (providerId provisionerId : Nat)
  | detachProviderProvisioner (providerId provisionerId : Nat)
  | createCapsuleProvisioner (body : CapsuleProvisionerCreate)
  | createDynatraceProvisioner (body : DynatraceProvisionerCreate)
  | createMockProvisioner (body : MockProvisionerCreate)
  | updateCapsuleProvisioner (provisionerId : Nat) (body : CapsuleProvisionerUpdate)
  | updateDynatraceProvisioner (provisionerId : Nat) (body : DynatraceProvisionerUpdate)
  | updateMockProvisioner (provisionerId : Nat) (body : MockProvisionerUpdate)
  | enableProvisioner (provisionerId : Nat)
  | disableProvisioner (provisionerId : Nat)
  | deleteProvisioner (provisionerId : Nat)
  | deleteMachine (machineId : Nat)

/-- The plan of the route of a request. -/
def Request.plan (env : ApiEnv) (s : Store) : Request → Except HttpException Plan
  | createPlatform body => Routes.createPlatform env s body
  | updatePlatform id body => Routes.updatePlatform s id body
  | deletePlatform id => Routes.deletePlatform s id
  | createPrometheusProvider body => Routes.createPrometheusProvider env s body
  | createDynatraceProvider body => Routes.createDynatraceProvider env s body
  | createMockProvider body => Routes.createMockProvider env s body
  | updatePrometheusProvider id body => Routes.updatePrometheusProvider env s id body
  | updateDynatraceProvider id body => Routes.updateDynatraceProvider env s id body
  | updateMockProvider id body => Routes.updateMockProvider env s id body
  | enableProvider id => Routes.enableProvider s id
  | disableProvider id => Routes.disableProvider s id
  | deleteProvider id => Routes.deleteProvider s id
  | attachProviderProvisioner id provisionerId => Routes.attachProviderProvisioner s id provisionerId
  | detachProviderProvisioner id provisionerId => Routes.detachProviderProvisioner s id provisionerId
  | createCapsuleProvisioner body => Routes.createCapsuleProvisioner env s body
  | createDynatraceProvisioner body => Routes.createDynatraceProvisioner env s body
  | createMockProvisioner body => Routes.createMockProvisioner env s body
  | updateCapsuleProvisioner id body => Routes.updateCapsuleProvisioner env s id body
  | updateDynatraceProvisioner id body => Routes.updateDynatraceProvisioner env s id body
  | updateMockProvisioner id body => Routes.updateMockProvisioner env s id body
  | enableProvisioner id => Routes.enableProvisioner s id
  | disableProvisioner id => Routes.disableProvisioner s id
  | deleteProvisioner id => Routes.deleteProvisioner s id
  | deleteMachine id => Routes.deleteMachine s id

/-- Read the response back. -/
def View.respond (env : ApiEnv) (s : Store) : View → Except HttpException Body
  | platform id => (getPlatform env s id).map .platform
  | provider id => (getProvider env s id).map .provider
  | prometheusProvider id => (loadProvider s id).map fun p => .prometheusProvider (prometheusReadModel env s p)
  | dynatraceProvider id => (loadProvider s id).map fun p => .dynatraceProvider (dynatraceProviderReadModel env s p)
  | mockProvider id => (getMockProvider env s id).map .mockProvider
  | provisioner id => (getProvisioner env s id).map .provisioner
  | capsuleProvisioner id => do
    let p ← getOr404 s.provisioners id "provisioner not found"
    return .capsuleProvisioner (← capsuleReadModel env p)
  | dynatraceProvisioner id => do
    let p ← getOr404 s.provisioners id "provisioner not found"
    return .dynatraceProvisioner (← dynatraceProvisionerReadModel env p)
  | mockProvisioner id => do
    let p ← getOr404 s.provisioners id "provisioner not found"
    return .mockProvisioner (← mockReadModel env p)
  | noContent => .ok .noContent

/-- A request: the committed rows after it, and its answer. -/
def Request.handle (env : ApiEnv) (s : Store) (request : Request) : Store × Except HttpException Body :=
  match request.plan env s with
  | .error e => (s, .error e)
  | .ok plan =>
    match plan.commit env.storable s with
    | .error e => (s, .error e)
    | .ok s' => (s', plan.view.respond env s')

end Washing
