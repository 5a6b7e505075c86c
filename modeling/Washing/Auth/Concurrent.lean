import Washing.Auth.Tokens
import Washing.Lib.Schedule
import Washing.Lib.TtlCache

/-!
# Concurrent authorizations

The requests of one process are authorized concurrently: each is suspended while a document of the provider is fetched,
and the discovery document and the key sets that were fetched are cached for all of them. `AuthState.step` is a
request that arrives, a fetch that ends, or the generator of the OpenAPI document, which loads the discovery document in
a thread of its own; they follow each other in any order.

- every decision was made with a key set that was stored less than the time to live ago, under the address that such a
  discovery document gave (`Traced`, `admissions_justified`);
- a key that the provider withdraws lets nobody through any more, and one that it publishes is known, as soon as the
  slowest fetch and the time to live have passed (`rotation_takes_effect`).
-/

namespace Washing

/-! ## Steps -/

/-- What is read of a request, and the role that it requires, if any. -/
structure AuthRequest where
  authorization : Option String
  requiredRole : Option String

/-- Where the authorization of a request stands. -/
inductive AuthPhase
  | notStarted
  | loadingMetadata (role token url : String) (begun : Time)
  | loadingKeys (role : String) (check : TokenCheck) (begun : Time)
  | decided (now : Time) (outcome : Except AuthFailure (Option AuthenticatedPrincipal))
  | cancelled

/-- The caches, the requests, and all fetches that ended so far, the newest first; the program does not keep the
latter. -/
structure AuthState where
  metadataCache : TtlCache String JsonObject Time
  jwksCache : TtlCache String JsonObject Time
  phase : Nat → AuthPhase
  metadataFetches : List (Fetch String JsonObject Time)
  keyFetches : List (Fetch String JsonObject Time)

/-- A process that has just started. -/
def AuthState.cold : AuthState := ⟨TtlCache.empty, TtlCache.empty, fun _ => .notStarted, [], []⟩

/-- What happens; a response is `none` when the fetch failed or brought no JSON. -/
inductive AuthEvent
  | arrive (id : Nat) (now : Time)
  | metadataAnswered (id : Nat) (response : Option Json) (now : Time)
  | keysAnswered (id : Nat) (response : Option Json) (now : Time)
  | openapiLoaded (metadata : JsonObject) (begun now : Time)
  | cancel (id : Nat)

section Step

variable {Key : Type} (env : OIDCEnv Key)

/-- The decision, the key set being there. -/
def decideWithKeys (role : String) (check : TokenCheck) (jwks : JsonObject) (now : Time) : AuthPhase :=
  .decided now ((authorizeWithKeys env check jwks role).map some)

namespace AuthState

variable (s : AuthState)

/-- The key set in the cache; an empty one counts as none. -/
def cachedKeys (now : Time) (jwksUri : String) : Option JsonObject :=
  (s.jwksCache.get now jwksUri).filter fun jwks => !jwks.isEmpty

/-- Go on with a discovery document up to where something must be fetched. -/
def withMetadata (role token : String) (metadata : JsonObject) (now : Time) : AuthPhase :=
  match startDecode env token metadata with
  | .error e => .decided now (.error e)
  | .ok check =>
    match s.cachedKeys now check.jwksUri with
    | some jwks => decideWithKeys env role check jwks now
    | none => .loadingKeys role check now

/-- `authorize_request` up to where something must be fetched. -/
def authorize (request : AuthRequest) (now : Time) : AuthPhase :=
  match request.requiredRole with
  | none => .decided now (.ok none)
  | some role =>
    if ¬ env.settings.oidcEnabled then .decided now (.ok none)
    else
      match extractBearerToken env.unicode request.authorization with
      | .error e => .decided now (.error (.oidc e))
      | .ok none => .decided now (.error (.oidc ⟨401, "missing bearer token"⟩))
      | .ok (some token) =>
        match env.settings.discoveryUrl with
        | none => .decided now (.error providerUnavailable)
        | some url =>
          match s.metadataCache.get now url with
          | some metadata => s.withMetadata env role token metadata now
          | none => .loadingMetadata role token url now

/-- Put a request into a phase. -/
def setPhase (id : Nat) (phase : AuthPhase) : AuthState := { s with phase := Function.update s.phase id phase }

/-- Keep a discovery document. -/
def storeMetadata (f : Fetch String JsonObject Time) : AuthState :=
  { s with
    metadataCache := s.metadataCache.store env.settings.ttl f
    metadataFetches := f :: s.metadataFetches }

/-- Keep a key set. -/
def storeKeys (f : Fetch String JsonObject Time) : AuthState :=
  { s with
    jwksCache := s.jwksCache.store env.settings.ttl f
    keyFetches := f :: s.keyFetches }

theorem setPhase_self (id : Nat) (phase : AuthPhase) : (s.setPhase id phase).phase id = phase :=
  Function.update_self ..

theorem setPhase_of_ne {id i : Nat} (phase : AuthPhase) (hi : i ≠ id) : (s.setPhase id phase).phase i = s.phase i :=
  Function.update_of_ne hi ..

variable (requests : Nat → AuthRequest)

/-- One event. -/
def step (s : AuthState) : AuthEvent → Option AuthState
  | .arrive id now =>
    match s.phase id with
    | .notStarted => some (s.setPhase id (s.authorize env (requests id) now))
    | _ => none
  | .metadataAnswered id response now =>
    match s.phase id with
    | .loadingMetadata role token url begun =>
      match response with
      | some (.object metadata) =>
        let s := s.storeMetadata env ⟨url, metadata, begun, now⟩
        some (s.setPhase id (s.withMetadata env role token metadata now))
      | _ => some (s.setPhase id (.decided now (.error providerUnavailable)))
    | _ => none
  | .keysAnswered id response now =>
    match s.phase id with
    | .loadingKeys role check begun =>
      match response with
      | some (.object jwks) =>
        let s := s.storeKeys env ⟨check.jwksUri, jwks, begun, now⟩
        some (s.setPhase id (decideWithKeys env role check jwks now))
      | _ => some (s.setPhase id (.decided now (.error providerUnavailable)))
    | _ => none
  | .openapiLoaded metadata begun now =>
    match env.settings.discoveryUrl with
    | some url => some (s.storeMetadata env ⟨url, metadata, begun, now⟩)
    | none => none
  | .cancel id =>
    match s.phase id with
    | .loadingMetadata _ _ _ _ | .loadingKeys _ _ _ => some (s.setPhase id .cancelled)
    | _ => none

end AuthState

end Step

/-! ## What the decisions rest on -/

section Traced

variable {Key : Type} (env : OIDCEnv Key)

/-- The request requires a role, and carries a token. -/
structure AuthRequest.Asks (request : AuthRequest) (role token : String) : Prop where
  role : request.requiredRole = some role
  enabled : env.settings.oidcEnabled
  token : extractBearerToken env.unicode request.authorization = .ok (some token)

/-- What a decision was made with: the documents, and when the first of them was used. -/
structure Judgement where
  role : String
  url : String
  check : TokenCheck
  metadata : Fetch String JsonObject Time
  keys : Fetch String JsonObject Time
  used : Time

/-- The documents of a decision were fetched, and neither had expired when it was used. -/
structure Judgement.Of (j : Judgement) (s : AuthState) (request : AuthRequest) (now : Time) : Prop where
  asks : request.Asks env j.role j.check.token
  url : env.settings.discoveryUrl = some j.url
  metadata_mem : j.metadata ∈ s.metadataFetches
  metadata_served : TtlCache.Serves env.settings.ttl j.used j.url j.metadata.value j.metadata
  started : startDecode env j.check.token j.metadata.value = .ok j.check
  keys_mem : j.keys ∈ s.keyFetches
  keys_served : TtlCache.Serves env.settings.ttl now j.check.jwksUri j.keys.value j.keys
  used : j.used = now ∨ j.used = j.keys.begun

/-- What is known of a request in a phase. -/
def AuthState.Known (s : AuthState) (request : AuthRequest) : AuthPhase → Prop
  | .notStarted | .cancelled => True
  | .loadingMetadata role token url _ => request.Asks env role token ∧ env.settings.discoveryUrl = some url
  | .loadingKeys role check begun => request.Asks env role check.token ∧
      ∃ url, env.settings.discoveryUrl = some url ∧ ∃ f ∈ s.metadataFetches,
        TtlCache.Serves env.settings.ttl begun url f.value f ∧ startDecode env check.token f.value = .ok check
  | .decided now outcome =>
      (∃ j : Judgement, j.Of env s request now ∧
        outcome = (authorizeWithKeys env j.check j.keys.value j.role).map some) ∨
      (outcome = .ok none ∧ (request.requiredRole = none ∨ ¬ env.settings.oidcEnabled)) ∨
      ∃ e, outcome = .error e ∧ e ≠ unknownSigningKey

/-- The caches hold what was fetched, and everything decided so far was decided with it. -/
structure AuthState.Traced (s : AuthState) (requests : Nat → AuthRequest) : Prop where
  metadata : s.metadataCache.FilledBy env.settings.ttl s.metadataFetches
  keys : s.jwksCache.FilledBy env.settings.ttl s.keyFetches
  known : ∀ id, s.Known env (requests id) (s.phase id)

variable {env} {s s' : AuthState} {request : AuthRequest} {requests : Nat → AuthRequest}

/-- What is known stays known when more is fetched. -/
theorem AuthState.Known.mono {phase : AuthPhase} (h : s.Known env request phase)
    (hmetadata : s.metadataFetches ⊆ s'.metadataFetches) (hkeys : s.keyFetches ⊆ s'.keyFetches) :
    s'.Known env request phase := by
  cases phase with
  | notStarted | cancelled => trivial
  | loadingMetadata => exact h
  | loadingKeys =>
    obtain ⟨hasks, url, hurl, f, hf, hrest⟩ := h
    exact ⟨hasks, url, hurl, f, hmetadata hf, hrest⟩
  | decided now outcome =>
    refine h.imp_left ?_
    rintro ⟨j, hj, houtcome⟩
    exact ⟨j, { hj with metadata_mem := hmetadata hj.metadata_mem, keys_mem := hkeys hj.keys_mem }, houtcome⟩

theorem Judgement.Of.known {j : Judgement} {now : Time} (h : j.Of env s request now) :
    s.Known env request (decideWithKeys env j.role j.check j.keys.value now) := .inl ⟨j, h, rfl⟩

/-- A decision that is not about keys. -/
theorem AuthState.known_error (s : AuthState) (request : AuthRequest) {e : AuthFailure} (he : e ≠ unknownSigningKey)
    (now : Time) : s.Known env request (.decided now (.error e)) := .inr (.inr ⟨e, rfl, he⟩)

/-- A document that is not there says nothing about keys. -/
theorem startDecode_error {token : String} {metadata : JsonObject} {e : AuthFailure}
    (h : startDecode env token metadata = .error e) : e ≠ unknownSigningKey := by
  rintro rfl
  unfold startDecode at h
  split at h
  case h_2 => simp [unknownSigningKey, providerUnavailable] at h
  case h_1 =>
    split at h
    case h_1 | h_2 => simp [unknownSigningKey, invalidBearerToken] at h
    case h_3 => simp [unknownSigningKey] at h
    case h_4 =>
      split at h
      case h_1 | h_2 => simp [unknownSigningKey, invalidBearerToken] at h
      case h_3 => simp [unknownSigningKey] at h
      case h_4 => split at h <;> simp [unknownSigningKey] at h

theorem extractBearerToken_error {U : Unicode} {authorization : Option String} {e : OIDCAuthenticationError}
    (h : extractBearerToken U authorization = .error e) : e = ⟨401, "invalid authorization header"⟩ := by
  unfold extractBearerToken at h
  split at h
  case h_1 => cases h
  case h_2 =>
    simp only at h
    split_ifs at h
    exact (Except.error.inj h).symm

namespace AuthState.Traced

theorem setPhase (h : s.Traced env requests) {id : Nat} {phase : AuthPhase}
    (hphase : s.Known env (requests id) phase) : (s.setPhase id phase).Traced env requests where
  metadata := h.metadata
  keys := h.keys
  known i := by
    by_cases hi : i = id
    · subst hi
      rw [setPhase_self]
      exact hphase.mono (List.Subset.refl _) (List.Subset.refl _)
    · rw [setPhase_of_ne _ _ hi]
      exact (h.known i).mono (List.Subset.refl _) (List.Subset.refl _)

theorem storeMetadata (h : s.Traced env requests) (f : Fetch String JsonObject Time) :
    (s.storeMetadata env f).Traced env requests where
  metadata := h.metadata.store f
  keys := h.keys
  known i := (h.known i).mono (List.subset_cons_self _ _) (List.Subset.refl _)

theorem storeKeys (h : s.Traced env requests) (f : Fetch String JsonObject Time) :
    (s.storeKeys env f).Traced env requests where
  metadata := h.metadata
  keys := h.keys.store f
  known i := (h.known i).mono (List.Subset.refl _) (List.subset_cons_self _ _)

/-- Going on with a discovery document that was fetched. -/
theorem withMetadata (h : s.Traced env requests) {role token url : String} {now : Time}
    {f : Fetch String JsonObject Time} (hasks : request.Asks env role token)
    (hurl : env.settings.discoveryUrl = some url) (hf : f ∈ s.metadataFetches)
    (hserves : TtlCache.Serves env.settings.ttl now url f.value f) :
    s.Known env request (s.withMetadata env role token f.value now) := by
  cases hstart : startDecode env token f.value with
  | error e =>
    simp only [AuthState.withMetadata, hstart]
    exact s.known_error request (startDecode_error hstart) now
  | ok check =>
    obtain ⟨rfl, -⟩ := startDecode_ok hstart
    cases hcached : s.cachedKeys now check.jwksUri with
    | none =>
      simp only [AuthState.withMetadata, hstart, hcached]
      exact ⟨hasks, url, hurl, f, hf, hserves, hstart⟩
    | some jwks =>
      simp only [AuthState.withMetadata, hstart, hcached]
      obtain ⟨hget, -⟩ := Option.filter_eq_some_iff.mp hcached
      obtain ⟨g, hg, hkeys⟩ := h.keys.get hget
      obtain rfl := hkeys.value
      have hj : (⟨role, url, check, f, g, now⟩ : Judgement).Of env s request now :=
        { asks := hasks, url := hurl, metadata_mem := hf, metadata_served := hserves, started := hstart, keys_mem := hg,
          keys_served := hkeys, used := .inl rfl }
      exact hj.known

theorem authorize (h : s.Traced env requests) (request : AuthRequest) (now : Time) :
    s.Known env request (s.authorize env request now) := by
  unfold AuthState.authorize
  split
  case h_1 hrole => exact .inr (.inl ⟨rfl, .inl hrole⟩)
  case h_2 role hrole =>
    split_ifs with henabled
    case neg => exact .inr (.inl ⟨rfl, .inr henabled⟩)
    case pos =>
      split
      case h_1 e htoken =>
        obtain rfl := extractBearerToken_error htoken
        exact s.known_error request (by simp [unknownSigningKey]) now
      case h_2 => exact s.known_error request (by simp [unknownSigningKey]) now
      case h_3 token htoken =>
        have hasks : request.Asks env role token := ⟨hrole, henabled, htoken⟩
        split
        case h_1 => exact s.known_error request (by simp [unknownSigningKey, providerUnavailable]) now
        case h_2 url hurl =>
          split
          case h_1 metadata hcached =>
            obtain ⟨f, hf, hserves⟩ := h.metadata.get hcached
            obtain rfl := hserves.value
            exact h.withMetadata hasks hurl hf hserves
          case h_2 => exact ⟨hasks, hurl⟩

/-- One event. -/
theorem step (h : s.Traced env requests) {event : AuthEvent} (hstep : s.step env requests event = some s') :
    s'.Traced env requests := by
  have hunavailable : providerUnavailable ≠ unknownSigningKey := by simp [unknownSigningKey, providerUnavailable]
  cases event with
  | arrive id now =>
    simp only [AuthState.step] at hstep
    split at hstep
    case h_1 =>
      cases hstep
      exact h.setPhase (h.authorize (requests id) now)
    case h_2 => cases hstep
  | metadataAnswered id response now =>
    simp only [AuthState.step] at hstep
    split at hstep
    case h_2 => cases hstep
    case h_1 role token url begun hphase =>
      have hknown := h.known id
      rw [hphase] at hknown
      split at hstep
      case h_1 metadata =>
        cases hstep
        have hserves := TtlCache.serves_fetched env.settings.ttl_pos
          (⟨url, metadata, begun, now⟩ : Fetch String JsonObject Time)
        have htraced := h.storeMetadata ⟨url, metadata, begun, now⟩
        exact htraced.setPhase (htraced.withMetadata hknown.1 hknown.2 List.mem_cons_self hserves)
      case h_2 =>
        cases hstep
        exact h.setPhase (s.known_error _ hunavailable now)
  | keysAnswered id response now =>
    simp only [AuthState.step] at hstep
    split at hstep
    case h_2 => cases hstep
    case h_1 role check begun hphase =>
      have hknown := h.known id
      rw [hphase] at hknown
      obtain ⟨hasks, url, hurl, f, hf, hserves, hstart⟩ := hknown
      split at hstep
      case h_1 jwks =>
        cases hstep
        have hkeys := TtlCache.serves_fetched env.settings.ttl_pos
          (⟨check.jwksUri, jwks, begun, now⟩ : Fetch String JsonObject Time)
        have hj : (⟨role, url, check, f, ⟨check.jwksUri, jwks, begun, now⟩, begun⟩ : Judgement).Of env
            (s.storeKeys env ⟨check.jwksUri, jwks, begun, now⟩) (requests id) now :=
          { asks := hasks, url := hurl, metadata_mem := hf, metadata_served := hserves, started := hstart,
            keys_mem := List.mem_cons_self, keys_served := hkeys, used := .inr rfl }
        exact (h.storeKeys _).setPhase hj.known
      case h_2 =>
        cases hstep
        exact h.setPhase (s.known_error _ hunavailable now)
  | openapiLoaded metadata begun now =>
    simp only [AuthState.step] at hstep
    split at hstep
    case h_1 =>
      cases hstep
      exact h.storeMetadata _
    case h_2 => cases hstep
  | cancel id =>
    simp only [AuthState.step] at hstep
    split at hstep
    case h_1 | h_2 =>
      cases hstep
      exact h.setPhase trivial
    case h_3 => cases hstep

end AuthState.Traced

theorem traced_cold (env : OIDCEnv Key) (requests : Nat → AuthRequest) : AuthState.cold.Traced env requests where
  metadata := TtlCache.filledBy_empty _
  keys := TtlCache.filledBy_empty _
  known _ := trivial

/-- In every state that the process reaches. -/
theorem reachable_traced {events : List AuthEvent} (hrun : exec (AuthState.step env requests) .cold events = some s) :
    s.Traced env requests :=
  exec_invariant (I := fun s => s.Traced env requests) (fun _ _ _ h _ hstep => h.step hstep) (traced_cold env requests)
    (allSteps_true _ events) hrun

/-- A decision is final. -/
theorem AuthState.decided_step {event : AuthEvent} (hstep : s.step env requests event = some s') {id : Nat} {now : Time}
    {outcome : Except AuthFailure (Option AuthenticatedPrincipal)} (h : s.phase id = .decided now outcome) :
    s'.phase id = .decided now outcome := by
  have hother : ∀ {i : Nat} {phase : AuthPhase}, s.phase i ≠ .decided now outcome →
      (s.setPhase i phase).phase id = .decided now outcome := by
    intro i phase hi
    have hne : id ≠ i := fun heq => hi (heq ▸ h)
    rw [setPhase_of_ne _ _ hne, h]
  cases event with
  | arrive i now' =>
    simp only [AuthState.step] at hstep
    split at hstep
    case h_1 hphase =>
      cases hstep
      exact hother (by rw [hphase]; simp)
    case h_2 => cases hstep
  | metadataAnswered i response now' =>
    simp only [AuthState.step] at hstep
    split at hstep
    case h_2 => cases hstep
    case h_1 hphase =>
      have hne : s.phase i ≠ .decided now outcome := by simp [hphase]
      split at hstep <;> cases hstep <;> exact hother hne
  | keysAnswered i response now' =>
    simp only [AuthState.step] at hstep
    split at hstep
    case h_2 => cases hstep
    case h_1 hphase =>
      have hne : s.phase i ≠ .decided now outcome := by simp [hphase]
      split at hstep <;> cases hstep <;> exact hother hne
  | openapiLoaded metadata begun now' =>
    simp only [AuthState.step] at hstep
    split at hstep
    case h_1 =>
      cases hstep
      exact h
    case h_2 => cases hstep
  | cancel i =>
    simp only [AuthState.step] at hstep
    split at hstep
    case h_1 hphase | h_2 hphase =>
      cases hstep
      exact hother (by rw [hphase]; simp)
    case h_3 => cases hstep

/-- A principal is only decided on with keys that accept it. -/
theorem AuthState.Traced.admitted (h : s.Traced env requests) {id : Nat} {now : Time} {p : AuthenticatedPrincipal}
    (hdecided : s.phase id = .decided now (.ok (some p))) :
    ∃ (j : Judgement) (e : Evidence Key), j.Of env s (requests id) now ∧ e.check = j.check ∧
      e.Accepts env j.metadata.value j.keys.value j.role p := by
  have hknown := h.known id
  rw [hdecided] at hknown
  obtain ⟨j, hj, houtcome⟩ | ⟨houtcome, -⟩ | ⟨e, houtcome, -⟩ := hknown
  · cases haccepted : authorizeWithKeys env j.check j.keys.value j.role with
    | error e =>
      rw [haccepted] at houtcome
      cases houtcome
    | ok q =>
      rw [haccepted] at houtcome
      cases houtcome
      obtain ⟨e, hcheck, haccepts⟩ := authorizeWithKeys_ok (startDecode_ok hj.started).2 haccepted
      exact ⟨j, e, hj, hcheck, haccepts⟩
  · cases houtcome
  · cases houtcome

/-- Without a principal, a request only gets through when it requires no role or OIDC is disabled. -/
theorem AuthState.Traced.open (h : s.Traced env requests) {id : Nat} {now : Time}
    (hdecided : s.phase id = .decided now (.ok none)) :
    (requests id).requiredRole = none ∨ ¬ env.settings.oidcEnabled := by
  have hknown := h.known id
  rw [hdecided] at hknown
  obtain ⟨j, -, houtcome⟩ | ⟨-, hopen⟩ | ⟨e, houtcome, -⟩ := hknown
  · cases haccepted : authorizeWithKeys env j.check j.keys.value j.role with
    | error e =>
      rw [haccepted] at houtcome
      cases houtcome
    | ok q =>
      rw [haccepted] at houtcome
      cases houtcome
  · exact hopen
  · cases houtcome

/-! ## Decisions -/

/-- Whatever the order of the events is: a request gets through either without a role to require, or as a principal
whose claims the token library accepted with a key that a key set lists for the token, the key set having been fetched
from the address in the discovery document, neither of them longer ago than the time to live when it was used. -/
theorem admissions_justified {events : List AuthEvent}
    (hrun : exec (AuthState.step env requests) .cold events = some s)
    {id : Nat} {now : Time} {principal : Option AuthenticatedPrincipal}
    (hdecided : s.phase id = .decided now (.ok principal)) :
    match principal with
    | none => (requests id).requiredRole = none ∨ ¬ env.settings.oidcEnabled
    | some p => ∃ (j : Judgement) (e : Evidence Key), j.Of env s (requests id) now ∧ e.check = j.check ∧
        e.Accepts env j.metadata.value j.keys.value j.role p := by
  cases principal with
  | none => exact (reachable_traced hrun).open hdecided
  | some p => exact (reachable_traced hrun).admitted hdecided

/-- When no fetch takes longer than `slowest`, then from `slowest` and the time to live after some time on: a key that
no key set fetched since lists lets nobody through, and one that each of them lists is not unknown. -/
theorem rotation_takes_effect {events : List AuthEvent}
    (hrun : exec (AuthState.step env requests) .cold events = some s)
    {since slowest : Time} (hslowest : ∀ g ∈ s.keyFetches, g.stored ≤ g.begun + slowest) {id : Nat} {now : Time}
    {outcome : Except AuthFailure (Option AuthenticatedPrincipal)} (hdecided : s.phase id = .decided now outcome)
    (hlate : since + slowest + env.settings.ttl ≤ now) {token keyId : String} {alg : Option Json}
    (htoken : extractBearerToken env.unicode (requests id).authorization = .ok (some token))
    (hheader : env.jwt.getUnverifiedHeader token = .ok ⟨alg, some keyId⟩) :
    ((∀ g ∈ s.keyFetches, since ≤ g.begun → ∀ jwk, ¬ Lists g.value keyId jwk) → ∀ p, outcome ≠ .ok (some p)) ∧
    ((∀ g ∈ s.keyFetches, since ≤ g.begun → ∃ jwk, Lists g.value keyId jwk) → outcome ≠ .error unknownSigningKey) := by
  have htraced := reachable_traced hrun
  have hjudged : ∀ j : Judgement, j.Of env s (requests id) now → since ≤ j.keys.begun ∧ j.check.keyId = keyId := by
    intro j hj
    refine ⟨hj.keys_served.begun_after (hslowest j.keys hj.keys_mem) hlate, ?_⟩
    have hsame : j.check.token = token := Option.some.inj (Except.ok.inj (hj.asks.token.symm.trans htoken))
    have hread := (startDecode_ok hj.started).2.header
    rw [hsame, hheader] at hread
    exact (Option.some.inj (congrArg TokenHeader.kid (Except.ok.inj hread))).symm
  constructor
  · rintro hwithdrawn p rfl
    obtain ⟨j, e, hj, hcheck, haccepts⟩ := htraced.admitted hdecided
    obtain ⟨hsince, hkey⟩ := hjudged j hj
    have hlisted := haccepts.listed
    rw [hcheck, hkey] at hlisted
    exact hwithdrawn j.keys hj.keys_mem hsince e.jwk hlisted
  · rintro hpublished rfl
    have hknown := htraced.known id
    rw [hdecided] at hknown
    obtain ⟨j, hj, houtcome⟩ | ⟨houtcome, -⟩ | ⟨e, houtcome, he⟩ := hknown
    · obtain ⟨hsince, rfl⟩ := hjudged j hj
      obtain ⟨jwk, hlisted⟩ := hpublished j.keys hj.keys_mem hsince
      have hunknown : authorizeWithKeys env j.check j.keys.value j.role = .error unknownSigningKey := by
        cases hresult : authorizeWithKeys env j.check j.keys.value j.role with
        | error e =>
          rw [hresult] at houtcome
          rw [Except.error.inj houtcome]
        | ok q =>
          rw [hresult] at houtcome
          cases houtcome
      exact authorizeWithKeys_unknown hunknown jwk hlisted
    · cases houtcome
    · exact he (Except.error.inj houtcome).symm

end Traced

/-! ## A small provider -/

/-- Its tokens are their subjects; all are signed with the key `k1` by administrators. -/
def smallJwt : Jwt String where
  getUnverifiedHeader _ := .ok ⟨some (.string "RS256"), some "k1"⟩
  signingKey _ _ := .ok "public key"
  decode token _ _ _ := .ok (.object [("sub", .string token), ("roles", .array [.string "admin"])])

/-- Authorization with that provider, the documents being kept for five minutes. -/
def smallOIDC : OIDCEnv String where
  unicode := Unicode.ascii
  settings :=
    { oidcRoleClaimPaths := ["roles"]
      oidcUserRoleName := "user"
      oidcAdminRoleName := "admin"
      oidcEnabled := true
      oidcIssuerUrl := some "https://id"
      oidcDiscoveryUrl := none
      oidcJwksCacheTtlSeconds := 300
      ttl_accepted := rfl
      accepted := by rfl }
  jwt := smallJwt
  nonZero := fun text => text ≠ "0"

/-- Everybody asks for what administrators may do. -/
def smallAuthRequests (_ : Nat) : AuthRequest := ⟨some "Bearer alice", some "admin"⟩

/-- The discovery document, and key sets with and without the key. -/
def smallMetadata : Json := .object [("jwks_uri", .string "https://id/keys")]

def smallKeys : Json := .object [("keys", .array [.object [("kid", .string "k1")]])]

def noKeys : Json := .object [("keys", .array [])]

/-- One request is let through; the key is withdrawn, and another request comes later. -/
def withdrawnEvents : List AuthEvent :=
  [.arrive 0 (seconds 1), .metadataAnswered 0 (some smallMetadata) (seconds 2),
    .keysAnswered 0 (some smallKeys) (seconds 3), .arrive 1 (seconds 500),
    .metadataAnswered 1 (some smallMetadata) (seconds 501), .keysAnswered 1 (some noKeys) (seconds 502)]

theorem withdrawn_ends :
    ∃ s, exec (AuthState.step smallOIDC smallAuthRequests) .cold withdrawnEvents = some s ∧
      s.phase 0 = .decided (seconds 3) (.ok (some ⟨"alice", none, {"admin"}⟩)) ∧
      s.phase 1 = .decided (seconds 502) (.error unknownSigningKey) ∧
      s.keyFetches = [⟨"https://id/keys", [("keys", .array [])], seconds 501, seconds 502⟩,
        ⟨"https://id/keys", [("keys", .array [.object [("kid", .string "k1")]])], seconds 2, seconds 3⟩] :=
  ⟨_, rfl, rfl, rfl, rfl⟩

theorem admissions_justified_alice : ∃ (s : AuthState) (j : Judgement) (e : Evidence String),
    j.Of smallOIDC s (smallAuthRequests 0) (seconds 3) ∧
      e.Accepts smallOIDC j.metadata.value j.keys.value j.role ⟨"alice", none, {"admin"}⟩ := by
  obtain ⟨s, hrun, halice, -⟩ := withdrawn_ends
  obtain ⟨j, e, hj, -, haccepts⟩ := admissions_justified hrun halice
  exact ⟨s, j, e, hj, haccepts⟩

theorem rotation_takes_effect_withdrawn : ∃ s, exec (AuthState.step smallOIDC smallAuthRequests) .cold withdrawnEvents =
    some s ∧ ∀ now p, s.phase 1 ≠ .decided now (.ok (some p)) := by
  obtain ⟨s, hrun, -, hsecond, hfetches⟩ := withdrawn_ends
  refine ⟨s, hrun, fun now p hdecided => ?_⟩
  have hslowest : ∀ g ∈ s.keyFetches, g.stored ≤ g.begun + seconds 5 := by
    rw [hfetches]
    simp [seconds]
  have hwithdrawn : ∀ g ∈ s.keyFetches, seconds 100 ≤ g.begun → ∀ jwk, ¬ Lists g.value "k1" jwk := by
    rw [hfetches]
    rintro g hg hsince jwk ⟨keys, hkeys, hmem, -⟩
    rcases List.mem_cons.mp hg with rfl | hg
    · cases hkeys
      exact absurd hmem List.not_mem_nil
    · rw [List.mem_singleton.mp hg] at hsince
      exact absurd hsince (by decide)
  have hnow : now = seconds 502 := (AuthPhase.decided.inj (hdecided.symm.trans hsecond)).1
  have hlate : seconds 100 + seconds 5 + smallOIDC.settings.ttl ≤ now := by
    rw [hnow]
    decide
  have hrotation := rotation_takes_effect hrun hslowest hdecided hlate rfl rfl
  exact hrotation.1 hwithdrawn p rfl

end Washing
