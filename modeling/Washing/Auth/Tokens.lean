import Washing.Auth.Roles
import Washing.Db.Models
import Washing.Lib.Text

/-!
# Bearer tokens

What is checked of the token of a request (`internal/infra/auth/oidc.py`), apart from where the documents of the
provider come from: the settings, the header of the request, the header of the token, the key in a key set, the
signature and the claims. The token library is a parameter (`Jwt`). `Accepts` lists everything that a request which is
let through has passed (`authorizeWithKeys_ok`).
-/

namespace Washing

/-! ## Settings -/

/-- The OIDC settings as they are read from the environment. -/
structure RawOIDCSettings extends OIDCSettings where
  oidcEnabled : Bool
  oidcIssuerUrl : Option String
  oidcDiscoveryUrl : Option String
  oidcJwksCacheTtlSeconds : Int

/-- The text, if it is truthy. -/
def nonEmpty (value : Option String) : Option String := value.filter (· ≠ "")

theorem nonEmpty_eq_some {value : Option String} {s : String} : nonEmpty value = some s ↔ value = some s ∧ s ≠ "" := by
  simp only [nonEmpty, Option.filter_eq_some_iff, decide_eq_true_eq]

/-- Require a positive cache TTL when OIDC is enabled. -/
def validatePositiveTtl (value : Int) : Except String Int :=
  if value ≤ 0 then .error "oidc_jwks_cache_ttl_seconds must be greater than 0" else .ok value

/-- Require the minimum OIDC configuration when auth is enabled. -/
def validateRequiredOidcFields (U : Unicode) (s : RawOIDCSettings) : Except String RawOIDCSettings :=
  if ¬ s.oidcEnabled then .ok s
  else if nonEmpty s.oidcIssuerUrl = none then .error "oidc_issuer_url is required when oidc_enabled=true"
  else if s.oidcRoleClaimPaths = [] then .error "oidc_role_claim_paths must not be empty when oidc_enabled=true"
  else if U.strip s.oidcUserRoleName = "" then .error "oidc_user_role_name must not be empty when oidc_enabled=true"
  else if U.strip s.oidcAdminRoleName = "" then .error "oidc_admin_role_name must not be empty when oidc_enabled=true"
  else if s.oidcUserRoleName = s.oidcAdminRoleName then
    .error "oidc_user_role_name and oidc_admin_role_name must be different"
  else .ok s

/-- Settings that the validators accept. -/
structure ValidOIDCSettings (U : Unicode) extends RawOIDCSettings where
  ttl_accepted : validatePositiveTtl oidcJwksCacheTtlSeconds = .ok oidcJwksCacheTtlSeconds
  accepted : validateRequiredOidcFields U toRawOIDCSettings = .ok toRawOIDCSettings

/-- `str.rstrip("/")`. -/
def rstripSlash (s : String) : String := String.ofList (s.toList.rdropWhile (· = '/'))

/-- Return the explicit discovery URL or derive it from the issuer. -/
def RawOIDCSettings.discoveryUrl (s : RawOIDCSettings) : Option String :=
  match nonEmpty s.oidcDiscoveryUrl with
  | some url => some url
  | none => (nonEmpty s.oidcIssuerUrl).map fun issuer => rstripSlash issuer ++ "/.well-known/openid-configuration"

/-- How long a document of the provider is kept. -/
def RawOIDCSettings.ttl (s : RawOIDCSettings) : Time := seconds s.oidcJwksCacheTtlSeconds

theorem ValidOIDCSettings.ttl_pos {U : Unicode} (s : ValidOIDCSettings U) : 0 < s.ttl := by
  have h := s.ttl_accepted
  unfold validatePositiveTtl at h
  split_ifs at h with hle
  exact mul_pos (not_le.mp hle) (by decide)

/-- With OIDC enabled there is an issuer. -/
theorem ValidOIDCSettings.issuer {U : Unicode} (s : ValidOIDCSettings U) (henabled : s.oidcEnabled) :
    ∃ issuer, nonEmpty s.oidcIssuerUrl = some issuer := by
  have h := s.accepted
  unfold validateRequiredOidcFields at h
  rw [if_neg (not_not_intro henabled)] at h
  split_ifs at h with hnone
  exact Option.ne_none_iff_exists'.mp hnone

/-! ## The parameters of a check -/

/-- The entries of a JSON object. -/
abbrev JsonObject := List (String × Json)

/-- What the token library raises. -/
inductive JwtError
  | invalidToken
  | expiredSignature
  | invalidKey
  | other
  deriving DecidableEq, Repr

/-- The entries that are read of the header of a token; the library lets no key identifier through that is not text. -/
structure TokenHeader where
  alg : Option Json
  kid : Option String

/-- The token library: `jwt.get_unverified_header`, `jwt.PyJWK.from_dict(..).key` of a key and an algorithm, and
`jwt.decode` of a token, a key, an algorithm and an issuer. -/
structure Jwt (Key : Type) where
  getUnverifiedHeader : String → Except JwtError TokenHeader
  signingKey : JsonObject → Json → Except JwtError Key
  decode : String → Key → Json → Json → Except JwtError Json

/-- The surroundings of an authorization; `nonZero` says which numbers are truthy. -/
structure OIDCEnv (Key : Type) where
  unicode : Unicode
  settings : ValidOIDCSettings unicode
  jwt : Jwt Key
  nonZero : String → Bool

/-- What an authorization raises: the error that the middleware answers, or an exception that it does not catch. -/
inductive AuthFailure
  | oidc (e : OIDCAuthenticationError)
  | unhandled
  deriving DecidableEq, Repr

def invalidBearerToken : AuthFailure := .oidc ⟨401, "invalid bearer token"⟩

def providerUnavailable : AuthFailure := .oidc ⟨503, "authentication provider unavailable"⟩

def unknownSigningKey : AuthFailure := .oidc ⟨401, "unknown signing key"⟩

/-- Whether a value is truthy. -/
def Json.truthy (nonZero : String → Bool) : Json → Bool
  | .null => false
  | .bool b => b
  | .number text => nonZero text
  | .string s => s ≠ ""
  | .array items => !items.isEmpty
  | .object entries => !entries.isEmpty

/-! ## The checks -/

/-- Parse a standard Authorization header and return the Bearer token. -/
def extractBearerToken (U : Unicode) (authorization : Option String) :
    Except OIDCAuthenticationError (Option String) :=
  match nonEmpty authorization with
  | none => .ok none
  | some authorization =>
    let scheme := String.ofList (authorization.toList.takeWhile (· ≠ ' '))
    let token := String.ofList ((authorization.toList.dropWhile (· ≠ ' ')).drop 1)
    if U.lower scheme ≠ "bearer" ∨ token = "" then .error ⟨401, "invalid authorization header"⟩ else .ok (some token)

/-- What is known of a token before its key is loaded. -/
structure TokenCheck where
  token : String
  issuer : Json
  jwksUri : String
  algorithm : Json
  keyId : String

section Checks

variable {Key : Type} (env : OIDCEnv Key)

/-- The issuer that a token must name: the public one when it is configured. -/
def OIDCEnv.issuer (metadata : JsonObject) : Option Json :=
  match nonEmpty env.settings.oidcIssuerUrl with
  | some issuer => some (.string issuer)
  | none => metadata.lookup "issuer"

/-- `_decode_token` from the discovery document to where the key is needed. -/
def startDecode (token : String) (metadata : JsonObject) : Except AuthFailure TokenCheck :=
  match (env.issuer metadata).filter (·.truthy env.nonZero),
    (metadata.lookup "jwks_uri").filter (·.truthy env.nonZero) with
  | some issuer, some jwksUri =>
    match env.jwt.getUnverifiedHeader token with
    | .error .invalidToken | .error .expiredSignature => .error invalidBearerToken
    | .error _ => .error .unhandled
    | .ok header =>
      match header.alg.filter (·.truthy env.nonZero), nonEmpty header.kid with
      | none, _ | some (.string "none"), _ => .error invalidBearerToken
      | some _, none => .error (.oidc ⟨401, "missing key identifier"⟩)
      | some algorithm, some keyId =>
        -- a URI that is no text can be neither looked up nor fetched
        match jwksUri with
        | .string jwksUri => .ok ⟨token, issuer, jwksUri, algorithm, keyId⟩
        | _ => .error .unhandled
  | _, _ => .error providerUnavailable

/-- The candidate, if it is an object with the key identifier. -/
def keyCandidate (keyId : String) : Json → Option JsonObject
  | .object entries =>
    match entries.lookup "kid" with
    | some (.string kid) => if kid = keyId then some entries else none
    | _ => none
  | _ => none

/-- The JSON Web Key identified by the token header. -/
def findKey (jwks : JsonObject) (keyId : String) : Except AuthFailure JsonObject :=
  match jwks.lookup "keys" with
  | some (.array keys) =>
    match keys.findSome? (keyCandidate keyId) with
    | some jwk => .ok jwk
    | none => .error unknownSigningKey
  | _ => .error providerUnavailable

/-- `_decode_token` from the key set on. -/
def finishDecode (check : TokenCheck) (jwks : JsonObject) : Except AuthFailure JsonObject := do
  let jwk ← findKey jwks check.keyId
  match env.jwt.signingKey jwk check.algorithm with
  | .error .invalidKey => .error (.oidc ⟨401, "invalid signing key"⟩)
  | .error _ => .error .unhandled
  | .ok key =>
    match env.jwt.decode check.token key check.algorithm check.issuer with
    | .error .expiredSignature => .error (.oidc ⟨401, "expired bearer token"⟩)
    | .error .invalidToken => .error invalidBearerToken
    | .error _ => .error .unhandled
    | .ok (.object claims) => .ok claims
    | .ok _ => .error invalidBearerToken

/-- The rest of `authorize_request` once the key set is there. -/
def authorizeWithKeys (check : TokenCheck) (jwks : JsonObject) (requiredRole : String) :
    Except AuthFailure AuthenticatedPrincipal := do
  let claims ← finishDecode env check jwks
  (authorizeClaims env.settings.toOIDCSettings claims requiredRole).mapError .oidc

end Checks

/-! ## What a request has passed -/

/-- The key set lists a key under the identifier. -/
def Lists (jwks : JsonObject) (keyId : String) (jwk : JsonObject) : Prop :=
  ∃ keys, jwks.lookup "keys" = some (.array keys) ∧ .object jwk ∈ keys ∧ jwk.lookup "kid" = some (.string keyId)

/-- The role that was required is among the roles of the principal, or the admin role where a user is enough. -/
def RawOIDCSettings.Permits (s : RawOIDCSettings) (requiredRole : String) (p : AuthenticatedPrincipal) : Prop :=
  requiredRole = "user" ∧ p.canRead s.toOIDCSettings ∨ requiredRole = "admin" ∧ p.canWrite s.toOIDCSettings

/-- What a token was checked with. -/
structure Evidence (Key : Type) where
  check : TokenCheck
  jwk : JsonObject
  key : Key
  claims : JsonObject

section Accepts

variable {Key : Type} {env : OIDCEnv Key}

/-- What is found of a token with a discovery document. -/
structure TokenCheck.Started (check : TokenCheck) (env : OIDCEnv Key) (metadata : JsonObject) : Prop where
  header : env.jwt.getUnverifiedHeader check.token = .ok ⟨some check.algorithm, some check.keyId⟩
  signed : check.algorithm ≠ .string "none"
  uri : metadata.lookup "jwks_uri" = some (.string check.jwksUri)
  issuer : env.issuer metadata = some check.issuer

/-- Everything that a request which is let through has passed. -/
structure Evidence.Accepts (e : Evidence Key) (env : OIDCEnv Key) (metadata jwks : JsonObject) (requiredRole : String)
    (p : AuthenticatedPrincipal) : Prop where
  started : e.check.Started env metadata
  listed : Lists jwks e.check.keyId e.jwk
  key : env.jwt.signingKey e.jwk e.check.algorithm = .ok e.key
  decoded : env.jwt.decode e.check.token e.key e.check.algorithm e.check.issuer = .ok (.object e.claims)
  principal : principalFromClaims env.settings.toOIDCSettings e.claims = .ok p
  permits : env.settings.Permits requiredRole p

theorem keyCandidate_eq_some {keyId : String} {candidate : Json} {jwk : JsonObject} :
    keyCandidate keyId candidate = some jwk ↔ candidate = .object jwk ∧ jwk.lookup "kid" = some (.string keyId) := by
  cases candidate with
  | object entries =>
    rw [keyCandidate, Json.object.injEq]
    split
    case h_1 kid hkid =>
      split_ifs with heq
      · subst heq
        constructor
        · rintro ⟨⟩
          exact ⟨rfl, hkid⟩
        · rintro ⟨rfl, -⟩
          rfl
      · constructor
        · rintro ⟨⟩
        · rintro ⟨rfl, hlisted⟩
          rw [hkid] at hlisted
          cases hlisted
          exact absurd rfl heq
    case h_2 hno =>
      constructor
      · rintro ⟨⟩
      · rintro ⟨rfl, hlisted⟩
        exact absurd hlisted (hno keyId)
  | null | bool | number | string | array => simp [keyCandidate]

theorem findKey_ok {jwks jwk : JsonObject} {keyId : String} (h : findKey jwks keyId = .ok jwk) :
    Lists jwks keyId jwk := by
  unfold findKey at h
  split at h
  case h_1 keys hkeys =>
    cases hfound : keys.findSome? (keyCandidate keyId) with
    | none =>
      rw [hfound] at h
      cases h
    | some found =>
      rw [hfound] at h
      cases h
      obtain ⟨candidate, hcandidate, hkey⟩ := List.exists_of_findSome?_eq_some hfound
      obtain ⟨rfl, hkid⟩ := keyCandidate_eq_some.mp hkey
      exact ⟨keys, hkeys, hcandidate, hkid⟩
  case h_2 => cases h

/-- A key that is listed is found. -/
theorem findKey_of_lists {jwks jwk : JsonObject} {keyId : String} (h : Lists jwks keyId jwk) :
    ∃ found, findKey jwks keyId = .ok found := by
  obtain ⟨keys, hkeys, hmem, hkid⟩ := h
  have hsome : (keys.findSome? (keyCandidate keyId)).isSome :=
    List.findSome?_isSome_iff.mpr ⟨_, hmem, by rw [keyCandidate_eq_some.mpr ⟨rfl, hkid⟩]; rfl⟩
  obtain ⟨found, hfound⟩ := Option.isSome_iff_exists.mp hsome
  exact ⟨found, by simp only [findKey, hkeys, hfound]⟩

theorem startDecode_ok {token : String} {metadata : JsonObject} {check : TokenCheck}
    (h : startDecode env token metadata = .ok check) : check.token = token ∧ check.Started env metadata := by
  unfold startDecode at h
  split at h
  case h_2 => cases h
  case h_1 issuer jwksUri hissuer huri =>
    split at h
    case h_1 | h_2 | h_3 => cases h
    case h_4 header hheader =>
      split at h
      case h_1 | h_2 | h_3 => cases h
      case h_4 algorithm keyId hnone halg hkid =>
        split at h
        case h_2 => cases h
        case h_1 jwksUri =>
          cases h
          obtain ⟨hissuer, -⟩ := Option.filter_eq_some_iff.mp hissuer
          obtain ⟨huri, -⟩ := Option.filter_eq_some_iff.mp huri
          obtain ⟨halg, -⟩ := Option.filter_eq_some_iff.mp halg
          obtain ⟨hkid, -⟩ := nonEmpty_eq_some.mp hkid
          refine ⟨rfl, ?_, hnone, huri, hissuer⟩
          rw [hheader, ← halg, ← hkid]

theorem finishDecode_ok {check : TokenCheck} {jwks claims : JsonObject} (h : finishDecode env check jwks = .ok claims) :
    ∃ jwk key, Lists jwks check.keyId jwk ∧ env.jwt.signingKey jwk check.algorithm = .ok key ∧
      env.jwt.decode check.token key check.algorithm check.issuer = .ok (.object claims) := by
  obtain ⟨jwk, hjwk, h⟩ := bind_ok_iff.mp h
  split at h
  case h_1 | h_2 => cases h
  case h_3 key hkey =>
    split at h
    case h_1 | h_2 | h_3 | h_5 => cases h
    case h_4 claims hclaims =>
      cases h
      exact ⟨jwk, key, findKey_ok hjwk, hkey, hclaims⟩

theorem authorizeClaims_ok {settings : OIDCSettings} {claims : JsonObject} {requiredRole : String}
    {p : AuthenticatedPrincipal} (h : authorizeClaims settings claims requiredRole = .ok p) :
    principalFromClaims settings claims = .ok p ∧
      (requiredRole = "user" ∧ p.canRead settings ∨ requiredRole = "admin" ∧ p.canWrite settings) := by
  obtain ⟨q, hq, h⟩ := bind_ok_iff.mp h
  split_ifs at h with huser hadmin
  · cases h
    exact ⟨hq, .inl huser⟩
  · cases h
    exact ⟨hq, .inr hadmin⟩

/-- A request that is let through has passed everything. -/
theorem authorizeWithKeys_ok {check : TokenCheck} {metadata jwks : JsonObject} {requiredRole : String}
    {p : AuthenticatedPrincipal} (hstarted : check.Started env metadata)
    (h : authorizeWithKeys env check jwks requiredRole = .ok p) :
    ∃ e : Evidence Key, e.check = check ∧ e.Accepts env metadata jwks requiredRole p := by
  obtain ⟨claims, hclaims, h⟩ := bind_ok_iff.mp h
  obtain ⟨jwk, key, hlisted, hkey, hdecoded⟩ := finishDecode_ok hclaims
  have hauthorized : authorizeClaims env.settings.toOIDCSettings claims requiredRole = .ok p := by
    cases hclaims' : authorizeClaims env.settings.toOIDCSettings claims requiredRole with
    | error e =>
      rw [hclaims'] at h
      cases h
    | ok q =>
      rw [hclaims'] at h
      cases h
      rfl
  obtain ⟨hprincipal, hpermits⟩ := authorizeClaims_ok hauthorized
  exact ⟨⟨check, jwk, key, claims⟩, rfl, hstarted, hlisted, hkey, hdecoded, hprincipal, hpermits⟩

theorem authorizeClaims_error {settings : OIDCSettings} {claims : JsonObject} {requiredRole : String}
    {e : OIDCAuthenticationError} (h : authorizeClaims settings claims requiredRole = .error e) :
    e = ⟨401, "invalid bearer token"⟩ ∨ e = ⟨403, "insufficient role"⟩ := by
  unfold authorizeClaims at h
  cases hprincipal : principalFromClaims settings claims with
  | error e' =>
    rw [hprincipal] at h
    cases h
    unfold principalFromClaims at hprincipal
    split at hprincipal
    case h_1 =>
      split_ifs at hprincipal
      cases hprincipal
      exact .inl rfl
    case h_2 =>
      cases hprincipal
      exact .inl rfl
  | ok p =>
    rw [hprincipal] at h
    simp only [bind, Except.bind] at h
    split_ifs at h
    · cases h
    · cases h
    · exact .inr (Except.error.inj h).symm

/-- The key of a token is unknown only to a key set that does not list it. -/
theorem authorizeWithKeys_unknown {check : TokenCheck} {jwks : JsonObject} {requiredRole : String}
    (h : authorizeWithKeys env check jwks requiredRole = .error unknownSigningKey) :
    ∀ jwk, ¬ Lists jwks check.keyId jwk := by
  intro jwk hlisted
  obtain ⟨found, hfound⟩ := findKey_of_lists hlisted
  have hfinish : finishDecode env check jwks ≠ .error unknownSigningKey := by
    intro hfinish
    rw [finishDecode, hfound] at hfinish
    simp only [bind, Except.bind] at hfinish
    split at hfinish
    case h_1 | h_2 => simp [unknownSigningKey] at hfinish
    case h_3 => split at hfinish <;> simp [unknownSigningKey, invalidBearerToken] at hfinish
  unfold authorizeWithKeys at h
  cases hclaims : finishDecode env check jwks with
  | error e =>
    rw [hclaims] at h
    obtain rfl : e = unknownSigningKey := Except.error.inj h
    exact hfinish hclaims
  | ok claims =>
    rw [hclaims] at h
    cases hauthorized : authorizeClaims env.settings.toOIDCSettings claims requiredRole with
    | error e =>
      simp only [bind, Except.bind, hauthorized, Except.mapError] at h
      have he : e = ⟨401, "unknown signing key"⟩ := AuthFailure.oidc.inj (Except.error.inj h)
      rcases authorizeClaims_error hauthorized with heq | heq
      · exact absurd (he.symm.trans heq) (by decide)
      · exact absurd (he.symm.trans heq) (by decide)
    | ok p =>
      simp only [bind, Except.bind, hauthorized, Except.mapError] at h
      cases h

end Accepts

end Washing
