import Washing.Lib.Json

/-!
# Roles of a principal

The roles of a principal are read from the claims of its token, along configured dotted paths. `extractRoles` walks the
paths one after the other and collects the texts it finds; `mem_extractRoles` says that these are the texts that the
paths reach, and nothing else. Who may write is decided by them alone (`AuthenticatedPrincipal.canWrite`).
-/

namespace Washing

/-! ## Extraction -/

/-- `path.split(".")`. -/
def pathSegments (path : String) : List String := (path.toList.splitOn '.').map String.ofList

/-- Walk a dotted path with optional '*' wildcards across dictionaries. -/
def extractPathValues : List String → Json → List Json
  | [], value => [value]
  | _ :: _, .null => []
  | head :: tail, value =>
    if head = "*" then
      match value with
      | .object entries => (entries.map Prod.snd).flatMap (extractPathValues tail)
      | .array items => items.flatMap (extractPathValues tail)
      | _ => []
    else
      match value with
      | .object entries =>
        match entries.lookup head with
        | some child => extractPathValues tail child
        | none => []
      | _ => []

/-- The text, if `isinstance(value, str) and value`. -/
def nonEmptyText : Json → Option String
  | .string s => if s = "" then none else some s
  | _ => none

/-- Add the role names found at one place. -/
def addRoles (roles : Finset String) (value : Json) : Finset String :=
  match nonEmptyText value with
  | some role => insert role roles
  | none =>
    match value with
    | .array items => roles ∪ (items.filterMap nonEmptyText).toFinset
    | _ => roles

/-- Extract role names from one or more configurable claim paths. -/
def extractRoles (claims : List (String × Json)) (paths : List String) : Finset String :=
  paths.foldl (fun roles path => (extractPathValues (pathSegments path) (.object claims)).foldl addRoles roles) ∅

/-! ## Principals -/

/-- The settings that the roles depend on. -/
structure OIDCSettings where
  oidcRoleClaimPaths : List String
  oidcUserRoleName : String
  oidcAdminRoleName : String

/-- A request that cannot be authenticated or authorized. -/
structure OIDCAuthenticationError where
  statusCode : Nat
  detail : String
  deriving DecidableEq, Repr

/-- Normalized authenticated principal extracted from an OIDC token. -/
structure AuthenticatedPrincipal where
  subject : String
  username : Option String
  roles : Finset String
  deriving DecidableEq

namespace AuthenticatedPrincipal

/-- Whether the principal is allowed to consult protected routes. -/
def canRead (p : AuthenticatedPrincipal) (settings : OIDCSettings) : Prop :=
  settings.oidcUserRoleName ∈ p.roles ∨ settings.oidcAdminRoleName ∈ p.roles

/-- Whether the principal is allowed to mutate or execute actions. -/
def canWrite (p : AuthenticatedPrincipal) (settings : OIDCSettings) : Prop := settings.oidcAdminRoleName ∈ p.roles

instance (p : AuthenticatedPrincipal) (settings : OIDCSettings) : Decidable (p.canRead settings) :=
  inferInstanceAs (Decidable (_ ∨ _))

instance (p : AuthenticatedPrincipal) (settings : OIDCSettings) : Decidable (p.canWrite settings) :=
  inferInstanceAs (Decidable (_ ∈ _))

end AuthenticatedPrincipal

/-- The text, if `isinstance(value, str)`. -/
def claimText : Option Json → Option String
  | some (.string s) => some s
  | _ => none

/-- Normalize the validated claims payload to one principal object. -/
def principalFromClaims (settings : OIDCSettings) (claims : List (String × Json)) :
    Except OIDCAuthenticationError AuthenticatedPrincipal :=
  match claims.lookup "sub" with
  | some (.string subject) =>
    if subject = "" then .error ⟨401, "invalid bearer token"⟩
    else
      let username := (claimText (claims.lookup "preferred_username")).or (claimText (claims.lookup "email"))
      .ok ⟨subject, username, extractRoles claims settings.oidcRoleClaimPaths⟩
  | _ => .error ⟨401, "invalid bearer token"⟩

/-- The principal that a request with these claims is let through as, the required role being given. -/
def authorizeClaims (settings : OIDCSettings) (claims : List (String × Json)) (requiredRole : String) :
    Except OIDCAuthenticationError AuthenticatedPrincipal := do
  let principal ← principalFromClaims settings claims
  if requiredRole = "user" ∧ principal.canRead settings then return principal
  if requiredRole = "admin" ∧ principal.canWrite settings then return principal
  throw ⟨403, "insufficient role"⟩

/-! ## What the paths reach -/

open Json

theorem extractPathValues_cons (head : String) (tail : List String) (value : Json) :
    extractPathValues (head :: tail) value = (value.children head).flatMap (extractPathValues tail) := by
  by_cases hwild : head = "*"
  · subst hwild
    cases value <;> rfl
  · cases value with
    | object entries =>
      have hwalk : extractPathValues (head :: tail) (.object entries) =
          match entries.lookup head with
          | some child => extractPathValues tail child
          | none => [] := if_neg hwild
      have hchildren : (Json.object entries).children head = (entries.lookup head).toList := if_neg hwild
      rw [hwalk, hchildren]
      cases entries.lookup head <;> simp
    | null | bool | number | string | array => simp [extractPathValues, children, wildcard, hwild]

theorem mem_extractPathValues {node : Json} : ∀ {segments : List String} {value : Json},
    node ∈ extractPathValues segments value ↔ Reaches segments value node
  | [], value => by
    rw [reaches_nil, extractPathValues, List.mem_singleton]
  | head :: tail, value => by
    have ih : ∀ child, node ∈ extractPathValues tail child ↔ Reaches tail child node := fun _ => mem_extractPathValues
    rw [reaches_cons, extractPathValues_cons, List.mem_flatMap]
    simp only [mem_children, ih]

theorem nonEmptyText_eq_some {value : Json} {r : String} :
    nonEmptyText value = some r ↔ r ≠ "" ∧ value = .string r := by
  cases value with
  | string s =>
    rw [nonEmptyText]
    by_cases hs : s = ""
    · rw [if_pos hs]
      constructor
      · nofun
      · rintro ⟨hr, heq⟩
        cases heq
        exact absurd hs hr
    · rw [if_neg hs]
      constructor
      · intro h
        cases h
        exact ⟨hs, rfl⟩
      · rintro ⟨-, heq⟩
        cases heq
        rfl
  | null | bool | number | array | object => simp [nonEmptyText]

theorem mem_addRoles {roles : Finset String} {value : Json} {r : String} :
    r ∈ addRoles roles value ↔ r ∈ roles ∨ r ≠ "" ∧ value.Holds r := by
  unfold addRoles
  cases htext : nonEmptyText value with
  | some s =>
    obtain ⟨hs, rfl⟩ := nonEmptyText_eq_some.mp htext
    simp only [Finset.mem_insert, Holds, Json.string.injEq, reduceCtorEq, false_and, exists_false, or_false]
    constructor
    · rintro (rfl | hr)
      · exact .inr ⟨hs, rfl⟩
      · exact .inl hr
    · exact fun h => h.symm.imp (fun h => h.2.symm) id
  | none =>
    have hno : ¬ (r ≠ "" ∧ value = .string r) := fun h => by
      rw [nonEmptyText_eq_some.mpr h] at htext
      cases htext
    cases value with
    | array items =>
      simp only [Finset.mem_union, List.mem_toFinset, List.mem_filterMap, nonEmptyText_eq_some, Holds, Json.array.injEq,
        reduceCtorEq, false_or, exists_eq_left']
      refine or_congr_right ⟨?_, fun ⟨hr, hmem⟩ => ⟨_, hmem, hr, rfl⟩⟩
      rintro ⟨_, hmem, hr, rfl⟩
      exact ⟨hr, hmem⟩
    | null | bool | number | string | object =>
      refine (or_iff_left ?_).symm
      rintro ⟨hr, heq | ⟨items, heq, -⟩⟩
      · exact hno ⟨hr, heq⟩
      · cases heq

theorem mem_foldl_addRoles {r : String} : ∀ {values : List Json} {roles : Finset String},
    r ∈ values.foldl addRoles roles ↔ r ∈ roles ∨ r ≠ "" ∧ ∃ value ∈ values, value.Holds r
  | [], roles => by simp
  | value :: values, roles => by
    rw [List.foldl_cons, mem_foldl_addRoles, mem_addRoles]
    simp only [List.exists_mem_cons_iff]
    tauto

/-- The configured paths lead from the claims to a place with the text. -/
def Named (claims : List (String × Json)) (paths : List String) (s : String) : Prop :=
  ∃ path ∈ paths, ∃ node, Reaches (pathSegments path) (.object claims) node ∧ node.Holds s

theorem mem_extractRoles {claims : List (String × Json)} {paths : List String} {r : String} :
    r ∈ extractRoles claims paths ↔ r ≠ "" ∧ Named claims paths r := by
  have hfold : ∀ (paths : List String) (roles : Finset String),
      r ∈ paths.foldl (fun roles path => (extractPathValues (pathSegments path) (.object claims)).foldl addRoles roles)
        roles ↔ r ∈ roles ∨ r ≠ "" ∧ Named claims paths r := by
    intro paths
    induction paths with
    | nil => simp [Named]
    | cons path paths ih =>
      intro roles
      rw [List.foldl_cons, ih, mem_foldl_addRoles]
      simp only [mem_extractPathValues, Named, List.exists_mem_cons_iff]
      rw [or_assoc, ← and_or_left]
  simpa [extractRoles] using hfold paths ∅

/-! ## Additions to the claims -/

/-- What the paths lead to is still there after additions to the claims. -/
theorem Named.grows {claims claims' : List (String × Json)} {paths : List String} {s : String}
    (h : Named claims paths s) (hadds : Relation.ReflTransGen Adds (.object claims) (.object claims')) :
    Named claims' paths s := by
  obtain ⟨path, hpath, node, hreaches, hholds⟩ := h
  have hgrown : ∀ v, Relation.ReflTransGen Adds (.object claims) v →
      ∃ node', Reaches (pathSegments path) v node' ∧ node'.Holds s := by
    intro v hv
    induction hv with
    | refl => exact ⟨node, hreaches, hholds⟩
    | tail _ hstep ih =>
      obtain ⟨node', hreaches', hholds'⟩ := ih
      obtain ⟨u, hu, hgrows⟩ := hreaches'.adds (.inr hstep)
      exact ⟨u, hu, hholds'.grows hgrows⟩
  obtain ⟨node', hreaches', hholds'⟩ := hgrown _ hadds
  exact ⟨path, hpath, node', hreaches', hholds'⟩

/-- The roles of a principal are the ones extracted from its claims. -/
theorem roles_of_principal {settings : OIDCSettings} {claims : List (String × Json)} {p : AuthenticatedPrincipal}
    (h : principalFromClaims settings claims = .ok p) : p.roles = extractRoles claims settings.oidcRoleClaimPaths := by
  unfold principalFromClaims at h
  split at h
  · split_ifs at h
    cases h
    rfl
  · cases h

/-- A request is let through for the admin role only if the principal may write. -/
theorem authorizeClaims_admin {settings : OIDCSettings} {claims : List (String × Json)} {p : AuthenticatedPrincipal} :
    authorizeClaims settings claims "admin" = .ok p ↔
      principalFromClaims settings claims = .ok p ∧ p.canWrite settings := by
  have huser : ¬ ("admin" : String) = "user" := by decide
  unfold authorizeClaims
  cases principalFromClaims settings claims with
  | error e => exact ⟨nofun, nofun⟩
  | ok q =>
    simp only [bind, Except.bind, pure, Except.pure, throw, throwThe, MonadExceptOf.throw, huser, false_and, if_false,
      true_and]
    by_cases hwrite : q.canWrite settings
    · rw [if_pos hwrite]
      constructor
      · intro h
        cases h
        exact ⟨rfl, hwrite⟩
      · exact fun h => h.1
    · rw [if_neg hwrite]
      constructor
      · nofun
      · rintro ⟨h, hp⟩
        cases h
        exact absurd hp hwrite

/-- The extracted roles are the texts that the paths reach; additions to the claims remove none; a principal may write
exactly when the paths reach the name of the admin role, and only then is a request for that role let through. -/
theorem roles_are_named (claims : List (String × Json)) :
    (∀ paths r, r ∈ extractRoles claims paths ↔ r ≠ "" ∧ Named claims paths r) ∧
    (∀ paths claims', Relation.ReflTransGen Adds (.object claims) (.object claims') →
      extractRoles claims paths ⊆ extractRoles claims' paths) ∧
    (∀ settings p, principalFromClaims settings claims = .ok p → (p.canWrite settings ↔
      settings.oidcAdminRoleName ≠ "" ∧ Named claims settings.oidcRoleClaimPaths settings.oidcAdminRoleName)) ∧
    ∀ settings p, authorizeClaims settings claims "admin" = .ok p →
      Named claims settings.oidcRoleClaimPaths settings.oidcAdminRoleName := by
  have hwrite : ∀ settings p, principalFromClaims settings claims = .ok p → (p.canWrite settings ↔
      settings.oidcAdminRoleName ≠ "" ∧ Named claims settings.oidcRoleClaimPaths settings.oidcAdminRoleName) := by
    intro settings p hp
    rw [AuthenticatedPrincipal.canWrite, roles_of_principal hp]
    exact mem_extractRoles
  refine ⟨fun paths r => mem_extractRoles, fun paths claims' hadds r hr => ?_, hwrite, fun settings p hp => ?_⟩
  · obtain ⟨hne, hnamed⟩ := mem_extractRoles.mp hr
    exact mem_extractRoles.mpr ⟨hne, hnamed.grows hadds⟩
  · obtain ⟨hprincipal, hadmin⟩ := authorizeClaims_admin.mp hp
    exact ((hwrite settings p hprincipal).mp hadmin).2

/-- A token with a role below a wildcard. -/
def clientClaims : List (String × Json) :=
  [("sub", .string "alice"),
    ("resource_access", .object [("api", .object [("roles", .array [.string "user"])]), ("account", .null)])]

/-- The default paths, with the role of the token as the admin role. -/
def clientSettings : OIDCSettings := ⟨["realm_access.roles", "resource_access.*.roles", "roles"], "viewer", "user"⟩

theorem roles_are_named_client :
    "user" ∈ extractRoles (clientClaims ++ [("roles", .array [.string "admin"])]) clientSettings.oidcRoleClaimPaths ∧
    (⟨"alice", none, {"user"}⟩ : AuthenticatedPrincipal).canWrite clientSettings := by
  obtain ⟨hroles, hgrows, hadmin, -⟩ := roles_are_named clientClaims
  have huser : extractRoles clientClaims clientSettings.oidcRoleClaimPaths = {"user"} := by decide +kernel
  have hmem : "user" ∈ extractRoles clientClaims clientSettings.oidcRoleClaimPaths := by decide +kernel
  have hadds : Adds (.object clientClaims) (.object (clientClaims ++ [("roles", .array [.string "admin"])])) :=
    @Adds.key clientClaims [] "roles" (.array [.string "admin"]) (by decide)
  have hprincipal : principalFromClaims clientSettings clientClaims = .ok ⟨"alice", none, {"user"}⟩ := by
    rw [← huser]
    rfl
  exact ⟨hgrows _ _ (.single hadds) hmem, (hadmin clientSettings _ hprincipal).mpr ((hroles _ _).mp hmem)⟩

end Washing
