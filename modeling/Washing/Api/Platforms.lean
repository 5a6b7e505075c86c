import Washing.Api.Plan

/-!
# Platform routes
-/

namespace Washing

namespace Routes

open Resources

/-- Create a platform entry. -/
def createPlatform (env : ApiEnv) (s : Store) (body : PlatformCreate) : Except HttpException Plan := do
  let payload ← body.validate env
  return {
    statement := some (.insertPlatform payload.name payload.description payload.extra)
    conflict := some "platform name already exists"
    view := .platform s.nextId }

/-- The order of the lists of named rows. -/
def namedLe (a b : String × Nat) : Prop := toLex a ≤ toLex b

instance : DecidableRel namedLe := fun a b => inferInstanceAs (Decidable (toLex a ≤ toLex b))

/-- List platforms with stable offset pagination. -/
def listPlatforms (env : ApiEnv) (s : Store) (offset limit : Nat) :
    Except HttpException (PaginatedResponse PlatformRead) :=
  (paginateQuery s.platforms (fun a b => namedLe (a.name, a.id) (b.name, b.id)) offset limit).serialize
    (PlatformRead.modelValidate env)

/-- Return one platform by id. -/
def getPlatform (env : ApiEnv) (s : Store) (platformId : Nat) : Except HttpException PlatformRead := do
  let platform ← getOr404 s.platforms platformId "platform not found"
  PlatformRead.modelValidate env platform

/-- Patch an existing platform. -/
def updatePlatform (s : Store) (platformId : Nat) (payload : PlatformUpdate) : Except HttpException Plan := do
  let platform ← getOr404 s.platforms platformId "platform not found"
  -- `apply_patch`: an explicit null is assigned like any other value
  let changes : PlatformChanges := {
    description := match payload.description with
      | .value text => if some text = platform.description then .unset else .value text
      | field => field
    extra := match payload.extra with
      | .value json => if some json = platform.extra then .unset else .value json
      | field => field }
  return {
    statement := if changes = ⟨.unset, .unset⟩ then none else some (.updatePlatform platformId changes)
    conflict := none
    view := .platform platformId }

/-- Delete a platform. -/
def deletePlatform (s : Store) (platformId : Nat) : Except HttpException Plan := do
  let _ ← getOr404 s.platforms platformId "platform not found"
  return { statement := some (.deletePlatform platformId), conflict := none, view := .noContent }

end Routes

end Washing
