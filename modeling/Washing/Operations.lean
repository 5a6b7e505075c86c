import Washing.Api.Requests
import Washing.Inventory.Run
import Washing.Metrics.Collection

/-!
# Operations

What writes the connectors, the machines and the samples: the requests of the API, the inventory runs of the
provisioners and the collections of the providers. One operation follows the other here; each run has its own
surroundings, with its connector and its clock.
-/

namespace Washing

/-- No rows at all. -/
def Store.empty : Store := { Database.empty with platforms := [] }

theorem Store.intact_empty : Store.empty.Intact where
  platforms := .nil
  providers := .nil
  provisioners := .nil
  machines := .nil
  attachments := fun _ h => absurd h List.not_mem_nil
  sources := fun _ h => absurd h List.not_mem_nil
  samples := fun scope _ h => by cases scope <;> exact absurd h List.not_mem_nil

inductive Operation
  | request (request : Request)
  | inventory (env : InventoryEnv) (mock : InventoryConnector) (provisionerId : Nat)
  | collection (env : CollectionEnv) (providerId machineId : Nat)

/-- The committed rows after an operation. -/
def Operation.run (api : ApiEnv) (s : Store) : Operation → Store
  | request r => (r.handle api s).1
  | inventory env mock provisionerId =>
    { s with toDatabase := (runProvisionerInventory env mock s.toDatabase 0 provisionerId).db }
  | collection env providerId machineId =>
    { s with toDatabase := (runProviderMachineCollection env s.toDatabase providerId machineId).1 }

/-- The committed rows after some operations. -/
def runOperations (api : ApiEnv) (s : Store) (operations : List Operation) : Store :=
  operations.foldl (Operation.run api) s

/-- A request leaves the rows as its commit leaves them, or as they were. -/
theorem Request.handle_cases (env : ApiEnv) (s : Store) (request : Request) :
    (∃ e, request.handle env s = (s, .error e)) ∨ ∃ plan s', request.plan env s = .ok plan ∧
      plan.commit env.storable s = .ok s' ∧ request.handle env s = (s', plan.view.respond env s') := by
  unfold handle
  cases hplan : request.plan env s with
  | error e => exact .inl ⟨e, rfl⟩
  | ok plan =>
    cases hcommit : plan.commit env.storable s with
    | error e => exact .inl ⟨e, by simp only [hcommit]⟩
    | ok s' => exact .inr ⟨plan, s', rfl, hcommit, by simp only [hcommit]⟩

/-! ## A small installation -/

/-- The default cron expression only, one preset, and a configuration that is its preset. -/
def smallApi : ApiEnv where
  unicode := Unicode.ascii
  cronIsValid text := text = defaultCron
  parseUrl := some
  resolveMockPresetPath preset := if preset = "single-vm" then .ok () else .error "unknown mock preset"
  dumps config := config.preset.getD ""
  loads text := { ConnectorConfig.empty with preset := if text = "" then none else some text }
  storable limit text := limit.all fun n => text.length ≤ n

end Washing
