import Washing.Api.Common

/-!
# Metric routes

The query that the metric lists share, with its optional filters. It joins the provider of each sample, and reads the
platform of a sample off its provider.
-/

namespace Washing

/-- The optional filters of the metric lists. -/
structure MetricFilters where
  platformId : Option Nat := none
  providerId : Option Nat := none
  provisionerId : Option Nat := none
  machineId : Option Nat := none
  start : Option Int := none
  finish : Option Int := none

namespace Routes

variable (db : Database) (scope : ScopeName) (filters : MetricFilters)

/-- The samples with their providers, those of the provider that a provisioner is attached to when one is given. -/
def joinProvisioner (provisionerId : Option Nat) (query : List (MachineMetric × MachineProvider)) :
    List (MachineMetric × MachineProvider) :=
  match provisionerId with
  | none => query
  | some i =>
    let joined := innerJoin (fun x a => Cond.eq (some a.providerId) (some x.1.providerId)) query db.attachments
    (selectWhere (fun y => Cond.eq (some y.2.provisionerId) (some i)) joined).map (·.1)

/-- Build the shared machine metric query for one scope. -/
def metricQuery : List MachineMetric :=
  let query := innerJoin (fun r p => Cond.eq (some r.providerId) (some p.id)) (db.metrics scope) db.providers
  let query := filterGiven filters.platformId (fun i x => Cond.eq (some x.2.platformId) (some i)) query
  let query := filterGiven filters.providerId (fun i x => Cond.eq (some x.1.providerId) (some i)) query
  let query := joinProvisioner db filters.provisionerId query
  let query := filterGiven filters.machineId (fun i x => Cond.eq (some x.1.machineId) (some i)) query
  let query := filterGiven filters.start (fun d x => Cond.le (some d) (some x.1.date)) query
  let query := filterGiven filters.finish (fun d x => Cond.le (some x.1.date) (some d)) query
  query.map (·.1)

/-- The latest samples first. -/
def latestLe (a b : MachineMetric) : Prop := toLex (b.date, b.id) ≤ toLex (a.date, a.id)

instance : DecidableRel latestLe := fun a b => inferInstanceAs (Decidable (toLex (b.date, b.id) ≤ toLex (a.date, a.id)))

/-- List paginated metrics for one metric type across machines. -/
def listMachineMetrics (offset limit : Nat) : PaginatedResponse MachineMetric :=
  paginateQuery (metricQuery db scope filters) latestLe offset limit

variable {db scope filters}

theorem mem_joinProvisioner {provisionerId : Option Nat} {query : List (MachineMetric × MachineProvider)}
    {x : MachineMetric × MachineProvider} : x ∈ joinProvisioner db provisionerId query ↔
      x ∈ query ∧ ∀ i ∈ provisionerId, ⟨x.1.providerId, i⟩ ∈ db.attachments := by
  cases provisionerId with
  | none => simp [joinProvisioner]
  | some i =>
    simp only [joinProvisioner, List.mem_map, mem_selectWhere, Prod.exists, exists_and_right, exists_eq_right,
      mem_innerJoin, Cond.isTrue_eq_some, Option.mem_def, Option.some.injEq, forall_eq']
    constructor
    · rintro ⟨a, ⟨hx, ha, hprovider⟩, hprovisioner⟩
      refine ⟨hx, ?_⟩
      rw [← hprovider, ← hprovisioner]
      exact ha
    · rintro ⟨hx, ha⟩
      exact ⟨_, ⟨hx, ha, rfl⟩, rfl⟩

/-- What the metric lists return. -/
theorem mem_metricQuery {r : MachineMetric} : r ∈ metricQuery db scope filters ↔ r ∈ db.metrics scope ∧
    (∃ p ∈ db.providers, r.providerId = p.id ∧ ∀ i ∈ filters.platformId, p.platformId = i) ∧
    (∀ i ∈ filters.providerId, r.providerId = i) ∧ (∀ i ∈ filters.provisionerId, ⟨r.providerId, i⟩ ∈ db.attachments) ∧
    (∀ i ∈ filters.machineId, r.machineId = i) ∧ (∀ d ∈ filters.start, d ≤ r.date) ∧
    ∀ d ∈ filters.finish, r.date ≤ d := by
  simp only [metricQuery, List.mem_map, mem_filterGiven, mem_joinProvisioner, Prod.exists, exists_and_right,
    exists_eq_right, mem_innerJoin, Cond.isTrue_eq_some, Cond.isTrue_le_some]
  constructor
  · rintro ⟨⟨⟨⟨⟨⟨p, ⟨hr, hp, hid⟩, hplatform⟩, hprovider⟩, hprovisioner⟩, hmachine⟩, hstart⟩, hfinish⟩
    exact ⟨hr, ⟨p, hp, hid, hplatform⟩, hprovider, hprovisioner, hmachine, hstart, hfinish⟩
  · rintro ⟨hr, ⟨p, hp, hid, hplatform⟩, hprovider, hprovisioner, hmachine, hstart, hfinish⟩
    exact ⟨⟨⟨⟨⟨⟨p, ⟨hr, hp, hid⟩, hplatform⟩, hprovider⟩, hprovisioner⟩, hmachine⟩, hstart⟩, hfinish⟩

/-- A page shows rows of the query. -/
theorem mem_listMachineMetrics {r : MachineMetric} {offset limit : Nat}
    (h : r ∈ (listMachineMetrics db scope filters offset limit).items) : r ∈ metricQuery db scope filters :=
  mem_orderBy.mp (List.mem_of_mem_drop (List.mem_of_mem_take h))

end Routes

end Washing
