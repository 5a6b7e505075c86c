import Washing.Inventory.Flavor
import Washing.Inventory.Job
import Washing.Inventory.Retention
import Washing.Jobs.Failures
import Washing.Metrics.Job
import Washing.Operations

/-!
# The flavor timeline over whole runs

Requests, inventory runs, collections and purges, one after the other. Every one of them leaves the flavors of the
machines followed (`FlavorsKept`): an inventory run because its loop does, a collection because it refreshes the
optimization of its machine, a deletion because it takes the rows of a machine with the machine, and a job that fails
because it leaves them alone.
-/

namespace Washing

/-! ## Collections -/

/-- A refresh of one machine. -/
theorem FlavorsKept.refresh {s : Settings} {db : Database} {now : Time} (h : FlavorsKept db now) {machineId : Nat}
    {at_ : Time} {result : Database × RefreshReport}
    (hok : refreshMachineOptimization s db machineId at_ = .ok result) : FlavorsKept result.1 now := by
  obtain ⟨hrows, m₀, hget, hflavors⟩ := refresh_flavors h.optimizations hok
  obtain ⟨o, n, hn, hdb⟩ := refreshMachineOptimization_frame hok
  rw [hdb] at hrows hflavors ⊢
  constructor
  case machines => exact h.machines.mono hn
  case history => exact h.history.mono hn le_rfl
  case optimizations => exact hrows
  case tracked => exact h.tracked
  case optimized =>
    intro m hm
    rw [hflavors]
    split_ifs with hid
    · obtain ⟨hm₀, hid₀⟩ := Table.get_some hget
      rw [h.machines.keyed.eq_of_id hm hm₀ (hid.trans hid₀.symm)]
    · exact h.optimized m hm

/-- A collection, whatever becomes of it. -/
theorem FlavorsKept.collection {db : Database} {now : Time} (h : FlavorsKept db now) (faults : Faults CollectionWork)
    (env : CollectionEnv) (providerId machineId : Nat) :
    FlavorsKept (collectionJob faults env db providerId machineId).2.committed now := by
  cases hrun : (collectionJob faults env db providerId machineId).1 with
  | error e =>
    obtain hdb | hdb := collectionJob_error hrun
    · rw [hdb]
      exact h
    · rw [hdb]
      exact h.frame rfl rfl rfl le_rfl
  | ok report =>
    obtain ⟨-, hcommitted⟩ | ⟨p, m, -, hcollect⟩ := collectionJob_cases hrun
    · rw [hcommitted]
      exact h
    · obtain ⟨_, records, ops, _, -, -, -, -, hrefresh⟩ := collectSamples_eq_ok hcollect
      obtain ⟨-, -, hmachines, hoptimizations, -, hnext, -⟩ :=
        writeSamples_frame db p (emitted (db.metrics p.scope) ops) (env.clock records.length)
      have hwritten : FlavorsKept
          (writeSamples db p (emitted (db.metrics p.scope) ops) (env.clock records.length)) now := by
        refine h.frame hmachines (writeSamples_flavorHistory db p _ _) hoptimizations ?_
        rw [hnext]
        exact Nat.le_add_right _ _
      exact hwritten.refresh hrefresh

/-! ## Inventory runs -/

/-- An inventory run, whatever becomes of it. -/
theorem FlavorsKept.inventory {db : Database} {now : Time} (h : FlavorsKept db now) (faults : Faults InventoryWork)
    (env : InventoryEnv) (mock : InventoryConnector) (ticks provisionerId : Nat) (hnow : now ≤ env.clock ticks) :
    FlavorsKept (inventoryJob faults env mock db ticks provisionerId).2.committed (env.clock ticks) := by
  have hstart : FlavorsKept (startRun db provisionerId (env.clock ticks)) (env.clock ticks) :=
    (h.mono hnow).frame rfl rfl rfl le_rfl
  cases hrun : (inventoryJob faults env mock db ticks provisionerId).1 with
  | error e =>
    rw [inventoryJob_error hrun]
    exact (h.mono hnow).frame rfl rfl rfl le_rfl
  | ok report =>
    obtain ⟨hresult, hcommitted⟩ := inventoryJob_ok hrun
    obtain ⟨p, body, -, -, hbody, heq⟩ := run_ok hresult
    rw [hcommitted, heq]
    exact discoverAndStore_flavors hstart hbody

/-! ## Deletions -/

/-- What deletions keep: the rows of some machines, but for the provisioners that the rows refer to. -/
structure KeepsMachines (db db' : Database) (kept : Nat → Prop) [DecidablePred kept] : Prop where
  machineIds : (Table.ids db'.machines).Sublist (Table.ids db.machines)
  machines : ∀ m' ∈ db'.machines, kept m'.id ∧ ∃ m ∈ db.machines, m.id = m'.id ∧ m.flavor = m'.flavor
  history : ∃ g : MachineFlavorHistory → MachineFlavorHistory, (∀ r, (g r).id = r.id ∧ (g r).machineId = r.machineId ∧
      (g r).changedAt = r.changedAt ∧ (g r).flavor = r.flavor) ∧
    db'.flavorHistory = (db.flavorHistory.filter fun r => kept r.machineId).map g
  optimizations : db'.optimizations = db.optimizations.filter fun o => kept o.machineId
  nextId : db'.nextId = db.nextId

/-- A deletion. -/
theorem FlavorsKept.deleted {db db' : Database} {now : Time} (h : FlavorsKept db now) {kept : Nat → Prop}
    [DecidablePred kept] (hkeep : KeepsMachines db db' kept) : FlavorsKept db' now := by
  obtain ⟨g, hg, hhistory⟩ := hkeep.history
  have hflavors : ∀ i, kept i → historyFlavors db'.flavorHistory i = historyFlavors db.flavorHistory i := by
    intro i hi
    rw [hhistory, historyFlavors, valuesOf_map (fun r => (hg r).2.1) (fun r => (hg r).2.2.2)]
    exact valuesOf_filter hi
  constructor
  case machines => exact hkeep.nextId ▸ h.machines.sublist hkeep.machineIds
  case history =>
    rw [hhistory, hkeep.nextId]
    constructor
    case dated =>
      refine List.pairwise_map.mpr ((h.history.dated.sublist List.filter_sublist).imp fun {r s} hrs => ?_)
      rw [(hg r).1, (hg s).1, (hg r).2.2.1, (hg s).2.2.1]
      exact hrs
    case fresh =>
      intro r hr
      obtain ⟨s, hs, rfl⟩ := List.mem_map.mp hr
      rw [(hg s).1, (hg s).2.1]
      exact h.history.fresh s (List.mem_of_mem_filter hs)
    case past =>
      intro r hr
      obtain ⟨s, hs, rfl⟩ := List.mem_map.mp hr
      rw [(hg s).2.2.1]
      exact h.history.past s (List.mem_of_mem_filter hs)
  case optimizations =>
    have hsublist : db'.optimizations.Sublist db.optimizations := hkeep.optimizations ▸ List.filter_sublist
    exact ⟨hkeep.nextId ▸ h.optimizations.numbered.sublist (hsublist.map _),
      h.optimizations.unique.sublist (hsublist.map _)⟩
  case tracked =>
    intro m' hm'
    obtain ⟨hkept, m, hm, hid, hflavor⟩ := hkeep.machines m' hm'
    rw [hflavors _ hkept, ← hid, ← hflavor]
    exact h.tracked m hm
  case optimized =>
    intro m' hm'
    obtain ⟨hkept, m, hm, hid, hflavor⟩ := hkeep.machines m' hm'
    rw [hkeep.optimizations, optimizedFlavors, valuesOf_filter hkept, ← hid, ← hflavor]
    exact h.optimized m hm

/-- What deletions of rows and the cascade after them keep. -/
theorem keepsMachines_cascade {s s₀ : Store} (hmachines : s₀.machines.Sublist s.machines)
    (hhistory : s₀.flavorHistory = s.flavorHistory) (hoptimizations : s₀.optimizations = s.optimizations)
    (hnext : s₀.nextId = s.nextId) :
    KeepsMachines s.toDatabase s₀.cascade.toDatabase (· ∈ Table.ids s₀.cascade.machines) where
  machineIds := s₀.shrinks_cascade.machineIds.trans (hmachines.map _)
  machines := by
    intro m' hm'
    refine ⟨Table.mem_ids.mpr ⟨m', hm', rfl⟩, ?_⟩
    obtain ⟨m, hm, rfl⟩ := List.mem_map.mp hm'
    exact ⟨m, hmachines.subset (List.mem_of_mem_filter hm), rfl, rfl⟩
  history := by
    rw [← hhistory]
    refine ⟨_, ?_, rfl⟩
    exact fun r => ⟨rfl, rfl, rfl, rfl⟩
  optimizations := hoptimizations ▸ rfl
  nextId := hnext

/-- What a purge keeps. -/
theorem keepsMachines_purge {db : Database} (hk : Table.Keyed db.machines) (retentionDays : Int) (now : Time) :
    KeepsMachines db (purgeStaleMachines db retentionDays now).1 fun i =>
      i ∉ (db.machines.filter fun m => m.updatedAt < now - days retentionDays).map (·.id) where
  machineIds := List.filter_sublist.map _
  machines := by
    intro m hm
    obtain ⟨hm, hrecent⟩ := List.mem_filter.mp hm
    refine ⟨fun hstale => ?_, m, hm, rfl, rfl⟩
    obtain ⟨n, hn, hid⟩ := List.mem_map.mp hstale
    obtain ⟨hn, hold⟩ := List.mem_filter.mp hn
    cases hk.eq_of_id hn hm hid
    exact of_decide_eq_true hrecent (of_decide_eq_true hold)
  history := ⟨id, fun r => ⟨rfl, rfl, rfl, rfl⟩, (List.map_id _).symm⟩
  optimizations := rfl
  nextId := rfl

/-- A statement of a request. -/
theorem FlavorsKept.statement {s s' : Store} {now : Time} (h : FlavorsKept s.toDatabase now) {statement : Statement}
    (hrun : statement.run s = .ok s') : FlavorsKept s'.toDatabase now := by
  by_cases hdeletes : statement.Deletes
  · cases statement with
    | deletePlatform id =>
      cases hrun
      exact h.deleted (keepsMachines_cascade (.refl _) rfl rfl rfl)
    | deleteProvider id provisionerIds =>
      simp only [Statement.run] at hrun
      split_ifs at hrun
      cases hrun
      exact h.deleted (keepsMachines_cascade (.refl _) rfl rfl rfl)
    | deleteProvisioner id =>
      cases hrun
      exact h.deleted (keepsMachines_cascade (.refl _) rfl rfl rfl)
    | deleteMachine id =>
      cases hrun
      exact h.deleted (keepsMachines_cascade List.filter_sublist rfl rfl rfl)
    | _ => exact hdeletes.elim
  · have hframe : s'.machines = s.machines ∧ s'.flavorHistory = s.flavorHistory ∧ s'.optimizations = s.optimizations ∧
        s.nextId ≤ s'.nextId := by
      cases Statement.run_cases hrun with
      | deleted _ deletes => exact absurd deletes hdeletes
      | platformInserted | providerInserted | provisionerInserted => exact ⟨rfl, rfl, rfl, Nat.le_succ _⟩
      | platformUpdated | providerUpdated | provisionerUpdated | attached | detached => exact ⟨rfl, rfl, rfl, le_rfl⟩
    exact h.frame hframe.1 hframe.2.1 hframe.2.2.1 hframe.2.2.2

/-- A request, whatever the answer is. -/
theorem FlavorsKept.request {s : Store} {now : Time} (h : FlavorsKept s.toDatabase now) (api : ApiEnv)
    (request : Request) :
    FlavorsKept (request.handle api s).1.toDatabase now := by
  obtain ⟨e, hhandle⟩ | ⟨plan, s', -, hcommit, hhandle⟩ := request.handle_cases api s
  · rw [hhandle]
    exact h
  · rw [hhandle]
    obtain ⟨-, rfl⟩ | ⟨statement, -, hexecute⟩ := Plan.commit_cases hcommit
    · exact h
    · unfold Statement.execute at hexecute
      split_ifs at hexecute
      exact h.statement hexecute

/-! ## Whole runs -/

/-- What changes the machines and what is recorded about them; a job may fail at any point. -/
inductive FleetOperation
  | request (request : Request)
  | inventory (faults : Faults InventoryWork) (env : InventoryEnv) (mock : InventoryConnector)
      (ticks provisionerId : Nat)
  | collection (faults : Faults CollectionWork) (env : CollectionEnv) (providerId machineId : Nat)
  | purge (retentionDays : Int) (now : Time)

/-- The committed rows after an operation. -/
def FleetOperation.run (api : ApiEnv) (s : Store) : FleetOperation → Store
  | request r => (r.handle api s).1
  | inventory faults env mock ticks provisionerId =>
    { s with toDatabase := (inventoryJob faults env mock s.toDatabase ticks provisionerId).2.committed }
  | collection faults env providerId machineId =>
    { s with toDatabase := (collectionJob faults env s.toDatabase providerId machineId).2.committed }
  | purge retentionDays now => { s with toDatabase := (purgeStaleMachines s.toDatabase retentionDays now).1 }

/-- The time at which an inventory run starts. -/
def FleetOperation.start : FleetOperation → Option Time
  | inventory _ env _ ticks _ => some (env.clock ticks)
  | _ => none

/-- The committed rows after some operations. -/
def runFleet (api : ApiEnv) (s : Store) (operations : List FleetOperation) : Store :=
  operations.foldl (FleetOperation.run api) s

/-- The history of a machine, by time and key. -/
def timeline (db : Database) (machineId : Nat) : List MachineFlavorHistory :=
  orderBy (fun r s => toLex (r.changedAt, r.id) ≤ toLex (s.changedAt, s.id))
    (db.flavorHistory.filter fun r => r.machineId = machineId)

/-- The timeline of a machine ends with its flavor and has no repetitions, and the machine has exactly one
optimization, for its flavor. -/
structure FlavorFollowed (db : Database) (m : Machine) : Prop where
  latest : (timeline db m.id).getLast?.map (·.flavor) = some m.flavor
  changes : (timeline db m.id).IsChain fun r s => r.flavor ≠ s.flavor
  optimized : (db.optimizations.filter fun o => o.machineId = m.id).map (·.currentFlavor) = [m.flavor]

theorem FlavorsKept.followed {db : Database} {now : Time} (h : FlavorsKept db now) {m : Machine}
    (hm : m ∈ db.machines) :
    FlavorFollowed db m := by
  have hdated : db.flavorHistory.Pairwise fun r s => toLex (r.changedAt, r.id) < toLex (s.changedAt, s.id) :=
    h.history.dated.imp fun {r s} hrs => Prod.Lex.toLex_lt_toLex.mpr <|
      hrs.1.lt_or_eq.imp id fun heq => ⟨heq, hrs.2⟩
  obtain ⟨hlatest, hchanges⟩ := timeline_tracks hdated (h.tracked m hm)
  exact ⟨hlatest, hchanges, h.optimized m hm⟩

/-- One operation. -/
theorem FlavorsKept.operation {s : Store} {now : Time} (h : FlavorsKept s.toDatabase now) (api : ApiEnv)
    (operation : FleetOperation) (hstart : ∀ t ∈ operation.start, now ≤ t) :
    FlavorsKept (operation.run api s).toDatabase (operation.start.getD now) := by
  cases operation with
  | request request => exact h.request api request
  | inventory faults env mock ticks provisionerId =>
    exact h.inventory faults env mock ticks provisionerId (hstart _ rfl)
  | collection faults env providerId machineId => exact h.collection faults env providerId machineId
  | purge retentionDays now' => exact h.deleted (keepsMachines_purge h.machines.keyed retentionDays now')

/-- Operations whose inventory runs start one after the other. -/
theorem FlavorsKept.run (api : ApiEnv) : ∀ {operations : List FleetOperation} {s : Store} {now : Time},
    FlavorsKept s.toDatabase now → (now :: operations.filterMap FleetOperation.start).Pairwise (· ≤ ·) →
    ∃ now', FlavorsKept (runFleet api s operations).toDatabase now'
  | [], s, now, h, _ => ⟨now, h⟩
  | operation :: operations, s, now, h, hstarts => by
    cases hstart : operation.start with
    | none =>
      have hnext := h.operation api operation fun t ht => by rw [hstart] at ht; cases ht
      rw [hstart] at hnext
      rw [List.filterMap_cons_none hstart] at hstarts
      exact hnext.run api hstarts
    | some t =>
      rw [List.filterMap_cons_some hstart] at hstarts
      obtain ⟨hfirst, hrest⟩ := List.pairwise_cons.mp hstarts
      have hle : ∀ t' ∈ operation.start, now ≤ t' := by
        rw [hstart]
        rintro _ ⟨⟩
        exact hfirst t List.mem_cons_self
      have hnext := h.operation api operation hle
      rw [hstart] at hnext
      exact hnext.run api hrest

theorem flavorsKept_empty (now : Time) : FlavorsKept Store.empty.toDatabase now where
  machines := .nil
  history := ⟨.nil, fun _ h => absurd h List.not_mem_nil, fun _ h => absurd h List.not_mem_nil⟩
  optimizations := ⟨.nil, .nil⟩
  tracked := fun _ h => absurd h List.not_mem_nil
  optimized := fun _ h => absurd h List.not_mem_nil

/-- From an empty database on, the timelines and the optimizations follow the machines. -/
theorem flavors_followed (api : ApiEnv) (operations : List FleetOperation)
    (hstarts : (operations.filterMap FleetOperation.start).Pairwise (· ≤ ·)) :
    ∀ m ∈ (runFleet api .empty operations).machines, FlavorFollowed (runFleet api .empty operations).toDatabase m := by
  have hkept : ∃ now, FlavorsKept (runFleet api .empty operations).toDatabase now := by
    cases hfirst : operations.filterMap FleetOperation.start with
    | nil => exact (flavorsKept_empty 0).run api (hfirst ▸ List.pairwise_singleton _ _)
    | cons t rest =>
      refine (flavorsKept_empty t).run api ?_
      rw [hfirst] at hstarts ⊢
      refine List.pairwise_cons.mpr ⟨fun t' ht' => ?_, hstarts⟩
      obtain rfl | ht' := List.mem_cons.mp ht'
      · exact le_rfl
      · exact (List.pairwise_cons.mp hstarts).1 t' ht'
  obtain ⟨now, hkept⟩ := hkept
  exact fun m hm => hkept.followed hm

/-- A record of a machine with some cores. -/
def coresRecord (externalId hostname : String) (cpu : ℚ) : MachineRecord :=
  { smallRecord externalId hostname with cpu := some cpu }

/-- A machine that a second provisioner takes over, with two records of it in one run, and a run that loses the
connection when it commits. -/
def takeoverOperations : List FleetOperation :=
  [.request (.createPlatform { name := "north" }),
    .request (.createMockProvisioner { platformId := 1, name := "first" }),
    .request (.createMockProvisioner { platformId := 1, name := "second" }),
    .request (.enableProvisioner 2),
    .request (.enableProvisioner 3),
    .inventory .none smallEnv (fun _ => .ok [coresRecord "a" "H1" 2, coresRecord "b" "H2" 2]) 0 2,
    .inventory .none smallEnv (fun _ => .ok [coresRecord "c" "H1" 4, coresRecord "c" "H1" 2]) 10 3,
    .inventory (lostAt 6 (.load 0 Database.empty)) smallEnv (fun _ => .ok [coresRecord "a" "H1" 8]) 20 2,
    .request (.deleteMachine 6)]

theorem flavors_followed_takeover :
    (runFleet smallApi .empty takeoverOperations).flavorHistory.map (·.flavor.cpu) = [some 2, some 4, some 2] ∧
    ∀ m ∈ (runFleet smallApi .empty takeoverOperations).machines,
      FlavorFollowed (runFleet smallApi .empty takeoverOperations).toDatabase m :=
  ⟨by decide +kernel, flavors_followed smallApi takeoverOperations (by decide)⟩

end Washing
