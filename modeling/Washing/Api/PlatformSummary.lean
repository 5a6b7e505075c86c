import Washing.Api.Common
import Washing.Applications.Projection
import Washing.Db.Platforms

/-!
# Platform summary and application list

Both endpoints count the applications of a platform. `get_platform_summary` counts the groups of the stored columns
(`applicationGroups`), `list_applications` the projection rows joined back through the coalesced columns
(`platformApplicationIds`). After a rebuild the second count is the number of keys the groups have
(`list_total_eq`), so the two agree if and only if no two groups of the platform have the same key
(`summary_matches_list_iff`).
-/

namespace Washing

/-! ## The summary -/

/-- Aggregated operational summary for one platform. -/
structure PlatformSummaryRead where
  platformId : Nat
  machines : Nat
  applications : Nat
  providers : Nat
  enabledProviders : Nat
  provisioners : Nat
  enabledProvisioners : Nat
  currentOptimizations : Nat
  currentOptimizationsByStatus : List (OptimizationStatus × Nat)
  currentOptimizationsByAction : List (OptimizationAction × Nat)
  deriving DecidableEq, Repr

/-- The groups of stored application columns on a platform. -/
def applicationGroups (db : Database) (platformId : Nat) : List (Option String × Option String × Option String) :=
  groupedRows (selectWhere (fun m => Cond.eq (some m.platformId) (some platformId)) db.machines)

/-- The optimizations of the machines of a platform. -/
def platformOptimizations (db : Database) (platformId : Nat) : List MachineOptimization :=
  db.optimizations.flatMap fun o =>
    (selectWhere (fun m => Cond.and (Cond.eq (some o.machineId) (some m.id))
      (Cond.eq (some m.platformId) (some platformId)))
      db.machines).map fun _ => o

/-- Return aggregate inventory, connector, and optimization counts for one platform. -/
def getPlatformSummary (store : Store) (platformId : Nat) : Except HttpException PlatformSummaryRead := do
  let _ ← getOr404 store.platforms platformId "platform not found"
  let providers := selectWhere (fun p => Cond.eq (some p.platformId) (some platformId)) store.providers
  let provisioners := selectWhere (fun p => Cond.eq (some p.platformId) (some platformId)) store.provisioners
  let optimizations := platformOptimizations store.toDatabase platformId
  .ok {
    platformId
    machines := (selectWhere (fun m => Cond.eq (some m.platformId) (some platformId)) store.machines).length
    applications := (applicationGroups store.toDatabase platformId).length
    providers := providers.length
    enabledProviders := (selectWhere (fun p => Cond.ofBool p.enabled) providers).length
    provisioners := provisioners.length
    enabledProvisioners := (selectWhere (fun p => Cond.ofBool p.enabled) provisioners).length
    currentOptimizations := optimizations.length
    currentOptimizationsByStatus := counter (optimizations.map (·.status))
    currentOptimizationsByAction := counter (optimizations.map (·.action)) }

/-! ## The list -/

/-- The SQL condition matching machines to application projection rows. -/
def applicationJoinCondition (m : Machine) (a : Application) : Cond :=
  Cond.and (Cond.eq m.application (some a.name))
    (Cond.and (Cond.eq (some (m.environment.getD "UNKNOWN")) (some a.environment))
      (Cond.eq (some (m.region.getD "UNKNOWN")) (some a.region)))

/-- The ids of the applications joined to a machine of a platform. -/
def platformApplicationIds (db : Database) (platformId : Nat) : List Nat :=
  (db.applications.flatMap fun a =>
    (selectWhere (fun m => Cond.and (applicationJoinCondition m a) (Cond.eq (some m.platformId) (some platformId)))
      db.machines).map fun _ => a.id).dedup

/-- The filters of an application collection. -/
structure ApplicationFilter where
  q : Option String
  name : Option String
  environment : Option String
  region : Option String
  platformId : Option Nat

/-- Keep the rows whose column has a given value, if there is one. -/
def filterColumn (column : Application → String) (value : Option String) (query : List Application) :
    List Application :=
  match value with
  | some v => selectWhere (fun a => Cond.eq (some (column a)) (some v)) query
  | none => query

/-- Build the shared application collection query. `like` is the pattern match of the database. -/
def filteredApplicationQuery (U : Unicode) (like : String → String → Bool) (db : Database)
    (filter : ApplicationFilter) :
    List Application :=
  let query := filterColumn (·.name) (normalizeApplicationCode U filter.name) db.applications
  let query := filterColumn (·.environment) (normalizeDimension U filter.environment) query
  let query := filterColumn (·.region) (normalizeDimension U filter.region) query
  let query := match filter.platformId with
    | some platformId =>
      selectWhere (fun a => Cond.inList (some a.id) (platformApplicationIds db platformId)) query
    | none => query
  let term := (filter.q.map U.strip).getD ""
  if term = "" then query
  else
    let has := fun (text : String) (needle : Option String) =>
      (needle.map fun t => like text ("%" ++ t ++ "%")).getD false
    match normalizeApplicationCode U (some term), normalizeDimension U (some term) with
    | none, none => query
    | nameTerm, dimensionTerm => query.filter fun a =>
        has a.name nameTerm || has a.environment dimensionTerm || has a.region dimensionTerm

/-- The order of the application list. -/
def applicationLe (a b : Application) : Prop := toLex (a.name, toLex (a.environment, toLex (a.region, a.id))) ≤
  toLex (b.name, toLex (b.environment, toLex (b.region, b.id)))

instance : DecidableRel applicationLe := fun a b =>
  inferInstanceAs (Decidable (toLex (a.name, toLex (a.environment, toLex (a.region, a.id))) ≤
    toLex (b.name, toLex (b.environment, toLex (b.region, b.id)))))

/-- List applications with optional identity, platform, and text filters. -/
def listApplications (U : Unicode) (like : String → String → Bool) (db : Database) (filter : ApplicationFilter)
    (offset limit : Nat) : PaginatedResponse Application :=
  paginateQuery (filteredApplicationQuery U like db filter) applicationLe offset limit

/-! ## The two counts -/

/-- What the primary key, the identity column and the unique constraint guarantee of the stored applications. -/
structure ApplicationsStored (db : Database) : Prop where
  keyed : Table.Keyed db.applications
  fresh : ∀ a ∈ db.applications, a.id < db.nextId
  unique : (db.applications.map Application.key).Nodup

/-- The key of a group with an application. -/
def groupKey (row : Option String × Option String × Option String) : ApplicationKey :=
  (row.1.getD "", row.2.1.getD "UNKNOWN", row.2.2.getD "UNKNOWN")

theorem isTrue_applicationJoinCondition {m : Machine} {a : Application} :
    (applicationJoinCondition m a).isTrue ↔ a.Contains m := by
  simp [applicationJoinCondition, Application.Contains]

theorem mem_platformApplicationIds {db : Database} {platformId id : Nat} :
    id ∈ platformApplicationIds db platformId ↔
      ∃ a ∈ db.applications, (∃ m ∈ db.machines, a.Contains m ∧ m.platformId = platformId) ∧ a.id = id := by
  simp only [platformApplicationIds, List.mem_dedup, List.mem_flatMap, List.mem_map, mem_selectWhere, Cond.isTrue_and,
    isTrue_applicationJoinCondition, Cond.isTrue_eq_some]
  constructor
  · rintro ⟨a, ha, m, ⟨hm, hjoin⟩, rfl⟩
    exact ⟨a, ha, ⟨m, hm, hjoin⟩, rfl⟩
  · rintro ⟨a, ha, ⟨m, hm, hjoin⟩, rfl⟩
    exact ⟨a, ha, m, ⟨hm, hjoin⟩, rfl⟩

/-- The groups of a platform are the columns of its machines with an application. -/
theorem mem_applicationGroups {db : Database} {platformId : Nat} {row : Option String × Option String × Option String} :
    row ∈ applicationGroups db platformId ↔
      ∃ m ∈ db.machines, m.platformId = platformId ∧ m.application ≠ none ∧ m.dimensions = row := by
  simp [applicationGroups, mem_groupedRows, and_assoc]

theorem nodup_applicationGroups (db : Database) (platformId : Nat) : (applicationGroups db platformId).Nodup :=
  List.nodup_dedup _

/-- The key of the group of a machine is the key of the machine. -/
theorem groupKey_dimensions {m : Machine} {k : ApplicationKey} (happ : m.application ≠ none) :
    groupKey m.dimensions = k ↔ m.application.map m.projectionKey = some k := by
  obtain ⟨name, hname⟩ := Option.ne_none_iff_exists'.mp happ
  simp [groupKey, Machine.dimensions, Machine.projectionKey, hname]

/-- The filter of the platform alone. -/
def ApplicationFilter.ofPlatform (platformId : Nat) : ApplicationFilter := ⟨none, none, none, none, some platformId⟩

theorem filteredApplicationQuery_ofPlatform (U : Unicode) (like : String → String → Bool) (db : Database)
    (platformId : Nat) : filteredApplicationQuery U like db (.ofPlatform platformId) =
      selectWhere (fun a => Cond.inList (some a.id) (platformApplicationIds db platformId)) db.applications := rfl

section Rebuilt

variable {U : Unicode} {db : Database}

/-- After a rebuild, the keys of the listed applications are the keys of the groups. -/
theorem mem_listed_keys (hm : ∀ m ∈ db.machines, m.Validated U) (hs : ApplicationsStored db)
    (like : String → String → Bool) (platformId : Nat) {k : ApplicationKey} :
    k ∈ (filteredApplicationQuery U like (rebuildApplicationsFromMachines U db).1 (.ofPlatform platformId)).map
        Application.key ↔ k ∈ (applicationGroups db platformId).map groupKey := by
  have hkeyed : Table.Keyed (rebuildApplicationsFromMachines U db).1.applications := rebuilt_keyed hs.keyed hs.fresh
  simp only [filteredApplicationQuery_ofPlatform, List.mem_map, mem_selectWhere, Cond.isTrue_inList_some,
    mem_platformApplicationIds, mem_applicationGroups]
  constructor
  · rintro ⟨a, ⟨ha, b, hb, ⟨m, hmem, hcontains, hplatform⟩, hid⟩, rfl⟩
    cases hkeyed.eq_of_id hb ha hid
    have happ : m.application ≠ none := by simp [hcontains.1]
    exact ⟨m.dimensions, ⟨m, hmem, hplatform, happ, rfl⟩, (groupKey_dimensions happ).mpr (contains_iff.mp hcontains)⟩
  · rintro ⟨row, ⟨m, hmem, hplatform, happ, rfl⟩, hk⟩
    have hkey := (groupKey_dimensions happ).mp hk
    obtain ⟨a, ha, rfl⟩ := List.mem_map.mp ((mem_rebuilt_keys hm).mpr ⟨m, hmem, hkey⟩)
    exact ⟨a, ⟨ha, a, ha, ⟨m, hmem, contains_iff.mpr hkey, hplatform⟩, rfl⟩, rfl⟩

/-- After a rebuild, the list counts the keys of the groups. -/
theorem list_total_eq (hm : ∀ m ∈ db.machines, m.Validated U) (hs : ApplicationsStored db)
    (like : String → String → Bool) (platformId offset limit : Nat) :
    (listApplications U like (rebuildApplicationsFromMachines U db).1 (.ofPlatform platformId) offset limit).total =
      ((applicationGroups db platformId).map groupKey).dedup.length := by
  have hnodup : ((filteredApplicationQuery U like (rebuildApplicationsFromMachines U db).1
      (.ofPlatform platformId)).map Application.key).Nodup :=
    (rebuilt_nodup hs.unique).sublist (List.filter_sublist.map _)
  have hperm := (List.perm_ext_iff_of_nodup hnodup (List.nodup_dedup _)).mpr fun k =>
    (mem_listed_keys hm hs like platformId).trans List.mem_dedup.symm
  rw [← hperm.length_eq, List.length_map]
  rfl

/-- The distinct values of a function on distinct arguments are as many as the arguments if the function separates
them. -/
theorem length_dedup_map_iff {α β : Type} [DecidableEq β] {f : α → β} {l : List α} (hl : l.Nodup) :
    l.length = (l.map f).dedup.length ↔ ∀ a ∈ l, ∀ b ∈ l, f a = f b → a = b := by
  rw [← List.nodup_map_iff_inj_on hl, ← List.dedup_eq_self]
  constructor
  · intro h
    refine (List.dedup_sublist _).eq_of_length ?_
    rw [← h, List.length_map]
  · intro h
    rw [h, List.length_map]

/-- No two machines of the platform have the same application and the same coalesced dimensions without having the same
dimensions. -/
def DistinctGroups (db : Database) (platformId : Nat) : Prop :=
  ∀ m ∈ db.machines, ∀ n ∈ db.machines, m.platformId = platformId → n.platformId = platformId →
    m.application ≠ none → m.application = n.application →
    m.environment.getD "UNKNOWN" = n.environment.getD "UNKNOWN" → m.region.getD "UNKNOWN" = n.region.getD "UNKNOWN" →
    m.environment = n.environment ∧ m.region = n.region

instance (db : Database) (platformId : Nat) : Decidable (DistinctGroups db platformId) :=
  inferInstanceAs (Decidable (∀ m ∈ db.machines, _))

theorem distinctGroups_iff (db : Database) (platformId : Nat) : DistinctGroups db platformId ↔
    ∀ a ∈ applicationGroups db platformId, ∀ b ∈ applicationGroups db platformId, groupKey a = groupKey b → a = b := by
  simp only [mem_applicationGroups]
  constructor
  · rintro h a ⟨m, hm, hmp, hma, rfl⟩ b ⟨n, hn, hnp, hna, rfl⟩ hkey
    obtain ⟨x, hx⟩ := Option.ne_none_iff_exists'.mp hma
    obtain ⟨y, hy⟩ := Option.ne_none_iff_exists'.mp hna
    simp only [groupKey, Machine.dimensions, hx, hy, Option.getD_some, Prod.mk.injEq] at hkey
    have happ : m.application = n.application := by rw [hx, hy, hkey.1]
    obtain ⟨henv, hregion⟩ := h m hm n hn hmp hnp hma happ hkey.2.1 hkey.2.2
    rw [Machine.dimensions, Machine.dimensions, happ, henv, hregion]
  · intro h m hm n hn hmp hnp hma happ henv hregion
    have hkey : groupKey m.dimensions = groupKey n.dimensions := by
      simp only [groupKey, Machine.dimensions, happ, henv, hregion]
    have hrow := h _ ⟨m, hm, hmp, hma, rfl⟩ _ ⟨n, hn, hnp, happ ▸ hma, rfl⟩ hkey
    exact ⟨congrArg (·.2.1) hrow, congrArg (·.2.2) hrow⟩

end Rebuilt

/-- The store after a rebuild. -/
def Store.rebuilt (U : Unicode) (store : Store) : Store :=
  { store with toDatabase := (rebuildApplicationsFromMachines U store.toDatabase).1 }

/-- The summary of a platform and the list filtered by it count the same applications, right after a rebuild. -/
def SummaryMatchesList (U : Unicode) (like : String → String → Bool) (store : Store) (platformId : Nat) : Prop :=
  ∃ summary, getPlatformSummary (store.rebuilt U) platformId = .ok summary ∧ ∀ offset limit, summary.applications =
    (listApplications U like (store.rebuilt U).toDatabase (.ofPlatform platformId) offset limit).total

/-- The two counts agree if and only if no two groups of the platform have the same key. -/
theorem summary_matches_list_iff (U : Unicode) (like : String → String → Bool) (store : Store)
    (hm : ∀ m ∈ store.machines, m.Validated U) (hs : ApplicationsStored store.toDatabase) (platform : Platform)
    (hp : Table.get store.platforms platform.id = some platform) :
    SummaryMatchesList U like store platform.id ↔ DistinctGroups store.toDatabase platform.id := by
  rw [distinctGroups_iff, ← length_dedup_map_iff (nodup_applicationGroups _ _)]
  have hget : getOr404 (store.rebuilt U).platforms platform.id "platform not found" = .ok platform := by
    simp only [getOr404, Store.rebuilt, hp]
  constructor
  · rintro ⟨summary, hsummary, hcount⟩
    simp only [getPlatformSummary, hget, bind, Except.bind, Except.ok.injEq] at hsummary
    have happlications : (applicationGroups store.toDatabase platform.id).length = summary.applications := by
      rw [← hsummary]
      rfl
    exact happlications.trans ((hcount 0 0).trans (list_total_eq hm hs like platform.id 0 0))
  · intro hlength
    refine ⟨_, by simp only [getPlatformSummary, hget, bind, Except.bind]; rfl, fun offset limit => ?_⟩
    exact hlength.trans (list_total_eq hm hs like platform.id offset limit).symm

/-- Two platforms over the machines of `mixedProjection`. -/
def mixedStore : Store :=
  { mixedProjection with platforms := [⟨1, "P1", none, some "{}"⟩, ⟨2, "P2", none, some "{}"⟩] }

theorem stored_mixedStore : ApplicationsStored mixedStore.toDatabase := ⟨by decide, by decide, by decide⟩

/-- Two more machines on the second platform: two groups of one application. -/
def separateStore : Store :=
  { mixedStore with
    machines := mixedStore.machines ++
      [⟨5, 2, some "A", none, none, "H5", some "EU", some "PROD", none, none, none, "{}", 0⟩,
      ⟨6, 2, some "A", none, none, "H6", some "EU", none, none, none, none, "{}", 0⟩] }

theorem validated_separateStore : ∀ m ∈ separateStore.machines, m.Validated Unicode.ascii := by
  intro m hm
  refine ⟨⟨m.application, ?_⟩, ⟨m.environment, ?_⟩, ⟨m.region, ?_⟩⟩
  all_goals
    revert m
    decide +kernel

/-- The counts agree on the second platform, and on the first one if and only if its groups are distinct. -/
theorem summary_matches_list_mixedStore :
    (SummaryMatchesList Unicode.ascii (fun _ _ => false) mixedStore 1 ↔ DistinctGroups mixedStore.toDatabase 1) ∧
    SummaryMatchesList Unicode.ascii (fun _ _ => false) separateStore 2 :=
  ⟨summary_matches_list_iff Unicode.ascii (fun _ _ => false) mixedStore validated_mixedProjection stored_mixedStore
    ⟨1, "P1", none, some "{}"⟩ (by decide),
  (summary_matches_list_iff Unicode.ascii (fun _ _ => false) separateStore validated_separateStore
    ⟨by decide, by decide, by decide⟩ ⟨2, "P2", none, some "{}"⟩ (by decide)).mpr (by decide +kernel)⟩

/-- A machine without environment and a machine in the environment `UNKNOWN` are two applications in the summary and
one in the list. -/
theorem unknown_environment_counted_twice :
    (∀ m ∈ mixedStore.machines, m.Validated Unicode.ascii) ∧ ApplicationsStored mixedStore.toDatabase ∧
      ¬ SummaryMatchesList Unicode.ascii (fun _ _ => false) mixedStore 1 := by
  refine ⟨validated_mixedProjection, stored_mixedStore, ?_⟩
  rintro ⟨summary, hsummary, hcount⟩
  have hsummary3 : (getPlatformSummary (mixedStore.rebuilt Unicode.ascii) 1).toOption.map (·.applications) =
      some 3 := by
    decide +kernel
  have hlist2 : (listApplications Unicode.ascii (fun _ _ => false) (mixedStore.rebuilt Unicode.ascii).toDatabase
      (.ofPlatform 1) 0 100).total = 2 := by
    decide +kernel
  rw [hsummary] at hsummary3
  have hthree : summary.applications = 3 := Option.some.inj hsummary3
  have htwo := hcount 0 100
  omega

end Washing
