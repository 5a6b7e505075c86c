import Washing.Lib.Reconcile
import Washing.Applications.Sync

/-!
# Application projection

`rebuild_applications_from_machines` reconciles the `applications` table with the triples of application, environment
and region found on the machines. The triples are grouped as stored and then made canonical (`applicationSnapshot`);
since the validators store canonical values only, the canonical triple of a machine is the one under which
`_application_machines` looks the machine up again (`projectionKey_eq`).
-/

namespace Washing

/-! ## The snapshot -/

/-- Name, environment and region of an application. -/
abbrev ApplicationKey := String × String × String

/-- `(item.name, item.environment, item.region)`. -/
def Application.key (a : Application) : ApplicationKey := (a.name, a.environment, a.region)

/-- The columns by which machines are grouped. -/
def Machine.dimensions (m : Machine) : Option String × Option String × Option String :=
  (m.application, m.environment, m.region)

/-- The grouped triples of the machines with an application. -/
def groupedRows (machines : List Machine) : List (Option String × Option String × Option String) :=
  ((selectWhere (fun m => Cond.isNotNull m.application) machines).map Machine.dimensions).dedup

/-- The canonical key of a grouped triple, if its application is not blank. -/
def canonicalKey (U : Unicode) (row : Option String × Option String × Option String) : Option ApplicationKey :=
  (normalizeApplicationCode U row.1).map fun name => (name, coalesceDimension U row.2.1, coalesceDimension U row.2.2)

/-- The keys the projection should have. -/
def applicationSnapshot (U : Unicode) (machines : List Machine) : List ApplicationKey :=
  ((groupedRows machines).filterMap (canonicalKey U)).dedup

/-- The order of tuples of strings. -/
def keyLe (x y : ApplicationKey) : Prop := toLex (x.1, toLex x.2) ≤ toLex (y.1, toLex y.2)

instance : DecidableRel keyLe := fun x y =>
  inferInstanceAs (Decidable (toLex (x.1, toLex x.2) ≤ toLex (y.1, toLex y.2)))

/-! ## Rebuild -/

/-- A new row, as the validators of `Application` store it. -/
def newApplication (U : Unicode) (id : Nat) (key : ApplicationKey) : Application where
  id := id
  name := orElse (normalizeApplicationCode U (some key.1)) key.1
  environment := coalesceDimension U (some key.2.1)
  region := coalesceDimension U (some key.2.2)
  syncAt := none
  syncScheduledAt := none
  syncError := none

/-- What a rebuild returns. -/
structure RebuildReport where
  created : Nat
  deleted : Nat
  total : Nat
  deriving DecidableEq, Repr

/-- Rebuild the applications projection from the current machine snapshot. -/
def rebuildApplicationsFromMachines (U : Unicode) (db : Database) : Database × RebuildReport :=
  let snapshot := applicationSnapshot U db.machines
  let ordered := orderBy keyLe snapshot
  let created := missingKeys Application.key db.applications ordered
  let deleted := staleRows Application.key db.applications ordered
  let applications := reconcile Application.key (newApplication U) db.nextId db.applications ordered
  ({ db with applications, nextId := db.nextId + created.length }, ⟨created.length, deleted.length, snapshot.length⟩)

/-! ## Canonical columns -/

/-- The columns were written through the validators of `Machine`. -/
structure Machine.Validated (U : Unicode) (m : Machine) : Prop where
  application : ∃ value, m.application = normalizeApplicationCode U value
  environment : ∃ value, m.environment = normalizeDimension U value
  region : ∃ value, m.region = normalizeDimension U value

/-- The key under which a machine is looked up. -/
def Machine.projectionKey (m : Machine) (name : String) : ApplicationKey :=
  (name, m.environment.getD "UNKNOWN", m.region.getD "UNKNOWN")

theorem normalizeOptional_ne_empty {U : Unicode} {f : String → String} (hf : ∀ s, s ≠ "" → f s ≠ "")
    (v : Option String) : normalizeOptional U v f ≠ some "" := by
  cases v with
  | none => simp [normalizeOptional]
  | some v =>
    by_cases h : U.strip v = ""
    · simp [normalizeOptional, h]
    · simpa [normalizeOptional, h] using hf _ h

/-- On a canonical value, coalescing in Python is coalescing in SQL. -/
theorem coalesceDimension_normalized {U : Unicode} (v : Option String) :
    coalesceDimension U (normalizeDimension U v) = (normalizeDimension U v).getD "UNKNOWN" := by
  rw [coalesceDimension, normalizeDimension_idem]
  cases h : normalizeDimension U v with
  | none => rfl
  | some s =>
    have hs : s ≠ "" := fun he => normalizeOptional_ne_empty U.upper_nonempty v (he ▸ h)
    simp [orElse, hs]

theorem normalizeDimension_unknown (U : Unicode) : normalizeDimension U (some "UNKNOWN") = some "UNKNOWN" := by
  have hascii : IsAscii "UNKNOWN" := by decide
  have hstrip : U.strip "UNKNOWN" = "UNKNOWN" := by
    rw [U.strip_ascii hascii]
    decide
  have hupper : U.upper "UNKNOWN" = "UNKNOWN" := by
    rw [U.upper_ascii _ hascii]
    decide
  simp [normalizeDimension, normalizeOptional, hstrip, hupper]

/-- A coalesced dimension is a fixed point of the validator of `Application`. -/
theorem coalesceDimension_idem {U : Unicode} (v : Option String) :
    coalesceDimension U (some (coalesceDimension U v)) = coalesceDimension U v := by
  cases h : normalizeDimension U v with
  | none =>
    have hv : coalesceDimension U v = "UNKNOWN" := by simp [coalesceDimension, h, orElse]
    rw [hv, coalesceDimension, normalizeDimension_unknown]
    decide
  | some s =>
    have hs : s ≠ "" := fun he => normalizeOptional_ne_empty U.upper_nonempty v (he ▸ h)
    have hv : coalesceDimension U v = s := by simp [coalesceDimension, h, orElse, hs]
    have hidem := normalizeDimension_idem (U := U) v
    rw [h] at hidem
    rw [hv, coalesceDimension, hidem]
    simp [orElse, hs]

/-- The canonical key of a machine is the key under which it is looked up. -/
theorem canonicalKey_eq {U : Unicode} {m : Machine} (hm : m.Validated U) :
    canonicalKey U m.dimensions = m.application.map m.projectionKey := by
  obtain ⟨⟨a, ha⟩, ⟨e, he⟩, ⟨r, hr⟩⟩ := hm
  have hname : normalizeApplicationCode U m.application = m.application := by rw [ha, normalizeApplicationCode_idem]
  have henv : coalesceDimension U m.environment = m.environment.getD "UNKNOWN" := by
    rw [he, coalesceDimension_normalized]
  have hregion : coalesceDimension U m.region = m.region.getD "UNKNOWN" := by rw [hr, coalesceDimension_normalized]
  simp only [canonicalKey, Machine.dimensions, hname, henv, hregion]
  rfl

/-- A machine belongs to an application when its key is the key of the application. -/
theorem contains_iff {a : Application} {m : Machine} :
    a.Contains m ↔ m.application.map m.projectionKey = some a.key := by
  cases h : m.application with
  | none => simp [Application.Contains, h]
  | some name =>
    simp only [Application.Contains, h, Option.map_some, Option.some.injEq, Machine.projectionKey, Application.key,
      Prod.mk.injEq]

theorem mem_groupedRows {machines : List Machine} {row : Option String × Option String × Option String} :
    row ∈ groupedRows machines ↔ ∃ m ∈ machines, m.application ≠ none ∧ m.dimensions = row := by
  simp [groupedRows, and_assoc]

/-- The snapshot consists of the keys of the machines. -/
theorem mem_applicationSnapshot {U : Unicode} {machines : List Machine} (hm : ∀ m ∈ machines, m.Validated U)
    {k : ApplicationKey} :
    k ∈ applicationSnapshot U machines ↔ ∃ m ∈ machines, m.application.map m.projectionKey = some k := by
  simp only [applicationSnapshot, List.mem_dedup, List.mem_filterMap, mem_groupedRows]
  constructor
  · rintro ⟨row, ⟨m, hmem, -, rfl⟩, hk⟩
    exact ⟨m, hmem, canonicalKey_eq (hm m hmem) ▸ hk⟩
  · rintro ⟨m, hmem, hk⟩
    have happ : m.application ≠ none := by
      intro hn
      rw [hn] at hk
      cases hk
    exact ⟨m.dimensions, ⟨m, hmem, happ, rfl⟩, (canonicalKey_eq (hm m hmem)).trans hk⟩

/-- The validators of `Application` leave a key of the snapshot as it is. -/
theorem newApplication_key {U : Unicode} {machines : List Machine} (id : Nat) {k : ApplicationKey}
    (hk : k ∈ applicationSnapshot U machines) : (newApplication U id k).key = k := by
  simp only [applicationSnapshot, List.mem_dedup, List.mem_filterMap, canonicalKey, Option.map_eq_some_iff] at hk
  obtain ⟨row, -, name, hname, rfl⟩ := hk
  have hidem := normalizeApplicationCode_idem (U := U) row.1
  rw [hname] at hidem
  have hne : name ≠ "" := fun he => normalizeOptional_ne_empty U.upper_nonempty row.1 (he ▸ hname)
  simp [newApplication, Application.key, hidem, orElse, hne, coalesceDimension_idem]

/-! ## The rebuilt table -/

/-- What a rebuild does: every machine with an application belongs to one row, every row has a machine, rows whose key
survives are the old rows, the report counts the added and the removed keys, and a second rebuild changes nothing. -/
structure ProjectionExact (U : Unicode) (before after : Database) (report : RebuildReport) : Prop where
  machines : after.machines = before.machines
  selected : ∀ m ∈ after.machines, m.application ≠ none →
    (after.applications.filter fun a => m ∈ applicationMachines after a).length = 1
  inhabited : ∀ a ∈ after.applications, applicationMachines after a ≠ []
  kept : ∀ a ∈ before.applications, a.key ∈ after.applications.map Application.key → a ∈ after.applications
  surviving : ∀ a ∈ after.applications, a.key ∈ before.applications.map Application.key → a ∈ before.applications
  created : report.created =
    (keysWithout (after.applications.map Application.key) (before.applications.map Application.key)).length
  deleted : report.deleted =
    (keysWithout (before.applications.map Application.key) (after.applications.map Application.key)).length
  again : (rebuildApplicationsFromMachines U after).2.created = 0 ∧
    (rebuildApplicationsFromMachines U after).2.deleted = 0

section Rebuild

variable {U : Unicode} {db : Database}

theorem newApplication_ordered (id : Nat) : ∀ k ∈ orderBy keyLe (applicationSnapshot U db.machines),
    (newApplication U id k).key = k :=
  fun _ hk => newApplication_key id (mem_orderBy.mp hk)

/-- The keys of the rebuilt table are those of the machines. -/
theorem mem_rebuilt_keys (hm : ∀ m ∈ db.machines, m.Validated U) {k : ApplicationKey} :
    k ∈ (rebuildApplicationsFromMachines U db).1.applications.map Application.key ↔
      ∃ m ∈ db.machines, m.application.map m.projectionKey = some k := by
  rw [← mem_applicationSnapshot hm]
  exact (mem_reconcile_keys newApplication_ordered db.nextId).trans mem_orderBy

/-- The unique constraint on name, environment and region holds of the rebuilt table. -/
theorem rebuilt_nodup (hu : (db.applications.map Application.key).Nodup) :
    ((rebuildApplicationsFromMachines U db).1.applications.map Application.key).Nodup := by
  refine reconcile_nodup newApplication_ordered _ hu ?_
  exact (orderBy_perm keyLe _).nodup_iff.mpr (List.nodup_dedup _)

/-- The new rows draw fresh identities. -/
theorem rebuilt_keyed (hk : Table.Keyed db.applications) (hf : ∀ a ∈ db.applications, a.id < db.nextId) :
    Table.Keyed (rebuildApplicationsFromMachines U db).1.applications :=
  reconcile_ids (fun _ _ => rfl) hk hf _

/-- The projection is an exact partition of the machines. -/
theorem projection_exact (U : Unicode) (db : Database) (hm : ∀ m ∈ db.machines, m.Validated U)
    (hu : (db.applications.map Application.key).Nodup) :
    ProjectionExact U db (rebuildApplicationsFromMachines U db).1 (rebuildApplicationsFromMachines U db).2 := by
  have hmake : ∀ i, ∀ k ∈ orderBy keyLe (applicationSnapshot U db.machines), (newApplication U i k).key = k :=
    newApplication_ordered
  constructor
  case machines => rfl
  case selected =>
    intro m hmem happ
    obtain ⟨name, hname⟩ := Option.ne_none_iff_exists'.mp happ
    have hkey : m.application.map m.projectionKey = some (m.projectionKey name) := by rw [hname, Option.map_some]
    obtain ⟨a, ha, hak⟩ := List.mem_map.mp ((mem_rebuilt_keys hm).mpr ⟨m, hmem, hkey⟩)
    have hselect : ∀ b : Application, m ∈ applicationMachines (rebuildApplicationsFromMachines U db).1 b ↔
        b.key = a.key := by
      intro b
      rw [mem_applicationMachines, contains_iff, hkey, ← hak, Option.some.injEq, eq_comm]
      exact and_iff_right hmem
    simp only [hselect]
    rw [Table.filter_key (rebuilt_nodup hu) ha, List.length_singleton]
  case inhabited =>
    intro a ha hnil
    obtain ⟨m, hmem, hkey⟩ := (mem_rebuilt_keys hm).mp (List.mem_map_of_mem ha)
    have hmem' : m ∈ applicationMachines (rebuildApplicationsFromMachines U db).1 a :=
      mem_applicationMachines.mpr ⟨hmem, contains_iff.mpr hkey⟩
    rw [hnil] at hmem'
    cases hmem'
  case kept => exact fun a ha hk => reconcile_kept hmake _ ha hk
  case surviving => exact fun a ha hk => reconcile_surviving hmake _ ha hk
  case created => exact congrArg List.length (reconcile_added hmake db.nextId).symm
  case deleted =>
    refine Eq.trans ?_ (congrArg List.length (reconcile_removed hmake db.nextId).symm)
    exact (List.length_map _).symm
  case again =>
    obtain ⟨hmissing, hstale⟩ := reconcile_again hmake db.nextId fun k => Iff.rfl
    exact ⟨congrArg List.length hmissing, congrArg List.length hstale⟩

end Rebuild

/-- Machines with and without dimensions, one of them under the literal `UNKNOWN`, and a table with one application that
survives and one that does not. -/
def mixedProjection : Database :=
  { Database.empty with
    machines := [⟨1, 1, some "A", none, none, "H1", none, none, none, none, none, "{}", 0⟩,
      ⟨2, 1, some "A", none, none, "H2", none, some "UNKNOWN", none, none, none, "{}", 0⟩,
      ⟨3, 1, some "B", none, none, "H3", some "EU", some "PROD", none, none, none, "{}", 0⟩,
      ⟨4, 2, none, none, none, "H4", none, none, none, none, none, "{}", 0⟩]
    applications := [⟨1, "A", "UNKNOWN", "UNKNOWN", some 5, none, none⟩, ⟨2, "C", "PROD", "EU", none, none, none⟩]
    nextId := 5 }

theorem validated_mixedProjection : ∀ m ∈ mixedProjection.machines, m.Validated Unicode.ascii := by
  intro m hm
  refine ⟨⟨m.application, ?_⟩, ⟨m.environment, ?_⟩, ⟨m.region, ?_⟩⟩
  all_goals
    revert m
    decide +kernel

theorem projection_exact_mixedProjection :
    ProjectionExact Unicode.ascii mixedProjection (rebuildApplicationsFromMachines Unicode.ascii mixedProjection).1
      (rebuildApplicationsFromMachines Unicode.ascii mixedProjection).2 :=
  projection_exact Unicode.ascii mixedProjection validated_mixedProjection (by decide)

example : (rebuildApplicationsFromMachines Unicode.ascii mixedProjection).2 = ⟨1, 1, 2⟩ := by decide +kernel

end Washing
