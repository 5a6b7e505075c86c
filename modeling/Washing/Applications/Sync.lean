import Washing.Lib.Publish
import Washing.Metrics.Collection

/-!
# Application sync

`run_application_metrics_sync` expands one application into one metric collection for each machine of the application
and each enabled provider that sees it (`applicationPairs`), and publishes them. Since every collection asks the same
question again when it runs, a published pair is never refused on the unchanged database.
-/

namespace Washing

/-- Return the current machines belonging to one application projection row. -/
def applicationMachines (db : Database) (application : Application) : List Machine :=
  orderBy (fun m n => m.id ≤ n.id)
    (selectWhere (fun m => Cond.eq (some (m.region.getD "UNKNOWN")) (some application.region))
      (selectWhere (fun m => Cond.eq (some (m.environment.getD "UNKNOWN")) (some application.environment))
        (selectWhere (fun m => Cond.eq m.application (some application.name)) db.machines)))

/-- The machine and provider pairs of an application, machines first. -/
def applicationPairs (db : Database) (application : Application) : List (Nat × Nat) :=
  let machines := applicationMachines db application
  let providers := visibleEnabledProviders db (machines.map (·.platformId))
  machines.flatMap fun machine =>
    (providers.filter fun provider => Applications.providerSeesMachine db provider machine).map fun provider =>
      (machine.id, provider.id)

/-- What a sync returns. -/
structure SyncReport where
  applicationId : Nat
  machines : Nat
  synced : Nat
  status : String
  deriving DecidableEq, Repr

/-- The outcome of a sync: the database after it, the published (provider, machine) messages, and what it returns or
raises. -/
structure SyncOutcome where
  db : Database
  published : List (Nat × Nat)
  result : Except Exc SyncReport
  deriving DecidableEq

/-- A finished sync of an application. -/
def Application.synced (a : Application) (now : Time) : Application :=
  { a with syncScheduledAt := none, syncAt := some now, syncError := none }

/-- Dispatch one distributed metrics sync for a single application batch. -/
def runApplicationMetricsSync (U : Unicode) (db : Database) (applicationId : Nat)
    (enqueueMachineSync : Nat → Nat × Nat → Option Exc) (now : Time) : SyncOutcome :=
  match Table.get db.applications applicationId with
  | none =>
    ⟨db, [], .error ⟨.valueError, "application " ++ toString applicationId ++ " not found"⟩⟩
  | some application =>
    let machines := applicationMachines db application
    let pairs := applicationPairs db application
    let publication := publishAll enqueueMachineSync 0 (pairs.map Prod.swap)
    match publication.2 with
    | some e =>
      let applications := Table.modify db.applications applicationId fun a => a.recordError U (some (.exception e))
      ⟨{ db with applications }, publication.1, .error e⟩
    | none =>
      let applications := Table.modify db.applications applicationId fun a => a.synced now
      let status := if pairs = [] then "noop" else "dispatched"
      ⟨{ db with applications }, publication.1, .ok ⟨application.id, machines.length, pairs.length, status⟩⟩

/-- A sync rewrites its application, whose last sync stays the same or is set to the time of the sync. -/
theorem sync_applications (U : Unicode) (db : Database) (applicationId : Nat)
    (enqueue : Nat → Nat × Nat → Option Exc) (now : Time) :
    ∃ f : Application → Application, (∀ a, (f a).id = a.id ∧ ((f a).syncAt = a.syncAt ∨ (f a).syncAt = some now)) ∧
      (runApplicationMetricsSync U db applicationId enqueue now).db.applications =
        Table.modify db.applications applicationId f := by
  unfold runApplicationMetricsSync
  cases Table.get db.applications applicationId with
  | none => exact ⟨id, fun a => ⟨rfl, .inl rfl⟩, by simp [Table.modify]⟩
  | some application =>
    simp only
    cases (publishAll enqueue 0 ((applicationPairs db application).map Prod.swap)).2 with
    | some e => exact ⟨fun a => a.recordError U (some (.exception e)), fun a => ⟨rfl, .inl rfl⟩, rfl⟩
    | none => exact ⟨fun a => a.synced now, fun a => ⟨rfl, .inr rfl⟩, rfl⟩

/-! ## The published pairs -/

/-- A machine of the application, as the projection groups machines. -/
def Application.Contains (a : Application) (m : Machine) : Prop :=
  m.application = some a.name ∧ m.environment.getD "UNKNOWN" = a.environment ∧ m.region.getD "UNKNOWN" = a.region

theorem mem_applicationMachines {db : Database} {a : Application} {m : Machine} :
    m ∈ applicationMachines db a ↔ m ∈ db.machines ∧ a.Contains m := by
  simp only [applicationMachines, mem_orderBy, mem_selectWhere, Cond.isTrue_eq_const, Option.some.injEq,
    Application.Contains]
  constructor
  · rintro ⟨⟨⟨hm, hn⟩, he⟩, hr⟩
    exact ⟨hm, hn, he, hr⟩
  · rintro ⟨hm, hn, he, hr⟩
    exact ⟨⟨⟨hm, hn⟩, he⟩, hr⟩

theorem nodup_applicationMachines {db : Database} (hk : Table.Keyed db.machines) (a : Application) :
    ((applicationMachines db a).map (·.id)).Nodup := by
  refine ((orderBy_perm _ _).map _).nodup_iff.mpr ?_
  exact hk.sublist ((List.filter_sublist.trans (List.filter_sublist.trans List.filter_sublist)).map _)

/-- The pairs of an application are the enabled providers that see one of its machines. -/
theorem mem_applicationPairs {db : Database} (hc : db.Consistent) {a : Application} {p : MachineProvider} {m : Machine}
    (hp : p ∈ db.providers) (hm : m ∈ db.machines) :
    (m.id, p.id) ∈ applicationPairs db a ↔ p.enabled ∧ a.Contains m ∧ Sees db p m := by
  simp only [applicationPairs, List.mem_flatMap, List.mem_map, List.mem_filter, Prod.mk.injEq]
  constructor
  · rintro ⟨n, hn, q, ⟨hq, hs⟩, hmn, hpq⟩
    rw [mem_applicationMachines] at hn
    rw [mem_visibleEnabledProviders] at hq
    cases hc.machines_keyed.eq_of_id hn.1 hm hmn
    cases hc.providers_keyed.eq_of_id hq.1 hp hpq
    exact ⟨hq.2.1, hn.2, Applications.providerSeesMachine_iff.mp hs⟩
  · rintro ⟨he, ha, hs⟩
    have hmem : m ∈ applicationMachines db a := mem_applicationMachines.mpr ⟨hm, ha⟩
    have hplatform : p.platformId ∈ (applicationMachines db a).map (·.platformId) := List.mem_map.mpr ⟨m, hmem, hs.1⟩
    exact ⟨m, hmem, p, ⟨mem_visibleEnabledProviders.mpr ⟨hp, he, hplatform⟩,
      Applications.providerSeesMachine_iff.mpr hs⟩,
      rfl, rfl⟩

/-- Every pair of an application consists of a stored machine and a stored provider. -/
theorem exists_of_mem_applicationPairs {db : Database} {a : Application} {x : Nat × Nat}
    (h : x ∈ applicationPairs db a) : ∃ m ∈ db.machines, ∃ p ∈ db.providers, x = (m.id, p.id) := by
  simp only [applicationPairs, List.mem_flatMap, List.mem_map, List.mem_filter] at h
  obtain ⟨m, hm, p, ⟨hp, -⟩, rfl⟩ := h
  exact ⟨m, (mem_applicationMachines.mp hm).1, p, (mem_visibleEnabledProviders.mp hp).1, rfl⟩

/-- No pair is listed twice. -/
theorem nodup_applicationPairs {db : Database} (hc : db.Consistent) (a : Application) :
    (applicationPairs db a).Nodup := by
  have hmachines := nodup_applicationMachines hc.machines_keyed a
  unfold applicationPairs
  refine List.nodup_flatMap.mpr ⟨fun m _ => ?_, ?_⟩
  · have hproviders := nodup_visibleEnabledProviders hc.providers_keyed ((applicationMachines db a).map (·.platformId))
    have hids : ((visibleEnabledProviders db ((applicationMachines db a).map (·.platformId))).filter fun p =>
        Applications.providerSeesMachine db p m).map (·.id) |>.Nodup := hproviders.sublist (List.filter_sublist.map _)
    refine List.Nodup.of_map Prod.snd ?_
    simpa [Function.comp_def] using hids
  · refine (List.pairwise_map.mp hmachines).imp fun {m n} hmn => ?_
    rintro x hx hy
    simp only [List.mem_map] at hx hy
    obtain ⟨_, -, rfl⟩ := hx
    obtain ⟨_, -, he⟩ := hy
    exact hmn (congrArg Prod.fst he).symm

/-! ## Dispatch and execution -/

/-- What a sync of an application publishes, and what becomes of it. If no publish raises, the sync returns, and every
pair of an enabled provider and a machine of the application that it sees is published once; no other pair ever is, and
none twice. A published pair that is executed on the same database is not refused. -/
structure DispatchExact (db : Database) (a : Application) (enqueue : Nat → Nat × Nat → Option Exc)
    (outcome : SyncOutcome) : Prop where
  returns : (∀ k x, enqueue k x = none) →
    outcome.result = .ok ⟨a.id, (applicationMachines db a).length, outcome.published.length,
      if outcome.published = [] then "noop" else "dispatched"⟩
  once : (∀ k x, enqueue k x = none) → ∀ p ∈ db.providers, ∀ m ∈ db.machines,
    outcome.published.count (p.id, m.id) =
      if p.enabled ∧ m ∈ applicationMachines db a ∧ m ∈ scopedMachines db p then 1 else 0
  only : ∀ x ∈ outcome.published, outcome.published.count x = 1 ∧ ∃ p ∈ db.providers, ∃ m ∈ db.machines,
    x = (p.id, m.id) ∧ p.enabled ∧ m ∈ applicationMachines db a ∧ m ∈ scopedMachines db p
  executed : ∀ env, ∀ x ∈ outcome.published, ∀ report,
    (runProviderMachineCollection env db x.1 x.2).2 = .ok report → report.status = none

/-- The pairs are published in order, up to the first publish that raises. -/
theorem published_isPrefix {U : Unicode} {db : Database} {a : Application} (hc : db.Consistent)
    (ha : a ∈ db.applications) (enqueue : Nat → Nat × Nat → Option Exc) (now : Time) :
    (runApplicationMetricsSync U db a.id enqueue now).published <+: (applicationPairs db a).map Prod.swap := by
  have hget : Table.get db.applications a.id = some a := Table.get_of_mem hc.applications_keyed ha
  have hpre := publishAll_isPrefix enqueue 0 ((applicationPairs db a).map Prod.swap)
  simp only [runApplicationMetricsSync, hget]
  cases hr : (publishAll enqueue 0 ((applicationPairs db a).map Prod.swap)).2 with
  | some e => exact hpre
  | none => exact hpre

/-- If no publish raises, all pairs are published, and the sync returns their number. -/
theorem sync_returns {U : Unicode} {db : Database} {a : Application} (hc : db.Consistent) (ha : a ∈ db.applications)
    {enqueue : Nat → Nat × Nat → Option Exc} (henqueue : ∀ k x, enqueue k x = none) (now : Time) :
    let outcome := runApplicationMetricsSync U db a.id enqueue now
    outcome.published = (applicationPairs db a).map Prod.swap ∧
      outcome.result = .ok ⟨a.id, (applicationMachines db a).length, outcome.published.length,
        if outcome.published = [] then "noop" else "dispatched"⟩ := by
  have hget : Table.get db.applications a.id = some a := Table.get_of_mem hc.applications_keyed ha
  have hall := publishAll_all henqueue 0 ((applicationPairs db a).map Prod.swap)
  simp only [runApplicationMetricsSync, hget, hall, List.length_map, List.map_eq_nil_iff]
  exact ⟨trivial, trivial⟩

theorem dispatchExact {db : Database} (hc : db.Consistent) {a : Application} (ha : a ∈ db.applications) (U : Unicode)
    (enqueue : Nat → Nat × Nat → Option Exc) (now : Time) :
    DispatchExact db a enqueue (runApplicationMetricsSync U db a.id enqueue now) := by
  have hpre := published_isPrefix (U := U) hc ha enqueue now
  have hnodup : ((applicationPairs db a).map Prod.swap).Nodup :=
    (nodup_applicationPairs hc a).map Prod.swap_injective
  have hpair : ∀ p ∈ db.providers, ∀ m ∈ db.machines, (p.id, m.id) ∈ (applicationPairs db a).map Prod.swap ↔
      p.enabled ∧ m ∈ applicationMachines db a ∧ m ∈ scopedMachines db p := by
    intro p hp m hm
    rw [show (p.id, m.id) = Prod.swap (m.id, p.id) from rfl, List.mem_map_of_injective Prod.swap_injective,
      mem_applicationPairs hc hp hm, mem_applicationMachines, mem_scopedMachines]
    simp [hm]
  have honly : ∀ x ∈ (runApplicationMetricsSync U db a.id enqueue now).published, ∃ p ∈ db.providers,
      ∃ m ∈ db.machines, x = (p.id, m.id) ∧ p.enabled ∧ m ∈ applicationMachines db a ∧ m ∈ scopedMachines db p := by
    intro x hx
    have hx := hpre.subset hx
    obtain ⟨y, hy, rfl⟩ := List.mem_map.mp hx
    obtain ⟨m, hm, p, hp, rfl⟩ := exists_of_mem_applicationPairs hy
    exact ⟨p, hp, m, hm, rfl, (hpair p hp m hm).mp hx⟩
  refine ⟨fun henqueue => (sync_returns hc ha henqueue now).2, fun henqueue p hp m hm => ?_,
    fun x hx => ⟨?_, honly x hx⟩, fun env x hx report hreport => ?_⟩
  · simp only [(sync_returns hc ha henqueue now).1, hnodup.count, hpair p hp m hm]
  · exact List.count_eq_one_of_mem (hnodup.sublist hpre.sublist) hx
  · obtain ⟨p, hp, m, hm, rfl, -, -, hs⟩ := honly x hx
    exact status_of_sees hc.providers_keyed hc.machines_keyed hp hm (mem_scopedMachines.mp hs).2 hreport

/-- All definitions of visibility agree, and the syncs dispatch exactly the visible pairs. -/
theorem visibility_agrees_and_dispatch_exact (db : Database) (hc : db.Consistent) :
    (∀ p ∈ db.providers, ∀ m ∈ db.machines, VisibilityAgrees db p m) ∧
    ∀ a ∈ db.applications, ∀ U enqueue now,
      DispatchExact db a enqueue (runApplicationMetricsSync U db a.id enqueue now) :=
  ⟨fun _ hp _ hm => visibilityAgrees hp hm, fun _ ha U enqueue now => dispatchExact hc ha U enqueue now⟩

/-- Two platforms, a provider attached to the provisioner of one machine, a provider for a whole platform, and a machine
without a source. -/
def mixedFleet : Database :=
  { Database.empty with
    provisioners := [⟨1, 1, "inventory", "mock", "{}", true, "* * * * *", none, none, none, none⟩]
    providers := [⟨1, 1, "attached", "mock", .cpu, "{}", true, none, none, none⟩,
      ⟨2, 1, "platform", "mock", .ram, "{}", true, none, none, none⟩,
      ⟨3, 2, "other", "mock", .cpu, "{}", true, none, none, none⟩]
    attachments := [⟨1, 1⟩]
    machines := [⟨1, 1, some "A", some 1, some "a", "H1", none, none, none, none, none, "{}", 0⟩,
      ⟨2, 1, some "A", none, none, "H2", none, none, none, none, none, "{}", 0⟩,
      ⟨3, 2, some "A", none, none, "H1", none, none, none, none, none, "{}", 0⟩]
    applications := [⟨1, "A", "UNKNOWN", "UNKNOWN", none, none, none⟩]
    nextId := 4 }

theorem visibility_agrees_mixedFleet :
    (∀ p ∈ mixedFleet.providers, ∀ m ∈ mixedFleet.machines, VisibilityAgrees mixedFleet p m) ∧
    ∀ a ∈ mixedFleet.applications, ∀ U enqueue now,
      DispatchExact mixedFleet a enqueue (runApplicationMetricsSync U mixedFleet a.id enqueue now) :=
  visibility_agrees_and_dispatch_exact mixedFleet (by decide)

example : applicationPairs mixedFleet ⟨1, "A", "UNKNOWN", "UNKNOWN", none, none, none⟩ =
    [(1, 1), (1, 2), (2, 2), (3, 3)] := by decide

end Washing
