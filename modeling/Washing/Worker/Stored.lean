import Washing.Worker.Constrained

/-!
# What every task keeps

`Tables.Stored` is what the tables guarantee together: the connectors and the machines are where they belong
(`Store.Sound`), names and pairs are unique and platforms exist (`Store.Constrained`), the rows are lawful and have
their machine (`Database.Kept`), and every task has one row in the history. Every task keeps it, whether it returns or
raises (`Stored.execute`).
-/

namespace Washing

/-- What is guaranteed of everything that the database holds. -/
structure Tables.Stored (config : WorkerConfig) (t : Tables) : Prop where
  sound : t.toStore.Sound config.api
  constrained : t.toStore.Constrained
  kept : t.toDatabase.Kept config.api.unicode
  history : t.history.Stored

/-! ## Sound stores -/

section Sound

variable {api : ApiEnv} {s : Store}

/-- The applications and the optimizations are written. -/
theorem sampled_of_rest (collect : MetricCollector) {db db' : Database}
    (hprovisioners : db'.provisioners = db.provisioners) (hattachments : db'.attachments = db.attachments)
    (hmachines : db'.machines = db.machines)
    (hproviders : db'.providers = db.providers) (hmetrics : ∀ scope, db'.metrics scope = db.metrics scope)
    (hnext : db.nextId ≤ db'.nextId) : Sampled collect db db' where
  provisioners := hprovisioners
  attachments := hattachments
  machines := hmachines
  providers := congrArg _ hproviders
  next_le := hnext
  samples := fun scope r hr => .inl ⟨r, hmetrics scope ▸ hr, rfl, rfl⟩

/-- A store stays sound when applications are written. -/
theorem Store.Sound.withApplications (h : s.Sound api) (applications : List Application) {nextId : Nat}
    (hnext : s.nextId ≤ nextId) :
    Store.Sound api { s with toDatabase := { s.toDatabase with applications, nextId } } :=
  h.collection (sampled_of_rest emptyMetricCollector rfl rfl rfl rfl (fun scope => by cases scope <;> rfl) hnext)

/-- A purge leaves the store sound. -/
theorem Store.Sound.purge (h : s.Sound api) (retentionDays : Int) (now : Time) :
    Store.Sound api { s with toDatabase := (purgeStaleMachines s.toDatabase retentionDays now).1 } where
  platforms := h.platforms
  providers := h.providers
  provisioners := h.provisioners
  machines := h.machines.sublist (List.filter_sublist.map _)
  attachments := h.attachments
  sources := fun m hm => h.sources m (List.mem_of_mem_filter hm)
  samples := by
    intro scope r hr
    have hr : r ∈ s.metrics scope ∧ r.machineId ∉
        (s.machines.filter fun m => m.updatedAt < now - days retentionDays).map (·.id) := by
      cases scope <;> exact ⟨List.mem_of_mem_filter hr, of_decide_eq_true (List.mem_filter.mp hr).2⟩
    obtain ⟨hprovider, hmachine⟩ := h.samples scope r hr.1
    obtain ⟨m, hm, hid⟩ := Table.mem_ids.mp hmachine
    refine ⟨hprovider, Table.mem_ids.mpr ⟨m, List.mem_filter.mpr ⟨hm, decide_eq_true fun hold => hr.2 ?_⟩, hid⟩⟩
    exact List.mem_map.mpr ⟨m, List.mem_filter.mpr ⟨hm, decide_eq_true hold⟩, hid⟩
  attached := h.attached
  placed := fun m hm => h.placed m (List.mem_of_mem_filter hm)
  crons := h.crons

end Sound

/-! ## Schedules -/

/-- A reservation and a release write stamps only. -/
theorem reserveProvisioners_bare (c : CronSlots) (db : Database) (now : Time) (locked : List Nat) :
    (reserveProvisioners c db now locked).1.provisioners.map MachineProvisioner.bare =
      db.provisioners.map MachineProvisioner.bare := by
  simp only [reserveProvisioners, List.map_map]
  refine List.map_congr_left fun p _ => ?_
  simp only [Function.comp_apply]
  split_ifs
  · rfl
  · rfl

theorem releaseProvisioners_bare : ∀ (remaining : List (Nat × Option Time)) (db : Database),
    (releaseProvisioners db remaining).provisioners.map MachineProvisioner.bare =
      db.provisioners.map MachineProvisioner.bare
  | [], _ => rfl
  | (i, stamp) :: remaining, db =>
    (releaseProvisioners_bare remaining _).trans (Table.map_modify (fun p => by rfl) db.provisioners i)

theorem releaseProvisioners_eq : ∀ (remaining : List (Nat × Option Time)) (db : Database),
    releaseProvisioners db remaining = { db with provisioners := (releaseProvisioners db remaining).provisioners }
  | [], _ => rfl
  | (_, _) :: remaining, _ => releaseProvisioners_eq remaining _

/-- A dispatch writes provisioners, and of these the stamps only. -/
theorem dispatchDueJobs_frame (c : CronSlots) (db : Database) (enqueue : Nat → Nat → Option Exc) (now : Time) :
    ∃ provisioners, (dispatchDueJobs c db enqueue now).db = { db with provisioners } ∧
      provisioners.map MachineProvisioner.bare = db.provisioners.map MachineProvisioner.bare := by
  have hreserved := reserveProvisioners_bare c db now []
  unfold dispatchDueJobs
  simp only
  split
  · refine ⟨_, releaseProvisioners_eq _ _, ?_⟩
    rw [releaseProvisioners_bare, hreserved]
  · exact ⟨_, rfl, hreserved⟩

/-- A dispatch of collections writes the bookkeeping of the providers only. -/
theorem machineSyncs_frame (db : Database) (providerId : Nat) (enqueue : Nat → Nat × Nat → Option Exc) (now : Time) :
    ∃ providers, (dispatchProviderMachineSyncs db providerId enqueue now).db = { db with providers } ∧
      providers.map MachineProvider.bare = db.providers.map MachineProvider.bare := by
  have hstarted : (startDispatch db providerId now).providers.map MachineProvider.bare =
      db.providers.map MachineProvider.bare := Table.map_modify (fun p => by rfl) _ _
  unfold dispatchProviderMachineSyncs
  split
  · exact ⟨_, rfl, rfl⟩
  · exact ⟨_, rfl, rfl⟩
  · simp only
    split
    · exact ⟨_, rfl, hstarted⟩
    · exact ⟨_, rfl, hstarted⟩
    · split
      · exact ⟨_, rfl, hstarted⟩
      · exact ⟨_, rfl, hstarted⟩

/-! ## Syncs -/

/-- A reservation writes applications, and keeps their keys. -/
theorem reserveApplications_frame (db : Database) (config : SyncDispatchConfig) (now : Time) (locked : List Nat) :
    ∃ f : Application → Application, (∀ a, (f a).id = a.id ∧ (f a).key = a.key) ∧
      (reserveApplications db config now locked).1 = { db with applications := db.applications.map f } := by
  refine ⟨_, fun a => ?_, rfl⟩
  split_ifs <;> exact ⟨rfl, rfl⟩

/-- A dispatch of syncs writes applications, and keeps their keys. -/
theorem dispatchSyncs_frame (db : Database) (config : SyncDispatchConfig) (enqueue : Nat → Nat → Option Exc)
    (now : Time) : ∃ f : Application → Application, (∀ a, (f a).id = a.id ∧ (f a).key = a.key) ∧
      (dispatchDueApplicationMetricsSyncs db config enqueue now).db =
        { db with applications := db.applications.map f } := by
  have hreserve : ∀ ids : List Nat, ∀ a : Application,
      (if a.id ∈ ids then a.reserved now else a).id = a.id ∧
        (if a.id ∈ ids then a.reserved now else a).key = a.key := by
    intro ids a
    split_ifs <;> exact ⟨rfl, rfl⟩
  have hrelease : ∀ ids : List Nat, ∀ a : Application,
      (if a.id ∈ ids then a.released else a).id = a.id ∧ (if a.id ∈ ids then a.released else a).key = a.key := by
    intro ids a
    split_ifs <;> exact ⟨rfl, rfl⟩
  unfold dispatchDueApplicationMetricsSyncs
  split_ifs
  · exact ⟨id, fun _ => ⟨rfl, rfl⟩, by simp⟩
  · simp only
    split
    · refine ⟨_, fun a => ?_, congrArg (fun applications => { db with applications }) (List.map_map ..)⟩
      exact ⟨(hrelease _ _).1.trans (hreserve _ a).1, (hrelease _ _).2.trans (hreserve _ a).2⟩
    · exact ⟨_, hreserve _, rfl⟩

/-- A sync writes its application, and keeps its key. -/
theorem applicationSync_frame (faults : Faults Database) (U : Unicode) (db : Database) (applicationId : Nat)
    (enqueue : Nat → Nat × Nat → Option Exc) (now : Time) :
    ∃ f : Application → Application, (∀ a, (f a).id = a.id ∧ (f a).key = a.key) ∧
      (syncJob faults U db applicationId enqueue now).2.committed =
        { db with applications := db.applications.map f } := by
  have hmodify : ∀ f : Application → Application, (∀ a, (f a).id = a.id ∧ (f a).key = a.key) → ∀ a : Application,
      (if Row.id a = applicationId then f a else a).id = a.id ∧
        (if Row.id a = applicationId then f a else a).key = a.key := by
    intro f hf a
    split_ifs
    · exact hf a
    · exact ⟨rfl, rfl⟩
  have hfailed : ∀ e : Exc, ∃ f : Application → Application, (∀ a, (f a).id = a.id ∧ (f a).key = a.key) ∧
      { db with applications := Table.modify db.applications applicationId fun a =>
        a.recordError U (some (.exception e)) } = { db with applications := db.applications.map f } :=
    fun e => ⟨_, hmodify (fun a => a.recordError U (some (.exception e))) fun _ => ⟨rfl, rfl⟩, rfl⟩
  cases hrun : (syncJob faults U db applicationId enqueue now).1 with
  | error e =>
    rw [syncJob_error hrun]
    exact hfailed e
  | ok report =>
    rw [(syncJob_ok hrun).2]
    unfold runApplicationMetricsSync
    split
    · exact ⟨id, fun _ => ⟨rfl, rfl⟩, by simp⟩
    · simp only
      split
      · exact hfailed _
      · exact ⟨_, hmodify (fun a => a.synced now) fun _ => ⟨rfl, rfl⟩, rfl⟩

/-! ## Every task -/

/-- A commit fails and leaves the tables as they were, or the task goes on. -/
theorem committing_cases (env : TaskEnv) (t : Tables) (outcome : TaskOutcome) :
    (∃ e, env.committing t outcome = ⟨t, [], some e⟩) ∨ env.committing t outcome = outcome := by
  unfold TaskEnv.committing
  cases env.commitFaults 0 with
  | some e => exact .inl ⟨e, rfl⟩
  | none => exact .inr rfl

/-- The release fails and leaves the rows reserved, or there is none, or it gets through. -/
theorem releasing_cases (env : TaskEnv) (failure : Option Exc) (reserved released : Database) :
    (∃ e, env.commitFaults 1 = some e ∧ env.releasing failure reserved released = (reserved, some e)) ∨
      env.releasing failure reserved released = (released, failure) := by
  unfold TaskEnv.releasing
  split
  · rename_i e hfault
    exact .inl ⟨e, hfault, rfl⟩
  · exact .inr rfl

/-- A purge of the history leaves one row for each task at most. -/
theorem TaskHistory.Stored.purge {h : TaskHistory} (hs : h.Stored) (retentionDays : Int) (now : Time) :
    (purgeOldTaskExecutions h retentionDays now).1.Stored where
  fits := fun r hr => hs.fits r (List.mem_of_mem_filter hr)
  keyed := hs.keyed.sublist (List.filter_sublist.map _)
  fresh := fun r hr => hs.fresh r (List.mem_of_mem_filter hr)
  unique := hs.unique.sublist (List.filter_sublist.map _)

namespace Tables.Stored

variable {config : WorkerConfig} {t : Tables}

/-- The tables of the inventory, the metrics and the applications are written. -/
theorem withDb (h : t.Stored config) {db : Database}
    (hsound : Store.Sound config.api { t.toStore with toDatabase := db })
    (hconstrained : Store.Constrained { t.toStore with toDatabase := db })
    (hkept : db.Kept config.api.unicode) : (t.withDb db).Stored config := ⟨hsound, hconstrained, hkept, h.history⟩

/-- The applications are written. -/
theorem withApplications (h : t.Stored config) {applications : List Application} {nextId : Nat}
    (hnext : t.nextId ≤ nextId) (hkept : Database.Kept config.api.unicode { t.toDatabase with applications, nextId }) :
    (t.withDb { t.toDatabase with applications, nextId }).Stored config :=
  h.withDb (h.sound.withApplications _ hnext) (h.constrained.frame rfl rfl rfl rfl rfl hnext) hkept

/-- Columns of the applications are written that belong to no key. -/
theorem mapApplications (h : t.Stored config) {f : Application → Application}
    (hf : ∀ a, (f a).id = a.id ∧ (f a).key = a.key) :
    (t.withDb { t.toDatabase with applications := t.applications.map f }).Stored config :=
  h.withApplications le_rfl (h.kept.mapApplications hf)

/-- The bookkeeping of the provisioners is written. -/
theorem withProvisioners (h : t.Stored config) {provisioners : List MachineProvisioner}
    (hbare : provisioners.map MachineProvisioner.bare = t.provisioners.map MachineProvisioner.bare) :
    (t.withDb { t.toDatabase with provisioners }).Stored config :=
  have hids : Table.ids provisioners = Table.ids t.provisioners := Table.ids_of_map_eq (fun p => by rfl) hbare
  h.withDb (h.sound.inventory (inventoried_of_provisioners h.sound.machines (fun _ hm => h.sound.sourced hm) hbare))
    (h.constrained.frame rfl hbare rfl rfl rfl le_rfl) (h.kept.withProvisioners hids)

/-- The bookkeeping of the providers is written. -/
theorem withProviders (h : t.Stored config) {providers : List MachineProvider}
    (hbare : providers.map MachineProvider.bare = t.providers.map MachineProvider.bare) :
    (t.withDb { t.toDatabase with providers }).Stored config :=
  have hids : Table.ids providers = Table.ids t.providers := Table.ids_of_map_eq (fun p => by rfl) hbare
  h.withDb (h.sound.collection (sampled_of_providers emptyMetricCollector hbare))
    (h.constrained.frame hbare rfl rfl rfl rfl le_rfl) (h.kept.withProviders hids)

/-- An inventory run. -/
theorem inventory (h : t.Stored config) (env : TaskEnv) (provisionerId : Nat) :
    (t.withDb (inventoryJob env.inventoryFaults (env.inventoryEnv config) env.inventory t.toDatabase 0
      provisionerId).2.committed).Stored config := by
  have hunicode : t.Kept (env.inventoryEnv config).unicode := h.kept
  have hkept := hunicode.inventoryJob env.inventoryFaults env.inventory 0 provisionerId
  cases hrun : (inventoryJob env.inventoryFaults (env.inventoryEnv config) env.inventory t.toDatabase 0
      provisionerId).1 with
  | error e =>
    rw [inventoryJob_error hrun]
    exact h.withProvisioners (Table.map_modify (fun p => by rfl) _ _)
  | ok report =>
    have hinventoried := run_inventoried (env.inventoryEnv config) env.inventory h.sound.machines
      h.sound.provisioners.keyed (fun _ hm => h.sound.sourced hm) 0 provisionerId
    refine h.withDb ?_ ?_ hkept <;> rw [(inventoryJob_ok hrun).2]
    · exact h.sound.inventory hinventoried
    · exact h.constrained.inventory hinventoried (h.constrained.recorded.inventory _ 0 provisionerId)

/-- A collection. -/
theorem collection (h : t.Stored config) (env : TaskEnv) (providerId machineId : Nat) :
    (t.withDb (collectionJob env.collectionFaults (env.collectionEnv config) t.toDatabase providerId
      machineId).2.committed).Stored config := by
  have hunicode : t.Kept (env.collectionEnv config).unicode := h.kept
  have hkept := hunicode.collectionJob env.collectionFaults providerId machineId
  cases hrun : (collectionJob env.collectionFaults (env.collectionEnv config) t.toDatabase providerId machineId).1 with
  | error e =>
    obtain hdb | hdb := collectionJob_error hrun
    · rw [hdb]
      exact h
    · rw [hdb]
      exact h.withProviders (Table.map_modify (fun p => by rfl) _ _)
  | ok report =>
    have hsampled := collection_sampled (env.collectionEnv config) t.toDatabase providerId machineId
    refine h.withDb ?_ ?_ hkept <;> rw [(collectionJob_ok hrun).2]
    · exact h.sound.collection hsampled
    · exact h.constrained.collection hsampled (collection_flavorHistory _ _ _ _)

/-- The commit of a task, which may fail. -/
theorem committing (h : t.Stored config) (env : TaskEnv) {outcome : TaskOutcome}
    (houtcome : outcome.tables.Stored config) : (env.committing t outcome).tables.Stored config := by
  obtain ⟨e, hsame⟩ | hdone := committing_cases env t outcome
  · rw [hsame]
    exact h
  · rw [hdone]
    exact houtcome

/-- Every task keeps it, whether it returns or raises. -/
theorem execute (h : t.Stored config) (env : TaskEnv) (task : WorkerTask) :
    (task.execute config env t).tables.Stored config := by
  cases task with
  | purgeOldTaskExecutions => exact h.committing env ⟨h.sound, h.constrained, h.kept, h.history.purge _ _⟩
  | purgeStaleApplications =>
    exact h.committing env (h.withApplications le_rfl (h.kept.filterApplications _))
  | purgeStaleMachines =>
    exact h.committing env (h.withDb (h.sound.purge _ _) (h.constrained.purge _ _) (h.kept.purge _ _))
  | dispatchEnabledProviderSyncs => exact h
  | runProvider providerId =>
    obtain ⟨providers, hdb, hbare⟩ := machineSyncs_frame t.toDatabase providerId (fun k _ => env.enqueue k)
      (env.clock 0)
    refine h.committing env ?_
    rw [hdb]
    exact h.withProviders hbare
  | runProviderMachine providerId machineId => exact h.collection env providerId machineId
  | runProvisioner provisionerId => exact h.inventory env provisionerId
  | syncApplicationInventoryDiscovery =>
    exact h.committing env (h.withApplications (Nat.le_add_right _ _) h.kept.rebuild)
  | dispatchDueApplicationMetricsSyncs =>
    refine h.committing env ?_
    obtain ⟨_, -, hreserved⟩ | hreleased := releasing_cases env _ _ _
    · obtain ⟨f, hf, hdb⟩ := reserveApplications_frame t.toDatabase config.syncs (env.clock 0) []
      rw [hreserved, hdb]
      exact h.mapApplications hf
    · obtain ⟨f, hf, hdb⟩ := dispatchSyncs_frame t.toDatabase config.syncs (fun k _ => env.enqueue k) (env.clock 0)
      rw [hreleased, hdb]
      exact h.mapApplications hf
  | syncApplicationMetrics applicationId =>
    obtain ⟨f, hf, hdb⟩ := applicationSync_frame env.syncFaults config.api.unicode t.toDatabase applicationId
      (fun k _ => env.enqueue k) (env.clock 0)
    have hmapped := h.mapApplications hf
    rw [← hdb] at hmapped
    exact hmapped
  | dispatchDueMachineProvisionerJobs =>
    refine h.committing env ?_
    obtain ⟨_, -, hreserved⟩ | hreleased := releasing_cases env _ _ _
    · rw [hreserved]
      exact h.withProvisioners (reserveProvisioners_bare _ _ _ _)
    · obtain ⟨provisioners, hdb, hbare⟩ := dispatchDueJobs_frame config.croniter t.toDatabase
        (fun k _ => env.enqueue k) (env.clock 0)
      rw [hreleased, hdb]
      exact h.withProvisioners hbare
  | recalculateMachineOptimizations machineId =>
    cases hrefresh : refreshMachineOptimization config.settings t.toDatabase machineId (env.clock 0) with
    | error e =>
      simp only [WorkerTask.execute, hrefresh]
      exact h
    | ok refreshed =>
      simp only [WorkerTask.execute, hrefresh]
      have hkept := h.kept.refresh hrefresh
      obtain ⟨optimizations, nextId, hnext, hdb⟩ := refreshMachineOptimization_frame hrefresh
      refine h.committing env ?_
      rw [hdb] at hkept ⊢
      exact h.withDb (h.sound.collection (sampled_of_rest emptyMetricCollector rfl rfl rfl rfl
        (fun scope => by cases scope <;> rfl) hnext)) (h.constrained.frame rfl rfl rfl rfl rfl hnext) hkept

/-- So does every request. -/
theorem request (hdefault : config.api.cronIsValid defaultCron) (h : t.Stored config) (request : Request) :
    Tables.Stored config { t with toStore := (request.handle config.api t.toStore).1 } :=
  ⟨h.sound.request hdefault request, h.constrained.request h.sound.toIntact config.api request,
    h.kept.request h.sound.toIntact config.api request, h.history⟩

end Tables.Stored

end Washing
