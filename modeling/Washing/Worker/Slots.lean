import Washing.Scheduler.Accounting
import Washing.Worker.FanOut

/-!
# Every slot is served once

The tasks are executed one after the other here. The stamp of a provisioner is then the time at which its run was last
published on schedule, whatever requests, runs and other tasks happen in between (`Scheduled`): nothing but the
dispatcher writes it, and a dispatch that fails midway keeps it for exactly the provisioners that it published, unless
its release fails too; then the stamp is a later time. So the runs of a provisioner that are published on schedule are
separated by a slot of its cron expression, and a dispatch that gets through leaves no slot unserved.
-/

namespace Washing

/-! ## Firings -/

/-- The execution published a run of the provisioner on schedule. -/
def Execution.Fires (provisionerId : Nat) (e : Execution) : Prop :=
  e.task = .dispatchDueMachineProvisionerJobs ∧ .runProvisioner provisionerId ∈ e.published

instance (provisionerId : Nat) (e : Execution) : Decidable (e.Fires provisionerId) :=
  inferInstanceAs (Decidable (_ ∧ _))

/-- When a run of the provisioner was last published on schedule. -/
def System.lastFired (s : System) (provisionerId : Nat) : Option Time :=
  (s.log.find? fun e => e.Fires provisionerId).map (·.now)

/-- The time is a slot of the cron expression. -/
def CronSlots.IsSlot (c : CronSlots) (cron : String) (slot : Time) : Prop := ∃ t, c.next cron t = slot

/-! ## Stamps -/

/-- The stamps of the provisioners stay, and new provisioners have none. -/
structure KeepsStamps (db db' : Database) : Prop where
  rows : ∀ p' ∈ db'.provisioners, (∃ p ∈ db.provisioners, p.id = p'.id ∧ p.lastScheduledAt = p'.lastScheduledAt) ∨
    db.nextId ≤ p'.id ∧ p'.lastScheduledAt = none
  next_le : db.nextId ≤ db'.nextId

section Stamps

variable {db db' : Database}

/-- Other columns of the provisioners are written. -/
theorem keepsStamps_of_map (hrows : db'.provisioners.map (fun p => (p.id, p.lastScheduledAt)) =
    db.provisioners.map fun p => (p.id, p.lastScheduledAt)) (hnext : db.nextId ≤ db'.nextId) : KeepsStamps db db' where
  rows := by
    intro p' hp'
    obtain ⟨p, hp, heq⟩ := Table.exists_of_map_eq hrows.symm hp'
    obtain ⟨hid, hstamp⟩ := Prod.mk.inj heq
    exact .inl ⟨p, hp, hid, hstamp⟩
  next_le := hnext

/-- Provisioners are deleted, or other tables are written. -/
theorem keepsStamps_of_subset (hrows : db'.provisioners ⊆ db.provisioners) (hnext : db.nextId ≤ db'.nextId) :
    KeepsStamps db db' :=
  ⟨fun p' hp' => .inl ⟨p', hrows hp', rfl, rfl⟩, hnext⟩

theorem keepsStamps_refl (db : Database) : KeepsStamps db db := keepsStamps_of_subset (List.Subset.refl _) le_rfl

/-- An inventory run. -/
theorem keepsStamps_inventory (hn : Table.Numbered db.machines db.nextId) (hk : Table.Keyed db.provisioners)
    (hs : ∀ m ∈ db.machines, Sourced db.provisioners m) (faults : Faults InventoryWork) (env : InventoryEnv)
    (mock : InventoryConnector) (ticks provisionerId : Nat) :
    KeepsStamps db (inventoryJob faults env mock db ticks provisionerId).2.committed := by
  cases hrun : (inventoryJob faults env mock db ticks provisionerId).1 with
  | error e =>
    rw [inventoryJob_error hrun]
    exact keepsStamps_of_map (Table.map_modify (fun p => by rfl) _ _) le_rfl
  | ok report =>
    refine keepsStamps_of_map ?_ ?_
    · rw [(inventoryJob_connectors hrun).2]
      exact Table.map_modify (fun p => by rfl) _ _
    · rw [(inventoryJob_ok hrun).2]
      exact (run_inventoried env mock hn hk hs ticks provisionerId).next_le

/-- A collection. -/
theorem keepsStamps_collection (faults : Faults CollectionWork) (env : CollectionEnv) (providerId machineId : Nat) :
    KeepsStamps db (collectionJob faults env db providerId machineId).2.committed := by
  cases hrun : (collectionJob faults env db providerId machineId).1 with
  | error e =>
    obtain hdb | hdb := collectionJob_error hrun
    · rw [hdb]
      exact keepsStamps_refl db
    · rw [hdb]
      exact keepsStamps_of_subset (List.Subset.refl _) le_rfl
  | ok report =>
    have hsampled := collection_sampled env db providerId machineId
    rw [(collectionJob_ok hrun).2]
    exact keepsStamps_of_subset (hsampled.provisioners ▸ List.Subset.refl _) hsampled.next_le

/-- An update writes no stamp. -/
theorem ProvisionerChanges.update_stamp {c : ProvisionerChanges} {p r : MachineProvisioner} (h : c.update p = some r) :
    r.lastScheduledAt = p.lastScheduledAt := by
  simp only [update, Option.bind_eq_bind, Option.bind_eq_some_iff, Option.pure_def, Option.some.injEq] at h
  obtain ⟨platformId, -, name, -, cron, -, config, -, enabled, -, rfl⟩ := h
  rfl

/-- A statement of a request. -/
theorem keepsStamps_ran {s s' : Store} {statement : Statement} (h : statement.Ran s s') :
    KeepsStamps s.toDatabase s'.toDatabase := by
  cases h with
  | platformInserted | providerInserted => exact keepsStamps_of_subset (List.Subset.refl _) (Nat.le_succ _)
  | platformUpdated | providerUpdated | attached | detached => exact keepsStamps_of_subset (List.Subset.refl _) le_rfl
  | provisionerInserted v accepted =>
    refine ⟨fun p' hp' => ?_, Nat.le_succ _⟩
    obtain hp' | hp' := List.mem_append.mp hp'
    · exact .inl ⟨p', hp', rfl, rfl⟩
    · rw [List.mem_singleton.mp hp']
      exact .inr ⟨le_rfl, rfl⟩
  | provisionerUpdated id c p r stored updated accepted =>
    refine ⟨fun p' hp' => ?_, le_rfl⟩
    obtain rfl | ⟨hp', -⟩ := Table.mem_replace hp'
    · exact .inl ⟨p, (Table.get_some stored).1, (ProvisionerChanges.update_some updated).1.symm,
        (ProvisionerChanges.update_stamp updated).symm⟩
    · exact .inl ⟨p', hp', rfl, rfl⟩
  | deleted statement _ s₁ shrinks =>
    have hcascade := shrinks.cascade
    exact keepsStamps_of_subset hcascade.provisioners.subset hcascade.nextId.ge

theorem keepsStamps_request (api : ApiEnv) (s : Store) (request : Request) :
    KeepsStamps s.toDatabase (request.handle api s).1.toDatabase := by
  obtain ⟨e, hhandle⟩ | ⟨plan, s', -, hcommit, hhandle⟩ := request.handle_cases api s
  · rw [hhandle]
    exact keepsStamps_refl _
  · rw [hhandle]
    obtain ⟨-, rfl⟩ | ⟨statement, -, hexecute⟩ := Plan.commit_cases hcommit
    · exact keepsStamps_refl _
    · exact keepsStamps_ran (Statement.execute_cases hexecute)

/-- A commit that may fail. -/
theorem keepsStamps_committing {t : Tables} {outcome : TaskOutcome} (env : TaskEnv)
    (h : KeepsStamps t.toDatabase outcome.tables.toDatabase) :
    KeepsStamps t.toDatabase (env.committing t outcome).tables.toDatabase := by
  obtain ⟨e, hsame⟩ | hdone := committing_cases env t outcome
  · rw [hsame]
    exact keepsStamps_refl _
  · rw [hdone]
    exact h

/-- Every task but the dispatcher. -/
theorem keepsStamps_execute {config : WorkerConfig} {t : Tables} (h : t.Stored config) (env : TaskEnv)
    {task : WorkerTask} (htask : task ≠ .dispatchDueMachineProvisionerJobs) :
    KeepsStamps t.toDatabase (task.execute config env t).tables.toDatabase := by
  have hsame : ∀ {db : Database}, db.provisioners = t.provisioners → t.nextId ≤ db.nextId →
      KeepsStamps t.toDatabase db := fun hrows hnext => keepsStamps_of_subset (hrows ▸ List.Subset.refl _) hnext
  cases task with
  | purgeOldTaskExecutions | purgeStaleApplications | purgeStaleMachines =>
    exact keepsStamps_committing env (hsame rfl le_rfl)
  | dispatchEnabledProviderSyncs => exact hsame rfl le_rfl
  | runProvider providerId =>
    obtain ⟨providers, hdb, -⟩ := machineSyncs_frame t.toDatabase providerId (fun k _ => env.enqueue k) (env.clock 0)
    refine keepsStamps_committing env ?_
    show KeepsStamps t.toDatabase (dispatchProviderMachineSyncs _ _ _ _).db
    rw [hdb]
    exact hsame rfl le_rfl
  | runProviderMachine providerId machineId => exact keepsStamps_collection _ _ _ _
  | runProvisioner provisionerId =>
    exact keepsStamps_inventory h.sound.machines h.sound.provisioners.keyed (fun _ hm => h.sound.sourced hm) _ _ _ _ _
  | syncApplicationInventoryDiscovery => exact keepsStamps_committing env (hsame rfl (Nat.le_add_right _ _))
  | dispatchDueApplicationMetricsSyncs =>
    refine keepsStamps_committing env ?_
    obtain ⟨_, -, hreserved⟩ | hreleased := releasing_cases env _ _ _
    · rw [hreserved]
      exact hsame rfl le_rfl
    · obtain ⟨f, -, hdb⟩ := dispatchSyncs_frame t.toDatabase config.syncs (fun k _ => env.enqueue k) (env.clock 0)
      rw [hreleased, hdb]
      exact hsame rfl le_rfl
  | syncApplicationMetrics applicationId =>
    obtain ⟨f, -, hdb⟩ := applicationSync_frame env.syncFaults config.api.unicode t.toDatabase applicationId
      (fun k _ => env.enqueue k) (env.clock 0)
    show KeepsStamps t.toDatabase (syncJob _ _ _ _ _ _).2.committed
    rw [hdb]
    exact hsame rfl le_rfl
  | dispatchDueMachineProvisionerJobs => exact absurd rfl htask
  | recalculateMachineOptimizations machineId =>
    simp only [WorkerTask.execute]
    cases hrefresh : refreshMachineOptimization config.settings t.toDatabase machineId (env.clock 0) with
    | error e => exact keepsStamps_refl _
    | ok refreshed =>
      obtain ⟨o, n, hnext, hdb⟩ := refreshMachineOptimization_frame hrefresh
      refine keepsStamps_committing env ?_
      show KeepsStamps t.toDatabase refreshed.1
      rw [hdb]
      exact hsame rfl hnext

end Stamps

/-! ## A dispatch -/

section Dispatch

variable (config : WorkerConfig) (env : TaskEnv) (t : Tables)

/-- The scheduler's dispatch of the tables. -/
def scheduledDispatch : JobDispatchOutcome :=
  dispatchDueJobs config.croniter t.toDatabase (fun k _ => env.enqueue k) (env.clock 0)

/-- What the dispatcher comes to: its first commit fails; or it publishes, and the rest is released as far as necessary;
or it publishes, and the release fails. -/
theorem scheduledDispatch_cases {outcome : TaskOutcome}
    (houtcome : WorkerTask.dispatchDueMachineProvisionerJobs.execute config env t = outcome) :
    (outcome.tables = t ∧ outcome.published = [] ∧ outcome.error ≠ none) ∨
    (outcome.published = (scheduledDispatch config env t).published.map .runProvisioner ∧
      (outcome.tables = t.withDb (scheduledDispatch config env t).db ∧
          outcome.error = raised (scheduledDispatch config env t).result ∨
        outcome.tables = t.withDb (reserveProvisioners config.croniter t.toDatabase (env.clock 0) []).1 ∧
          outcome.error ≠ none ∧ env.commitFaults 1 ≠ none)) := by
  subst houtcome
  simp only [WorkerTask.execute]
  obtain ⟨e, hcommit⟩ | hcommit := committing_cases env t _
  · rw [hcommit]
    exact .inl ⟨rfl, rfl, Option.some_ne_none e⟩
  · rw [hcommit]
    refine .inr ⟨rfl, ?_⟩
    obtain ⟨e, hfault, hrelease⟩ | hrelease := releasing_cases env _ _ _
    · rw [hrelease]
      exact .inr ⟨rfl, Option.some_ne_none e, hfault ▸ Option.some_ne_none e⟩
    · rw [hrelease]
      exact .inl ⟨rfl, rfl⟩

/-- A published provisioner is one that was due. -/
theorem mem_of_published {c : CronSlots} {db : Database} {call : Nat → Nat → Option Exc} {now : Time} {i : Nat}
    (h : i ∈ (dispatchDueJobs c db call now).published) :
    ∃ p ∈ db.provisioners, p.id = i ∧ p.Due c now := by
  obtain ⟨n, -, hpublished, -⟩ := dispatchDueJobs_until c db call now
  rw [hpublished] at h
  obtain ⟨p, hp, hid⟩ := List.mem_map.mp (List.mem_of_mem_take h)
  obtain ⟨hp, hdue⟩ := List.mem_filter.mp hp
  exact ⟨p, hp, hid, of_decide_eq_true hdue⟩

/-- What the dispatcher publishes are runs of provisioners that were due. -/
theorem due_of_published {i : Nat}
    (h : .runProvisioner i ∈ (WorkerTask.dispatchDueMachineProvisionerJobs.execute config env t).published) :
    ∃ p ∈ t.provisioners, p.id = i ∧ p.Due config.croniter (env.clock 0) := by
  obtain ⟨-, hpublished, -⟩ | ⟨hpublished, -⟩ := scheduledDispatch_cases config env t rfl
  · rw [hpublished] at h
    exact absurd h List.not_mem_nil
  · rw [hpublished] at h
    obtain ⟨j, hj, heq⟩ := List.mem_map.mp h
    cases heq
    exact mem_of_published hj

end Dispatch

/-- The provisioners after a dispatch: stamped if they fired, else as they were; or due and stamped without having
fired, when a release failed. -/
theorem mem_dispatched {config : WorkerConfig} {t : Tables} (h : t.Stored config) (env : TaskEnv)
    {outcome : TaskOutcome} (houtcome : WorkerTask.dispatchDueMachineProvisionerJobs.execute config env t = outcome)
    {p' : MachineProvisioner} (hp' : p' ∈ outcome.tables.provisioners) :
    ∃ p ∈ t.provisioners, p'.id = p.id ∧ p'.cron = p.cron ∧ p'.enabled = p.enabled ∧
      (p'.lastScheduledAt =
          (if .runProvisioner p.id ∈ outcome.published then some (env.clock 0) else p.lastScheduledAt) ∨
        env.commitFaults 1 ≠ none ∧ isDue config.croniter p.cron p.lastScheduledAt (env.clock 0) ∧
          p'.lastScheduledAt = some (env.clock 0)) := by
  have hmap : ∀ {l : List Nat} {i : Nat}, .runProvisioner i ∈ l.map WorkerTask.runProvisioner ↔ i ∈ l := by simp
  obtain ⟨htables, hpublished, -⟩ | ⟨hpublished, ⟨htables, -⟩ | ⟨htables, -, hfault⟩⟩ :=
    scheduledDispatch_cases config env t houtcome
  · rw [htables] at hp'
    refine ⟨p', hp', rfl, rfl, rfl, .inl ?_⟩
    rw [hpublished, if_neg List.not_mem_nil]
  · have hrows := dispatchDueJobs_rows config.croniter h.sound.provisioners.keyed (fun k _ => env.enqueue k)
      (env.clock 0)
    rw [htables] at hp'
    have hp' : p' ∈ (scheduledDispatch config env t).db.provisioners := hp'
    rw [scheduledDispatch, hrows] at hp'
    obtain ⟨p, hp, rfl⟩ := List.mem_map.mp hp'
    simp only [hpublished, hmap, scheduledDispatch]
    unfold dispatchedRow
    by_cases hfired : Row.id p ∈ (dispatchDueJobs config.croniter t.toDatabase (fun k _ => env.enqueue k)
      (env.clock 0)).published
    · rw [if_pos hfired]
      exact ⟨p, hp, rfl, rfl, rfl, .inl (if_pos hfired).symm⟩
    · rw [if_neg hfired, id_eq, ite_self]
      exact ⟨p, hp, rfl, rfl, rfl, .inl (if_neg hfired).symm⟩
  · rw [htables, reserveProvisioners_eq] at hp'
    obtain ⟨p, hp, rfl⟩ := List.mem_map.mp hp'
    by_cases hreserved : p.id ∈ dueProvisioners config.croniter t.toDatabase (env.clock 0)
    · have hdue := (mem_dueProvisioners h.sound.provisioners.keyed hp).mp hreserved
      rw [if_pos hreserved]
      exact ⟨p, hp, rfl, rfl, rfl, .inr ⟨hfault, hdue.2, rfl⟩⟩
    · -- nothing is published that is not reserved
      have hquiet : p.id ∉ (scheduledDispatch config env t).published := by
        intro hfired
        obtain ⟨n, -, htake, -⟩ := dispatchDueJobs_until config.croniter t.toDatabase (fun k _ => env.enqueue k)
          (env.clock 0)
        rw [scheduledDispatch, htake] at hfired
        exact hreserved (List.mem_of_mem_take hfired)
      rw [if_neg hreserved]
      refine ⟨p, hp, rfl, rfl, rfl, .inl ?_⟩
      rw [hpublished, if_neg (hmap.not.mpr hquiet)]

/-! ## The schedule -/

/-- The stamps agree with the last firings, and only provisioners that existed have fired. -/
structure Scheduled (agrees : Option Time → Option Time → Prop) (s : System) : Prop where
  stamps : ∀ p ∈ s.tables.provisioners, agrees (s.lastFired p.id) p.lastScheduledAt
  fired : ∀ e ∈ s.log, ∀ i, e.Fires i → i < s.tables.nextId

/-- A dispatch that raises nothing publishes what is due. -/
theorem published_iff_due {config : WorkerConfig} {env : TaskEnv} {tables : Tables}
    (h : (WorkerTask.dispatchDueMachineProvisionerJobs.execute config env tables).error = none) (i : Nat) :
    .runProvisioner i ∈ (WorkerTask.dispatchDueMachineProvisionerJobs.execute config env tables).published ↔
      i ∈ dueProvisioners config.croniter tables.toDatabase (env.clock 0) := by
  obtain ⟨-, -, hraised⟩ | ⟨hpublished, ⟨-, hresult⟩ | ⟨-, hraised, -⟩⟩ := scheduledDispatch_cases config env tables rfl
  · exact absurd h hraised
  · obtain ⟨n, -, htake, -, ⟨hn, -⟩ | ⟨_, -, -, hsome⟩⟩ := dispatchDueJobs_until config.croniter tables.toDatabase
      (fun k _ => env.enqueue k) (env.clock 0)
    · rw [hpublished, scheduledDispatch, htake, hn, List.take_length]
      simp
    · exact absurd (hresult.symm.trans h) hsome
  · exact absurd h hraised

/-- No stamp is before the last firing. -/
def NotBefore (fired stamp : Option Time) : Prop := ∀ t ∈ fired, ∃ u ∈ stamp, t ≤ u

/-- No release of a dispatch fails. -/
def SystemEvent.Releases : SystemEvent → Prop
  | execute .dispatchDueMachineProvisionerJobs env => env.commitFaults 1 = none
  | _ => True

section Scheduled

variable {config : WorkerConfig} {s s' : System} {agrees : Option Time → Option Time → Prop}

/-- A provisioner that did not exist has not fired. -/
theorem Scheduled.lastFired_eq_none (h : Scheduled agrees s) {i : Nat} (hi : s.tables.nextId ≤ i) :
    s.lastFired i = none := by
  have hnone : s.log.find? (fun e => e.Fires i) = none := by
    refine List.find?_eq_none.mpr fun e he hfires => ?_
    exact absurd (h.fired e he i (of_decide_eq_true hfires)) hi.not_gt
  rw [System.lastFired, hnone, Option.map_none]

/-- Nothing fires, and the stamps stay. -/
theorem Scheduled.keeps (h : Scheduled agrees s) (hnone : agrees none none)
    (hkeeps : KeepsStamps s.tables.toDatabase s'.tables.toDatabase)
    (hlast : ∀ i, s'.lastFired i = s.lastFired i) (hlog : ∀ e ∈ s'.log, ∀ i, e.Fires i → e ∈ s.log) :
    Scheduled agrees s' where
  stamps := by
    intro p' hp'
    rw [hlast]
    obtain ⟨p, hp, hid, hstamp⟩ | ⟨hnew, hstamp⟩ := hkeeps.rows p' hp'
    · rw [← hstamp, ← hid]
      exact h.stamps p hp
    · rw [hstamp, h.lastFired_eq_none hnew]
      exact hnone
  fired := fun e he i hfires => (h.fired e (hlog e he i hfires) i hfires).trans_le hkeeps.next_le

/-- The firings of a dispatch are what it published. -/
theorem lastFired_dispatched (config : WorkerConfig) (s : System) (env : TaskEnv) (i : Nat) :
    (s.executed config .dispatchDueMachineProvisionerJobs env).lastFired i =
      if .runProvisioner i ∈ (WorkerTask.dispatchDueMachineProvisionerJobs.execute config env s.tables).published
        then some (env.clock 0) else s.lastFired i := by
  unfold System.lastFired
  simp only [System.executed, List.find?_cons, Execution.Fires, true_and]
  split_ifs with hpublished <;> simp [hpublished]

/-- A dispatch, when the stamps of what fired agree, and so do those of what is reserved for good. -/
theorem Scheduled.dispatch (h : Scheduled agrees s) (hstored : s.tables.Stored config) (env : TaskEnv)
    (hfired : ∀ now, agrees (some now) (some now))
    (hreserved : env.commitFaults 1 ≠ none → ∀ p ∈ s.tables.provisioners,
      isDue config.croniter p.cron p.lastScheduledAt (env.clock 0) → ∀ fired, agrees fired p.lastScheduledAt →
        agrees fired (some (env.clock 0))) :
    Scheduled agrees (s.executed config .dispatchDueMachineProvisionerJobs env) where
  stamps := by
    intro p' hp'
    obtain ⟨p, hp, hid, -, -, hstamp | ⟨hfault, hdue, hstamp⟩⟩ := mem_dispatched hstored env rfl hp'
    · rw [lastFired_dispatched, hid, hstamp]
      split_ifs
      · exact hfired _
      · exact h.stamps p hp
    · rw [lastFired_dispatched, hid, hstamp]
      split_ifs
      · exact hfired _
      · exact hreserved hfault p hp hdue _ (h.stamps p hp)
  fired := by
    have hnext : s.tables.nextId ≤ (s.executed config .dispatchDueMachineProvisionerJobs env).tables.nextId := by
      obtain ⟨htables, -⟩ | ⟨-, ⟨htables, -⟩ | ⟨htables, -⟩⟩ := scheduledDispatch_cases config env s.tables rfl
      · exact (congrArg (·.nextId) htables).ge
      · obtain ⟨provisioners, hdb, -⟩ := dispatchDueJobs_frame config.croniter s.tables.toDatabase
          (fun k _ => env.enqueue k) (env.clock 0)
        have hsame := congrArg Database.nextId hdb
        exact ((congrArg (·.nextId) htables).trans hsame).ge
      · exact (congrArg (·.nextId) htables).ge
    intro e he i hfires
    refine lt_of_lt_of_le ?_ hnext
    obtain rfl | he := List.mem_cons.mp he
    · obtain ⟨p, hp, rfl, -⟩ := due_of_published config env s.tables hfires.2
      exact hstored.sound.provisioners.fresh p hp
    · exact h.fired e he i hfires

/-- One event, unless it is a dispatch. -/
theorem Scheduled.step (h : Scheduled agrees s) (hnone : agrees none none) (hstored : s.tables.Stored config)
    {event : SystemEvent}
    (hdispatch : ∀ env, event = .execute .dispatchDueMachineProvisionerJobs env →
      Scheduled agrees (s.executed config .dispatchDueMachineProvisionerJobs env))
    (hstep : s.step config event = some s') : Scheduled agrees s' := by
  cases event with
  | request request =>
    cases hstep
    exact h.keeps hnone (keepsStamps_request config.api s.tables.toStore request) (fun _ => rfl) fun _ he _ _ => he
  | enqueue request =>
    simp only [System.step] at hstep
    split at hstep <;> cases hstep <;> exact ⟨h.stamps, h.fired⟩
  | beat task | lose task =>
    simp only [System.step] at hstep
    split_ifs at hstep
    cases hstep
    exact ⟨h.stamps, h.fired⟩
  | signal signal =>
    cases hstep
    exact ⟨h.stamps, h.fired⟩
  | execute task env =>
    simp only [System.step] at hstep
    split_ifs at hstep
    cases hstep
    by_cases htask : task = .dispatchDueMachineProvisionerJobs
    · subst htask
      exact hdispatch env rfl
    · refine h.keeps hnone (keepsStamps_execute hstored env htask) (fun i => ?_) fun e he i hfires => ?_
      · have hnot : ¬ Execution.Fires i ⟨task, (task.execute config env s.tables).published,
            (task.execute config env s.tables).error, env.clock 0⟩ := fun hfires => htask hfires.1
        simp only [System.lastFired, System.executed, List.find?_cons, hnot, decide_false]
      · obtain rfl | he := List.mem_cons.mp he
        · exact absurd hfires.1 htask
        · exact he

/-- A due provisioner was stamped before now. -/
theorem isDue_lt {c : CronSlots} {cron : String} {t now : Time} (h : isDue c cron (some t) now) : t < now :=
  (c.lt_next cron t).trans_le (of_decide_eq_true h)

/-- One event: no stamp is before the last firing. -/
theorem Scheduled.step_notBefore (h : Scheduled NotBefore s) (hstored : s.tables.Stored config) {event : SystemEvent}
    (hstep : s.step config event = some s') : Scheduled NotBefore s' := by
  refine h.step (fun t ht => absurd ht (by simp)) hstored (fun env _ => ?_) hstep
  refine h.dispatch hstored env ?_ ?_
  · rintro now t ⟨⟩
    exact ⟨now, rfl, le_rfl⟩
  · intro _ p _ hdue fired hagrees t ht
    obtain ⟨u, hu, hle⟩ := hagrees t ht
    rw [Option.mem_def.mp hu] at hdue
    exact ⟨env.clock 0, rfl, hle.trans (isDue_lt hdue).le⟩

/-- One event without a failing release: the stamps are the last firings. -/
theorem Scheduled.step_eq (h : Scheduled Eq s) (hstored : s.tables.Stored config) {event : SystemEvent}
    (hreleases : event.Releases) (hstep : s.step config event = some s') : Scheduled Eq s' := by
  refine h.step rfl hstored (fun env heq => ?_) hstep
  subst heq
  exact h.dispatch hstored env (fun _ => rfl) fun hfault => absurd hreleases hfault

theorem scheduled_empty : Scheduled agrees .empty :=
  ⟨fun _ hp => absurd hp List.not_mem_nil, fun _ he => absurd he List.not_mem_nil⟩

/-- The schedule of every state that the system reaches. -/
theorem reachable_notBefore (hdefault : config.api.cronIsValid defaultCron) {events : List SystemEvent}
    (hrun : exec (System.step config) .empty events = some s) : s.tables.Stored config ∧ Scheduled NotBefore s := by
  refine exec_invariant (I := fun t => t.tables.Stored config ∧ Scheduled NotBefore t) (fun t event t' ht _ hstep => ?_)
    ⟨stored_empty config, scheduled_empty⟩ (allSteps_true _ events) hrun
  exact ⟨stored_step hdefault ht.1 hstep, ht.2.step_notBefore ht.1 hstep⟩

/-- The schedule of every state that the system reaches without a failing release. -/
theorem reachable_scheduled (hdefault : config.api.cronIsValid defaultCron) {events : List SystemEvent}
    (hreleases : ∀ event ∈ events, event.Releases) (hrun : exec (System.step config) .empty events = some s) :
    Scheduled Eq s := by
  have hboth : s.tables.Stored config ∧ Scheduled Eq s := by
    refine exec_invariant (I := fun t => t.tables.Stored config ∧ Scheduled Eq t)
      (fun t event t' ht hevent hstep => ?_) ⟨stored_empty config, scheduled_empty⟩
      (allSteps_of_forall hreleases _) hrun
    exact ⟨stored_step hdefault ht.1 hstep, ht.2.step_eq ht.1 hevent hstep⟩
  exact hboth.2

end Scheduled

/-- The dispatcher, in any state that the system reaches, its executions one after the other. A run that it publishes is
that of an enabled provisioner, and a slot of its cron expression lies between its last firing and now. When it raises
nothing, and no release of an earlier dispatch failed, no enabled provisioner is left with a slot since its last
firing. -/
theorem slots_served_once {config : WorkerConfig} (hdefault : config.api.cronIsValid defaultCron)
    (hleast : ∀ cron t u, t < config.croniter.next cron u → config.croniter.next cron t ≤ config.croniter.next cron u)
    {events : List SystemEvent} {s s' : System} (hreached : exec (System.step config) .empty events = some s)
    {env : TaskEnv} (hstep : s.step config (.execute .dispatchDueMachineProvisionerJobs env) = some s') {e : Execution}
    (hlog : s'.log = e :: s.log) :
    (∀ i, e.Fires i → ∃ p ∈ s.tables.provisioners, p.id = i ∧ p.enabled ∧
      ∀ t ∈ s.lastFired i, ∃ slot, config.croniter.IsSlot p.cron slot ∧ t < slot ∧ slot ≤ env.clock 0) ∧
    ((∀ event ∈ events, event.Releases) → e.error = none → ∀ p ∈ s'.tables.provisioners, p.enabled →
      ∃ t ∈ s'.lastFired p.id, ∀ slot, config.croniter.IsSlot p.cron slot → t < slot → env.clock 0 < slot) := by
  obtain ⟨hstored, hnotBefore⟩ := reachable_notBefore hdefault hreached
  simp only [System.step] at hstep
  split_ifs at hstep
  cases hstep
  cases hlog
  constructor
  · intro i hfires
    obtain ⟨p, hp, rfl, henabled, hdue⟩ := due_of_published config env s.tables hfires.2
    refine ⟨p, hp, rfl, henabled, fun t ht => ?_⟩
    obtain ⟨u, hu, hle⟩ := hnotBefore.stamps p hp t ht
    rw [Option.mem_def.mp hu] at hdue
    exact ⟨_, ⟨u, rfl⟩, hle.trans_lt (config.croniter.lt_next p.cron u), of_decide_eq_true hdue⟩
  · intro hreleases herror p' hp' henabled
    have hscheduled := reachable_scheduled hdefault hreleases hreached
    have hall := published_iff_due herror
    have hserved : ∀ cron t, ¬ config.croniter.next cron t ≤ env.clock 0 → ∀ slot,
        config.croniter.IsSlot cron slot → t < slot → env.clock 0 < slot := by
      rintro cron t hnext _ ⟨u, rfl⟩ hlt
      exact (not_le.mp hnext).trans_le (hleast cron t u hlt)
    obtain ⟨p, hp, hid, hcron, henabled', -⟩ := mem_dispatched hstored env rfl hp'
    have hmem : p.id ∈ dueProvisioners config.croniter s.tables.toDatabase (env.clock 0) ↔
        p.Due config.croniter (env.clock 0) := mem_dueProvisioners hstored.sound.provisioners.keyed hp
    rw [lastFired_dispatched, hid, hcron]
    simp only [hall]
    by_cases hdue : p.Due config.croniter (env.clock 0)
    · rw [if_pos (hmem.mpr hdue)]
      exact ⟨env.clock 0, rfl, hserved _ _ (config.croniter.lt_next p.cron _).not_ge⟩
    · rw [if_neg (hmem.not.mpr hdue)]
      have hlast := hscheduled.stamps p hp
      cases hstamp : p.lastScheduledAt with
      | none =>
        refine absurd ⟨henabled'.symm.trans henabled, ?_⟩ hdue
        rw [hstamp]
        rfl
      | some t =>
        refine ⟨t, hlast.trans hstamp, hserved p.cron t fun hnext => hdue ⟨henabled'.symm.trans henabled, ?_⟩⟩
        rw [hstamp]
        exact decide_eq_true hnext

/-- The small environment at some minute. -/
def minuteTaskEnv (minute : Int) : TaskEnv := { smallTaskEnv with clock := fun k => seconds (60 * minute) + k }

/-- A second provisioner is created when the first has fired, and fires ten minutes before the next slot. -/
def twoFirings : List SystemEvent :=
  smallSetup ++
    [.request (.createMockProvisioner { platformId := 1, name := "backup" }),
      .request (.enableProvisioner 11),
      .beat .dispatchDueMachineProvisionerJobs,
      .execute .dispatchDueMachineProvisionerJobs (minuteTaskEnv 110),
      .beat .dispatchDueMachineProvisionerJobs]

theorem slots_served_once_small : ∃ s s' e, exec (System.step smallConfig) .empty twoFirings = some s ∧
    s.step smallConfig (.execute .dispatchDueMachineProvisionerJobs (minuteTaskEnv 120)) = some s' ∧
    s'.log = e :: s.log ∧ s.lastFired 2 = some (seconds 3600) ∧ s.lastFired 11 = some (seconds 6600) ∧
    e.Fires 2 ∧ e.Fires 11 ∧
    (∀ i, e.Fires i → ∃ p ∈ s.tables.provisioners, p.id = i ∧ p.enabled ∧
      ∀ t ∈ s.lastFired i, ∃ slot, smallConfig.croniter.IsSlot p.cron slot ∧ t < slot ∧
        slot ≤ (minuteTaskEnv 120).clock 0) ∧
    ∀ p ∈ s'.tables.provisioners, p.enabled →
      ∃ t ∈ s'.lastFired p.id, ∀ slot, smallConfig.croniter.IsSlot p.cron slot → t < slot →
        (minuteTaskEnv 120).clock 0 < slot := by
  have hruns : ((exec (System.step smallConfig) .empty twoFirings).bind fun s =>
      (s.step smallConfig (.execute .dispatchDueMachineProvisionerJobs (minuteTaskEnv 120))).map fun s' =>
        (s.lastFired 2, s.lastFired 11,
          s'.log.head?.map fun e => (decide (e.Fires 2), decide (e.Fires 11), e.error.isNone))) =
      some (some (seconds 3600), some (seconds 6600), some (true, true, true)) := by decide +kernel
  obtain ⟨s, hs, hrest⟩ := Option.bind_eq_some_iff.mp hruns
  obtain ⟨s', hs', heq⟩ := Option.map_eq_some_iff.mp hrest
  have hlog : ∃ e, s'.log = e :: s.log := by
    simp only [System.step] at hs'
    split_ifs at hs'
    cases hs'
    exact ⟨_, rfl⟩
  obtain ⟨e, hlog⟩ := hlog
  rw [hlog] at heq
  simp only [List.head?_cons, Option.map_some, Prod.mk.injEq, Option.some.injEq, decide_eq_true_eq,
    Option.isNone_iff_eq_none] at heq
  obtain ⟨hfirst, hsecond, hfires, hfires', herror⟩ := heq
  have hleast : ∀ (cron : String) (t u : Time), t < hourly.next cron u → hourly.next cron t ≤ hourly.next cron u := by
    intro _ t u hlt
    have hhours : t / seconds 3600 < u / seconds 3600 + 1 := Int.ediv_lt_of_lt_mul (by decide) hlt
    exact mul_le_mul_of_nonneg_right (Int.add_le_add_right (Int.lt_add_one_iff.mp hhours) 1) (by decide)
  have hreleases : ∀ event ∈ twoFirings, event.Releases := by
    simp only [twoFirings, smallSetup, List.cons_append, List.nil_append, List.forall_mem_cons, List.not_mem_nil,
      IsEmpty.forall_iff, implies_true, and_true]
    exact ⟨trivial, trivial, trivial, trivial, trivial, trivial, trivial, trivial, rfl, trivial, trivial, trivial,
      trivial, rfl, trivial⟩
  obtain ⟨hslots, hserved⟩ := slots_served_once rfl hleast hs hs' hlog
  exact ⟨s, s', e, hs, hs', hlog, hfirst, hsecond, hfires, hfires', hslots, hserved hreleases herror⟩

end Washing
