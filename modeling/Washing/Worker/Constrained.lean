import Washing.Connectors.Membership
import Washing.Db.Constraints
import Washing.Worker.Runs

/-!
# The constraints over the tasks

No task writes the name or the platform of a connector, or a row of the association table. What is left of
`Store.Constrained` is about machines, which an inventory run creates on the platform of its provisioner, and about the
flavor history, whose new rows have new keys and the provisioner of the run as their source (`HistoryInv`).
-/

namespace Washing

/-! ## The history of an inventory run -/

/-- The invariant of the loop of an inventory run. -/
structure HistoryInv (provisioners : List MachineProvisioner) (st : InventoryState) : Prop where
  numbered : Table.Numbered st.history st.nextId
  sources : ∀ r ∈ st.history, ∀ i ∈ r.sourceProvisionerId, i ∈ Table.ids provisioners

section Loop

variable {env : InventoryEnv} {provisioners : List MachineProvisioner} {p : MachineProvisioner} {now : Time}
  {st st' : InventoryState}

/-- One row more. -/
theorem HistoryInv.snapshot (h : HistoryInv provisioners st) (hp : p ∈ provisioners) (machineId : Nat)
    (r : MachineRecord) :
    Table.Numbered (st.history ++ [flavorSnapshot st.nextId machineId p r now]) (st.nextId + 1) ∧
    ∀ s ∈ st.history ++ [flavorSnapshot st.nextId machineId p r now], ∀ i ∈ s.sourceProvisionerId,
      i ∈ Table.ids provisioners := by
  refine ⟨h.numbered.append rfl, fun s hs i hi => ?_⟩
  obtain hs | hs := List.mem_append.mp hs
  · exact h.sources s hs i hi
  · rw [List.mem_singleton.mp hs] at hi
    cases hi
    exact Table.mem_ids.mpr ⟨p, hp, rfl⟩

theorem HistoryInv.update (h : HistoryInv provisioners st) (hp : p ∈ provisioners) (r : MachineRecord) (row : Machine) :
    HistoryInv provisioners (updateMachine env p now st r row) := by
  unfold updateMachine
  split_ifs
  · obtain ⟨hnumbered, hsources⟩ := h.snapshot hp row.id r
    exact ⟨hnumbered, hsources⟩
  · exact ⟨h.numbered, h.sources⟩

theorem HistoryInv.create (h : HistoryInv provisioners st) (hp : p ∈ provisioners) {r : MachineRecord}
    (hok : createMachine env p now st r = .ok st') : HistoryInv provisioners st' := by
  unfold createMachine at hok
  split at hok
  · cases hok
  · cases hok
    -- the machine has the key before
    have hnext : HistoryInv provisioners { st with nextId := st.nextId + 1 } :=
      ⟨h.numbered.mono (Nat.le_succ _), h.sources⟩
    obtain ⟨hnumbered, hsources⟩ := hnext.snapshot hp st.nextId r
    exact ⟨hnumbered, hsources⟩

/-- The loop keeps the invariant. -/
theorem HistoryInv.run (hp : p ∈ provisioners) : ∀ {records : List MachineRecord} {st st' : InventoryState},
    HistoryInv provisioners st → processRecords env p now st records = .ok st' → HistoryInv provisioners st'
  | [], st, st', h, hok => by
    cases hok
    exact h
  | record :: records, st, st', h, hok => by
    cases hst₁ : processRecord env p now st record with
    | error e => simp [processRecords, hst₁] at hok
    | ok st₁ =>
      simp only [processRecords, hst₁] at hok
      refine HistoryInv.run hp ?_ hok
      simp only [processRecord] at hst₁
      split at hst₁
      · cases hst₁
      · exact h.create hp hst₁
      · cases hst₁
        exact h.update hp _ _

end Loop

/-- The flavor history has its own keys, and its sources are provisioners. -/
structure Database.Recorded (db : Database) : Prop where
  numbered : Table.Numbered db.flavorHistory db.nextId
  sources : ∀ r ∈ db.flavorHistory, ∀ i ∈ r.sourceProvisionerId, i ∈ Table.ids db.provisioners

/-- Only the provisioners are written, and not their keys. -/
theorem Database.Recorded.withProvisioners {db : Database} (h : db.Recorded) {provisioners : List MachineProvisioner}
    (hids : Table.ids provisioners = Table.ids db.provisioners) : Database.Recorded { db with provisioners } :=
  ⟨h.numbered, hids.symm ▸ h.sources⟩

theorem Database.Recorded.body {env : InventoryEnv} {mock : InventoryConnector} {db : Database}
    {p : MachineProvisioner} {now : Time} {ticks : Nat} {body : InventoryBody} (h : db.Recorded)
    (hp : p ∈ db.provisioners) (hbody : discoverAndStore env mock db p now ticks = .ok body) : body.db.Recorded := by
  obtain ⟨records, st, session, db', -, hloop, -, hrefresh, -, -, hdb⟩ := discoverAndStore_eq_ok hbody
  obtain ⟨o, n, hn, rfl⟩ := refreshMachines_frame hrefresh
  have hstart : HistoryInv db.provisioners (.start db ticks) := ⟨h.numbered, h.sources⟩
  have hfinal := hstart.run hp hloop
  have hstored : Database.Recorded
      { InventoryState.store { st with session } db with optimizations := o, nextId := n } :=
    ⟨hfinal.numbered.mono hn, hfinal.sources⟩
  rw [hdb]
  exact hstored.withProvisioners (Table.ids_modify (fun p => by rfl) _ _)

/-- An inventory run, whatever becomes of it. -/
theorem Database.Recorded.inventory {env : InventoryEnv} {db : Database} (h : db.Recorded) (mock : InventoryConnector)
    (ticks provisionerId : Nat) : (runProvisionerInventory env mock db ticks provisionerId).db.Recorded := by
  unfold runProvisionerInventory
  cases hp : Table.get db.provisioners provisionerId with
  | none => exact h
  | some p =>
    have hstart : (startRun db provisionerId (env.clock ticks)).Recorded :=
      h.withProvisioners (Table.ids_modify (fun p => by rfl) _ _)
    have hfail : ∀ error, (failRun env.unicode (startRun db provisionerId (env.clock ticks)) provisionerId
        error).Recorded := fun error => hstart.withProvisioners (Table.ids_modify (fun p => by rfl) _ _)
    simp only
    split
    · exact hfail _
    · cases hbody : discoverAndStore env mock (startRun db provisionerId (env.clock ticks))
          (p.started (env.clock ticks)) (env.clock ticks) (ticks + 1) with
      | error e => exact hfail _
      | ok body =>
        obtain ⟨hmem, hid⟩ := Table.get_some hp
        exact hstart.body (Table.mem_modify.mpr ⟨p, hmem, (if_pos hid).symm⟩) hbody

/-! ## What a collection leaves alone -/

/-- A collection writes no row of the flavor history. -/
theorem collection_flavorHistory (env : CollectionEnv) (db : Database) (providerId machineId : Nat) :
    (runProviderMachineCollection env db providerId machineId).1.flavorHistory = db.flavorHistory := by
  unfold runProviderMachineCollection
  split
  · rfl
  · rfl
  · rename_i p _
    split
    · rfl
    · rfl
    · rename_i m _
      cases hcollect : collectSamples env db p m with
      | error e => rfl
      | ok result =>
        obtain ⟨_, records, ops, _, -, -, -, -, hrefresh⟩ := collectSamples_eq_ok hcollect
        obtain ⟨o, n, -, hdb⟩ := refreshMachineOptimization_frame hrefresh
        have hrefreshed := congrArg Database.flavorHistory hdb
        exact hrefreshed.trans (writeSamples_flavorHistory _ _ _ _)

/-! ## The constraints -/

/-- No constraint looks at the bookkeeping. -/
theorem Store.acceptsProvider_iff (s : Store) (p : MachineProvider) : s.AcceptsProvider p ↔
    s.HasPlatform p.bare.platformId ∧ ∀ q ∈ s.providers.map MachineProvider.bare,
      q.platformId = p.bare.platformId → q.name = p.bare.name → q.id = p.bare.id := by
  simp [AcceptsProvider, MachineProvider.bare]

theorem Store.acceptsProvisioner_iff (s : Store) (q : MachineProvisioner) : s.AcceptsProvisioner q ↔
    s.HasPlatform q.bare.platformId ∧ ∀ r ∈ s.provisioners.map MachineProvisioner.bare,
      r.platformId = q.bare.platformId → r.name = q.bare.name → r.id = q.bare.id := by
  simp [AcceptsProvisioner, MachineProvisioner.bare]

namespace Store.Constrained

variable {s : Store} {db : Database}

/-- Only the bookkeeping of the connectors is written, and the tables of `Store.Constrained` that a run writes hold
what they have to. -/
theorem withDb (h : s.Constrained)
    (hproviders : db.providers.map MachineProvider.bare = s.providers.map MachineProvider.bare)
    (hprovisioners : db.provisioners.map MachineProvisioner.bare = s.provisioners.map MachineProvisioner.bare)
    (hattachments : db.attachments = s.attachments) (hmachines : ∀ m ∈ db.machines, s.HasPlatform m.platformId)
    (hrecorded : db.Recorded) : Constrained { s with toDatabase := db } where
  acceptsProviders := by
    intro p hp
    obtain ⟨p₀, hp₀, hbare⟩ := Table.exists_of_map_eq hproviders.symm hp
    have haccepted := (s.acceptsProvider_iff p₀).mp (h.acceptsProviders p₀ hp₀)
    rw [← hproviders, hbare] at haccepted
    exact (acceptsProvider_iff _ p).mpr haccepted
  acceptsProvisioners := by
    intro q hq
    obtain ⟨q₀, hq₀, hbare⟩ := Table.exists_of_map_eq hprovisioners.symm hq
    have haccepted := (s.acceptsProvisioner_iff q₀).mp (h.acceptsProvisioners q₀ hq₀)
    rw [← hprovisioners, hbare] at haccepted
    exact (acceptsProvisioner_iff _ q).mpr haccepted
  platformNames := h.platformNames
  pairs := hattachments ▸ h.pairs
  machinePlatforms := hmachines
  histories := hrecorded.numbered
  historySources := hrecorded.sources

theorem recorded (h : s.Constrained) : s.toDatabase.Recorded := ⟨h.histories, h.historySources⟩

/-- The bookkeeping of the connectors, and the tables without constraints, are written. -/
theorem frame (h : s.Constrained)
    (hproviders : db.providers.map MachineProvider.bare = s.providers.map MachineProvider.bare)
    (hprovisioners : db.provisioners.map MachineProvisioner.bare = s.provisioners.map MachineProvisioner.bare)
    (hattachments : db.attachments = s.attachments) (hmachines : db.machines = s.machines)
    (hhistory : db.flavorHistory = s.flavorHistory) (hnext : s.nextId ≤ db.nextId) :
    Constrained { s with toDatabase := db } := by
  have hids : Table.ids db.provisioners = Table.ids s.provisioners :=
    Table.ids_of_map_eq (fun p => by rfl) hprovisioners
  refine h.withDb hproviders hprovisioners hattachments (hmachines ▸ h.machinePlatforms) ⟨?_, ?_⟩
  · exact hhistory ▸ h.histories.mono hnext
  · rw [hhistory, hids]
    exact h.historySources

/-- A purge deletes machines, with their history. -/
theorem purge (h : s.Constrained) (retentionDays : Int) (now : Time) :
    Constrained { s with toDatabase := (purgeStaleMachines s.toDatabase retentionDays now).1 } :=
  h.withDb rfl rfl rfl (fun m hm => h.machinePlatforms m (List.mem_of_mem_filter hm))
    ⟨h.histories.sublist (List.filter_sublist.map _), fun r hr => h.historySources r (List.mem_of_mem_filter hr)⟩

/-- An inventory run creates machines on the platform of its provisioner. -/
theorem inventory (h : s.Constrained) (hrun : Inventoried s.toDatabase db) (hrecorded : db.Recorded) :
    Constrained { s with toDatabase := db } := by
  have hproviders := congrArg (List.map MachineProvider.bare) hrun.providers
  refine h.withDb hproviders hrun.provisioners hrun.attachments (fun m hm => ?_) hrecorded
  obtain hold | hnew := List.mem_append.mp (hrun.homes m hm)
  · obtain ⟨m₀, hm₀, hplatform⟩ := List.mem_map.mp hold
    exact hplatform ▸ h.machinePlatforms m₀ hm₀
  · obtain ⟨q, hq, hplatform⟩ := List.mem_map.mp hnew
    exact hplatform ▸ (h.acceptsProvisioners q hq).1

/-- A collection writes samples. -/
theorem collection (h : s.Constrained) {collect : MetricCollector} (hrun : Sampled collect s.toDatabase db)
    (hhistory : db.flavorHistory = s.flavorHistory) : Constrained { s with toDatabase := db } :=
  h.frame hrun.providers (congrArg _ hrun.provisioners) hrun.attachments hrun.machines hhistory hrun.next_le

/-- A request runs one statement at most. -/
theorem request (h : s.Constrained) (hi : s.Intact) (env : ApiEnv) (request : Request) :
    (request.handle env s).1.Constrained := by
  obtain ⟨e, hhandle⟩ | ⟨plan, s', -, hcommit, hhandle⟩ := request.handle_cases env s
  · exact hhandle ▸ h
  · rw [hhandle]
    obtain ⟨-, rfl⟩ | ⟨statement, -, hexecute⟩ := Plan.commit_cases hcommit
    · exact h
    · exact h.ran hi (Statement.execute_cases hexecute)

end Store.Constrained

/-- No rows. -/
theorem Store.constrained_empty : Store.empty.Constrained where
  acceptsProviders := fun _ h => absurd h List.not_mem_nil
  acceptsProvisioners := fun _ h => absurd h List.not_mem_nil
  platformNames := List.nodup_nil
  pairs := List.nodup_nil
  machinePlatforms := fun _ h => absurd h List.not_mem_nil
  histories := .nil
  historySources := fun _ h => absurd h List.not_mem_nil

end Washing
