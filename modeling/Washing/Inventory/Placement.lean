import Washing.Inventory.Outcome

/-!
# Where the inventory places machines

A machine is created on the platform of its provisioner, and never changes its platform. A matched machine becomes a
machine of the provisioner: the lookup by hostname finds machines on its platform only, and the lookup by external id
finds its own machines, which are there as long as every machine is on the platform of its source (`Sourced`).

- one record (`PlaceInv.record`) and the loop (`PlaceInv.run`): the objects and the stored rows stay sourced;
- a run (`run_inventoried`): the same of the committed rows, whatever the outcome of the run is.
-/

namespace Washing

/-- The source of the machine, if there is one, is a provisioner on the platform of the machine. -/
def Sourced (provisioners : List MachineProvisioner) (m : Machine) : Prop :=
  ∀ i ∈ m.sourceProvisionerId, ∃ q ∈ provisioners, q.id = i ∧ q.platformId = m.platformId

/-- A source that is a known provisioner is on the platform of the machine. -/
theorem Sourced.platform {provisioners : List MachineProvisioner} {m : Machine} (h : Sourced provisioners m)
    (hk : Table.Keyed provisioners) {p : MachineProvisioner} (hp : p ∈ provisioners)
    (hsource : m.sourceProvisionerId = some p.id) : m.platformId = p.platformId := by
  obtain ⟨q, hq, hid, hplatform⟩ := h p.id hsource
  rw [← hplatform, hk.eq_of_id hq hp hid]

/-- Runs of the provisioners change nothing about the sources. -/
theorem Sourced.bare {provisioners provisioners' : List MachineProvisioner} {m : Machine} (h : Sourced provisioners m)
    (hbare : provisioners'.map MachineProvisioner.bare = provisioners.map MachineProvisioner.bare) :
    Sourced provisioners' m := by
  intro i hi
  obtain ⟨q, hq, hid, hplatform⟩ := h i hi
  obtain ⟨q', hq', heq⟩ := Table.exists_of_map_eq hbare hq
  obtain ⟨hid', hplatform', -⟩ := MachineProvisioner.of_bare heq
  exact ⟨q', hq', hid'.trans hid, hplatform'.trans hplatform⟩

/-! ## The loop -/

/-- A stored row and its object during a run that started from `db`. -/
structure Settled (db : Database) (stored object : Machine) : Prop where
  id : object.id = stored.id
  platform : object.platformId = stored.platformId
  source : Sourced db.provisioners stored
  objectSource : Sourced db.provisioners object
  kept : ∀ m ∈ db.machines, m.id = stored.id → m.platformId = stored.platformId
  home : stored.platformId ∈ db.machines.map (·.platformId) ++ db.provisioners.map (·.platformId)

theorem Settled.stamp {db : Database} {clock : Nat → Time} (k : Nat) (stored object : Machine)
    (h : Settled db stored object) :
    Settled db ((machineMapper clock).stamp k object) ((machineMapper clock).stamp k object) where
  id := rfl
  platform := rfl
  source := h.objectSource
  objectSource := h.objectSource
  kept := fun m hm hid => (h.kept m hm (hid.trans h.id)).trans h.platform.symm
  home := h.platform ▸ h.home

/-- The invariant of the loop. -/
structure PlaceInv (db : Database) (st : InventoryState) : Prop where
  numbered : Table.Numbered st.session.rows st.nextId
  next_le : db.nextId ≤ st.nextId
  kept : ∀ i ∈ Table.ids db.machines, i ∈ Table.ids st.session.rows
  settled : st.session.Each (Settled db)

section Loop

variable {env : InventoryEnv} {db : Database} {p : MachineProvisioner} {now : Time} {st : InventoryState}

theorem placeInv_start (hn : Table.Numbered db.machines db.nextId) (hs : ∀ m ∈ db.machines, Sourced db.provisioners m)
    (ticks : Nat) : PlaceInv db (.start db ticks) := by
  have hids : Table.ids (InventoryState.start db ticks).session.rows = Table.ids db.machines := by
    simp only [InventoryState.start, Session.load, Table.ids, List.map_map]
    rfl
  constructor
  case numbered => exact hn.of_ids hids
  case next_le => exact le_rfl
  case kept => exact fun i hi => hids ▸ hi
  case settled =>
    refine Session.each_load (fun m hm => ⟨rfl, rfl, hs m hm, hs m hm, fun n hn' hid => ?_, ?_⟩) _
    · rw [hn.keyed.eq_of_id hn' hm hid]
    · exact List.mem_append_left _ (List.mem_map_of_mem hm)

/-- A matched machine is on the platform of the provisioner. -/
theorem PlaceInv.matched (h : PlaceInv db st) (hk : Table.Keyed db.provisioners) (hp : p ∈ db.provisioners)
    {r : MachineRecord} {row : Machine} (hfind : findMachine st.session.stored p r = .ok (some row)) :
    ∃ t ∈ st.session.rows, t.stored = row ∧ row.platformId = p.platformId := by
  obtain ⟨hmem, hheld⟩ := findMachine_found hfind
  obtain ⟨t, ht, rfl⟩ := List.mem_map.mp hmem
  refine ⟨t, ht, rfl, ?_⟩
  cases hheld with
  | inl hexternal => exact (h.settled t ht).source.platform hk hp hexternal.2.1
  | inr hhostname => exact hhostname.1

/-- A matched record moves its machine to the provisioner. -/
theorem PlaceInv.update (h : PlaceInv db st) (hp : p ∈ db.provisioners) {t : Tracked Machine}
    (ht : t ∈ st.session.rows) (hplatform : t.stored.platformId = p.platformId) (r : MachineRecord) :
    PlaceInv db (updateMachine env p now st r t.stored) := by
  obtain ⟨hsession, -, -, -, hnext, -⟩ := updateMachine_fields env p now st r t.stored
  constructor
  case numbered =>
    rw [hsession]
    exact (h.numbered.mono hnext).of_ids (Session.ids_assign _ _ _ _)
  case next_le => exact h.next_le.trans hnext
  case kept =>
    rw [hsession, Session.ids_assign]
    exact h.kept
  case settled =>
    rw [hsession]
    refine h.settled.assign fun u hu hid => ?_
    cases h.numbered.keyed.eq_of_id hu ht hid
    have hsettled := h.settled t ht
    have hobject : t.object.platformId = p.platformId := hsettled.platform.trans hplatform
    refine ⟨hsettled.id, hsettled.platform, hsettled.source, ?_, hsettled.kept, hsettled.home⟩
    rintro i ⟨⟩
    exact ⟨p, hp, rfl, hobject.symm⟩

/-- A new machine is on the platform of the provisioner. -/
theorem PlaceInv.create (h : PlaceInv db st) (hn : ∀ m ∈ db.machines, m.id < db.nextId) (hp : p ∈ db.provisioners)
    {r : MachineRecord} {st' : InventoryState} (hok : createMachine env p now st r = .ok st') : PlaceInv db st' := by
  unfold createMachine at hok
  split at hok
  · cases hok
  · rename_i session hinsert
    cases hok
    have hids := Session.ids_insert h.numbered.keyed hinsert
    have hsourced : Sourced db.provisioners (Machine.new env.unicode st.nextId p r) := by
      rintro i ⟨⟩
      exact ⟨p, hp, rfl, rfl⟩
    have hnew : Settled db (Machine.new env.unicode st.nextId p r) (Machine.new env.unicode st.nextId p r) := by
      refine ⟨rfl, rfl, hsourced, hsourced, fun m hm hid => ?_, ?_⟩
      · exact absurd hid ((hn m hm).trans_le h.next_le).ne
      · exact List.mem_append_right _ (List.mem_map_of_mem hp)
    constructor
    case numbered => exact (h.numbered.insert hids).mono (Nat.le_succ _)
    case next_le => exact h.next_le.trans (Nat.le_add_right _ 2)
    case kept =>
      rw [hids]
      exact fun i hi => List.mem_append_left _ (h.kept i hi)
    case settled => exact h.settled.insert h.numbered.keyed Settled.stamp hnew hinsert

/-- The loop keeps the invariant, whatever the records are. -/
theorem PlaceInv.run (hn : ∀ m ∈ db.machines, m.id < db.nextId) (hk : Table.Keyed db.provisioners)
    (hp : p ∈ db.provisioners) : ∀ {records : List MachineRecord} {st st' : InventoryState}, PlaceInv db st →
    processRecords env p now st records = .ok st' → PlaceInv db st'
  | [], st, st', h, hok => by
    cases hok
    exact h
  | record :: records, st, st', h, hok => by
    cases hst₁ : processRecord env p now st record with
    | error e => simp [processRecords, hst₁] at hok
    | ok st₁ =>
      simp only [processRecords, hst₁] at hok
      refine PlaceInv.run hn hk hp ?_ hok
      simp only [processRecord] at hst₁
      split at hst₁
      · cases hst₁
      · exact h.create hn hp hst₁
      · next row hfind =>
        cases hst₁
        obtain ⟨t, ht, rfl, hplatform⟩ := h.matched hk hp hfind
        exact h.update hp ht hplatform _

/-- The flush after the loop. -/
theorem PlaceInv.flush (h : PlaceInv db st) {session : Session Machine}
    (hs : st.session.flush (machineMapper env.clock) = .ok session) : PlaceInv db { st with session } := by
  have hids : Table.ids session.rows = Table.ids st.session.rows :=
    (Session.flush_ok _ h.numbered.keyed hs).2.ids
  exact {
    numbered := h.numbered.of_ids hids
    next_le := h.next_le
    kept := fun i hi => hids.symm ▸ h.kept i hi
    settled := h.settled.flush h.numbered.keyed Settled.stamp hs }

end Loop

/-! ## A run -/

/-- What a run keeps of the committed rows. -/
structure Inventoried (db db' : Database) : Prop where
  providers : db'.providers = db.providers
  attachments : db'.attachments = db.attachments
  metrics : ∀ scope, db'.metrics scope = db.metrics scope
  provisioners : db'.provisioners.map MachineProvisioner.bare = db.provisioners.map MachineProvisioner.bare
  numbered : Table.Numbered db'.machines db'.nextId
  next_le : db.nextId ≤ db'.nextId
  kept : ∀ m ∈ db.machines, ∃ m' ∈ db'.machines, m'.id = m.id ∧ m'.platformId = m.platformId
  sourced : ∀ m ∈ db'.machines, Sourced db'.provisioners m
  homes : ∀ m ∈ db'.machines, m.platformId ∈ db.machines.map (·.platformId) ++ db.provisioners.map (·.platformId)

theorem Inventoried.ids_provisioners {db db' : Database} (h : Inventoried db db') :
    Table.ids db'.provisioners = Table.ids db.provisioners := by
  refine Table.ids_of_map_eq (fun r => ?_) h.provisioners
  rfl

section Run

variable {env : InventoryEnv} {mock : InventoryConnector} {db db' : Database}

/-- Only the provisioners are written. -/
theorem inventoried_of_provisioners (hn : Table.Numbered db.machines db.nextId)
    (hs : ∀ m ∈ db.machines, Sourced db.provisioners m) {provisioners : List MachineProvisioner}
    (hbare : provisioners.map MachineProvisioner.bare = db.provisioners.map MachineProvisioner.bare) :
    Inventoried db { db with provisioners } where
  providers := rfl
  attachments := rfl
  metrics := fun scope => by cases scope <;> rfl
  provisioners := hbare
  numbered := hn
  next_le := le_rfl
  kept := fun m hm => ⟨m, hm, rfl, rfl⟩
  sourced := fun m hm => (hs m hm).bare hbare
  homes := fun _ hm => List.mem_append_left _ (List.mem_map_of_mem hm)

/-- The assignments to the provisioner of a finished body. -/
theorem discoverAndStore_provisioners {p : MachineProvisioner} {now : Time} {ticks : Nat} {body : InventoryBody}
    (h : discoverAndStore env mock db p now ticks = .ok body) :
    body.db.provisioners = Table.modify db.provisioners p.id fun q =>
      { q with lastSuccessAt := some now, lastError := none } := by
  obtain ⟨_, _, _, db', -, -, -, hdb', -, -, hbody⟩ := discoverAndStore_eq_ok h
  obtain ⟨o, n, -, rfl⟩ := refreshMachines_frame hdb'
  rw [hbody]
  rfl

/-- The tables that a finished body leaves alone. -/
theorem discoverAndStore_frame {p : MachineProvisioner} {now : Time} {ticks : Nat} {body : InventoryBody}
    (h : discoverAndStore env mock db p now ticks = .ok body) :
    body.db.providers = db.providers ∧ body.db.attachments = db.attachments ∧
      (∀ scope, body.db.metrics scope = db.metrics scope) ∧
      body.db.provisioners.map MachineProvisioner.bare = db.provisioners.map MachineProvisioner.bare := by
  have hprovisioners := discoverAndStore_provisioners h
  obtain ⟨_, _, _, db', -, -, -, hdb', -, -, hbody⟩ := discoverAndStore_eq_ok h
  obtain ⟨o, n, -, rfl⟩ := refreshMachines_frame hdb'
  rw [hprovisioners, hbody]
  refine ⟨rfl, rfl, fun scope => by cases scope <;> rfl, ?_⟩
  exact Table.map_modify (fun r => by rfl) _ _

theorem discoverAndStore_inventoried {p : MachineProvisioner} {now : Time} {ticks : Nat} {body : InventoryBody}
    (hn : Table.Numbered db.machines db.nextId) (hk : Table.Keyed db.provisioners)
    (hs : ∀ m ∈ db.machines, Sourced db.provisioners m) (hp : p ∈ db.provisioners)
    (h : discoverAndStore env mock db p now ticks = .ok body) : Inventoried db body.db := by
  obtain ⟨hproviders, hattachments, hmetrics, hprovisioners⟩ := discoverAndStore_frame h
  obtain ⟨records, st, session, -, hloop, hflush, -, hmachines, -, hnext⟩ := discoverAndStore_ok h
  have hfinal : PlaceInv db { st with session } :=
    ((placeInv_start hn hs ticks).run hn.fresh hk hp hloop).flush hflush
  have hids : Table.ids body.db.machines = Table.ids session.rows := by
    simp only [hmachines, Session.stored, Table.ids, List.map_map]
    rfl
  constructor
  case providers => exact hproviders
  case attachments => exact hattachments
  case metrics => exact hmetrics
  case provisioners => exact hprovisioners
  case numbered => exact (hfinal.numbered.mono hnext).of_ids hids
  case next_le => exact hfinal.next_le.trans hnext
  case kept =>
    intro m hm
    have hkept : m.id ∈ Table.ids session.rows := hfinal.kept m.id (Table.mem_ids.mpr ⟨m, hm, rfl⟩)
    obtain ⟨t, ht, hid⟩ := Table.mem_ids.mp hkept
    have hstored : t.stored ∈ body.db.machines := hmachines ▸ List.mem_map_of_mem ht
    exact ⟨t.stored, hstored, hid, ((hfinal.settled t ht).kept m hm hid.symm).symm⟩
  case sourced =>
    intro m hm
    obtain ⟨t, ht, rfl⟩ := List.mem_map.mp (hmachines ▸ hm : m ∈ session.stored)
    exact (hfinal.settled t ht).source.bare hprovisioners
  case homes =>
    intro m hm
    obtain ⟨t, ht, rfl⟩ := List.mem_map.mp (hmachines ▸ hm : m ∈ session.stored)
    exact (hfinal.settled t ht).home

/-- Whatever a run does, it leaves the machines sourced, and every machine on its platform. -/
theorem run_inventoried (env : InventoryEnv) (mock : InventoryConnector) (hn : Table.Numbered db.machines db.nextId)
    (hk : Table.Keyed db.provisioners) (hs : ∀ m ∈ db.machines, Sourced db.provisioners m) (ticks provisionerId : Nat) :
    Inventoried db (runProvisionerInventory env mock db ticks provisionerId).db := by
  unfold runProvisionerInventory
  cases hp : Table.get db.provisioners provisionerId with
  | none => exact inventoried_of_provisioners hn hs rfl
  | some p =>
    have hstart : (startRun db provisionerId (env.clock ticks)).provisioners.map MachineProvisioner.bare =
        db.provisioners.map MachineProvisioner.bare := Table.map_modify (fun r => by rfl) _ _
    have hfail : ∀ error, (failRun env.unicode (startRun db provisionerId (env.clock ticks)) provisionerId
        error).provisioners.map MachineProvisioner.bare = db.provisioners.map MachineProvisioner.bare :=
      fun error => (Table.map_modify (fun r => by rfl) _ _).trans hstart
    simp only
    split
    · exact inventoried_of_provisioners hn hs (hfail _)
    · cases hbody : discoverAndStore env mock (startRun db provisionerId (env.clock ticks))
          (p.started (env.clock ticks)) (env.clock ticks) (ticks + 1) with
      | error e =>
        exact inventoried_of_provisioners hn hs (hfail _)
      | ok body =>
        obtain ⟨hmem, hid⟩ := Table.get_some hp
        have hstarted : p.started (env.clock ticks) ∈ (startRun db provisionerId (env.clock ticks)).provisioners :=
          Table.mem_modify.mpr ⟨p, hmem, (if_pos hid).symm⟩
        have hbegun := inventoried_of_provisioners hn hs hstart
        have hkeyed : Table.Keyed (startRun db provisionerId (env.clock ticks)).provisioners :=
          hk.modify (fun r => by rfl) _
        have hdone : Inventoried (startRun db provisionerId (env.clock ticks)) body.db :=
          discoverAndStore_inventoried hn hkeyed hbegun.sourced hstarted hbody
        have hplatforms : (startRun db provisionerId (env.clock ticks)).provisioners.map (·.platformId) =
            db.provisioners.map (·.platformId) := Table.map_modify (fun r => by rfl) _ _
        exact { hdone with
          provisioners := hdone.provisioners.trans hstart
          homes := hplatforms ▸ hdone.homes }

end Run

end Washing
