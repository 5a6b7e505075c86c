import Washing.Optimizations.Refresh

/-!
# What an optimization is computed from

A snapshot depends on the machine, its samples, and on the identity, the platform, the scope and the state of the
providers with their provisioners. It does not depend on the bookkeeping of the providers, nor on stored optimizations
(`SameInputs`, `build_congr`). `OptimizationCurrent` says that the row of a machine is up to date.
-/

namespace Washing

/-! ## Inputs -/

/-- Two databases from which the same snapshots are computed. -/
structure SameInputs (db db' : Database) : Prop where
  machines : db'.machines = db.machines
  provisioners : db'.provisioners = db.provisioners
  attachments : db'.attachments = db.attachments
  providers : db'.providers.map MachineProvider.bare = db.providers.map MachineProvider.bare
  metrics : ∀ scope, db'.metrics scope = db.metrics scope

theorem SameInputs.refl (db : Database) : SameInputs db db := ⟨rfl, rfl, rfl, rfl, fun _ => rfl⟩

theorem SameInputs.trans {db db' db'' : Database} (h : SameInputs db db') (h' : SameInputs db' db'') :
    SameInputs db db'' :=
  ⟨h'.machines.trans h.machines, h'.provisioners.trans h.provisioners, h'.attachments.trans h.attachments,
    h'.providers.trans h.providers, fun scope => (h'.metrics scope).trans (h.metrics scope)⟩

section Congr

variable {db db' : Database}

/-- The same providers are visible without their bookkeeping. -/
theorem visible_bare (db : Database) (m : Machine) (scope : ScopeName) :
    (visibleEnabledProvidersForScope db m scope).map MachineProvider.bare =
      visibleEnabledProvidersForScope { db with providers := db.providers.map MachineProvider.bare } m scope := by
  have hsort : ∀ rows : List MachineProvider, orderBy (fun p q => p.id ≤ q.id) (rows.map MachineProvider.bare) =
      (orderBy (fun p q => p.id ≤ q.id) rows).map MachineProvider.bare :=
    fun rows => (List.map_insertionSort _ _ MachineProvider.bare rows fun _ _ _ _ => Iff.rfl).symm
  simp only [visibleEnabledProvidersForScope, selectWhere, List.filter_map, hsort]
  rfl

/-- The same providers are visible. -/
theorem SameInputs.visible (h : SameInputs db db') (m : Machine) (scope : ScopeName) :
    (visibleEnabledProvidersForScope db' m scope).map (·.id) =
      (visibleEnabledProvidersForScope db m scope).map (·.id) := by
  have hids : ∀ providers : List MachineProvider,
      providers.map (·.id) = (providers.map MachineProvider.bare).map (·.id) := fun providers => by
    rw [List.map_map]
    rfl
  have hsees : ∀ p, Optimizations.providerSeesMachine db' p m = Optimizations.providerSeesMachine db p m := by
    intro p
    simp only [Optimizations.providerSeesMachine, provisionerIds, Database.provisionersOf, h.provisioners,
      h.attachments]
    rfl
  rw [hids (visibleEnabledProvidersForScope db' m scope), hids (visibleEnabledProvidersForScope db m scope),
    visible_bare db', visible_bare db, h.providers]
  exact congrArg _ (List.filter_congr fun p _ => hsees p)

theorem SameInputs.samples (h : SameInputs db db') (scope : ScopeName) (providerId machineId : Nat) (limit : Int) :
    loadMetricSamples db' scope providerId machineId limit = loadMetricSamples db scope providerId machineId limit := by
  rw [loadMetricSamples, loadMetricSamples, h.metrics]

/-- A scope is evaluated to the same result. -/
theorem SameInputs.evaluateScope (h : SameInputs db db') (m : Machine) (scope : ScopeName) (capacity : Option ℚ)
    (windowSize : Int) (bounds : ScopeBounds scope) :
    evaluateScope db' m scope capacity windowSize bounds = evaluateScope db m scope capacity windowSize bounds := by
  have hvisible := h.visible m scope
  unfold Washing.evaluateScope
  cases hv : visibleEnabledProvidersForScope db m scope with
  | nil =>
    rw [hv, List.map_nil, List.map_eq_nil_iff] at hvisible
    rw [hvisible]
  | cons p rest =>
    rw [hv, List.map_cons] at hvisible
    obtain ⟨p', rest', hv', hid, hrest⟩ := List.map_eq_cons_iff.mp hvisible
    rw [hv']
    cases rest with
    | nil =>
      rw [List.map_nil, List.map_eq_nil_iff] at hrest
      subst hrest
      simp only [hid, h.samples]
    | cons q rest =>
      obtain ⟨q', rest'', rfl, -, -⟩ := List.map_eq_cons_iff.mp hrest
      rfl

/-- The same snapshot is built. -/
theorem build_congr (h : SameInputs db db') (s : Settings) (m : Machine) (now : Time) :
    buildOptimizationSnapshot s db' m now = buildOptimizationSnapshot s db m now := by
  simp only [buildOptimizationSnapshot, evaluate, h.evaluateScope]

end Congr

/-! ## Up-to-date rows -/

/-- A snapshot without its time. -/
def OptimizationSnapshot.untimed (r : OptimizationSnapshot) : OptimizationSnapshot := { r with computedAt := 0 }

/-- The time of a refresh is in no other field. -/
theorem build_untimed (s : Settings) (db : Database) (m : Machine) (now now' : Time) :
    (buildOptimizationSnapshot s db m now).untimed = (buildOptimizationSnapshot s db m now').untimed := rfl

/-- The machine has one optimization row, and its fields other than the time are those of the snapshot that is computed
from the database. -/
def OptimizationCurrent (s : Settings) (db : Database) (machineId : Nat) : Prop :=
  ∀ m ∈ Table.get db.machines machineId,
    (db.optimizations.filter fun r => r.machineId = machineId).map (·.toOptimizationSnapshot.untimed) =
      [(buildOptimizationSnapshot s db m 0).untimed]

instance (s : Settings) (db : Database) (machineId : Nat) : Decidable (OptimizationCurrent s db machineId) :=
  inferInstanceAs (Decidable (∀ m ∈ Table.get db.machines machineId, _))

/-- The row that a lookup returned is in the table, or there is still none. -/
def HoldsRow (db : Database) (machineId : Nat) : Option MachineOptimization → Prop
  | none => ∀ r ∈ db.optimizations, r.machineId ≠ machineId
  | some row => row ∈ db.optimizations ∧ row.machineId = machineId

section Write

variable {db : Database} {machineId : Nat} {current : Option MachineOptimization} {snapshot : OptimizationSnapshot}

/-- The first row of the machine. -/
theorem holdsRow_find (db : Database) (machineId : Nat) :
    HoldsRow db machineId (db.optimizations.find? fun r => r.machineId = machineId) := by
  cases hf : db.optimizations.find? fun r => r.machineId = machineId with
  | none => simpa [HoldsRow] using hf
  | some row =>
    refine ⟨List.mem_of_find?_eq_some hf, ?_⟩
    simpa using List.find?_some hf

/-- What a lookup returns. -/
theorem currentOptimization_holds (hc : (db.optimizations.map (·.machineId)).Nodup)
    (h : currentOptimization db machineId = .ok current) : HoldsRow db machineId current := by
  rw [currentOptimization_eq hc, Except.ok.injEq] at h
  exact h ▸ holdsRow_find db machineId

/-- The machines of the rows after an update. -/
theorem map_machineId_update (rows : List MachineOptimization) (id : Nat) (snapshot : OptimizationSnapshot) :
    (Table.modify rows id (updateOptimization snapshot)).map (·.machineId) = rows.map (·.machineId) := by
  rw [Table.modify, List.map_map]
  refine List.map_congr_left fun r _ => ?_
  rw [Function.comp_apply]
  split_ifs
  · rw [updateOptimization_eq]
  · rfl

/-- A write leaves one row for the machine, with the snapshot in it. -/
theorem writeOptimization_current (hc : (db.optimizations.map (·.machineId)).Nodup)
    (h : HoldsRow db machineId current) :
    ((writeOptimization db machineId current snapshot).optimizations.filter fun r => r.machineId = machineId).map
      (·.toOptimizationSnapshot.untimed) = [snapshot.untimed] := by
  cases current with
  | none =>
    have hnone : db.optimizations.filter (fun r => r.machineId = machineId) = [] :=
      List.filter_eq_nil_iff.mpr fun r hr => by simpa using h r hr
    simp [writeOptimization, hnone]
  | some row =>
    obtain ⟨hrow, rfl⟩ := h
    have hupdated : updateOptimization snapshot row ∈
        Table.modify db.optimizations row.id (updateOptimization snapshot) :=
      Table.mem_modify.mpr ⟨row, hrow, (if_pos rfl).symm⟩
    have hkey : (updateOptimization snapshot row).machineId = row.machineId := by rw [updateOptimization_eq]
    have hfilter := Table.filter_key ((map_machineId_update _ _ _).symm ▸ hc) hupdated
    rw [hkey] at hfilter
    rw [writeOptimization, hfilter, updateOptimization_eq]
    rfl

/-- A write takes the next key, or none. -/
theorem writeOptimization_numbered (h : Table.Numbered db.optimizations db.nextId) (machineId : Nat)
    (current : Option MachineOptimization) (snapshot : OptimizationSnapshot) :
    Table.Numbered (writeOptimization db machineId current snapshot).optimizations
      (writeOptimization db machineId current snapshot).nextId := by
  cases current with
  | none => exact h.append rfl
  | some row =>
    refine h.modify fun r _ hid => ?_
    rw [updateOptimization_eq]
    exact hid

/-- A write keeps one row for each machine. -/
theorem writeOptimization_unique (hc : (db.optimizations.map (·.machineId)).Nodup) (h : HoldsRow db machineId current)
    (snapshot : OptimizationSnapshot) :
    ((writeOptimization db machineId current snapshot).optimizations.map (·.machineId)).Nodup := by
  cases current with
  | none =>
    rw [writeOptimization, List.map_append, List.map_singleton]
    refine List.nodup_append'.mpr ⟨hc, List.nodup_singleton _, ?_⟩
    rw [List.disjoint_singleton]
    intro hmem
    obtain ⟨r, hr, hid⟩ := List.mem_map.mp hmem
    exact h r hr hid
  | some row =>
    rw [writeOptimization, map_machineId_update]
    exact hc

/-- A write changes the optimizations only. -/
theorem writeOptimization_frame (db : Database) (machineId : Nat) (current : Option MachineOptimization)
    (snapshot : OptimizationSnapshot) : ∃ optimizations nextId, db.nextId ≤ nextId ∧
      writeOptimization db machineId current snapshot = { db with optimizations, nextId } := by
  cases current with
  | none => exact ⟨_, _, Nat.le_succ _, rfl⟩
  | some row => exact ⟨_, _, le_rfl, rfl⟩

/-- A write keeps the database consistent. -/
theorem Database.Consistent.writeOptimization (hdb : db.Consistent) (h : HoldsRow db machineId current) :
    (writeOptimization db machineId current snapshot).Consistent := by
  have hnumbered := writeOptimization_numbered ⟨hdb.optimizations_keyed, hdb.optimizations_fresh⟩
    machineId current snapshot
  have hunique := writeOptimization_unique hdb.optimizations_unique h snapshot
  obtain ⟨optimizations, nextId, hle, heq⟩ := writeOptimization_frame db machineId current snapshot
  rw [heq] at hnumbered hunique ⊢
  exact ⟨hdb.provisioners_keyed, hdb.providers_keyed, hdb.machines_keyed, hdb.machines_unique,
    fun m hm => (hdb.machines_fresh m hm).trans_le hle, hdb.metrics_keyed, hdb.metrics_unique,
    fun scope r hr => (hdb.metrics_fresh scope r hr).trans_le hle, hnumbered.keyed, hunique, hnumbered.fresh,
    hdb.applications_keyed⟩

/-- A write changes no input of a snapshot. -/
theorem writeOptimization_sameInputs (db : Database) (machineId : Nat) (current : Option MachineOptimization)
    (snapshot : OptimizationSnapshot) : SameInputs db (writeOptimization db machineId current snapshot) := by
  obtain ⟨_, _, -, heq⟩ := writeOptimization_frame db machineId current snapshot
  rw [heq]
  exact ⟨rfl, rfl, rfl, rfl, fun scope => by cases scope <;> rfl⟩

end Write

end Washing
