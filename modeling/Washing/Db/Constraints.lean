import Washing.Db.Statements

/-!
# Unique constraints and references

What the constraints of the connectors, the association table and the flavor history guarantee of the committed rows,
beside the primary keys and the references of `Store.Intact`: names are unique, platforms exist, pairs are stored once
(`Store.Constrained`). Every statement keeps it, as it is refused otherwise (`Constrained.ran`).
-/

namespace Washing

/-- Every connector meets the constraints of its table. -/
structure Store.Accepted (s : Store) : Prop where
  acceptsProviders : ∀ p ∈ s.providers, s.AcceptsProvider p
  acceptsProvisioners : ∀ q ∈ s.provisioners, s.AcceptsProvisioner q

/-- The unique constraints, and the references to platforms and from the flavor history. -/
structure Store.Constrained (s : Store) : Prop extends s.Accepted where
  platformNames : (s.platforms.map Platform.name).Nodup
  pairs : s.attachments.Nodup
  machinePlatforms : ∀ m ∈ s.machines, s.HasPlatform m.platformId
  histories : Table.Numbered s.flavorHistory s.nextId
  historySources : ∀ r ∈ s.flavorHistory, ∀ i ∈ r.sourceProvisionerId, i ∈ Table.ids s.provisioners

/-! ## Connectors -/

/-- One row is new, and it goes with all others. -/
theorem pairs_of_row {α : Type} {A : α → α → Prop} {rows rows' : List α} {r : α} (hsymm : ∀ x y, A x y → A y x)
    (hself : A r r) (hrows : ∀ x ∈ rows, ∀ y ∈ rows, A x y) (hr : ∀ y ∈ rows, A r y)
    (hsub : ∀ x ∈ rows', x = r ∨ x ∈ rows) : ∀ x ∈ rows', ∀ y ∈ rows', A x y := by
  intro x hx y hy
  rcases hsub x hx with rfl | hx
  · rcases hsub y hy with rfl | hy
    · exact hself
    · exact hr y hy
  · rcases hsub y hy with rfl | hy
    · exact hsymm _ _ (hr x hx)
    · exact hrows x hx y hy

/-- The written row is the last one, or in the place of another. -/
theorem mem_append_row {α : Type} {rows : List α} {r x : α} (h : x ∈ rows ++ [r]) : x = r ∨ x ∈ rows := by
  rcases List.mem_append.mp h with hx | hx
  · exact .inr hx
  · exact .inl (List.mem_singleton.mp hx)

namespace Store

variable {s s' : Store}

/-- The providers after one row was written. -/
theorem Accepted.provider (h : s.Accepted) {r : MachineProvider} (hplatforms : s'.platforms = s.platforms)
    (hprovisioners : s'.provisioners = s.provisioners) (hproviders : ∀ x ∈ s'.providers, x = r ∨ x ∈ s.providers)
    (accepted : s.AcceptsProvider r) : s'.Accepted := by
  have hpairs := pairs_of_row
    (A := fun x y : MachineProvider => y.platformId = x.platformId → y.name = x.name → y.id = x.id)
    (fun x y hxy hplatform hname => (hxy hplatform.symm hname.symm).symm) (fun _ _ => rfl)
    (fun x hx => (h.acceptsProviders x hx).2) accepted.2 hproviders
  refine ⟨fun x hx => ⟨?_, hpairs x hx⟩, ?_⟩
  · rw [HasPlatform, hplatforms]
    rcases hproviders x hx with rfl | hx
    · exact accepted.1
    · exact (h.acceptsProviders x hx).1
  · simp only [AcceptsProvisioner, HasPlatform, hplatforms, hprovisioners]
    exact h.acceptsProvisioners

/-- The provisioners after one row was written. -/
theorem Accepted.provisioner (h : s.Accepted) {r : MachineProvisioner} (hplatforms : s'.platforms = s.platforms)
    (hproviders : s'.providers = s.providers) (hprovisioners : ∀ x ∈ s'.provisioners, x = r ∨ x ∈ s.provisioners)
    (accepted : s.AcceptsProvisioner r) : s'.Accepted := by
  have hpairs := pairs_of_row
    (A := fun x y : MachineProvisioner => y.platformId = x.platformId → y.name = x.name → y.id = x.id)
    (fun x y hxy hplatform hname => (hxy hplatform.symm hname.symm).symm) (fun _ _ => rfl)
    (fun x hx => (h.acceptsProvisioners x hx).2) accepted.2 hprovisioners
  refine ⟨?_, fun x hx => ⟨?_, hpairs x hx⟩⟩
  · simp only [AcceptsProvider, HasPlatform, hplatforms, hproviders]
    exact h.acceptsProviders
  · rw [HasPlatform, hplatforms]
    rcases hprovisioners x hx with rfl | hx
    · exact accepted.1
    · exact (h.acceptsProvisioners x hx).1

/-- The platforms were written, and none is gone. -/
theorem Accepted.platform (h : s.Accepted) (hplatforms : ∀ i, s.HasPlatform i → s'.HasPlatform i)
    (hproviders : s'.providers = s.providers) (hprovisioners : s'.provisioners = s.provisioners) : s'.Accepted := by
  constructor
  case acceptsProviders =>
    rw [hproviders]
    intro p hp
    refine ⟨hplatforms _ (h.acceptsProviders p hp).1, ?_⟩
    rw [hproviders]
    exact (h.acceptsProviders p hp).2
  case acceptsProvisioners =>
    rw [hprovisioners]
    intro q hq
    refine ⟨hplatforms _ (h.acceptsProvisioners q hq).1, ?_⟩
    rw [hprovisioners]
    exact (h.acceptsProvisioners q hq).2

/-- What is accepted stays accepted when rows are deleted, as long as its platform is there. -/
theorem Accepted.cascade (h : s.Accepted) (hs : s.Shrinks s') : s'.cascade.Accepted where
  acceptsProviders := by
    intro p hp
    obtain ⟨hp, hplatform⟩ := List.mem_filter.mp hp
    exact ⟨of_decide_eq_true hplatform, fun r hr =>
      (h.acceptsProviders p (hs.providers.subset hp)).2 r (hs.providers.subset (List.mem_of_mem_filter hr))⟩
  acceptsProvisioners := by
    intro q hq
    obtain ⟨hq, hplatform⟩ := List.mem_filter.mp hq
    exact ⟨of_decide_eq_true hplatform, fun r hr =>
      (h.acceptsProvisioners q (hs.provisioners.subset hq)).2 r (hs.provisioners.subset (List.mem_of_mem_filter hr))⟩

/-- No platform is gone after an update. -/
theorem hasPlatform_update {i : Nat} (h : s.HasPlatform i) (id : Nat) (c : PlatformChanges) :
    HasPlatform { s with platforms := Table.modify s.platforms id c.update } i := by
  rw [HasPlatform, Table.ids_modify (f := c.update) fun _ => rfl]
  exact h

theorem Accepted.ran {statement : Statement} (h : s.Accepted) (hran : statement.Ran s s') : s'.Accepted := by
  cases hran with
  | platformInserted name description extra free =>
    refine h.platform (fun i hi => ?_) rfl rfl
    rw [HasPlatform, Table.ids_append]
    exact List.mem_append_left _ hi
  | platformUpdated id c stored => exact h.platform (fun i hi => hasPlatform_update hi id c) rfl rfl
  | providerInserted v provisionerIds accepted once stored =>
    exact h.provider rfl rfl (fun x hx => mem_append_row hx) accepted
  | providerUpdated id c p r stored updated accepted =>
    exact h.provider rfl rfl (fun x hx => (Table.mem_replace hx).imp_right And.left) accepted
  | provisionerInserted v accepted => exact h.provisioner rfl rfl (fun x hx => mem_append_row hx) accepted
  | provisionerUpdated id c q r stored updated accepted =>
    exact h.provisioner rfl rfl (fun x hx => (Table.mem_replace hx).imp_right And.left) accepted
  | attached pair accepted => exact ⟨h.acceptsProviders, h.acceptsProvisioners⟩
  | detached pair stored => exact ⟨h.acceptsProviders, h.acceptsProvisioners⟩
  | deleted statement _ s' shrinks => exact h.cascade shrinks

/-! ## All tables -/

/-- Deletions, and what follows from them. -/
theorem Constrained.cascade (h : s.Constrained) (hs : s.Shrinks s') : s'.cascade.Constrained where
  toAccepted := h.toAccepted.cascade hs
  platformNames := h.platformNames.sublist (hs.platforms.map _)
  pairs := h.pairs.sublist (hs.cascade.attachments)
  machinePlatforms := by
    intro m' hm'
    obtain ⟨m, hm, rfl⟩ := List.mem_map.mp hm'
    exact of_decide_eq_true (List.mem_filter.mp hm).2
  histories := by
    rw [hs.cascade.nextId]
    exact h.histories.sublist hs.cascade.histories
  historySources := by
    intro r' hr' i hi
    obtain ⟨r, hr, rfl⟩ := List.mem_map.mp hr'
    exact of_decide_eq_true (Option.filter_eq_some_iff.mp hi).2

/-- A statement keeps the constraints. -/
theorem Constrained.ran {statement : Statement} (h : s.Constrained) (hi : s.Intact) (hran : statement.Ran s s') :
    s'.Constrained := by
  have haccepted := h.toAccepted.ran hran
  have hnext : s.nextId ≤ s.nextId + 1 := Nat.le_succ _
  cases hran with
  | platformInserted name description extra free =>
    refine { h with
      toAccepted := haccepted
      platformNames := ?_
      machinePlatforms := fun m hm => ?_
      histories := h.histories.mono hnext }
    · rw [List.map_append]
      exact h.platformNames.append (List.nodup_singleton _) (List.disjoint_singleton.mpr free)
    · rw [HasPlatform, Table.ids_append]
      exact List.mem_append_left _ (h.machinePlatforms m hm)
  | platformUpdated id c stored =>
    have hnames : (Table.modify s.platforms id c.update).map Platform.name = s.platforms.map Platform.name :=
      Table.map_modify (f := c.update) (fun _ => rfl) _ _
    exact { h with
      toAccepted := haccepted
      platformNames := hnames ▸ h.platformNames
      machinePlatforms := fun m hm => hasPlatform_update (h.machinePlatforms m hm) id c }
  | providerInserted v provisionerIds accepted once stored =>
    refine { h with toAccepted := haccepted, pairs := ?_, histories := h.histories.mono hnext }
    refine h.pairs.append (once.map fun i j hij => (MachineProviderProvisioner.mk.inj hij).2) ?_
    -- the new provider has not been attached yet
    intro a ha hnew
    obtain ⟨i, -, rfl⟩ := List.mem_map.mp hnew
    obtain ⟨p, hp, hid⟩ := Table.mem_ids.mp (hi.attachments _ ha).1
    exact absurd hid (hi.providers.fresh p hp).ne
  | providerUpdated id c p r stored updated accepted => exact { h with toAccepted := haccepted }
  | provisionerInserted v accepted =>
    refine { h with
      toAccepted := haccepted, histories := h.histories.mono hnext, historySources := fun r hr i hsource => ?_ }
    rw [Table.ids_append]
    exact List.mem_append_left _ (h.historySources r hr i hsource)
  | provisionerUpdated id c q r stored updated accepted =>
    have hid : Row.id r = id := (ProvisionerChanges.update_some updated).1.trans (Table.get_some stored).2
    have hids : Table.ids (Table.modify s.provisioners id fun _ => r) = Table.ids s.provisioners :=
      Table.ids_modify_row fun _ _ _ => hid
    exact { h with toAccepted := haccepted, historySources := hids.symm ▸ h.historySources }
  | attached pair accepted =>
    exact { h with
      toAccepted := haccepted
      pairs := h.pairs.append (List.nodup_singleton _) (List.disjoint_singleton.mpr accepted.2.2) }
  | detached pair stored =>
    exact { h with toAccepted := haccepted, pairs := h.pairs.sublist List.filter_sublist }
  | deleted statement _ s' shrinks => exact h.cascade shrinks

end Store

end Washing
