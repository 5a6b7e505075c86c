import Washing.Inventory.Run

/-!
# Matching and assignment

What a lookup can return on a table that satisfies the unique constraints (`findMachine_cases`), and what a machine
carries after a record was assigned to it (`Carries`). Records arrive normalised, so the validators of the model change
nothing (`carries_assign`).
-/

namespace Washing

/-! ## Normal records -/

/-- The machine carries the identifiers, the dimensions and the flavor of a normalised record of a provisioner. -/
structure Carries (p : MachineProvisioner) (r : MachineRecord) (m : Machine) : Prop where
  source : m.sourceProvisionerId = some p.id
  externalId : m.externalId = r.externalId
  hostname : m.hostname = r.hostname
  application : m.application = r.application
  region : m.region = r.region
  environment : m.environment = r.environment
  cpu : m.cpu = r.cpu
  ramMb : m.ramMb = r.ramMb
  diskMb : m.diskMb = r.diskMb

instance (p : MachineProvisioner) (r : MachineRecord) (m : Machine) : Decidable (Carries p r m) :=
  decidable_of_iff (m.sourceProvisionerId = some p.id ∧ m.externalId = r.externalId ∧ m.hostname = r.hostname ∧
      m.application = r.application ∧ m.region = r.region ∧ m.environment = r.environment ∧ m.cpu = r.cpu ∧
      m.ramMb = r.ramMb ∧ m.diskMb = r.diskMb)
    ⟨fun ⟨h₁, h₂, h₃, h₄, h₅, h₆, h₇, h₈, h₉⟩ => ⟨h₁, h₂, h₃, h₄, h₅, h₆, h₇, h₈, h₉⟩, fun h => ⟨h.source, h.externalId,
      h.hostname, h.application, h.region, h.environment, h.cpu, h.ramMb, h.diskMb⟩⟩

theorem carries_assign (U : Unicode) (p : MachineProvisioner) (record : MachineRecord) (m : Machine) :
    Carries p (normalizeMachineRecord U record) (Machine.assign U p (normalizeMachineRecord U record) m) := by
  constructor <;> simp only [Machine.assign, normalizeMachineRecord, resolveApplication, normalizeExternalId_idem,
    hostnameOr_idem, normalizeApplicationCode_idem, normalizeDimension_idem]

/-- A row that carries a record still does after its time was stamped. -/
theorem Carries.stamp {p : MachineProvisioner} {r : MachineRecord} {m : Machine} (h : Carries p r m)
    (clock : Nat → Time) (k : Nat) : Carries p r ((machineMapper clock).stamp k m) :=
  ⟨h.source, h.externalId, h.hostname, h.application, h.region, h.environment, h.cpu, h.ramMb, h.diskMb⟩

/-- Two normalised records that name different machines. -/
def Distinct (r s : MachineRecord) : Prop :=
  r.hostname ≠ s.hostname ∧ (r.externalId ≠ none → r.externalId ≠ s.externalId)

instance (r s : MachineRecord) : Decidable (Distinct r s) := inferInstanceAs (Decidable (_ ∧ _))

/-- The normalised hostnames, and the normalised external ids that are not null, are pairwise distinct. -/
def DistinctRecords (U : Unicode) (records : List MachineRecord) : Prop :=
  (records.map (normalizeMachineRecord U)).Pairwise Distinct

instance (U : Unicode) (records : List MachineRecord) : Decidable (DistinctRecords U records) :=
  inferInstanceAs (Decidable (List.Pairwise _ _))

theorem Distinct.symm {r s : MachineRecord} (h : Distinct r s) : Distinct s r :=
  ⟨h.1.symm, fun hs he => h.2 (he ▸ hs) he.symm⟩

/-- Rows that carry distinct records do not conflict. -/
theorem Carries.not_conflicts {p : MachineProvisioner} {r s : MachineRecord} {m n : Machine} (hm : Carries p r m)
    (hn : Carries p s n) (h : Distinct r s) : ¬ m.Conflicts n := by
  rintro (⟨-, hhost⟩ | ⟨-, hext, -, hnone⟩)
  · exact h.1 (hm.hostname.symm.trans (hhost.trans hn.hostname))
  · rw [hm.externalId] at hext hnone
    exact h.2 hnone (hext.trans hn.externalId)

/-! ## Lookups -/

/-- The row holds the external id of the record, for the provisioner. -/
def HoldsExternalId (p : MachineProvisioner) (r : MachineRecord) (m : Machine) : Prop :=
  r.externalId ≠ none ∧ m.sourceProvisionerId = some p.id ∧ m.externalId = r.externalId

instance (p : MachineProvisioner) (r : MachineRecord) (m : Machine) : Decidable (HoldsExternalId p r m) :=
  inferInstanceAs (Decidable (_ ∧ _))

/-- The row holds the hostname of the record, on the platform of the provisioner. -/
def HoldsHostname (p : MachineProvisioner) (r : MachineRecord) (m : Machine) : Prop :=
  m.platformId = p.platformId ∧ m.hostname = r.hostname

instance (p : MachineProvisioner) (r : MachineRecord) (m : Machine) : Decidable (HoldsHostname p r m) :=
  inferInstanceAs (Decidable (_ ∧ _))

/-- A table that satisfies the unique constraints. -/
def Unique (rows : List Machine) : Prop := ∀ m ∈ rows, ∀ n ∈ rows, m.Conflicts n → m.id = n.id

theorem HoldsExternalId.conflicts {p : MachineProvisioner} {r : MachineRecord} {m n : Machine}
    (hm : HoldsExternalId p r m) (hn : HoldsExternalId p r n) : m.Conflicts n :=
  .inr ⟨hm.2.1.trans hn.2.1.symm, hm.2.2.trans hn.2.2.symm, by simp [hm.2.1], by rw [hm.2.2]; exact hm.1⟩

theorem HoldsHostname.conflicts {p : MachineProvisioner} {r : MachineRecord} {m n : Machine} (hm : HoldsHostname p r m)
    (hn : HoldsHostname p r n) : m.Conflicts n := .inl ⟨hm.1.trans hn.1.symm, hm.2.trans hn.2.symm⟩

/-- A query for rows that conflict with each other returns the one there is. -/
theorem oneOrNone_cases {rows : List Machine} (hk : Table.Keyed rows) (hu : Unique rows) {q : Machine → Cond}
    {P : Machine → Prop} (hq : ∀ m, (q m).isTrue ↔ P m) (hP : ∀ m n, P m → P n → m.Conflicts n) :
    (∃ m ∈ rows, P m ∧ oneOrNone (selectWhere q rows) = .ok (some m)) ∨
      ((∀ m ∈ rows, ¬ P m) ∧ oneOrNone (selectWhere q rows) = .ok none) := by
  have hone := oneOrNone_selectWhere (p := q) (List.Nodup.of_map _ hk) fun m hm n hn hqm hqn =>
    hk.eq_of_id hm hn (hu m hm n hn (hP m n ((hq m).mp hqm) ((hq n).mp hqn)))
  rw [hone]
  cases hf : rows.find? fun r => (q r).isTrue with
  | some m =>
    have hqm : (q m).isTrue := List.find?_some (p := fun r => (q r).isTrue) hf
    exact .inl ⟨m, List.mem_of_find?_eq_some hf, (hq m).mp hqm, rfl⟩
  | none =>
    refine .inr ⟨fun m hm hPm => ?_, rfl⟩
    exact List.find?_eq_none.mp hf m hm ((hq m).mpr hPm)

/-- What a lookup returns: the row that holds the external id, else the row that holds the hostname, else nothing. -/
theorem findMachine_cases {rows : List Machine} (hk : Table.Keyed rows) (hu : Unique rows) (p : MachineProvisioner)
    {r : MachineRecord} (hr : r.externalId ≠ some "") :
    (∃ m ∈ rows, findMachine rows p r = .ok (some m) ∧
      (HoldsExternalId p r m ∨ (∀ n ∈ rows, ¬ HoldsExternalId p r n) ∧ HoldsHostname p r m)) ∨
    (findMachine rows p r = .ok none ∧ ∀ n ∈ rows, ¬ HoldsExternalId p r n ∧ ¬ HoldsHostname p r n) := by
  have hhostname := oneOrNone_cases hk hu (P := HoldsHostname p r) (q := fun m => Cond.and (Cond.eq (some m.platformId)
    (some p.platformId)) (Cond.eq (some m.hostname) (some r.hostname))) (by simp [HoldsHostname])
    fun _ _ => HoldsHostname.conflicts
  change (∃ m ∈ rows, HoldsHostname p r m ∧ findByHostname rows p r = .ok (some m)) ∨
    ((∀ m ∈ rows, ¬ HoldsHostname p r m) ∧ findByHostname rows p r = .ok none) at hhostname
  have hfallback : findMachine rows p r = findByHostname rows p r → (∀ n ∈ rows, ¬ HoldsExternalId p r n) →
      (∃ m ∈ rows, findMachine rows p r = .ok (some m) ∧
        (HoldsExternalId p r m ∨ (∀ n ∈ rows, ¬ HoldsExternalId p r n) ∧ HoldsHostname p r m)) ∨
      (findMachine rows p r = .ok none ∧ ∀ n ∈ rows, ¬ HoldsExternalId p r n ∧ ¬ HoldsHostname p r n) := by
    intro hfind hno
    rw [hfind]
    rcases hhostname with ⟨m, hm, hh, hfound⟩ | ⟨hnone, hfound⟩
    · exact .inl ⟨m, hm, hfound, .inr ⟨hno, hh⟩⟩
    · exact .inr ⟨hfound, fun n hn => ⟨hno n hn, hnone n hn⟩⟩
  cases he : r.externalId with
  | none =>
    refine hfallback ?_ fun n _ h => h.1 he
    simp [findMachine, truthy, he]
  | some e =>
    have hne : e ≠ "" := fun h => hr (h ▸ he)
    have htruthy : truthy r.externalId = true := by simp [truthy, he, hne]
    have hexternal := oneOrNone_cases hk hu (P := HoldsExternalId p r) (q := fun m => Cond.and
      (Cond.eq m.sourceProvisionerId (some p.id)) (Cond.eq m.externalId r.externalId))
      (by simp [HoldsExternalId, he]) fun _ _ => HoldsExternalId.conflicts
    change (∃ m ∈ rows, HoldsExternalId p r m ∧ findByExternalId rows p r = .ok (some m)) ∨
      ((∀ m ∈ rows, ¬ HoldsExternalId p r m) ∧ findByExternalId rows p r = .ok none) at hexternal
    rcases hexternal with ⟨m, hm, hh, hfound⟩ | ⟨hnone, hfound⟩
    · exact .inl ⟨m, hm, by simp [findMachine, htruthy, hfound], .inl hh⟩
    · exact hfallback (by simp [findMachine, htruthy, hfound]) hnone

/-- A lookup returns a row of the table that holds the external id or the hostname, whatever the table is. -/
theorem findMachine_found {rows : List Machine} {p : MachineProvisioner} {r : MachineRecord} {m : Machine}
    (h : findMachine rows p r = .ok (some m)) : m ∈ rows ∧ (HoldsExternalId p r m ∨ HoldsHostname p r m) := by
  have hhostname : findByHostname rows p r = .ok (some m) → m ∈ rows ∧ HoldsHostname p r m := by
    intro hfind
    have hmem : m ∈ selectWhere _ rows := oneOrNone_some hfind ▸ List.mem_singleton_self m
    simpa [HoldsHostname] using hmem
  have hexternal : findByExternalId rows p r = .ok (some m) → m ∈ rows ∧ HoldsExternalId p r m := by
    intro hfind
    have hmem : m ∈ selectWhere _ rows := oneOrNone_some hfind ▸ List.mem_singleton_self m
    rw [mem_selectWhere, Cond.isTrue_and, Cond.isTrue_eq_const, Cond.isTrue_eq] at hmem
    obtain ⟨hm, hsource, e, he, hre⟩ := hmem
    exact ⟨hm, by simp [hre], hsource, he.trans hre.symm⟩
  unfold findMachine at h
  split_ifs at h
  · split at h
    · cases h
    · cases h
      exact (hexternal ‹_›).imp id .inl
    · exact (hhostname h).imp id .inr
  · exact (hhostname h).imp id .inr

end Washing
