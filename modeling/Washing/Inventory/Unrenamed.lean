import Washing.Inventory.Represent
import Washing.Inventory.Constraints

/-!
# Runs that rename no machine

A record renames a machine when it has the external id of a stored row and another hostname. As long as no record does
this, and no external id was discovered for another platform, an assignment keeps the hostname of its row (`NamesKept`).
Then no lookup is out of date and no hostname is handed over, so the run commits and represents every record, whatever
else it changes (`run_of_renamesNothing`). The condition reads the stored table and the records only.
-/

namespace Washing

/-- A row that holds the external id of a record is on the platform of the provisioner, under the hostname of the
record. -/
def RenamesNothing (U : Unicode) (p : MachineProvisioner) (rows : List Machine) (records : List MachineRecord) : Prop :=
  ∀ m ∈ rows, ∀ record ∈ records, HoldsExternalId p (normalizeMachineRecord U record) m →
    HoldsHostname p (normalizeMachineRecord U record) m

instance (U : Unicode) (p : MachineProvisioner) (rows : List Machine) (records : List MachineRecord) :
    Decidable (RenamesNothing U p rows records) :=
  inferInstanceAs (Decidable (∀ m ∈ rows, _))

/-- The objects have the hostnames of their rows; a row is as it was at the start, or carries a record of the log. -/
def NamesKept (p : MachineProvisioner) (rows : List Machine) (st : InventoryState) (log : AssignmentLog) : Prop :=
  ∀ t ∈ st.session.rows, t.object.hostname = t.stored.hostname ∧
    (t.stored ∈ rows ∨ ∃ x ∈ log, Carries p x.1 t.stored)

section Loop

variable {env : InventoryEnv} {p : MachineProvisioner} {rows : List Machine} {now : Time} {st st' : InventoryState}
  {log : AssignmentLog}

/-- A row that carries a record of the log is found by no record that is distinct from it. -/
theorem Carries.not_found {r s : MachineRecord} {t : Tracked Machine} (h : Carries p s t.stored) (hd : Distinct r s) :
    ¬ Found p r st t := by
  rintro (⟨hne, -, hext⟩ | ⟨-, -, hhost⟩)
  · exact hd.2 hne (hext.symm.trans h.externalId)
  · exact hd.1 (hhost.symm.trans h.hostname)

/-- The row found for a record has its hostname and its platform, and no other record was assigned to it. -/
theorem LoopInv.found_kept (h : LoopInv p rows st log) (hk : NamesKept p rows st log) {record : MachineRecord}
    {records : List MachineRecord} (hrename : RenamesNothing env.unicode p rows (record :: records))
    (hd : ∀ x ∈ log, Distinct (normalizeMachineRecord env.unicode record) x.1) {t : Tracked Machine}
    (ht : t ∈ st.session.rows) (hf : Found p (normalizeMachineRecord env.unicode record) st t) :
    HoldsHostname p (normalizeMachineRecord env.unicode record) t.stored ∧ t.object = t.stored := by
  obtain ⟨hname, hrow⟩ := hk t ht
  have hstored : t.stored ∈ rows := by
    rcases hrow with hmem | ⟨x, hx, hcarries⟩
    · exact hmem
    · exact absurd hf (hcarries.not_found (hd x hx))
  have hheld : HoldsHostname p (normalizeMachineRecord env.unicode record) t.stored := by
    rcases hf with hext | ⟨-, hhost⟩
    · exact hrename _ hstored record List.mem_cons_self hext
    · exact hhost
  refine ⟨hheld, ?_⟩
  cases hl : lastRecord log (Row.id t) with
  | none => exact (h.untouched t ht hl).1
  | some s =>
    -- the record assigned before has the hostname of the row, and so the hostname of this one
    have hcarries := h.touched t ht s hl
    refine absurd ?_ (hd _ (lastRecord_mem hl)).1
    rw [← hheld.2, ← hname, hcarries.hostname]

/-- Every lookup of a run that renames nothing is current. -/
theorem LoopInv.lookupCurrent (h : LoopInv p rows st log) (hk : NamesKept p rows st log) {record : MachineRecord}
    {records : List MachineRecord} (hrename : RenamesNothing env.unicode p rows (record :: records))
    (hd : ∀ x ∈ log, Distinct (normalizeMachineRecord env.unicode record) x.1) :
    LookupCurrent p st (normalizeMachineRecord env.unicode record) := by
  rcases h.lookup env 0 record with ⟨t, ht, hf, hfind, -⟩ | ⟨-, hfind, -⟩
  · obtain ⟨⟨hplatform, -⟩, hobject⟩ := h.found_kept hk hrename hd ht hf
    rw [LookupCurrent, hfind]
    simp only [h.objectOf ht]
    exact ⟨hplatform, by rw [hobject], by rw [hobject]⟩
  · rw [LookupCurrent, hfind]
    trivial

/-- While the hostnames are kept, none is handed over. -/
theorem LoopInv.hostnamesFree (h : LoopInv p rows st log) (hk : NamesKept p rows st log) :
    HostnamesFree st.session.rows := by
  rintro t ht - u hu hne ⟨hplatform, hname⟩
  have hconflict : t.stored.Conflicts u.stored :=
    .inl ⟨(h.platform t ht).symm.trans hplatform, (hk t ht).1.symm.trans hname⟩
  exact absurd (h.unique t ht u hu hconflict).symm hne

/-- A matched record that renames nothing keeps the hostnames. -/
theorem NamesKept.update (h : LoopInv p rows st log) (hk : NamesKept p rows st log) {record : MachineRecord}
    {records : List MachineRecord} (hrename : RenamesNothing env.unicode p rows (record :: records))
    (hd : ∀ x ∈ log, Distinct (normalizeMachineRecord env.unicode record) x.1) {t : Tracked Machine}
    (ht : t ∈ st.session.rows) (hf : Found p (normalizeMachineRecord env.unicode record) st t) (i : Nat) :
    NamesKept p rows (updateMachine env p now st (normalizeMachineRecord env.unicode record) t.stored)
      ((normalizeMachineRecord env.unicode record, i) :: log) := by
  obtain ⟨⟨-, hname⟩, -⟩ := h.found_kept hk hrename hd ht hf
  intro u hu
  rw [(updateMachine_fields env p now st _ t.stored).1] at hu
  obtain ⟨v, hv, hstored, hcases⟩ := Session.mem_assign hu
  obtain ⟨hkept, hrow⟩ := hk v hv
  refine ⟨?_, hstored ▸ hrow.imp id fun ⟨x, hx, hcarries⟩ => ⟨x, List.mem_cons_of_mem _ hx, hcarries⟩⟩
  rcases hcases with ⟨hid, hobject⟩ | ⟨-, rfl⟩
  · have hvt : v = t := h.keyed.eq_of_id hv ht hid
    rw [hobject, hstored, hvt, hname, (carries_assign env.unicode p record _).hostname]
  · exact hkept

/-- A creation keeps the hostnames: the flush stores what the records of the log were assigned to. -/
theorem NamesKept.create (h : LoopInv p rows st log) (hk : NamesKept p rows st log) {record : MachineRecord}
    (hok : createMachine env p now st (normalizeMachineRecord env.unicode record) = .ok st') (i : Nat) :
    NamesKept p rows st' ((normalizeMachineRecord env.unicode record, i) :: log) := by
  have hcarries := carries_assign env.unicode p record
  unfold createMachine at hok
  split at hok
  · cases hok
  · rename_i session hinsert
    obtain ⟨s₁, hflush, -, hsession⟩ := (Session.insert_eq_ok_iff _).mp hinsert
    cases hok
    intro u hu
    rw [hsession] at hu
    rcases List.mem_append.mp hu with hu | hu
    · obtain ⟨hclean, t, ht, -, ⟨hp, k, -, hstored⟩ | ⟨-, rfl⟩⟩ := (Session.flush_ok _ h.keyed hflush).2.row _ hu
      · refine ⟨by rw [not_not.mp hclean], .inr ?_⟩
        cases hl : lastRecord log (Row.id t) with
        | none => exact absurd (h.untouched t ht hl).1 hp
        | some s =>
          refine ⟨_, List.mem_cons_of_mem _ (lastRecord_mem hl), ?_⟩
          rw [hstored]
          exact (h.touched t ht s hl).stamp _ _
      · obtain ⟨hname, hrow⟩ := hk u ht
        exact ⟨hname, hrow.imp id fun ⟨x, hx, hcarried⟩ => ⟨x, List.mem_cons_of_mem _ hx, hcarried⟩⟩
    · rw [List.mem_singleton.mp hu]
      exact ⟨rfl, .inr ⟨_, List.mem_cons_self, (hcarries _).stamp _ _⟩⟩

/-- At every turn of a loop that renames nothing the lookup is current and the hostnames are free. -/
theorem LoopInv.along_unrenamed (now : Time) : ∀ {records : List MachineRecord} {st : InventoryState}
    {log : AssignmentLog}, LoopInv p rows st log → NamesKept p rows st log → Ahead env.unicode log records →
    RenamesNothing env.unicode p rows records →
    AlongLoop env p now (LookupCurrent p) (fun _ => True) st records ∧ HandoversOrderly env p now st records
  | [], st, log, h, hk, _, _ => ⟨trivial, h.hostnamesFree hk⟩
  | record :: records, st, log, h, hk, ha, hrename => by
    have hcurrent := h.lookupCurrent hk hrename ha.head
    have hfree := h.hostnamesFree hk
    have hrest : RenamesNothing env.unicode p rows records :=
      fun m hm r hr => hrename m hm r (List.mem_cons_of_mem _ hr)
    unfold HandoversOrderly
    cases hst₁ : processRecord env p now st record with
    | error e =>
      simp only [AlongLoop, hst₁]
      exact ⟨⟨hcurrent, trivial⟩, fun _ => hfree, trivial⟩
    | ok st₁ =>
      obtain ⟨i, hturn, hinv⟩ := h.turn ha hst₁
      have hkept : NamesKept p rows st₁ ((normalizeMachineRecord env.unicode record, i) :: log) := by
        cases hturn with
        | matched t ht hf _ hstate _ => exact hstate ▸ hk.update h hrename ha.head ht hf i
        | created _ hcreate _ => exact hk.create h hcreate i
      obtain ⟨hcurrents, horderly⟩ := hinv.along_unrenamed now hkept (ha.tail i) hrest
      simp only [AlongLoop, hst₁]
      exact ⟨⟨hcurrent, hcurrents⟩, fun _ => hfree, horderly⟩

end Loop

/-- A run of an enabled provisioner on distinct records that rename nothing commits, and represents every record. -/
theorem run_of_renamesNothing (env : InventoryEnv) (mock : InventoryConnector) (db : Database) (hc : db.Consistent)
    (ticks provisionerId : Nat) (p : MachineProvisioner) (hp : Table.get db.provisioners provisionerId = some p)
    (he : p.enabled) (records : List MachineRecord)
    (hrecords : discover mock (p.started (env.clock ticks)) = .ok records)
    (hd : DistinctRecords env.unicode records) (hrename : RenamesNothing env.unicode p db.machines records) :
    ∃ report, (runProvisionerInventory env mock db ticks provisionerId).result = .ok report ∧
      RepresentsAll env.unicode p records (runProvisionerInventory env mock db ticks provisionerId) report := by
  have henabled : (p.started (env.clock ticks)).enabled = true := he
  have hstart : LoopInv (p.started (env.clock ticks)) db.machines (.start db (ticks + 1)) [] := loopInv_start hc _ _
  have hkept : NamesKept (p.started (env.clock ticks)) db.machines (.start db (ticks + 1)) [] := by
    intro t ht
    obtain ⟨m, hm, rfl⟩ := List.mem_map.mp ht
    exact ⟨rfl, .inl hm⟩
  obtain ⟨hcurrent, horderly⟩ := hstart.along_unrenamed (env.clock ticks) hkept hd hrename
  have hstarted := startRun_consistent hc provisionerId (env.clock ticks)
  obtain ⟨-, body, hbody⟩ | ⟨hnot, -⟩ :=
    discoverAndStore_cases (env.clock ticks) (ticks + 1) hstarted hrecords hd
  · have hall := (body_represents_iff hstarted hrecords hd hbody).mpr hcurrent
    simp only [represents_started] at hall
    unfold runProvisionerInventory
    simp only [hp, henabled, not_true_eq_false, if_false, hbody]
    exact ⟨_, rfl, hall⟩
  · exact absurd horderly hnot

example : RenamesNothing Unicode.ascii smallProvisioner [smallMachine 1 "a" "H1", smallMachine 2 "b" "H2"]
    [smallRecord "c" "H3", smallRecord "d" "H2", smallRecord "a" "H1"] := by decide +kernel

end Washing
