import Washing.Inventory.Outcome
import Washing.Optimizations.Flavor

/-!
# The flavors of the machines

The history of a machine is tracked: its last row has the flavor of the machine, and every row differs from the one
before it. In the loop this is a statement about the objects, whatever the table still holds; machines without a new
row keep the flavor that they had (`Followed`).

- one record (`FlavorInv.update`, `FlavorInv.create`) and the loop (`FlavorInv.run`);
- the refreshes, which follow the machines with a new row (`refreshMachines_flavors`);
- a run (`run_flavorsKept`).
-/

namespace Washing

def MachineFlavorHistory.flavor (r : MachineFlavorHistory) : Flavor := ⟨r.cpu, r.ramMb, r.diskMb⟩

def MachineRecord.flavor (r : MachineRecord) : Flavor := ⟨r.cpu, r.ramMb, r.diskMb⟩

theorem flavorChanged_iff {m : Machine} {r : MachineRecord} : flavorChanged m r ↔ m.flavor ≠ r.flavor := by
  simp only [flavorChanged, Machine.flavor, MachineRecord.flavor, ne_eq, Flavor.mk.injEq, Bool.or_eq_true,
    decide_eq_true_eq, not_and_or]
  exact or_assoc

/-- The flavors in the history of a machine. -/
def historyFlavors (history : List MachineFlavorHistory) (machineId : Nat) : List Flavor :=
  valuesOf (·.machineId) (·.flavor) history machineId

/-- The rows of the history are in the order of their times and keys, and about machines that existed. -/
structure HistoryRows (history : List MachineFlavorHistory) (nextId : Nat) (now : Time) : Prop where
  dated : history.Pairwise fun r s => r.changedAt ≤ s.changedAt ∧ r.id < s.id
  fresh : ∀ r ∈ history, r.id < nextId ∧ r.machineId < nextId
  past : ∀ r ∈ history, r.changedAt ≤ now

theorem HistoryRows.mono {history : List MachineFlavorHistory} {nextId nextId' : Nat} {now now' : Time}
    (h : HistoryRows history nextId now) (hnext : nextId ≤ nextId') (hnow : now ≤ now') :
    HistoryRows history nextId' now' where
  dated := h.dated
  fresh := fun r hr => (h.fresh r hr).imp (·.trans_le hnext) (·.trans_le hnext)
  past := fun r hr => (h.past r hr).trans hnow

/-- The next row, of now. -/
theorem HistoryRows.append {history : List MachineFlavorHistory} {nextId next : Nat} {now : Time}
    (h : HistoryRows history nextId now) {r : MachineFlavorHistory} (hid : nextId ≤ r.id) (hnext : r.id < next)
    (hmachine : r.machineId < next) (hnow : r.changedAt = now) : HistoryRows (history ++ [r]) next now := by
  constructor
  case dated =>
    refine List.pairwise_append.mpr ⟨h.dated, List.pairwise_singleton _ _, fun s hs t ht => ?_⟩
    rw [List.mem_singleton.mp ht, hnow]
    exact ⟨h.past s hs, (h.fresh s hs).1.trans_le hid⟩
  case fresh =>
    intro s hs
    obtain hs | hs := List.mem_append.mp hs
    · have hle : nextId ≤ next := hid.trans hnext.le
      exact (h.fresh s hs).imp (·.trans_le hle) (·.trans_le hle)
    · rw [List.mem_singleton.mp hs]
      exact ⟨hnext, hmachine⟩
  case past =>
    intro s hs
    obtain hs | hs := List.mem_append.mp hs
    · exact h.past s hs
    · rw [List.mem_singleton.mp hs, hnow]

/-! ## The loop -/

/-- A stored row and its object during a run that started from `db`: the object is tracked, and it has the flavor of the
beginning unless its machine is to be refreshed. -/
structure Followed (db : Database) (history : List MachineFlavorHistory) (refreshed : List Nat)
    (stored object : Machine) : Prop where
  id : object.id = stored.id
  tracked : Tracks (historyFlavors history stored.id) object.flavor
  kept : stored.id ∉ refreshed → ∃ m ∈ db.machines, m.id = stored.id ∧ m.flavor = object.flavor

theorem Followed.stamp {db : Database} {history : List MachineFlavorHistory} {refreshed : List Nat} {clock : Nat → Time}
    (k : Nat) (stored object : Machine) (h : Followed db history refreshed stored object) :
    Followed db history refreshed ((machineMapper clock).stamp k object) ((machineMapper clock).stamp k object) := by
  have hid : ((machineMapper clock).stamp k object).id = stored.id := h.id
  have hflavor : ((machineMapper clock).stamp k object).flavor = object.flavor := rfl
  constructor
  case id => rfl
  case tracked =>
    rw [hid, hflavor]
    exact h.tracked
  case kept =>
    rw [hid, hflavor]
    exact h.kept

section Followed

variable {db : Database} {history : List MachineFlavorHistory} {refreshed : List Nat} {stored object object' : Machine}
  {r : MachineFlavorHistory}

/-- A row about another machine. -/
theorem Followed.other (h : Followed db history refreshed stored object) (hne : r.machineId ≠ stored.id) :
    Followed db (history ++ [r]) (refreshed ++ [r.machineId]) stored object := by
  refine ⟨h.id, ?_, fun hnot => h.kept fun hmem => hnot (List.mem_append_left _ hmem)⟩
  rw [historyFlavors, valuesOf_concat_ne hne]
  exact h.tracked

/-- A row with the new flavor of the object. -/
theorem Followed.changed (h : Followed db history refreshed stored object) (hr : r.machineId = stored.id)
    (hne : object.flavor ≠ r.flavor) (hid : object'.id = stored.id) (hflavor : object'.flavor = r.flavor) :
    Followed db (history ++ [r]) (refreshed ++ [r.machineId]) stored object' := by
  refine ⟨hid, ?_, fun hnot => absurd (List.mem_append_right _ (List.mem_singleton.mpr hr.symm)) hnot⟩
  rw [historyFlavors, valuesOf_concat_self hr, hflavor]
  exact h.tracked.append hne

/-- An object that keeps its flavor. -/
theorem Followed.same (h : Followed db history refreshed stored object) (hid : object'.id = stored.id)
    (hflavor : object'.flavor = object.flavor) : Followed db history refreshed stored object' where
  id := hid
  tracked := hflavor ▸ h.tracked
  kept := hflavor ▸ h.kept

end Followed

/-- The invariant of the loop. -/
structure FlavorInv (db : Database) (now : Time) (st : InventoryState) : Prop where
  numbered : Table.Numbered st.session.rows st.nextId
  next_le : db.nextId ≤ st.nextId
  history : HistoryRows st.history st.nextId now
  followed : st.session.Each (Followed db st.history st.optimizationMachineIds)

section Loop

variable {env : InventoryEnv} {db : Database} {p : MachineProvisioner} {now : Time} {st : InventoryState}

/-- A matched record: its machine gets a new row if the flavor of its object changes. -/
theorem FlavorInv.update (h : FlavorInv db now st) {t : Tracked Machine} (ht : t ∈ st.session.rows)
    (r : MachineRecord) :
    FlavorInv db now (updateMachine env p now st r t.stored) := by
  have hobject : st.session.objectOf t.stored = t.object := Session.objectOf_eq h.numbered.keyed ht
  have hrow := h.followed t ht
  have hf := Machine.id_assign env.unicode p r
  have hids := Session.ids_assign st.session t.stored.id _ hf
  have hassigned : ∀ u ∈ (st.session.assign t.stored.id _ hf).rows, ∃ v ∈ st.session.rows, u.stored = v.stored ∧
      (v = t ∧ u.object = Machine.assign env.unicode p r t.object ∨ Row.id v ≠ Row.id t ∧ u = v) := by
    intro u hu
    obtain ⟨v, hv, hstored, ⟨hid, hobject'⟩ | hother⟩ := Session.mem_assign hu
    · cases h.numbered.keyed.eq_of_id hv ht hid
      exact ⟨t, ht, hstored, .inl ⟨rfl, hobject'⟩⟩
    · exact ⟨v, hv, hstored, .inr hother⟩
  by_cases hchanged : flavorChanged t.object r
  · simp only [updateMachine, hobject, hchanged, if_true]
    constructor
    case numbered => exact (h.numbered.mono (Nat.le_succ _)).of_ids hids
    case next_le => exact h.next_le.trans (Nat.le_succ _)
    case history =>
      have hmachine : t.stored.id < st.nextId := h.numbered.fresh t ht
      exact h.history.append le_rfl (Nat.lt_succ_self _) (hmachine.trans (Nat.lt_succ_self _)) rfl
    case followed =>
      intro u hu
      obtain ⟨v, hv, hstored, ⟨rfl, hobject'⟩ | ⟨hid, rfl⟩⟩ := hassigned u hu
      · rw [hstored, hobject']
        exact hrow.changed rfl (flavorChanged_iff.mp hchanged) hrow.id rfl
      · exact (h.followed u hv).other (Ne.symm hid)
  · simp only [updateMachine, hobject, hchanged]
    have hsame : r.flavor = t.object.flavor := (not_not.mp (flavorChanged_iff.not.mp hchanged)).symm
    constructor
    case numbered => exact h.numbered.of_ids hids
    case next_le => exact h.next_le
    case history => exact h.history
    case followed =>
      intro u hu
      obtain ⟨v, hv, hstored, ⟨rfl, hobject'⟩ | ⟨-, rfl⟩⟩ := hassigned u hu
      · rw [hstored, hobject']
        exact hrow.same hrow.id hsame
      · exact h.followed u hv

/-- A new machine starts its history. -/
theorem FlavorInv.create (h : FlavorInv db now st) {r : MachineRecord} {st' : InventoryState}
    (hok : createMachine env p now st r = .ok st') : FlavorInv db now st' := by
  unfold createMachine at hok
  split at hok
  · cases hok
  · rename_i session hinsert
    cases hok
    have hids := Session.ids_insert h.numbered.keyed hinsert
    constructor
    case numbered => exact (h.numbered.insert hids).mono (Nat.le_succ _)
    case next_le => exact h.next_le.trans (Nat.le_add_right _ 2)
    case history =>
      exact h.history.append (Nat.le_succ _) (Nat.lt_succ_self _)
        (Nat.lt_succ_of_lt (Nat.lt_succ_self _)) rfl
    case followed =>
      have hnone : historyFlavors st.history st.nextId = [] := valuesOf_eq_nil fun s hs => (h.history.fresh s hs).2.ne
      have hfirst : historyFlavors (st.history ++ [flavorSnapshot (st.nextId + 1) st.nextId p r now]) st.nextId =
          [r.flavor] := (valuesOf_concat_self rfl).trans (congrArg (· ++ [r.flavor]) hnone)
      have hold : st.session.Each (Followed db (st.history ++ [flavorSnapshot (st.nextId + 1) st.nextId p r now])
          (st.optimizationMachineIds ++ [st.nextId])) :=
        fun t ht => (h.followed t ht).other (h.numbered.fresh t ht).ne'
      refine hold.insert h.numbered.keyed Followed.stamp ⟨rfl, ?_, fun hnot => ?_⟩ hinsert
      · have hid : (Machine.new env.unicode st.nextId p r).id = st.nextId := rfl
        rw [hid, hfirst]
        exact tracks_singleton r.flavor
      · exact absurd (List.mem_append_right _ (List.mem_singleton.mpr rfl)) hnot

/-- One record. -/
theorem FlavorInv.record (h : FlavorInv db now st) {record : MachineRecord} {st' : InventoryState}
    (hok : processRecord env p now st record = .ok st') : FlavorInv db now st' := by
  simp only [processRecord] at hok
  split at hok
  · cases hok
  · exact h.create hok
  · next row hfind =>
    cases hok
    obtain ⟨t, ht, rfl⟩ := List.mem_map.mp (findMachine_found hfind).1
    exact h.update ht _

/-- The loop keeps the invariant, whatever the records are. -/
theorem FlavorInv.run : ∀ {records : List MachineRecord} {st st' : InventoryState}, FlavorInv db now st →
    processRecords env p now st records = .ok st' → FlavorInv db now st'
  | [], st, st', h, hok => by
    cases hok
    exact h
  | record :: records, st, st', h, hok => by
    cases hst₁ : processRecord env p now st record with
    | error e => simp [processRecords, hst₁] at hok
    | ok st₁ =>
      simp only [processRecords, hst₁] at hok
      exact (h.record hst₁).run hok

/-- The flush after the loop. -/
theorem FlavorInv.flush (h : FlavorInv db now st) {session : Session Machine}
    (hs : st.session.flush (machineMapper env.clock) = .ok session) : FlavorInv db now { st with session } where
  numbered := h.numbered.of_ids ((Session.flush_ok _ h.numbered.keyed hs).2.ids _)
  next_le := h.next_le
  history := h.history
  followed := h.followed.flush h.numbered.keyed Followed.stamp hs

end Loop

/-! ## The refreshes -/

/-- The refreshes leave one row for each of their machines, with its flavor, and the rows of the other machines. -/
theorem refreshMachines_flavors {env : InventoryEnv} : ∀ {machineIds : List Nat} {ticks : Nat} {db db' : Database},
    OptimizationRows db → Table.Keyed db.machines → refreshMachines env ticks db machineIds = .ok db' →
    OptimizationRows db' ∧ ∀ m ∈ db.machines, optimizedFlavors db'.optimizations m.id =
      if m.id ∈ machineIds then [m.flavor] else optimizedFlavors db.optimizations m.id
  | [], _, db, _, h, _, hok => by
    cases hok
    exact ⟨h, fun m _ => by simp⟩
  | i :: machineIds, ticks, db, db', h, hk, hok => by
    unfold refreshMachines at hok
    cases hr : refreshMachineOptimization env.settings db i (env.clock ticks) with
    | error e => simp [hr] at hok
    | ok result =>
      simp only [hr] at hok
      obtain ⟨hrows, m₀, hget, hfirst⟩ := refresh_flavors h hr
      obtain ⟨o, n, -, hdb⟩ := refreshMachineOptimization_frame hr
      have hmachines : result.1.machines = db.machines := by rw [hdb]
      obtain ⟨hrows', hrest⟩ := refreshMachines_flavors hrows (hmachines ▸ hk) hok
      refine ⟨hrows', fun m hm => ?_⟩
      rw [hrest m (hmachines ▸ hm), hfirst]
      by_cases hlater : m.id ∈ machineIds
      · simp [hlater]
      · by_cases hi : m.id = i
        · obtain ⟨hm₀, hid⟩ := Table.get_some hget
          cases hk.eq_of_id hm hm₀ (hi.trans hid.symm)
          simp [hi]
        · simp [hlater, hi]

/-! ## A run -/

/-- The committed rows follow the machines: their history is tracked, and they have one optimization each, for their
flavor. -/
structure FlavorsKept (db : Database) (now : Time) : Prop where
  machines : Table.Numbered db.machines db.nextId
  history : HistoryRows db.flavorHistory db.nextId now
  optimizations : OptimizationRows db
  tracked : ∀ m ∈ db.machines, Tracks (historyFlavors db.flavorHistory m.id) m.flavor
  optimized : ∀ m ∈ db.machines, optimizedFlavors db.optimizations m.id = [m.flavor]

theorem FlavorsKept.mono {db : Database} {now now' : Time} (h : FlavorsKept db now) (hnow : now ≤ now') :
    FlavorsKept db now' := { h with history := h.history.mono le_rfl hnow }

/-- Other tables are written, and keys are used. -/
theorem FlavorsKept.frame {db db' : Database} {now : Time} (h : FlavorsKept db now)
    (hmachines : db'.machines = db.machines)
    (hhistory : db'.flavorHistory = db.flavorHistory) (hoptimizations : db'.optimizations = db.optimizations)
    (hnext : db.nextId ≤ db'.nextId) : FlavorsKept db' now where
  machines := hmachines ▸ h.machines.mono hnext
  history := hhistory ▸ h.history.mono hnext le_rfl
  optimizations := ⟨hoptimizations ▸ h.optimizations.numbered.mono hnext, hoptimizations ▸ h.optimizations.unique⟩
  tracked := by
    rw [hmachines, hhistory]
    exact h.tracked
  optimized := by
    rw [hmachines, hoptimizations]
    exact h.optimized

section Run

variable {env : InventoryEnv} {mock : InventoryConnector} {db : Database} {p : MachineProvisioner} {now : Time}

theorem flavorInv_start (h : FlavorsKept db now) (ticks : Nat) : FlavorInv db now (.start db ticks) where
  numbered := by
    have hids : Table.ids (InventoryState.start db ticks).session.rows = Table.ids db.machines := by
      simp only [InventoryState.start, Session.load, Table.ids, List.map_map]
      rfl
    exact h.machines.of_ids hids
  next_le := le_rfl
  history := h.history
  followed := Session.each_load (fun m hm => ⟨rfl, h.tracked m hm, fun _ => ⟨m, hm, rfl, rfl⟩⟩) _

/-- A finished body follows the machines. -/
theorem discoverAndStore_flavors (h : FlavorsKept db now) {ticks : Nat} {body : InventoryBody}
    (hok : discoverAndStore env mock db p now ticks = .ok body) : FlavorsKept body.db now := by
  obtain ⟨records, st, session, db', -, hloop, hflush, hrefresh, -, -, hbody⟩ := discoverAndStore_eq_ok hok
  have hloop := (flavorInv_start h ticks).run hloop
  have hfinal := hloop.flush hflush
  have hclean : ∀ t ∈ session.rows, t.object = t.stored := fun t ht =>
    not_not.mp ((Session.flush_ok _ hloop.numbered.keyed hflush).2.row _ ht).1
  have hnumbered : Table.Numbered session.stored st.nextId := by
    refine hfinal.numbered.of_ids ?_
    simp only [Session.stored, Table.ids, List.map_map]
    rfl
  have hoptimizations : OptimizationRows (InventoryState.store { st with session } db) :=
    ⟨h.optimizations.numbered.mono hfinal.next_le, h.optimizations.unique⟩
  obtain ⟨hrows, hflavors⟩ := refreshMachines_flavors hoptimizations hnumbered.keyed hrefresh
  obtain ⟨o, n, hn, rfl⟩ := refreshMachines_frame hrefresh
  rw [hbody]
  constructor
  case machines => exact hnumbered.mono hn
  case history => exact hfinal.history.mono hn le_rfl
  case optimizations => exact ⟨hrows.numbered, hrows.unique⟩
  case tracked =>
    intro m hm
    obtain ⟨t, ht, rfl⟩ := List.mem_map.mp hm
    exact hclean t ht ▸ (hfinal.followed t ht).tracked
  case optimized =>
    intro m hm
    refine (hflavors m hm).trans ?_
    split_ifs with hrefreshed
    · rfl
    · obtain ⟨t, ht, rfl⟩ := List.mem_map.mp hm
      rw [List.mem_insertionSort, List.mem_dedup] at hrefreshed
      obtain ⟨m₀, hm₀, hid, hflavor⟩ := (hfinal.followed t ht).kept hrefreshed
      rw [hclean t ht] at hflavor
      rw [← hid, ← hflavor]
      exact h.optimized m₀ hm₀

end Run

end Washing
