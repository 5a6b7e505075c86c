import Washing.Inventory.Match

/-!
# The loop over the records

`LoopInv` describes the state of the loop by the log of the assignments made so far, the newest first: a row that was
assigned to carries the last of its records in its object (`lastRecord`), every other row is as it was found and
represents none of the records. A matched record (`LoopInv.update`), a flush (`LoopInv.flush`) and a creation
(`LoopInv.create`) preserve it, and so does the loop (`LoopInv.run`), as long as the records name different machines.
-/

namespace Washing

/-- The assignments of a run, the newest first: the normalised records with the keys of their rows. -/
abbrev AssignmentLog := List (MachineRecord × Nat)

/-- The last record assigned to a row. -/
def lastRecord (log : AssignmentLog) (i : Nat) : Option MachineRecord := (log.find? fun x => x.2 = i).map (·.1)

/-- The row represents the record: it is on the platform of the provisioner and carries the record. -/
def Represents (p : MachineProvisioner) (r : MachineRecord) (m : Machine) : Prop :=
  m.platformId = p.platformId ∧ Carries p r m

instance (p : MachineProvisioner) (r : MachineRecord) (m : Machine) : Decidable (Represents p r m) :=
  inferInstanceAs (Decidable (_ ∧ _))

/-- The invariant of the loop, for a table `rows` at its start. -/
structure LoopInv (p : MachineProvisioner) (rows : List Machine) (st : InventoryState) (log : AssignmentLog) :
    Prop where
  keyed : Table.Keyed st.session.rows
  unique : ∀ t ∈ st.session.rows, ∀ u ∈ st.session.rows, t.stored.Conflicts u.stored → Row.id t = Row.id u
  fresh : ∀ t ∈ st.session.rows, Row.id t < st.nextId
  written : st.written = (log.map Prod.snd).reverse
  counted : st.created + st.updated = log.length
  logged : ∀ x ∈ log, ∃ t ∈ st.session.rows, Row.id t = x.2
  refreshed : ∀ i ∈ st.optimizationMachineIds, ∃ t ∈ st.session.rows, Row.id t = i
  distinct : log.Pairwise fun x y => Distinct x.1 y.1
  platform : ∀ t ∈ st.session.rows, t.object.platformId = t.stored.platformId
  touched : ∀ t ∈ st.session.rows, ∀ r, lastRecord log (Row.id t) = some r → Carries p r t.object
  untouched : ∀ t ∈ st.session.rows, lastRecord log (Row.id t) = none →
    t.object = t.stored ∧ t.stored ∈ rows ∧ ∀ x ∈ log, ¬ Represents p x.1 t.stored
  external : ∀ t ∈ st.session.rows, t.Pending → ∀ u ∈ st.session.rows, Row.id u ≠ Row.id t →
    ¬ t.object.SameExternalId u.stored

/-! ## The log -/

section Log

variable {log : AssignmentLog} {i : Nat} {r : MachineRecord}

@[simp] theorem lastRecord_cons_self : lastRecord ((r, i) :: log) i = some r := by simp [lastRecord]

theorem lastRecord_cons_ne {j : Nat} (h : j ≠ i) : lastRecord ((r, i) :: log) j = lastRecord log j := by
  simp [lastRecord, Ne.symm h]

theorem lastRecord_mem (h : lastRecord log i = some r) : (r, i) ∈ log := by
  unfold lastRecord at h
  obtain ⟨⟨s, j⟩, hfind, rfl⟩ := Option.map_eq_some_iff.mp h
  have hj : j = i := by simpa using List.find?_some hfind
  exact hj ▸ List.mem_of_find?_eq_some hfind

theorem lastRecord_none (h : lastRecord log i = none) : ∀ x ∈ log, x.2 ≠ i := by
  unfold lastRecord at h
  simpa using h

/-- Records of a log that share a hostname or an external id are one record of one row. -/
theorem eq_of_not_distinct (hd : log.Pairwise fun x y => Distinct x.1 y.1) {x y : MachineRecord × Nat} (hx : x ∈ log)
    (hy : y ∈ log) (h : ¬ Distinct x.1 y.1) : x = y := by
  have : Std.Symm fun x y : MachineRecord × Nat => Distinct x.1 y.1 := ⟨fun _ _ hxy => hxy.symm⟩
  by_contra hne
  exact h (hd.forall hx hy hne)

end Log

/-! ## The steps -/

section Steps

variable {env : InventoryEnv} {p : MachineProvisioner} {rows : List Machine} {now : Time} {st : InventoryState}
  {log : AssignmentLog}

theorem LoopInv.storedKeyed (h : LoopInv p rows st log) : Table.Keyed st.session.stored := by
  have hkeyed := h.keyed
  unfold Table.Keyed Table.ids at hkeyed ⊢
  rw [Session.stored, List.map_map]
  exact hkeyed

theorem LoopInv.storedUnique (h : LoopInv p rows st log) : Unique st.session.stored := by
  intro m hm n hn hc
  obtain ⟨t, ht, rfl⟩ := List.mem_map.mp hm
  obtain ⟨u, hu, rfl⟩ := List.mem_map.mp hn
  exact h.unique t ht u hu hc

/-- The loop starts with an empty log, on a table that satisfies the constraints. -/
theorem loopInv_start {db : Database} (hc : db.Consistent) (p : MachineProvisioner) (ticks : Nat) :
    LoopInv p db.machines (.start db ticks) [] := by
  have hrows : ∀ t ∈ (InventoryState.start db ticks).session.rows, ∃ m ∈ db.machines, t = Tracked.clean m := by
    intro t ht
    obtain ⟨m, hm, rfl⟩ := List.mem_map.mp ht
    exact ⟨m, hm, rfl⟩
  constructor
  case keyed =>
    have hkeyed := hc.machines_keyed
    unfold Table.Keyed Table.ids at hkeyed ⊢
    rw [InventoryState.start, Session.load, List.map_map]
    exact hkeyed
  case unique =>
    intro t ht u hu hconf
    obtain ⟨m, hm, rfl⟩ := hrows t ht
    obtain ⟨n, hn, rfl⟩ := hrows u hu
    exact hc.machines_unique m hm n hn hconf
  case fresh =>
    intro t ht
    obtain ⟨m, hm, rfl⟩ := hrows t ht
    exact hc.machines_fresh m hm
  case written => rfl
  case counted => rfl
  case logged => simp
  case refreshed => simp [InventoryState.start]
  case distinct => exact .nil
  case platform =>
    intro t ht
    obtain ⟨m, -, rfl⟩ := hrows t ht
    rfl
  case touched => simp [lastRecord]
  case untouched =>
    intro t ht _
    obtain ⟨m, hm, rfl⟩ := hrows t ht
    exact ⟨rfl, hm, by simp⟩
  case external =>
    intro t ht hp
    obtain ⟨m, -, rfl⟩ := hrows t ht
    exact absurd hp (Tracked.not_pending_clean m)

/-- What a lookup of the loop found: a row that holds the external id, else the hostname. -/
def Found (p : MachineProvisioner) (r : MachineRecord) (st : InventoryState) (t : Tracked Machine) : Prop :=
  HoldsExternalId p r t.stored ∨
    (∀ u ∈ st.session.rows, ¬ HoldsExternalId p r u.stored) ∧ HoldsHostname p r t.stored

/-- The two outcomes of an iteration. -/
theorem LoopInv.lookup (h : LoopInv p rows st log) (env : InventoryEnv) (now : Time) (record : MachineRecord) :
    (∃ t ∈ st.session.rows, Found p (normalizeMachineRecord env.unicode record) st t ∧
      findMachine st.session.stored p (normalizeMachineRecord env.unicode record) = .ok (some t.stored) ∧
      processRecord env p now st record =
        .ok (updateMachine env p now st (normalizeMachineRecord env.unicode record) t.stored)) ∨
    ((∀ t ∈ st.session.rows, ¬ HoldsExternalId p (normalizeMachineRecord env.unicode record) t.stored ∧
      ¬ HoldsHostname p (normalizeMachineRecord env.unicode record) t.stored) ∧
      findMachine st.session.stored p (normalizeMachineRecord env.unicode record) = .ok none ∧
      processRecord env p now st record = createMachine env p now st (normalizeMachineRecord env.unicode record)) := by
  have hne : (normalizeMachineRecord env.unicode record).externalId ≠ some "" := normalizeExternalId_ne_empty _
  rcases findMachine_cases h.storedKeyed h.storedUnique p hne with ⟨m, hm, hfind, hheld⟩ | ⟨hfind, hnone⟩
  · obtain ⟨t, ht, rfl⟩ := List.mem_map.mp hm
    refine .inl ⟨t, ht, ?_, hfind, by simp [processRecord, hfind]⟩
    refine hheld.imp id fun ⟨hno, hhost⟩ => ⟨fun u hu => hno _ (List.mem_map_of_mem hu), hhost⟩
  · exact .inr ⟨fun t ht => hnone _ (List.mem_map_of_mem ht), hfind, by simp [processRecord, hfind]⟩

/-- The object of the session for a row of its table. -/
theorem Session.objectOf_eq {s : Session Machine} (hk : Table.Keyed s.rows) {t : Tracked Machine} (ht : t ∈ s.rows) :
    s.objectOf t.stored = t.object := by
  have hget : Table.get s.rows t.stored.id = some t := Table.get_of_mem hk ht
  simp [Session.objectOf, hget]

/-- The fields of the state that a matched record changes. -/
theorem updateMachine_fields (env : InventoryEnv) (p : MachineProvisioner) (now : Time) (st : InventoryState)
    (record : MachineRecord) (row : Machine) :
    (updateMachine env p now st record row).session =
      st.session.assign row.id (Machine.assign env.unicode p record) (Machine.id_assign _ _ _) ∧
    (updateMachine env p now st record row).written = st.written ++ [row.id] ∧
    (updateMachine env p now st record row).created = st.created ∧
    (updateMachine env p now st record row).updated = st.updated + 1 ∧
    st.nextId ≤ (updateMachine env p now st record row).nextId ∧
    ∀ i ∈ (updateMachine env p now st record row).optimizationMachineIds,
      i ∈ st.optimizationMachineIds ∨ i = row.id := by
  unfold updateMachine
  split_ifs with hf
  · refine ⟨rfl, rfl, rfl, rfl, Nat.le_succ _, fun i hi => ?_⟩
    simpa using hi
  · exact ⟨rfl, rfl, rfl, rfl, le_rfl, fun i hi => .inl hi⟩

/-- A row that a record matched is taken by no other record, so no untouched row can represent the record. -/
theorem Found.not_represents (h : LoopInv p rows st log) {r : MachineRecord} {t u : Tracked Machine}
    (ht : t ∈ st.session.rows) (hf : Found p r st t) (hu : u ∈ st.session.rows) (hne : Row.id u ≠ Row.id t) :
    ¬ Represents p r u.stored := by
  rintro ⟨hplatform, hcarries⟩
  refine hne (h.unique u hu t ht ?_)
  rcases hf with hext | ⟨-, hhost⟩
  · exact HoldsExternalId.conflicts ⟨hext.1, hcarries.source, hcarries.externalId⟩ hext
  · exact HoldsHostname.conflicts ⟨hplatform, hcarries.hostname⟩ hhost

/-- After the assignment of a record no other stored row holds its external id. -/
theorem Found.external (h : LoopInv p rows st log) {r : MachineRecord} {t u : Tracked Machine}
    (ht : t ∈ st.session.rows) (hf : Found p r st t) (hu : u ∈ st.session.rows) (hne : Row.id u ≠ Row.id t)
    {m : Machine} (hm : Carries p r m) : ¬ m.SameExternalId u.stored := by
  rintro ⟨hsource, hext, -, hnone⟩
  have hheld : HoldsExternalId p r u.stored :=
    ⟨hm.externalId ▸ hnone, hsource ▸ hm.source, hext ▸ hm.externalId⟩
  rcases hf with hext | ⟨hno, -⟩
  · exact hne (h.unique u hu t ht (hheld.conflicts hext))
  · exact hno u hu hheld

/-- A matched record preserves the invariant. -/
theorem LoopInv.update (h : LoopInv p rows st log) {record : MachineRecord} {t : Tracked Machine}
    (ht : t ∈ st.session.rows) (hf : Found p (normalizeMachineRecord env.unicode record) st t)
    (hd : ∀ x ∈ log, Distinct (normalizeMachineRecord env.unicode record) x.1) :
    LoopInv p rows (updateMachine env p now st (normalizeMachineRecord env.unicode record) t.stored)
      ((normalizeMachineRecord env.unicode record, Row.id t) :: log) := by
  obtain ⟨hsession, hwritten, hcreated, hupdated, hnext, hrefreshed⟩ :=
    updateMachine_fields env p now st (normalizeMachineRecord env.unicode record) t.stored
  have hcarries := carries_assign env.unicode p record
  set r := normalizeMachineRecord env.unicode record with hr
  have hrows : ∀ u ∈ (updateMachine env p now st r t.stored).session.rows, ∃ v ∈ st.session.rows,
      Row.id u = Row.id v ∧ u.stored = v.stored ∧
        (Row.id v = Row.id t ∧ u.object = Machine.assign env.unicode p r v.object ∨ Row.id v ≠ Row.id t ∧ u = v) := by
    intro u hu
    rw [hsession] at hu
    obtain ⟨v, hv, hstored, hcases⟩ := Session.mem_assign hu
    have hid : Row.id u.stored = Row.id v.stored := by rw [hstored]
    exact ⟨v, hv, hid, hstored, hcases⟩
  have hids : Table.ids (updateMachine env p now st r t.stored).session.rows = Table.ids st.session.rows := by
    rw [hsession, Session.ids_assign]
  have hexists : ∀ {i}, (∃ u ∈ st.session.rows, Row.id u = i) →
      ∃ u ∈ (updateMachine env p now st r t.stored).session.rows, Row.id u = i := by
    intro i hi
    exact Table.mem_ids.mp (hids ▸ Table.mem_ids.mpr hi)
  constructor
  case keyed =>
    unfold Table.Keyed
    rw [hids]
    exact h.keyed
  case unique =>
    intro u hu w hw hconf
    obtain ⟨v, hv, hid, hstored, -⟩ := hrows u hu
    obtain ⟨x, hx, hid', hstored', -⟩ := hrows w hw
    rw [hid, hid']
    exact h.unique v hv x hx (hstored ▸ hstored' ▸ hconf)
  case fresh =>
    intro u hu
    obtain ⟨v, hv, hid, -, -⟩ := hrows u hu
    exact hid ▸ (h.fresh v hv).trans_le hnext
  case written =>
    rw [hwritten, h.written]
    simp
    rfl
  case counted =>
    rw [hcreated, hupdated, ← add_assoc, h.counted]
    rfl
  case logged =>
    intro x hx
    rcases List.mem_cons.mp hx with rfl | hx
    · exact hexists ⟨t, ht, rfl⟩
    · exact hexists (h.logged x hx)
  case refreshed =>
    intro i hi
    rcases hrefreshed i hi with hi | rfl
    · exact hexists (h.refreshed i hi)
    · exact hexists ⟨t, ht, rfl⟩
  case distinct => exact .cons hd h.distinct
  case platform =>
    intro u hu
    obtain ⟨v, hv, -, hstored, ⟨-, hobject⟩ | ⟨-, rfl⟩⟩ := hrows u hu
    · rw [hobject, hstored]
      exact h.platform v hv
    · exact h.platform u hv
  case touched =>
    intro u hu s hs
    obtain ⟨v, hv, hid, hstored, ⟨hvt, hobject⟩ | ⟨hvt, rfl⟩⟩ := hrows u hu
    · rw [hid, hvt, lastRecord_cons_self, Option.some.injEq] at hs
      rw [hobject, ← hs]
      exact hcarries _
    · rw [lastRecord_cons_ne hvt] at hs
      exact h.touched u hv s hs
  case untouched =>
    intro u hu hs
    obtain ⟨v, hv, hid, hstored, ⟨hvt, -⟩ | ⟨hvt, rfl⟩⟩ := hrows u hu
    · rw [hid, hvt, lastRecord_cons_self] at hs
      cases hs
    · rw [lastRecord_cons_ne hvt] at hs
      obtain ⟨hobject, hmem, hno⟩ := h.untouched u hv hs
      exact ⟨hobject, hmem, List.forall_mem_cons.mpr ⟨hf.not_represents h ht hv hvt, hno⟩⟩
  case external =>
    intro u hu hp w hw hne
    obtain ⟨x, hx, hid', hstored', -⟩ := hrows w hw
    obtain ⟨v, hv, hid, hstored, ⟨hvt, hobject⟩ | ⟨hvt, rfl⟩⟩ := hrows u hu
    · rw [hobject, hstored']
      rw [hid, hvt, hid'] at hne
      exact hf.external h ht hx hne (hcarries _)
    · rw [hstored']
      exact h.external u hv hp x hx (hid' ▸ hne)

/-- A flush preserves the invariant, and leaves no pending row. -/
theorem LoopInv.flush (h : LoopInv p rows st log) {session : Session Machine}
    (hs : st.session.flush (machineMapper env.clock) = .ok session) :
    LoopInv p rows { st with session } log ∧ ∀ t ∈ session.rows, ¬ t.Pending := by
  obtain ⟨horderly, hflushed⟩ := Session.flush_ok _ h.keyed hs
  have hids := hflushed.ids
  have hclean : ∀ t ∈ session.rows, ¬ t.Pending := fun t ht => (hflushed.row _ ht).1
  have hexists : ∀ {i}, (∃ u ∈ st.session.rows, Row.id u = i) → ∃ u ∈ session.rows, Row.id u = i :=
    fun hi => Table.mem_ids.mp (hids ▸ Table.mem_ids.mpr hi)
  refine ⟨?_, hclean⟩
  constructor
  case keyed =>
    unfold Table.Keyed
    rw [hids]
    exact h.keyed
  case unique => exact hflushed.unique _ horderly h.unique
  case fresh =>
    intro u hu
    obtain ⟨-, t, ht, hid, -⟩ := hflushed.row _ hu
    exact hid ▸ h.fresh t ht
  case written => exact h.written
  case counted => exact h.counted
  case logged => exact fun x hx => hexists (h.logged x hx)
  case refreshed => exact fun i hi => hexists (h.refreshed i hi)
  case distinct => exact h.distinct
  case platform =>
    intro u hu
    rw [not_not.mp (hclean u hu)]
  case touched =>
    intro u hu r hr
    obtain ⟨-, t, ht, hid, ⟨-, k, -, hstored⟩ | ⟨-, rfl⟩⟩ := hflushed.row _ hu
    · rw [not_not.mp (hclean u hu), hstored]
      exact (h.touched t ht r (hid ▸ hr)).stamp _ _
    · exact h.touched u ht r hr
  case untouched =>
    intro u hu hr
    obtain ⟨-, t, ht, hid, ⟨hp, -⟩ | ⟨-, rfl⟩⟩ := hflushed.row _ hu
    · exact absurd (h.untouched t ht (hid ▸ hr)).1 hp
    · exact h.untouched u ht hr
  case external => exact fun u hu hp => absurd hp (hclean u hu)

/-- A creation preserves the invariant. -/
theorem LoopInv.create (h : LoopInv p rows st log) {record : MachineRecord}
    (hnone : ∀ t ∈ st.session.rows, ¬ HoldsExternalId p (normalizeMachineRecord env.unicode record) t.stored ∧
      ¬ HoldsHostname p (normalizeMachineRecord env.unicode record) t.stored)
    (hd : ∀ x ∈ log, Distinct (normalizeMachineRecord env.unicode record) x.1) {st' : InventoryState}
    (hok : createMachine env p now st (normalizeMachineRecord env.unicode record) = .ok st') :
    LoopInv p rows st' ((normalizeMachineRecord env.unicode record, st.nextId) :: log) := by
  have hcarries := carries_assign env.unicode p record
  set r := normalizeMachineRecord env.unicode record with hr
  unfold createMachine at hok
  split at hok
  · cases hok
  · rename_i session hinsert
    obtain ⟨s₁, hflush, hno, hsession⟩ := (Session.insert_eq_ok_iff _).mp hinsert
    obtain ⟨hinv, hclean⟩ := h.flush hflush
    cases hok
    obtain ⟨new, hid, hnewCarries, hfree, hrows⟩ : ∃ new : Machine, new.id = st.nextId ∧ Carries p r new ∧
        (∀ t ∈ s₁.rows, ¬ t.stored.Conflicts new) ∧ session.rows = s₁.rows ++ [Tracked.clean new] := by
      refine ⟨(machineMapper env.clock).stamp s₁.ticks (Machine.new env.unicode st.nextId p r), rfl,
        (hcarries _).stamp env.clock _, fun t ht hc => ?_, by rw [hsession]⟩
      have hsymm := (machineMapper env.clock).conflicts_symm _ _ hc
      exact hno t ht (((machineMapper env.clock).conflicts_stamp _ _ _).mp hsymm)
    have hmem : ∀ {t}, t ∈ session.rows ↔ t ∈ s₁.rows ∨ t = Tracked.clean new := by
      intro t
      rw [hrows, List.mem_append, List.mem_singleton]
    have hcleanId : Row.id (Tracked.clean new) = st.nextId := hid
    have hold : ∀ t ∈ s₁.rows, Row.id t ≠ st.nextId := fun t ht => (hinv.fresh t ht).ne
    have hlast : lastRecord ((r, st.nextId) :: log) (Row.id (Tracked.clean new)) = some r := by
      rw [hcleanId, lastRecord_cons_self]
    constructor
    case keyed =>
      unfold Table.Keyed Table.ids
      rw [hrows, List.map_append, List.nodup_append']
      refine ⟨hinv.keyed, List.nodup_singleton _, ?_⟩
      simp only [List.map_cons, List.map_nil, List.disjoint_singleton, List.mem_map, not_exists, not_and, hcleanId]
      exact hold
    case unique =>
      intro t ht u hu hc
      rcases hmem.mp ht with ht | rfl <;> rcases hmem.mp hu with hu | rfl
      · exact hinv.unique t ht u hu hc
      · exact absurd hc (hfree t ht)
      · exact absurd ((machineMapper env.clock).conflicts_symm _ _ hc) (hfree u hu)
      · rfl
    case fresh =>
      intro t ht
      show Row.id t < st.nextId + 2
      rcases hmem.mp ht with ht | rfl
      · exact (hinv.fresh t ht).trans (Nat.lt_add_of_pos_right (by decide))
      · exact hcleanId ▸ Nat.lt_add_of_pos_right (by decide)
    case written => simp [h.written]
    case counted =>
      have hcounted := h.counted
      simp only [List.length_cons]
      omega
    case logged =>
      intro x hx
      rcases List.mem_cons.mp hx with rfl | hx
      · exact ⟨_, hmem.mpr (.inr rfl), hcleanId⟩
      · obtain ⟨t, ht, hid⟩ := hinv.logged x hx
        exact ⟨t, hmem.mpr (.inl ht), hid⟩
    case refreshed =>
      intro i hi
      rcases List.mem_append.mp hi with hi | hi
      · obtain ⟨t, ht, hid⟩ := hinv.refreshed i hi
        exact ⟨t, hmem.mpr (.inl ht), hid⟩
      · exact ⟨_, hmem.mpr (.inr rfl), hcleanId.trans (List.mem_singleton.mp hi).symm⟩
    case distinct => exact .cons hd h.distinct
    case platform =>
      intro t ht
      rcases hmem.mp ht with ht | rfl
      · exact hinv.platform t ht
      · rfl
    case touched =>
      intro t ht s hs
      rcases hmem.mp ht with ht | rfl
      · rw [lastRecord_cons_ne (hold t ht)] at hs
        exact hinv.touched t ht s hs
      · rw [hlast, Option.some.injEq] at hs
        exact hs ▸ hnewCarries
    case untouched =>
      intro t ht hs
      rcases hmem.mp ht with ht | rfl
      · rw [lastRecord_cons_ne (hold t ht)] at hs
        obtain ⟨hobject, hmem₀, hothers⟩ := hinv.untouched t ht hs
        refine ⟨hobject, hmem₀, List.forall_mem_cons.mpr ⟨?_, hothers⟩⟩
        -- the flush left the row as the lookup saw it
        obtain ⟨-, q, hq, hid, ⟨hp, -⟩ | ⟨-, rfl⟩⟩ := (Session.flush_ok _ h.keyed hflush).2.row _ ht
        · exact absurd (h.untouched q hq (hid ▸ hs)).1 hp
        · rintro ⟨hplatform, hcarried⟩
          exact (hnone t hq).2 ⟨hplatform, hcarried.hostname⟩
      · rw [hlast] at hs
        cases hs
    case external =>
      intro t ht hp
      rcases hmem.mp ht with ht | rfl
      · exact absurd hp (hclean t ht)
      · exact absurd hp (Tracked.not_pending_clean _)

/-- The records still to come name machines that are distinct from each other and from those in the log. -/
def Ahead (U : Unicode) (log : AssignmentLog) (records : List MachineRecord) : Prop :=
  ((log.map Prod.fst).reverse ++ records.map (normalizeMachineRecord U)).Pairwise Distinct

theorem Ahead.head {U : Unicode} {record : MachineRecord} {records : List MachineRecord}
    (h : Ahead U log (record :: records)) : ∀ x ∈ log, Distinct (normalizeMachineRecord U record) x.1 := by
  intro x hx
  have hpairs := (List.pairwise_append.mp h).2.2
  exact (hpairs x.1 (by simpa using ⟨x.2, hx⟩) _ List.mem_cons_self).symm

theorem Ahead.tail {U : Unicode} {record : MachineRecord} {records : List MachineRecord}
    (h : Ahead U log (record :: records)) (i : Nat) :
    Ahead U ((normalizeMachineRecord U record, i) :: log) records := by
  simpa [Ahead] using h

/-- What an iteration that succeeds has done. -/
inductive Turn (env : InventoryEnv) (p : MachineProvisioner) (now : Time) (st : InventoryState) (record : MachineRecord)
    (st' : InventoryState) (i : Nat) : Prop
  | matched (t : Tracked Machine) (mem : t ∈ st.session.rows)
      (found : Found p (normalizeMachineRecord env.unicode record) st t)
      (find : findMachine st.session.stored p (normalizeMachineRecord env.unicode record) = .ok (some t.stored))
      (state : st' = updateMachine env p now st (normalizeMachineRecord env.unicode record) t.stored)
      (id : i = Row.id t)
  | created (find : findMachine st.session.stored p (normalizeMachineRecord env.unicode record) = .ok none)
      (state : createMachine env p now st (normalizeMachineRecord env.unicode record) = .ok st') (id : i = st.nextId)

/-- One iteration preserves the invariant; the record joins the log. -/
theorem LoopInv.turn (h : LoopInv p rows st log) {record : MachineRecord} {records : List MachineRecord}
    (ha : Ahead env.unicode log (record :: records)) {st' : InventoryState}
    (hok : processRecord env p now st record = .ok st') :
    ∃ i, Turn env p now st record st' i ∧
      LoopInv p rows st' ((normalizeMachineRecord env.unicode record, i) :: log) := by
  rcases h.lookup env now record with ⟨t, ht, hf, hfind, heq⟩ | ⟨hnone, hfind, heq⟩
  · rw [heq] at hok
    cases hok
    exact ⟨_, .matched t ht hf hfind rfl rfl, h.update ht hf ha.head⟩
  · rw [heq] at hok
    exact ⟨_, .created hfind hok rfl, h.create hnone ha.head hok⟩

/-- The loop preserves the invariant; its log is extended by the records. -/
theorem LoopInv.run : ∀ {records : List MachineRecord} {st : InventoryState} {log : AssignmentLog},
    LoopInv p rows st log → Ahead env.unicode log records →
    ∀ {st' : InventoryState}, processRecords env p now st records = .ok st' →
    ∃ log', LoopInv p rows st' log' ∧
      log'.map Prod.fst = (records.map (normalizeMachineRecord env.unicode)).reverse ++ log.map Prod.fst
  | [], st, log, h, _, st', hok => by
    cases hok
    exact ⟨log, h, rfl⟩
  | record :: records, st, log, h, ha, st', hok => by
    cases hst₁ : processRecord env p now st record with
    | error e => simp [processRecords, hst₁] at hok
    | ok st₁ =>
      simp only [processRecords, hst₁] at hok
      obtain ⟨i, -, hinv⟩ := h.turn ha hst₁
      obtain ⟨log', hinv', hmap⟩ := hinv.run (ha.tail i) hok
      exact ⟨log', hinv', by simp [hmap]⟩

end Steps

end Washing
