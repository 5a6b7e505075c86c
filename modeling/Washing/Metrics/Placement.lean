import Washing.Metrics.Samples

/-!
# Where the collection stores samples

A run stores samples of its provider only. A sample that it updates keeps its machine; a sample that it creates is of a
stored machine, and of the machine it collects from when the connector answers with records of that machine
(`MetricCollector.Own`). `collection_sampled` says so of every run, whatever its outcome is.
-/

namespace Washing

/-- The connector returns records of the collected machine only. -/
def MetricCollector.Own (collect : MetricCollector) : Prop :=
  ∀ p m records, collect p [m] = .ok records → ∀ r ∈ records, ∀ i ∈ r.machineId, i = m.id

theorem getMetricCollector_own {mock collect : MetricCollector} {connectorType : String} (h : mock.Own)
    (hget : getMetricCollector mock connectorType = .ok collect) : collect.Own := by
  unfold getMetricCollector at hget
  split_ifs at hget
  · cases hget
    exact h
  · cases hget
    rintro p m _ ⟨⟩ r hr
    cases hr

/-- A record of the collected machine, or without a machine id, is resolved to the collected machine. -/
theorem resolveMachineId_own {U : Unicode} {record : MetricRecord} {m : Machine} {i : Nat}
    (h : ∀ j ∈ record.machineId, j = m.id) (hi : resolveMachineId U record [m] = some i) : i = m.id := by
  unfold resolveMachineId at hi
  cases hid : record.machineId with
  | some j =>
    have hown : j = m.id := h j hid
    simp only [hid, Option.some.injEq] at hi
    exact hi ▸ hown
  | none =>
    simp only [hid, Option.map_eq_some_iff] at hi
    obtain ⟨n, hn, rfl⟩ := hi
    have hmem : n ∈ [m] := by
      rcases Option.or_eq_some_iff.mp hn with hexternal | ⟨-, hhostname⟩
      · obtain ⟨e, -, hfind⟩ := Option.bind_eq_some_iff.mp hexternal
        exact List.mem_of_find?_eq_some hfind
      · obtain ⟨e, -, hfind⟩ := Option.bind_eq_some_iff.mp hhostname
        exact List.mem_of_find?_eq_some hfind
    rw [List.mem_singleton.mp hmem]

/-! ## Operations and their rows -/

section Flush

variable {env : CollectionEnv} {U : Unicode} {rows : List MachineMetric} {provider : MachineProvider}
  {machines : List Machine}

/-- What the operation of one record writes. -/
theorem upsertDailyMetric_values {record : MetricRecord} {now : Time} {op : SampleOp}
    (h : upsertDailyMetric U rows provider record machines now = .ok op) :
    (∀ v ∈ op.values, v.providerId = provider.id ∧ resolveMachineId U record machines = some v.machineId) ∧
      ∀ id v, op = .updated id v → ∃ r ∈ rows, sameDay v r := by
  unfold upsertDailyMetric at h
  split at h
  · cases h
  · cases h
    exact ⟨by rintro _ ⟨⟩, by rintro _ _ ⟨⟩⟩
  · next v hvalues =>
    obtain ⟨hprovider, hresolve, -⟩ := recordValues_some hvalues
    dsimp only at h
    split at h
    · cases h
    · cases h
      refine ⟨?_, by rintro _ _ ⟨⟩⟩
      rintro _ ⟨⟩
      exact ⟨hprovider, hresolve⟩
    · next existing hquery =>
      cases h
      refine ⟨?_, ?_⟩
      · rintro _ ⟨⟩
        exact ⟨hprovider, hresolve⟩
      · rintro _ _ ⟨⟩
        have hmem : existing ∈ selectWhere _ rows := oneOrNone_some hquery ▸ List.mem_singleton_self existing
        exact ⟨existing, by simpa [sameDay, and_assoc] using hmem⟩

/-- What the operations of a run write. -/
theorem upsertAll_values {k : Nat} {records : List MetricRecord} {ops : List SampleOp}
    (h : upsertAll env rows provider machines k records = .ok ops) {op : SampleOp} (hop : op ∈ ops) :
    (∀ v ∈ op.values, v.providerId = provider.id ∧
      ∃ record ∈ records, resolveMachineId env.unicode record machines = some v.machineId) ∧
      ∀ id v, op = .updated id v → ∃ r ∈ rows, sameDay v r := by
  induction records generalizing k ops with
  | nil =>
    cases h
    cases hop
  | cons record records ih =>
    obtain ⟨first, rest, rfl, hfirst, hrest⟩ := upsertAll_cons.mp h
    obtain rfl | hop := List.mem_cons.mp hop
    · obtain ⟨hvalues, hfound⟩ := upsertDailyMetric_values hfirst
      exact ⟨fun v hv => ⟨(hvalues v hv).1, record, List.mem_cons_self, (hvalues v hv).2⟩, hfound⟩
    · obtain ⟨hvalues, hfound⟩ := ih hrest hop
      refine ⟨fun v hv => ⟨(hvalues v hv).1, ?_⟩, hfound⟩
      obtain ⟨record', hrecord', hresolve⟩ := (hvalues v hv).2
      exact ⟨record', List.mem_cons_of_mem record hrecord', hresolve⟩

/-- An updated row is a row that was there, or has the day of an operation. -/
theorem mem_updateSamples {ops : List SampleOp} {r : MachineMetric} (h : r ∈ updateSamples rows ops) :
    r ∈ rows ∨ ∃ id v, .updated id v ∈ ops ∧ r.day = v.day := by
  induction ops generalizing rows with
  | nil => exact .inl h
  | cons op ops ih =>
    have hlater : ∀ {rows' : List MachineMetric}, r ∈ updateSamples rows' ops →
        r ∈ rows' ∨ ∃ id v, .updated id v ∈ op :: ops ∧ r.day = v.day := by
      intro rows' hr
      refine (ih hr).imp id ?_
      rintro ⟨id, v, hmem, hvalues⟩
      exact ⟨id, v, List.mem_cons_of_mem op hmem, hvalues⟩
    cases op with
    | skipped | created _ => exact hlater h
    | updated id v =>
      obtain hr | hr := hlater h
      · obtain ⟨s, hs, rfl⟩ := Table.mem_modify.mp hr
        split_ifs
        · exact .inr ⟨id, v, List.mem_cons_self, rfl⟩
        · exact .inl hs
      · exact .inr hr

/-- A new row has the values of an operation. -/
theorem mem_newSamples {ops : List SampleOp} {k : Nat} {r : MachineMetric} (h : r ∈ newSamples k ops) :
    ∃ v, .created v ∈ ops ∧ r.providerId = v.providerId ∧ r.machineId = v.machineId := by
  induction ops generalizing k with
  | nil => cases h
  | cons op ops ih =>
    have hlater : ∀ {j}, r ∈ newSamples j ops →
        ∃ v, .created v ∈ op :: ops ∧ r.providerId = v.providerId ∧ r.machineId = v.machineId := by
      intro j hr
      obtain ⟨v, hmem, hvalues⟩ := ih hr
      exact ⟨v, List.mem_cons_of_mem op hmem, hvalues⟩
    cases op with
    | skipped | updated _ _ => exact hlater h
    | created v =>
      obtain rfl | hr := List.mem_cons.mp h
      · exact ⟨v, List.mem_cons_self, rfl, rfl⟩
      · exact hlater hr

/-- Samples are inserted for stored machines only, with values in range. -/
theorem insertSamples_checked {scope : ScopeName} {ops : List SampleOp} {db db' : Database}
    (h : insertSamples env scope db ops = .ok db') {v : SampleValues} (hv : .created v ∈ ops) :
    FitsInteger v.value ∧ v.machineId ∈ Table.ids db.machines := by
  induction ops generalizing db with
  | nil => cases hv
  | cons op ops ih =>
    cases op with
    | skipped | updated _ _ =>
      obtain hv | hv := List.mem_cons.mp hv
      · cases hv
      · exact ih h hv
    | created w =>
      rw [insertSamples, insertSample] at h
      split_ifs at h with hrange hmachine hday
      obtain hv | hv := List.mem_cons.mp hv
      · cases hv
        exact ⟨hrange, Table.mem_ids.mpr hmachine⟩
      · have hmem := ih h hv
        cases scope <;> exact hmem

end Flush

/-! ## A run -/

/-- What a run keeps of the committed rows, and which samples it stores. -/
structure Sampled (collect : MetricCollector) (db db' : Database) : Prop where
  provisioners : db'.provisioners = db.provisioners
  attachments : db'.attachments = db.attachments
  machines : db'.machines = db.machines
  providers : db'.providers.map MachineProvider.bare = db.providers.map MachineProvider.bare
  next_le : db.nextId ≤ db'.nextId
  samples : ∀ scope, ∀ r' ∈ db'.metrics scope,
    (∃ r ∈ db.metrics scope, r'.providerId = r.providerId ∧ r'.machineId = r.machineId) ∨
    ∃ p ∈ db.providers, ∃ m ∈ db.machines, Sees db p m ∧ r'.providerId = p.id ∧
      r'.machineId ∈ Table.ids db.machines ∧ (collect.Own → r'.machineId = m.id)

theorem Sampled.ids_providers {collect : MetricCollector} {db db' : Database} (h : Sampled collect db db') :
    Table.ids db'.providers = Table.ids db.providers := by
  refine Table.ids_of_map_eq (fun r => ?_) h.providers
  rfl

/-- Only the providers are written. -/
theorem sampled_of_providers (collect : MetricCollector) {db : Database} {providers : List MachineProvider}
    (hbare : providers.map MachineProvider.bare = db.providers.map MachineProvider.bare) :
    Sampled collect db { db with providers } where
  provisioners := rfl
  attachments := rfl
  machines := rfl
  providers := hbare
  next_le := le_rfl
  samples := fun scope r hr => by cases scope <;> exact .inl ⟨r, hr, rfl, rfl⟩

/-- What a flush writes, and what it has checked. -/
theorem flushSamples_writes {env : CollectionEnv} {loaded : List MachineMetric} {db db' : Database}
    {p : MachineProvider} {ops : List SampleOp} {now : Time} (h : flushSamples env loaded db p ops now = .ok db') :
    db' = writeSamples db p (emitted loaded ops) now ∧
      ∀ v, .created v ∈ ops → FitsInteger v.value ∧ v.machineId ∈ Table.ids db.machines := by
  rw [flushSamples] at h
  split_ifs at h with hrange
  constructor
  · obtain ⟨-, -, rfl⟩ := insertSamples_ok h
    simp only [metrics_setMetrics, nextId_setMetrics, if_true]
    rw [setMetrics_nextId, setMetrics_setMetrics, writeSamples, newSamples_emitted]
    rfl
  · intro v hv
    have hmem := insertSamples_checked h hv
    revert hmem
    cases p.scope <;> exact id

/-- A finished body has looked up the records of its connector, written the samples, and refreshed the optimization. -/
theorem collectSamples_eq_ok {env : CollectionEnv} {db : Database} {p : MachineProvider} {m : Machine}
    {result : Database × CollectionReport} (h : collectSamples env db p m = .ok result) :
    ∃ collect records ops refreshed, getMetricCollector env.mock p.type = .ok collect ∧ collect p [m] = .ok records ∧
      upsertAll env (db.metrics p.scope) p [m] 0 records = .ok ops ∧
      (∀ v, .created v ∈ ops → FitsInteger v.value ∧ v.machineId ∈ Table.ids db.machines) ∧
      refreshMachineOptimization env.settings
        (writeSamples db p (emitted (db.metrics p.scope) ops) (env.clock records.length)) m.id
        (env.clock (records.length + 1)) = .ok (result.1, refreshed) := by
  simp only [collectSamples, bind_ok_iff] at h
  obtain ⟨collect, hcollect, records, hrecords, ops, hops, db₁, hflush, ⟨db₂, refreshed⟩, hrefresh, hreturn⟩ := h
  cases hreturn
  obtain ⟨rfl, hinserted⟩ := flushSamples_writes hflush
  exact ⟨collect, records, ops, refreshed, hcollect, hrecords, hops, hinserted, hrefresh⟩

/-- The assignment to the provider of a successful run. -/
theorem collectSamples_providers {env : CollectionEnv} {db : Database} {p : MachineProvider} {m : Machine}
    {result : Database × CollectionReport} (h : collectSamples env db p m = .ok result) :
    ∃ now, result.1.providers = Table.modify db.providers p.id fun p => p.succeeded now := by
  obtain ⟨_, records, ops, _, -, -, -, -, hrefresh⟩ := collectSamples_eq_ok h
  obtain ⟨o, n, -, hdb⟩ := refreshMachineOptimization_frame hrefresh
  obtain ⟨-, -, -, -, -, -, hproviders⟩ :=
    writeSamples_frame db p (emitted (db.metrics p.scope) ops) (env.clock records.length)
  have hkept := congrArg Database.providers hdb
  exact ⟨env.clock records.length, hkept.trans hproviders⟩

/-- The samples of a successful run. -/
theorem collectSamples_sampled {env : CollectionEnv} {db : Database} {p : MachineProvider} {m : Machine}
    (hp : p ∈ db.providers) (hm : m ∈ db.machines) (hsees : Sees db p m) {result : Database × CollectionReport}
    (h : collectSamples env db p m = .ok result) : Sampled env.mock db result.1 := by
  obtain ⟨collect, records, ops, _, hcollect, hrecords, hops, hinserted, hrefresh⟩ := collectSamples_eq_ok h
  obtain ⟨o, n, hn, hdb⟩ := refreshMachineOptimization_frame hrefresh
  have hdb : result.1 = _ := hdb
  rw [hdb]
  obtain ⟨hprovisioners, hattachments, hmachines, -, -, hnext, hproviders⟩ :=
    writeSamples_frame db p (emitted (db.metrics p.scope) ops) (env.clock records.length)
  constructor
  case provisioners => exact hprovisioners
  case attachments => exact hattachments
  case machines => exact hmachines
  case providers => exact (congrArg _ hproviders).trans (Table.map_modify (fun r => by rfl) _ _)
  case next_le =>
    refine le_trans ?_ hn
    rw [hnext]
    exact Nat.le_add_right _ _
  case samples =>
    intro scope r' hr'
    have hmetrics : r' ∈ (writeSamples db p (emitted (db.metrics p.scope) ops)
        (env.clock records.length)).metrics scope := by
      revert hr'
      cases scope <;> exact id
    rw [writeSamples_metrics, newSamples_emitted] at hmetrics
    split_ifs at hmetrics with hscope
    · subst hscope
      obtain hold | hnew := List.mem_append.mp hmetrics
      · obtain hold | ⟨id, v, hop, hday'⟩ := mem_updateSamples hold
        · exact .inl ⟨r', hold, rfl, rfl⟩
        · obtain ⟨r, hr, hday⟩ := (upsertAll_values hops (mem_emitted hop)).2 id v rfl
          obtain ⟨hprovider, hrest⟩ := Prod.mk.inj (hday'.trans (sameDay_iff.mp hday).symm)
          exact .inl ⟨r, hr, hprovider, (Prod.mk.inj hrest).1⟩
      · obtain ⟨v, hop, hprovider, hmachine⟩ := mem_newSamples hnew
        obtain ⟨hid, record, hrecord, hresolve⟩ := (upsertAll_values hops hop).1 v rfl
        refine .inr ⟨p, hp, m, hm, hsees, hprovider.trans hid, hmachine ▸ (hinserted v hop).2, fun hown => ?_⟩
        have hrecordOwn := getMetricCollector_own hown hcollect p m records hrecords record hrecord
        exact hmachine.trans (resolveMachineId_own hrecordOwn hresolve)
    · exact .inl ⟨r', hmetrics, rfl, rfl⟩

/-- Whatever a run does, it stores samples of machines that its provider sees. -/
theorem collection_sampled (env : CollectionEnv) (db : Database) (providerId machineId : Nat) :
    Sampled env.mock db (runProviderMachineCollection env db providerId machineId).1 := by
  have hrefl : Sampled env.mock db db := sampled_of_providers env.mock rfl
  unfold runProviderMachineCollection
  split
  · exact hrefl
  · exact hrefl
  · next p hload =>
    have hp : p ∈ selectWhere _ db.providers := oneOrNone_some hload ▸ List.mem_singleton_self p
    split
    · exact hrefl
    · exact hrefl
    · next m hscoped =>
      have hm : m ∈ selectWhere _ (scopedMachineQuery db p) := oneOrNone_some hscoped ▸ List.mem_singleton_self m
      obtain ⟨hmachine, hsees⟩ := mem_scopedMachineQuery.mp (mem_selectWhere.mp hm).1
      split
      · next hcollect => exact collectSamples_sampled (mem_selectWhere.mp hp).1 hmachine hsees hcollect
      · exact sampled_of_providers env.mock (Table.map_modify (fun r => by rfl) _ _)

end Washing
