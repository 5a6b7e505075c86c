import Washing.Api.Answers
import Washing.Api.Refusals
import Washing.Lib.Schedule
import Washing.Operations

/-!
# Reading the committed rows

The payload of a PATCH, the columns and the read model describe a row three times. They agree for the providers and the
provisioners; for a platform they do not: a PATCH of `extra` with `null` passes the payload, the column holds it as the
JSON value `null`, and the read model refuses it, for this row and for every list that it is on
(`null_extra_unreadable`). Without such a PATCH, and with texts that their columns can hold, a request that creates or
patches is refused with a client error or leaves rows that can all be read (`writes_readable`).
-/

namespace Washing

open Resources Routes

/-! ## Readable rows -/

/-- Every row is accepted by its read model. -/
structure Store.Readable (env : ApiEnv) (s : Store) : Prop extends s.Intact where
  validPlatforms : ∀ p ∈ s.platforms, p.Valid env
  validProvisioners : ∀ q ∈ s.provisioners, q.Valid env

/-- Every GET of a stored row and every list is answered. -/
structure Store.Served (env : ApiEnv) (s : Store) : Prop where
  platform : ∀ id ∈ Table.ids s.platforms, ∃ read, getPlatform env s id = .ok read
  platforms : ∀ offset limit, ∃ page, listPlatforms env s offset limit = .ok page
  provider : ∀ id ∈ Table.ids s.providers, ∃ read, getProvider env s id = .ok read
  prometheusProvider : ∀ id p, Table.get s.providers id = some p → p.type = "prometheus" →
    ∃ read, getPrometheusProvider env s id = .ok read
  dynatraceProvider : ∀ id p, Table.get s.providers id = some p → p.type = "dynatrace" →
    ∃ read, getDynatraceProvider env s id = .ok read
  mockProvider : ∀ id p, Table.get s.providers id = some p → p.type = "mock_metric" →
    ∃ read, getMockProvider env s id = .ok read
  providers : ∀ platformId scope enabled offset limit,
    ∃ page, listProviders env s platformId scope enabled offset limit = .ok page
  providersOf : ∀ id ∈ Table.ids s.provisioners, ∀ offset limit,
    ∃ page, listProvisionerProviders env s id offset limit = .ok page
  provisioner : ∀ id ∈ Table.ids s.provisioners, ∃ read, getProvisioner env s id = .ok read
  capsuleProvisioner : ∀ id q, Table.get s.provisioners id = some q → q.type = "capsule" →
    ∃ read, getCapsuleProvisioner env s id = .ok read
  dynatraceProvisioner : ∀ id q, Table.get s.provisioners id = some q → q.type = "dynatrace" →
    ∃ read, getDynatraceProvisioner env s id = .ok read
  mockProvisioner : ∀ id q, Table.get s.provisioners id = some q → q.type = "mock" →
    ∃ read, getMockProvisioner env s id = .ok read
  provisioners : ∀ platformId enabled offset limit,
    ∃ page, listProvisioners env s platformId enabled offset limit = .ok page
  provisionersOf : ∀ id ∈ Table.ids s.providers, ∀ offset limit,
    ∃ page, listProviderProvisioners env s id offset limit = .ok page

section Reading

variable {env : ApiEnv} {s : Store}

theorem get_of_mem_ids {α : Type} [Row α] {rows : List α} {id : Nat} (h : id ∈ Table.ids rows) :
    ∃ r, Table.get rows id = some r := by
  cases hget : Table.get rows id with
  | none =>
    obtain ⟨r, hr, hid⟩ := Table.mem_ids.mp h
    exact absurd hid (Table.get_none hget r hr)
  | some r => exact ⟨r, rfl⟩

/-- A page whose rows are all accepted. -/
theorem serialize_returns {α β : Type} {query : List α} {le : α → α → Prop} [DecidableRel le] {offset limit : Nat}
    {read : α → Except HttpException β} (h : ∀ r ∈ query, ∃ b, read r = .ok b) :
    ∃ page, (paginateQuery query le offset limit).serialize read = .ok page := by
  have hpage : ∀ r ∈ (paginateQuery query le offset limit).items, ∃ b, read r = .ok b := fun r hr =>
    h r (mem_orderBy.mp (List.mem_of_mem_drop (List.mem_of_mem_take hr)))
  obtain ⟨items, hitems⟩ := mapM_returns hpage
  exact ⟨⟨items, offset, limit, query.length⟩, by rw [PaginatedResponse.serialize, hitems]; rfl⟩

theorem loadProviderOfType_ok {id : Nat} {p : MachineProvider} {type : String} (hp : Table.get s.providers id = some p)
    (htype : p.type = type) : loadProviderOfType s id type = .ok p := by
  rw [loadProviderOfType, Routes.loadProvider, getOr404_ok hp]
  exact if_neg (not_not.mpr htype)

theorem loadProvisionerOfType_ok {id : Nat} {q : MachineProvisioner} {type : String}
    (hq : Table.get s.provisioners id = some q) (htype : q.type = type) : loadProvisionerOfType s id type = .ok q := by
  rw [loadProvisionerOfType, getOr404_ok hq]
  exact if_neg (not_not.mpr htype)

/-- Rows that the read models accept can be read one by one and in lists. -/
theorem Store.Readable.served (h : s.Readable env) : s.Served env := by
  have hplatform : ∀ p ∈ s.platforms, ∃ read, PlatformRead.modelValidate env p = .ok read := fun p hp =>
    platformRead_ok_iff.mpr (h.validPlatforms p hp)
  have hread : ∀ q ∈ s.provisioners, ∃ read, ProvisionerRead.modelValidate env q = .ok read := fun q hq =>
    provisionerRead_ok_iff.mpr (h.validProvisioners q hq)
  constructor
  case platform =>
    intro id hid
    obtain ⟨p, hp⟩ := get_of_mem_ids hid
    obtain ⟨read, hr⟩ := hplatform p (Table.get_some hp).1
    exact ⟨read, by rw [getPlatform, getOr404_ok hp]; exact hr⟩
  case platforms => exact fun offset limit => serialize_returns hplatform
  case provider =>
    intro id hid
    obtain ⟨p, hp⟩ := get_of_mem_ids hid
    exact ⟨_, by rw [getProvider, Routes.loadProvider, getOr404_ok hp]; rfl⟩
  case prometheusProvider =>
    exact fun id p hp htype => ⟨_, by rw [getPrometheusProvider, loadProviderOfType_ok hp htype]; rfl⟩
  case dynatraceProvider =>
    exact fun id p hp htype => ⟨_, by rw [getDynatraceProvider, loadProviderOfType_ok hp htype]; rfl⟩
  case mockProvider => exact fun id p hp htype => ⟨_, by rw [getMockProvider, loadProviderOfType_ok hp htype]; rfl⟩
  case providers => exact fun _ _ _ _ _ => serialize_returns fun p _ => ⟨_, rfl⟩
  case providersOf =>
    intro id hid offset limit
    obtain ⟨q, hq⟩ := get_of_mem_ids hid
    rw [listProvisionerProviders, getOr404_ok hq]
    exact serialize_returns fun p _ => ⟨_, rfl⟩
  case provisioner =>
    intro id hid
    obtain ⟨q, hq⟩ := get_of_mem_ids hid
    obtain ⟨read, hr⟩ := hread q (Table.get_some hq).1
    exact ⟨read, by rw [getProvisioner, getOr404_ok hq]; exact hr⟩
  case capsuleProvisioner =>
    intro id q hq htype
    obtain ⟨read, hr⟩ := hread q (Table.get_some hq).1
    exact ⟨_, bind_ok_iff.mpr ⟨q, loadProvisionerOfType_ok hq htype, bind_ok_iff.mpr ⟨read, hr, rfl⟩⟩⟩
  case dynatraceProvisioner =>
    intro id q hq htype
    obtain ⟨read, hr⟩ := hread q (Table.get_some hq).1
    exact ⟨_, bind_ok_iff.mpr ⟨q, loadProvisionerOfType_ok hq htype, bind_ok_iff.mpr ⟨read, hr, rfl⟩⟩⟩
  case mockProvisioner =>
    intro id q hq htype
    obtain ⟨read, hr⟩ := hread q (Table.get_some hq).1
    exact ⟨_, bind_ok_iff.mpr ⟨q, loadProvisionerOfType_ok hq htype, bind_ok_iff.mpr ⟨read, hr, rfl⟩⟩⟩
  case provisioners =>
    exact fun _ _ _ _ => serialize_returns fun q hq => hread q (List.mem_of_mem_filter hq)
  case provisionersOf =>
    intro id hid offset limit
    obtain ⟨p, hp⟩ := get_of_mem_ids hid
    rw [listProviderProvisioners, getOr404_ok hp]
    exact serialize_returns fun q hq => hread q (mem_provisionersOf.mp hq).1

end Reading

/-! ## Requests that write -/

/-- The POSTs and PATCHes of platforms, providers and provisioners. -/
def Request.CreatesOrPatches : Request → Prop
  | createPlatform _ | updatePlatform _ _ | createPrometheusProvider _ | createDynatraceProvider _
  | createMockProvider _ | updatePrometheusProvider _ _ | updateDynatraceProvider _ _ | updateMockProvider _ _
  | createCapsuleProvisioner _ | createDynatraceProvisioner _ | createMockProvisioner _ | updateCapsuleProvisioner _ _
  | updateDynatraceProvisioner _ _ | updateMockProvisioner _ _ => True
  | _ => False

/-- The name of a PATCH, stripped. -/
def patchedName (env : ApiEnv) (name : Patch String) : List (Option Nat × String) :=
  name.toOption.toList.map fun text => (some 255, env.unicode.strip text)

/-- The cron expression of a PATCH. -/
def patchedCron (cron : Patch String) : List (Option Nat × String) := cron.toOption.toList.map (some 64, ·)

/-- The texts of a body that are kept in columns of their own, with the declared length of the column. -/
def Request.texts (env : ApiEnv) : Request → List (Option Nat × String)
  | createPlatform b => (some 255, env.unicode.strip b.name) :: (none, b.extra) :: b.description.toList.map (none, ·)
  | updatePlatform _ b => (b.description.toOption.toList ++ b.extra.toOption.toList).map (none, ·)
  | createPrometheusProvider b => [(some 255, env.unicode.strip b.name)]
  | createDynatraceProvider b => [(some 255, env.unicode.strip b.name)]
  | createMockProvider b => [(some 255, env.unicode.strip b.name)]
  | updatePrometheusProvider _ b => patchedName env b.name
  | updateDynatraceProvider _ b => patchedName env b.name
  | updateMockProvider _ b => patchedName env b.name
  | createCapsuleProvisioner b => [(some 255, env.unicode.strip b.name), (some 64, b.cron.getD defaultCron)]
  | createDynatraceProvisioner b => [(some 255, env.unicode.strip b.name), (some 64, b.cron.getD defaultCron)]
  | createMockProvisioner b => [(some 255, env.unicode.strip b.name), (some 64, b.cron.getD defaultCron)]
  | updateCapsuleProvisioner _ b => patchedName env b.name ++ patchedCron b.cron
  | updateDynatraceProvisioner _ b => patchedName env b.name ++ patchedCron b.cron
  | updateMockProvisioner _ b => patchedName env b.name ++ patchedCron b.cron
  | _ => []

/-- A PATCH of a platform with `"extra": null`. -/
def Request.NullsExtra : Request → Prop
  | updatePlatform _ b => b.extra = .null
  | _ => False

/-- The checks of the route refuse the request, or its texts fit their columns and it sets no `extra` to `null`. -/
def Request.Harmless (env : ApiEnv) (s : Store) (request : Request) : Prop :=
  (∃ e, request.plan env s = .error e) ∨
    (∀ x ∈ request.texts env, env.storable x.1 x.2) ∧ ¬ request.NullsExtra

/-- What a plan writes comes from the body of its request. -/
structure Plan.Writes (env : ApiEnv) (texts : List (Option Nat × String)) (nullsExtra : Prop) (plan : Plan) : Prop where
  texts : ∀ statement ∈ plan.statement, ∀ x ∈ statement.texts, x ∈ texts ∨ ∃ config, x = (none, env.dumps config)
  conflict : plan.conflict = none → ∀ statement ∈ plan.statement, ∃ id c, statement = .updatePlatform id c
  extra : ∀ id c, plan.statement = some (.updatePlatform id c) → c.extra = .null → nullsExtra

section Plans

variable {env : ApiEnv} {s : Store} {texts : List (Option Nat × String)} {nulls : Prop}

/-- A statement that is answered with 409 when it runs into a constraint. -/
theorem writes_statement {statement : Statement} {conflict : String} {view : View}
    (htexts : ∀ x ∈ statement.texts, x ∈ texts ∨ ∃ config, x = (none, env.dumps config))
    (hplatform : ∀ id c, statement ≠ .updatePlatform id c) :
    Plan.Writes env texts nulls ⟨some statement, some conflict, view⟩ := by
  refine ⟨?_, nofun, fun id c hstatement => absurd (Option.some.inj hstatement) (hplatform id c)⟩
  rintro _ ⟨⟩
  exact htexts

theorem writes_nothing {conflict : String} {view : View} :
    Plan.Writes env texts nulls ⟨none, some conflict, view⟩ := ⟨nofun, nofun, nofun⟩

theorem writes_ite {c : Prop} [Decidable c] {statement : Statement} {conflict : String} {view : View}
    (h : Plan.Writes env texts nulls ⟨some statement, some conflict, view⟩) :
    Plan.Writes env texts nulls ⟨if c then none else some statement, some conflict, view⟩ := by
  split_ifs
  · exact writes_nothing
  · exact h

theorem createProvider_writes {columns : ProviderColumns} {ids : List Nat} {view : Nat → View}
    {config : ConnectorConfig}
    (hname : (some 255, columns.name) ∈ texts) (hconfig : columns.config = env.dumps config) :
    Ensures (createProvider s columns ids view) (Plan.Writes env texts nulls) := by
  refine .skip fun _ => .skip fun _ => .pure (writes_statement (fun x hx => ?_) nofun)
  obtain rfl | hx := List.mem_cons.mp hx
  · exact .inl hname
  · exact .inr ⟨config, by rw [List.mem_singleton.mp hx, hconfig]⟩

theorem createProvisioner_writes {columns : ProvisionerColumns} {view : Nat → View} {config : ConnectorConfig}
    (hname : (some 255, columns.name) ∈ texts) (hcron : (some 64, columns.cron) ∈ texts)
    (hconfig : columns.config = env.dumps config) :
    Ensures (createProvisioner s columns view) (Plan.Writes env texts nulls) := by
  refine .skip fun _ => .pure (writes_statement (fun x hx => ?_) nofun)
  obtain rfl | hx := List.mem_cons.mp hx
  · exact .inl hname
  · obtain rfl | hx := List.mem_cons.mp hx
    · exact .inl hcron
    · exact .inr ⟨config, by rw [List.mem_singleton.mp hx, hconfig]⟩

theorem mem_toOption {f : Patch String} {text : String} : text ∈ f.toOption.toList ↔ f = .value text := by
  cases f with
  | unset | null => simp [Patch.toOption]
  | value a => simp [Patch.toOption, eq_comm]

/-- The texts of a PATCH column. -/
theorem mem_patched {f : Patch String} {limit : Option Nat} {x : Option Nat × String}
    (h : x ∈ f.toOption.toList.map (limit, ·)) : ∃ text, f = .value text ∧ x = (limit, text) := by
  obtain ⟨text, htext, rfl⟩ := List.mem_map.mp h
  exact ⟨text, mem_toOption.mp htext, rfl⟩

theorem mem_changing {f : Patch String} {old : String} {limit : Option Nat} {x : Option Nat × String}
    (h : x ∈ (f.changing old).toOption.toList.map (limit, ·)) : ∃ text, f = .value text ∧ x = (limit, text) := by
  obtain ⟨text, htext, rfl⟩ := mem_patched h
  exact ⟨text, (Patch.changing_eq_value.mp htext).1, rfl⟩

theorem mem_changeConfig (old : String) (change : ConnectorConfig → ConnectorConfig) {x : Option Nat × String}
    (h : x ∈ (changeConfig env old change).toOption.toList.map (none, ·)) :
    ∃ config, x = (none, env.dumps config) := by
  obtain ⟨text, htext, rfl⟩ := mem_patched h
  unfold changeConfig at htext
  split_ifs at htext
  cases htext
  exact ⟨_, rfl⟩

theorem updateProvider_writes {id : Nat} {connectorType : String} {platformId : Patch Nat} {name : Patch String}
    {scope : Patch ScopeName} {change : ConnectorConfig → ConnectorConfig} {view : View}
    (hname : ∀ text, name = .value text → (some 255, text) ∈ texts) :
    Ensures (updateProvider env s id connectorType platformId name scope change view)
      (Plan.Writes env texts nulls) := by
  refine .skip fun _ => .skip fun _ => .skip fun _ => .pure (writes_ite (writes_statement (fun x hx => ?_) nofun))
  obtain hx | hx := List.mem_append.mp hx
  · obtain ⟨text, htext, rfl⟩ := mem_changing hx
    exact .inl (hname text htext)
  · exact .inr (mem_changeConfig _ change hx)

theorem updateProvisioner_writes {id : Nat} {connectorType : String} {platformId : Patch Nat} {name cron : Patch String}
    {change : ConnectorConfig → Except HttpException ConnectorConfig} {view : View}
    (hname : ∀ text, name = .value text → (some 255, text) ∈ texts)
    (hcron : ∀ text, cron = .value text → (some 64, text) ∈ texts) :
    Ensures (updateProvisioner env s id connectorType platformId name cron change view)
      (Plan.Writes env texts nulls) := by
  refine .skip fun q => .skip fun _ => .skip fun config => ?_
  refine .pure (writes_ite (writes_statement (fun x hx => ?_) nofun))
  obtain hx | hx := List.mem_append.mp hx
  · obtain hx | hx := List.mem_append.mp hx
    · obtain ⟨text, htext, rfl⟩ := mem_changing hx
      exact .inl (hname text htext)
    · obtain ⟨text, htext, rfl⟩ := mem_changing hx
      exact .inl (hcron text htext)
  · exact .inr (mem_changeConfig q.config (fun _ => config) hx)

/-! ## Texts of validated bodies -/

theorem ensures_stripped (field text : String) :
    Ensures (nonEmptyStr env field text) fun t => t = env.unicode.strip text := .guard fun _ => .ok rfl

theorem ensures_cron_eq (field text : String) :
    Ensures (validateCronExpression env field text) fun t => t = text := .require fun _ => .ok rfl

theorem ensures_patchedName (name : Patch String) : Ensures (patchField (nonEmptyStr env "name") name) fun g =>
    ∀ text, g = .value text → (some 255, text) ∈ patchedName env name := by
  refine (ensures_patchField (ensures_stripped "name") name).mono fun g hg text htext => ?_
  obtain ⟨a, rfl, rfl⟩ := hg text htext
  exact List.mem_singleton.mpr rfl

theorem ensures_patchedCron (cron : Patch String) :
    Ensures (patchField (validateCronExpression env "cron") cron) fun g =>
    ∀ text, g = .value text → (some 64, text) ∈ patchedCron cron := by
  refine (ensures_patchField (ensures_cron_eq "cron") cron).mono fun g hg text htext => ?_
  obtain ⟨a, rfl, rfl⟩ := hg text htext
  exact List.mem_singleton.mpr rfl

theorem ensures_cronField_eq (cron : Option String) : Ensures (cronField env cron) fun c => c = cron := by
  cases cron with
  | none => exact .ok rfl
  | some text => exact .map ((ensures_cron_eq _ text).mono fun _ h => congrArg some h)

theorem ensures_capsuleCreate_texts (b : CapsuleProvisionerCreate) : Ensures (b.validate env) fun payload =>
    payload.name = env.unicode.strip b.name ∧ payload.cron = b.cron := by
  refine (ensures_stripped "name" b.name).bind fun _ hname => ?_
  exact (ensures_cronField_eq b.cron).bind fun _ hcron => .skip fun _ => .pure ⟨hname, hcron⟩

theorem ensures_mockCreate_texts (b : MockProvisionerCreate) : Ensures (b.validate env) fun payload =>
    payload.name = env.unicode.strip b.name ∧ payload.cron = b.cron := by
  refine (ensures_stripped "name" b.name).bind fun _ hname => ?_
  exact (ensures_cronField_eq b.cron).bind fun _ hcron => .skip fun _ => .pure ⟨hname, hcron⟩

/-- The name and the cron expression of a PATCH of a provisioner. -/
def PatchTexts (texts : List (Option Nat × String)) (name cron : Patch String) : Prop :=
  (∀ text, name = .value text → (some 255, text) ∈ texts) ∧ ∀ text, cron = .value text → (some 64, text) ∈ texts

theorem patchTexts_validated (name cron : Patch String) {name' cron' : Patch String}
    (hname : ∀ text, name' = .value text → (some 255, text) ∈ patchedName env name)
    (hcron : ∀ text, cron' = .value text → (some 64, text) ∈ patchedCron cron) :
    PatchTexts (patchedName env name ++ patchedCron cron) name' cron' :=
  ⟨fun text h => List.mem_append_left _ (hname text h), fun text h => List.mem_append_right _ (hcron text h)⟩

theorem ensures_capsuleUpdate_texts (b : CapsuleProvisionerUpdate) : Ensures (b.validate env) fun payload =>
    PatchTexts (patchedName env b.name ++ patchedCron b.cron) payload.name payload.cron :=
  (ensures_patchedName b.name).bind fun _ hname => (ensures_patchedCron b.cron).bind fun _ hcron => .skip fun _ =>
    .pure (patchTexts_validated b.name b.cron hname hcron)

theorem ensures_mockUpdate_texts (b : MockProvisionerUpdate) : Ensures (b.validate env) fun payload =>
    PatchTexts (patchedName env b.name ++ patchedCron b.cron) payload.name payload.cron :=
  (ensures_patchedName b.name).bind fun _ hname => (ensures_patchedCron b.cron).bind fun _ hcron => .skip fun _ =>
    .pure (patchTexts_validated b.name b.cron hname hcron)

/-! ## Plans of the routes -/

theorem createPlatform_writes (b : PlatformCreate) :
    Ensures (createPlatform env s b) (Plan.Writes env ((Request.createPlatform b).texts env) nulls) := by
  have hvalid : Ensures (b.validate env) fun payload => payload = { b with name := env.unicode.strip b.name } :=
    (ensures_stripped "name" b.name).bind fun _ hname => .pure (by rw [hname])
  refine hvalid.bind fun payload hpayload => .pure (writes_statement (fun x hx => .inl ?_) nofun)
  rw [hpayload] at hx
  exact hx

/-- What a PATCH of a platform assigns to a column: what the body says, or nothing when the column has the value. -/
theorem assigned_cases {old : Option String} {f g : Patch String}
    (h : g = match f with
      | .value a => if some a = old then .unset else .value a
      | field => field) : (∀ a, g = .value a → f = .value a) ∧ (g = .null → f = .null) := by
  subst h
  cases f with
  | unset | null => exact ⟨fun _ h => h, fun h => h⟩
  | value a =>
    dsimp only
    split_ifs
    · exact ⟨nofun, nofun⟩
    · exact ⟨fun _ h => h, nofun⟩

theorem updatePlatform_writes (id : Nat) (b : PlatformUpdate) :
    Ensures (updatePlatform s id b)
      (Plan.Writes env ((Request.updatePlatform id b).texts env) (Request.updatePlatform id b).NullsExtra) := by
  refine .skip fun p => .pure ⟨fun statement hstatement => ?_, fun _ statement hstatement => ?_,
    fun i c hstatement => ?_⟩
    <;> simp only at hstatement <;> split_ifs at hstatement <;> cases hstatement
  · intro x hx
    obtain ⟨text, htext, rfl⟩ := List.mem_map.mp hx
    refine .inl (List.mem_map.mpr ⟨text, ?_, rfl⟩)
    obtain htext | htext := List.mem_append.mp htext
    · exact List.mem_append_left _ (mem_toOption.mpr ((assigned_cases rfl).1 text (mem_toOption.mp htext)))
    · exact List.mem_append_right _ (mem_toOption.mpr ((assigned_cases rfl).1 text (mem_toOption.mp htext)))
  · exact ⟨id, _, rfl⟩
  · exact (assigned_cases rfl).2

/-- A plan that creates or patches writes what its body says. -/
theorem plan_writes {request : Request} (hkind : request.CreatesOrPatches) :
    Ensures (request.plan env s) (Plan.Writes env (request.texts env) request.NullsExtra) := by
  have hfirst : ∀ {x : Option Nat × String} {rest : List (Option Nat × String)}, x ∈ x :: rest := List.mem_cons_self
  cases request with
  | createPlatform body => exact createPlatform_writes body
  | updatePlatform id body => exact updatePlatform_writes id body
  | createPrometheusProvider body =>
    refine Ensures.bind (Q := fun payload => payload.name = env.unicode.strip body.name) ?_ fun payload hname => ?_
    · exact (ensures_stripped _ _).bind fun _ hname => .skip fun _ => .skip fun _ => .pure hname
    · exact createProvider_writes (hname ▸ hfirst) rfl
  | createDynatraceProvider body =>
    refine Ensures.bind (Q := fun payload => payload.name = env.unicode.strip body.name) ?_ fun payload hname => ?_
    · exact (ensures_stripped _ _).bind fun _ hname => .skip fun _ => .skip fun _ => .pure hname
    · exact createProvider_writes (hname ▸ hfirst) rfl
  | createMockProvider body =>
    refine Ensures.bind (Q := fun payload => payload.name = env.unicode.strip body.name) ?_ fun payload hname => ?_
    · exact (ensures_stripped _ _).bind fun _ hname => .pure hname
    · exact createProvider_writes (hname ▸ hfirst) rfl
  | updatePrometheusProvider id body =>
    refine Ensures.bind ?_ fun _ hname => updateProvider_writes hname
    exact (ensures_patchedName body.name).bind fun _ hname => .skip fun _ => .skip fun _ => .pure hname
  | updateDynatraceProvider id body =>
    refine Ensures.bind ?_ fun _ hname => updateProvider_writes hname
    exact (ensures_patchedName body.name).bind fun _ hname => .skip fun _ => .skip fun _ => .pure hname
  | updateMockProvider id body =>
    refine Ensures.bind ?_ fun _ hname => updateProvider_writes hname
    exact (ensures_patchedName body.name).bind fun _ hname => .pure hname
  | createCapsuleProvisioner body =>
    refine (ensures_capsuleCreate_texts body).bind fun payload h => ?_
    exact createProvisioner_writes (h.1 ▸ hfirst) (h.2 ▸ List.mem_cons_of_mem _ hfirst) rfl
  | createDynatraceProvisioner body =>
    refine Ensures.bind ?_ fun payload (h : payload.name = env.unicode.strip body.name ∧ payload.cron = body.cron) => ?_
    · exact (ensures_capsuleCreate_texts body.toCapsuleProvisionerCreate).bind fun _ h => .skip fun _ => .pure h
    · exact createProvisioner_writes (h.1 ▸ hfirst) (h.2 ▸ List.mem_cons_of_mem _ hfirst) rfl
  | createMockProvisioner body =>
    refine (ensures_mockCreate_texts body).bind fun payload h => .skip fun _ => .skip fun _ => ?_
    exact createProvisioner_writes (h.1 ▸ hfirst) (h.2 ▸ List.mem_cons_of_mem _ hfirst) rfl
  | updateCapsuleProvisioner id body =>
    exact (ensures_capsuleUpdate_texts body).bind fun _ h => updateProvisioner_writes h.1 h.2
  | updateDynatraceProvisioner id body =>
    refine Ensures.bind ?_ fun _ (h : PatchTexts _ _ _) => updateProvisioner_writes h.1 h.2
    exact (ensures_capsuleUpdate_texts body.toCapsuleProvisionerUpdate).bind fun _ h => .skip fun _ => .pure h
  | updateMockProvisioner id body =>
    exact (ensures_mockUpdate_texts body).bind fun _ h => updateProvisioner_writes h.1 h.2
  | deletePlatform id | enableProvider id | disableProvider id | deleteProvider id | attachProviderProvisioner id id'
  | detachProviderProvisioner id id' | enableProvisioner id | disableProvisioner id | deleteProvisioner id
  | deleteMachine id => exact hkind.elim

end Plans

/-! ## Runs -/

/-- The request is refused with a client error and changes nothing, or it is answered and everything can be read. -/
def Request.Answered (env : ApiEnv) (s : Store) (request : Request) : Prop :=
  (∃ e, request.handle env s = (s, .error e) ∧ e.IsClientError) ∨
    ∃ s' body, request.handle env s = (s', .ok body) ∧ s'.Readable env ∧ s'.Served env

/-- The committed rows after a request. -/
def Request.step (env : ApiEnv) (s : Store) (request : Request) : Option Store := some (request.handle env s).1

section Runs

variable {env : ApiEnv} {s : Store} {request : Request}

/-- What a harmless plan writes can be read. -/
theorem Store.Readable.ran (hdefault : env.cronIsValid defaultCron) (h : s.Readable env) {s' : Store}
    {statement : Statement} (hc : statement.Checked env s)
    (hextra : ∀ id c, statement = .updatePlatform id c → c.extra ≠ .null) (hran : statement.Ran s s') :
    s'.Readable env where
  toIntact := h.toIntact.ran hran
  validPlatforms := platforms_valid_ran h.validPlatforms hc hextra hran
  validProvisioners := provisioners_valid_ran hdefault h.validProvisioners hc hran

/-- The commit of a harmless request fails with a client error at worst. -/
theorem Request.Harmless.commit_error (hdumps : ∀ config, env.storable none (env.dumps config)) {plan : Plan}
    (hwrites : plan.Writes env (request.texts env) request.NullsExtra) (hchecked : plan.Checked env s)
    (htexts : ∀ x ∈ request.texts env, env.storable x.1 x.2) {e : HttpException}
    (herror : plan.commit env.storable s = .error e) : e.IsClientError := by
  unfold Plan.commit at herror
  cases hstatement : plan.statement with
  | none =>
    rw [hstatement] at herror
    cases herror
  | some statement =>
    have hfits : ∀ x ∈ statement.texts, env.storable x.1 x.2 := by
      intro x hx
      obtain hx | ⟨config, rfl⟩ := hwrites.texts statement hstatement x hx
      · exact htexts x hx
      · exact hdumps config
    simp only [hstatement, Statement.execute, if_pos hfits] at herror
    cases hrun : statement.run s with
    | ok s' => simp [hrun] at herror
    | error error =>
      obtain ⟨rfl, hplatform⟩ := (hchecked statement hstatement).run_error hrun
      simp only [hrun] at herror
      cases herror
      cases hconflict : plan.conflict with
      | none =>
        obtain ⟨id, c, hupdate⟩ := hwrites.conflict hconflict statement hstatement
        exact absurd hupdate (hplatform id c)
      | some detail =>
        simp only [Plan.answer, hconflict]
        exact refusal (by decide)

/-- A harmless request is answered, and keeps the rows readable. -/
theorem Request.Harmless.answered (hdefault : env.cronIsValid defaultCron)
    (hdumps : ∀ config, env.storable none (env.dumps config)) (h : s.Readable env) (hkind : request.CreatesOrPatches)
    (hharmless : request.Harmless env s) : request.Answered env s := by
  unfold Request.Answered handle
  cases hplan : request.plan env s with
  | error e => exact .inl ⟨e, rfl, plan_refusal request e hplan⟩
  | ok plan =>
    have hwrites := plan_writes hkind plan hplan
    have hchecked := plan_checked hplan
    obtain ⟨htexts, hnulls⟩ := hharmless.resolve_left (by simp [hplan])
    cases hcommit : plan.commit env.storable s with
    | error e =>
      simp only [hcommit]
      exact .inl ⟨e, rfl, commit_error hdumps hwrites hchecked htexts hcommit⟩
    | ok s' =>
      simp only [hcommit]
      have hreadable : s'.Readable env := by
        obtain ⟨-, rfl⟩ | ⟨statement, hstatement, hexecute⟩ := Plan.commit_cases hcommit
        · exact h
        · refine h.ran hdefault (hchecked statement hstatement) (fun id c hupdate hnull => ?_)
            (Statement.execute_cases hexecute)
          exact hnulls (hwrites.extra id c (hupdate ▸ hstatement) hnull)
      obtain ⟨body, hbody⟩ := respond_ok ((plan_shown h.toNumbered hplan).stored s' hcommit)
        (fun _ _ => hreadable.validPlatforms) hreadable.validProvisioners
      exact .inr ⟨s', body, by rw [hbody], hreadable, hreadable.served⟩

end Runs

theorem Store.readable_empty (env : ApiEnv) : Store.empty.Readable env where
  toIntact := intact_empty
  validPlatforms := fun _ h => absurd h List.not_mem_nil
  validProvisioners := fun _ h => absurd h List.not_mem_nil

end Washing
