import Washing.Api.Requests
import Washing.Lib.Ensures

/-!
# What the routes check

What a route checks on the rows it loaded before it emits a statement is said once for each statement (`Checked`). Every
plan that a route accepts satisfies it (`plan_checked`), so that what follows need not look into the routes again.
-/

namespace Washing

open Resources Routes

/-- What the routes check on the loaded rows before they emit a statement. -/
def Statement.Checked (env : ApiEnv) (s : Store) : Statement → Prop
  | insertPlatform name _ _ => env.unicode.strip name = name ∧ name ≠ ""
  | updatePlatform id _ => id ∈ Table.ids s.platforms
  | insertProvider v provisionerIds => ∀ i ∈ provisionerIds, ∃ q, Table.get s.provisioners i = some q ∧
      q.platformId = v.platformId ∧ findProviderScopeConflict s q v.scope none = none
  | updateProvider id c => ∃ p, Table.get s.providers id = some p ∧
      (∀ target, c.platformId = .value target → ∀ q ∈ s.provisionersOf p, q.platformId = target) ∧
      (∀ scope, c.scope = .value scope → ∀ q ∈ s.provisionersOf p,
        findProviderScopeConflict s q scope (some p.id) = none) ∧
      c.scope ≠ .null
  | deleteProvider id provisionerIds => ∃ p, Table.get s.providers id = some p ∧
      provisionerIds = Washing.provisionerIds s.toDatabase p
  | insertProvisioner v => v.cron = defaultCron ∨ env.cronIsValid v.cron
  | updateProvisioner id c => ∃ q, Table.get s.provisioners id = some q ∧
      (∀ target, c.platformId = .value target → (∀ m ∈ s.machines, m.sourceProvisionerId ≠ some q.id) ∧
        ∀ p ∈ s.providersOf q, p.platformId = target) ∧
      ∀ cron, c.cron = .value cron → env.cronIsValid cron
  | attach pair => ∃ p q, Table.get s.providers pair.providerId = some p ∧
      Table.get s.provisioners pair.provisionerId = some q ∧ q.platformId = p.platformId ∧
      findProviderScopeConflict s q p.scope (some p.id) = none
  | detach pair => pair ∈ s.attachments
  | deletePlatform _ | deleteProvisioner _ | deleteMachine _ => True

/-- The statement of a plan has been checked. -/
def Plan.Checked (env : ApiEnv) (s : Store) (plan : Plan) : Prop :=
  ∀ statement ∈ plan.statement, statement.Checked env s

/-! ## Loading -/

theorem mem_provisionersOf {db : Database} {p : MachineProvider} {q : MachineProvisioner} :
    q ∈ db.provisionersOf p ↔ q ∈ db.provisioners ∧ ⟨p.id, q.id⟩ ∈ db.attachments := by
  simp [Database.provisionersOf]

theorem mem_providersOf {s : Store} {p : MachineProvider} {q : MachineProvisioner} :
    p ∈ s.providersOf q ↔ p ∈ s.providers ∧ ⟨p.id, q.id⟩ ∈ s.attachments := by
  simp [Store.providersOf]

theorem findProviderScopeConflict_eq_none_iff {s : Store} {q : MachineProvisioner} {scope : ScopeName}
    {id : Option Nat} : findProviderScopeConflict s q scope id = none ↔
      ∀ p ∈ s.providersOf q, id ≠ some p.id → p.scope ≠ scope := by
  simp [findProviderScopeConflict]

theorem Patch.changing_eq_value {α : Type} [DecidableEq α] {f : Patch α} {old a : α} :
    f.changing old = .value a ↔ f = .value a ∧ a ≠ old := by
  cases f with
  | unset | null => simp [changing]
  | value b =>
    by_cases hb : b = old
    · simp only [changing, hb, if_true]
      constructor
      · intro h
        cases h
      · rintro ⟨h, hne⟩
        cases h
        exact absurd rfl hne
    · simp only [changing, hb, if_false, Patch.value.injEq]
      constructor
      · rintro rfl
        exact ⟨rfl, hb⟩
      · exact fun h => h.1

variable {env : ApiEnv} {s : Store}

/-- A statement that is emitted under a condition. -/
theorem checked_ite {c : Prop} [Decidable c] {statement : Statement} (h : statement.Checked env s) :
    ∀ x ∈ (if c then none else some statement), x.Checked env s := by
  intro x hx
  split_ifs at hx
  · cases hx
  · cases hx
    exact h

theorem ensures_getOr404 {α : Type} [Row α] (rows : List α) (id : Nat) (detail : String) :
    Ensures (getOr404 rows id detail) fun r => Table.get rows id = some r := by
  intro r hr
  unfold getOr404 at hr
  cases h : Table.get rows id with
  | none => simp [h] at hr
  | some r' =>
    rw [h] at hr
    cases hr
    rfl

theorem ensures_loadProviderOfType (id : Nat) (connectorType : String) :
    Ensures (loadProviderOfType s id connectorType) fun p => Table.get s.providers id = some p :=
  (ensures_getOr404 _ _ _).bind fun _ hp => .guard fun _ => .ok hp

theorem ensures_loadProvisionerOfType (id : Nat) (connectorType : String) :
    Ensures (loadProvisionerOfType s id connectorType) fun q => Table.get s.provisioners id = some q :=
  (ensures_getOr404 _ _ _).bind fun _ hq => .guard fun _ => .ok hq

theorem ensures_loadProvisionersForProvider (platformId : Nat) (scope : ScopeName) : ∀ ids : List Nat,
    Ensures (loadProvisionersForProvider s platformId scope ids) fun loaded => ∀ q ∈ loaded,
      Table.get s.provisioners q.id = some q ∧ q.platformId = platformId ∧
        findProviderScopeConflict s q scope none = none
  | [] => .ok (by simp)
  | i :: ids => by
    refine (ensures_getOr404 _ _ _).bind fun q hq => .guard fun hplatform => .guard fun hscope => ?_
    refine (ensures_loadProvisionersForProvider platformId scope ids).bind fun rest hrest => .pure ?_
    refine List.forall_mem_cons.mpr ⟨⟨?_, not_not.mp hplatform, by simpa using hscope⟩, hrest⟩
    rw [show q.id = i from (Table.get_some hq).2]
    exact hq

/-! ## Plans of the providers -/

theorem ensures_createProvider (columns : ProviderColumns) (ids : List Nat) (view : Nat → View) :
    Ensures (createProvider s columns ids view) (Plan.Checked env s) := by
  refine .skip fun _ => ?_
  refine (ensures_loadProvisionersForProvider _ _ ids).bind fun loaded hloaded => .pure ?_
  rintro statement hstatement
  cases hstatement
  intro i hi
  obtain ⟨q, hq, rfl⟩ := List.mem_map.mp hi
  exact ⟨q, hloaded q hq⟩

theorem ensures_scopeCanChange (p : MachineProvider) (scope : Patch ScopeName) :
    Ensures (ensureScopeCanChange s p scope) fun _ => ∀ target, scope = .value target → ∀ q ∈ s.provisionersOf p,
      findProviderScopeConflict s q target (some p.id) = none := by
  cases scope with
  | unset | null => exact .ok (nofun)
  | value target =>
    refine .guard fun h => .ok ?_
    rintro _ ⟨⟩ q hq
    by_contra hconflict
    exact h ⟨q, hq, Option.isSome_iff_ne_none.mpr hconflict⟩

theorem ensures_providerPlatformCanChange (p : MachineProvider) (platformId : Patch Nat) :
    Ensures (ensureProviderPlatformCanChange s p platformId) fun _ => ∀ target, platformId = .value target →
      ∀ q ∈ s.provisionersOf p, q.platformId = target := by
  cases platformId with
  | unset => exact .ok (nofun)
  | null => exact .error _
  | value target =>
    refine .skip fun _ => .guard fun h => .ok ?_
    rintro _ ⟨⟩ q hq
    by_contra hne
    exact h ⟨q, hq, hne⟩

theorem ensures_updateProvider (id : Nat) (connectorType : String) (platformId : Patch Nat) (name : Patch String)
    (scope : Patch ScopeName) (change : ConnectorConfig → ConnectorConfig) (view : View) :
    Ensures (updateProvider env s id connectorType platformId name scope change view) (Plan.Checked env s) := by
  refine (ensures_loadProviderOfType id connectorType).bind fun p hp => ?_
  refine (ensures_scopeCanChange p scope).bind fun _ hscope => ?_
  refine (ensures_providerPlatformCanChange p platformId).bind fun _ hplatform => .pure ?_
  refine checked_ite ⟨p, hp, fun target htarget => ?_, fun target htarget => ?_, ?_⟩
  · exact hplatform target (Patch.changing_eq_value.mp htarget).1
  · cases scope with
    | unset | null => cases htarget
    | value a => exact hscope target (Patch.changing_eq_value.mp htarget).1
  · cases scope with
    | unset | null => exact nofun
    | value a =>
      simp only [Patch.changing]
      split_ifs <;> exact nofun

theorem ensures_setProviderEnabled (id : Nat) (enabled : Bool) :
    Ensures (setProviderEnabled s id enabled) (Plan.Checked env s) := by
  refine (ensures_getOr404 _ _ _).bind fun p hp => .pure (checked_ite ⟨p, hp, ?_, ?_, nofun⟩)
  · exact nofun
  · exact nofun

theorem ensures_deleteProvider (id : Nat) : Ensures (deleteProvider s id) (Plan.Checked env s) := by
  refine (ensures_getOr404 _ _ _).bind fun p hp => .pure ?_
  rintro _ ⟨⟩
  exact ⟨p, hp, rfl⟩

theorem ensures_attachProviderProvisioner (id provisionerId : Nat) :
    Ensures (attachProviderProvisioner s id provisionerId) (Plan.Checked env s) := by
  refine (ensures_getOr404 _ _ _).bind fun p hp => (ensures_getOr404 _ _ _).bind fun q hq => .guard fun hplatform => ?_
  split_ifs with _ hconflict
  · exact .pure nofun
  · exact .error _
  · refine .pure ?_
    rintro _ ⟨⟩
    exact ⟨p, q, hp, hq, not_not.mp hplatform, by simpa using hconflict⟩

theorem ensures_detachProviderProvisioner (id provisionerId : Nat) :
    Ensures (detachProviderProvisioner s id provisionerId) (Plan.Checked env s) := by
  refine (ensures_getOr404 _ _ _).bind fun p hp => (ensures_getOr404 _ _ _).bind fun q hq => .guard fun _ => .pure ?_
  intro x hx
  simp only at hx
  split_ifs at hx with hmem
  · cases hx
    obtain ⟨-, hpair⟩ := mem_provisionersOf.mp hmem
    rwa [show p.id = id from (Table.get_some hp).2, show q.id = provisionerId from (Table.get_some hq).2] at hpair
  · cases hx

/-! ## Plans of the provisioners -/

theorem ensures_createProvisioner {columns : ProvisionerColumns} {view : Nat → View}
    (hcron : columns.cron = defaultCron ∨ env.cronIsValid columns.cron) :
    Ensures (createProvisioner s columns view) (Plan.Checked env s) := by
  refine .skip fun _ => .pure ?_
  rintro _ ⟨⟩
  exact hcron

theorem ensures_platformPatchCanChange (q : MachineProvisioner) (platformId : Patch Nat) :
    Ensures (ensurePlatformPatchCanChange s q platformId) fun _ => ∀ target, platformId = .value target →
      target ≠ q.platformId → (∀ m ∈ s.machines, m.sourceProvisionerId ≠ some q.id) ∧
        ∀ p ∈ s.providersOf q, p.platformId = target := by
  cases platformId with
  | unset => exact .ok (nofun)
  | null => exact .error _
  | value target =>
    refine .skip fun _ => ?_
    unfold ensureProvisionerPlatformCanChange
    split_ifs with hsame hmachines hproviders
    · refine .ok ?_
      rintro _ ⟨⟩ hne
      exact absurd hsame hne
    · exact .error _
    · exact .error _
    · refine .ok ?_
      rintro _ ⟨⟩ -
      refine ⟨fun m hm hsource => hmachines ⟨m, hm, hsource⟩, fun p hp => ?_⟩
      by_contra hne
      exact hproviders ⟨p, hp, hne⟩

theorem ensures_updateProvisioner {id : Nat} {connectorType : String} {platformId : Patch Nat}
    {name cron : Patch String}
    {change : ConnectorConfig → Except HttpException ConnectorConfig} {view : View}
    (hcron : ∀ text, cron = .value text → env.cronIsValid text) :
    Ensures (updateProvisioner env s id connectorType platformId name cron change view) (Plan.Checked env s) := by
  refine (ensures_loadProvisionerOfType id connectorType).bind fun q hq => ?_
  refine (ensures_platformPatchCanChange q platformId).bind fun _ hplatform => ?_
  refine .skip fun _ => .pure (checked_ite ⟨q, hq, fun target htarget => ?_, fun text htext => ?_⟩)
  · obtain ⟨hvalue, hne⟩ := Patch.changing_eq_value.mp htarget
    exact hplatform target hvalue hne
  · exact hcron text (Patch.changing_eq_value.mp htext).1

theorem ensures_setProvisionerEnabled (id : Nat) (enabled : Bool) :
    Ensures (setProvisionerEnabled s id enabled) (Plan.Checked env s) := by
  refine (ensures_getOr404 _ _ _).bind fun q hq => .pure (checked_ite ⟨q, hq, ?_, ?_⟩)
  · exact nofun
  · exact nofun

/-! ## Validated bodies -/

theorem ensures_nonEmptyStr (field text : String) :
    Ensures (nonEmptyStr env field text) fun t => env.unicode.strip t = t ∧ t ≠ "" := by
  refine .guard fun h => .ok ⟨env.unicode.strip_idem text, h⟩

theorem ensures_validateCronExpression (field text : String) :
    Ensures (validateCronExpression env field text) fun t => env.cronIsValid t := .require fun h => .ok h

theorem ensures_patchField {α : Type} {validate : α → Except HttpException α} {Q : α → α → Prop}
    (h : ∀ a, Ensures (validate a) (Q a)) (f : Patch α) :
    Ensures (patchField validate f) fun g => ∀ b, g = .value b → ∃ a, f = .value a ∧ Q a b := by
  cases f with
  | unset | null => exact .ok (nofun)
  | value a =>
    refine .map ((h a).mono fun b hb => ?_)
    rintro _ ⟨⟩
    exact ⟨a, rfl, hb⟩

/-- The cron expression of a new provisioner. -/
def CronChecked (env : ApiEnv) (cron : Option String) : Prop :=
  cron.getD defaultCron = defaultCron ∨ env.cronIsValid (cron.getD defaultCron)

/-- The cron expression of a PATCH. -/
def CronPatchChecked (env : ApiEnv) (cron : Patch String) : Prop := ∀ text, cron = .value text → env.cronIsValid text

/-- The cron expression of a validated body: valid, or absent. -/
theorem ensures_cronField (cron : Option String) :
    Ensures (cronField env cron) (CronChecked env) := by
  cases cron with
  | none => exact .ok (.inl rfl)
  | some text => exact .map ((ensures_validateCronExpression "cron" text).mono fun t ht => .inr ht)

theorem ensures_capsuleCreate (b : CapsuleProvisionerCreate) :
    Ensures (b.validate env) fun payload => CronChecked env payload.cron :=
  .skip fun _ => (ensures_cronField b.cron).bind fun _ hcron =>
    .skip fun _ => .pure hcron

theorem ensures_dynatraceCreate (b : DynatraceProvisionerCreate) :
    Ensures (b.validate env) fun payload => CronChecked env payload.cron :=
  (ensures_capsuleCreate _).bind fun _ hcron => .skip fun _ => .pure hcron

theorem ensures_mockCreate (b : MockProvisionerCreate) :
    Ensures (b.validate env) fun payload => CronChecked env payload.cron :=
  .skip fun _ => (ensures_cronField b.cron).bind fun _ hcron =>
    .skip fun _ => .pure hcron

theorem ensures_cronPatch (cron : Patch String) :
    Ensures (patchField (validateCronExpression env "cron") cron) (CronPatchChecked env) := by
  refine (ensures_patchField (ensures_validateCronExpression "cron") cron).mono fun g hg text htext => ?_
  obtain ⟨-, -, hvalid⟩ := hg text htext
  exact hvalid

theorem ensures_capsuleUpdate (b : CapsuleProvisionerUpdate) :
    Ensures (b.validate env) fun payload => CronPatchChecked env payload.cron :=
  .skip fun _ => (ensures_cronPatch b.cron).bind fun _ hcron =>
    .skip fun _ => .pure hcron

theorem ensures_dynatraceUpdate (b : DynatraceProvisionerUpdate) :
    Ensures (b.validate env) fun payload => CronPatchChecked env payload.cron :=
  (ensures_capsuleUpdate _).bind fun _ hcron => .skip fun _ => .pure hcron

theorem ensures_mockUpdate (b : MockProvisionerUpdate) :
    Ensures (b.validate env) fun payload => CronPatchChecked env payload.cron :=
  .skip fun _ => (ensures_cronPatch b.cron).bind fun _ hcron =>
    .skip fun _ => .pure hcron

/-! ## All routes -/

theorem ensures_createPlatform (b : PlatformCreate) : Ensures (createPlatform env s b) (Plan.Checked env s) := by
  have hname : Ensures (b.validate env) fun payload =>
      env.unicode.strip payload.name = payload.name ∧ payload.name ≠ "" :=
    (ensures_nonEmptyStr _ _).bind fun _ h => .pure h
  refine hname.bind fun payload h => .pure ?_
  rintro _ ⟨⟩
  exact h

/-- A statement about which nothing need be checked. -/
theorem ensures_unchecked {α : Type} {x : Except HttpException α} {plan : Plan}
    (h : ∀ statement ∈ plan.statement, statement.Checked env s) :
    Ensures (x >>= fun _ => Pure.pure plan) (Plan.Checked env s) := .skip fun _ => .pure h

/-- Every plan that a route accepts has been checked on the rows it was made from. -/
theorem plan_checked {request : Request} {plan : Plan} (h : request.plan env s = .ok plan) : plan.Checked env s := by
  revert plan
  show Ensures (request.plan env s) (Plan.Checked env s)
  cases request with
  | createPlatform body => exact ensures_createPlatform body
  | updatePlatform id body =>
    refine (ensures_getOr404 _ _ _).bind fun p hp => .pure (checked_ite ?_)
    exact Table.mem_ids.mpr ⟨p, Table.get_some hp⟩
  | deletePlatform id => exact ensures_unchecked (by rintro _ ⟨⟩; trivial)
  | createPrometheusProvider body => exact .skip fun _ => ensures_createProvider _ _ _
  | createDynatraceProvider body => exact .skip fun _ => ensures_createProvider _ _ _
  | createMockProvider body => exact .skip fun _ => ensures_createProvider _ _ _
  | updatePrometheusProvider id body => exact .skip fun _ => ensures_updateProvider _ _ _ _ _ _ _
  | updateDynatraceProvider id body => exact .skip fun _ => ensures_updateProvider _ _ _ _ _ _ _
  | updateMockProvider id body => exact .skip fun _ => ensures_updateProvider _ _ _ _ _ _ _
  | enableProvider id => exact ensures_setProviderEnabled id true
  | disableProvider id => exact ensures_setProviderEnabled id false
  | deleteProvider id => exact ensures_deleteProvider id
  | attachProviderProvisioner id provisionerId => exact ensures_attachProviderProvisioner id provisionerId
  | detachProviderProvisioner id provisionerId => exact ensures_detachProviderProvisioner id provisionerId
  | createCapsuleProvisioner body =>
    exact (ensures_capsuleCreate body).bind fun _ hcron => ensures_createProvisioner hcron
  | createDynatraceProvisioner body =>
    exact (ensures_dynatraceCreate body).bind fun _ hcron => ensures_createProvisioner hcron
  | createMockProvisioner body =>
    exact (ensures_mockCreate body).bind fun _ hcron => .skip fun _ =>
      .skip fun _ => ensures_createProvisioner hcron
  | updateCapsuleProvisioner id body =>
    exact (ensures_capsuleUpdate body).bind fun _ hcron => ensures_updateProvisioner hcron
  | updateDynatraceProvisioner id body =>
    exact (ensures_dynatraceUpdate body).bind fun _ hcron => ensures_updateProvisioner hcron
  | updateMockProvisioner id body =>
    exact (ensures_mockUpdate body).bind fun _ hcron => ensures_updateProvisioner hcron
  | enableProvisioner id => exact ensures_setProvisionerEnabled id true
  | disableProvisioner id => exact ensures_setProvisionerEnabled id false
  | deleteProvisioner id => exact ensures_unchecked (by rintro _ ⟨⟩; trivial)
  | deleteMachine id => exact ensures_unchecked (by rintro _ ⟨⟩; trivial)

end Washing
