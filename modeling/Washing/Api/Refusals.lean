import Washing.Api.Checked

/-!
# Refusals

What a route refuses before its commit is answered with a client error (`plan_refusal`). A statement that the route has
checked fails on a constraint of the database only (`Statement.Checked.run_error`), or on a text that its column cannot
hold.
-/

namespace Washing

open Resources Routes

/-- 4xx. -/
def HttpException.IsClientError (e : HttpException) : Prop := 400 ≤ e.statusCode ∧ e.statusCode < 500

instance (e : HttpException) : Decidable e.IsClientError := inferInstanceAs (Decidable (_ ∧ _))

/-- A computation that raises client errors only. -/
abbrev Refuses {α : Type} (x : Except HttpException α) : Prop := Raises x HttpException.IsClientError

theorem refusal {status : Nat} {detail : String} (h : 400 ≤ status ∧ status < 500) :
    HttpException.IsClientError ⟨status, detail⟩ := h

variable {env : ApiEnv} {s : Store}

/-! ## Loading -/

theorem refuses_getOr404 {α : Type} [Row α] (rows : List α) (id : Nat) (detail : String) :
    Refuses (getOr404 rows id detail) := by
  unfold getOr404
  cases Table.get rows id with
  | none => exact .error (refusal (by decide))
  | some r => exact .ok r

theorem refuses_loadProviderOfType (id : Nat) (connectorType : String) :
    Refuses (loadProviderOfType s id connectorType) :=
  (refuses_getOr404 _ _ _).bind fun _ => .ite (.error (refusal (by decide))) (.ok _)

theorem refuses_loadProvisionerOfType (id : Nat) (connectorType : String) :
    Refuses (loadProvisionerOfType s id connectorType) :=
  (refuses_getOr404 _ _ _).bind fun _ => .ite (.error (refusal (by decide))) (.ok _)

theorem refuses_loadProvisionersForProvider (platformId : Nat) (scope : ScopeName) :
    ∀ ids : List Nat, Refuses (loadProvisionersForProvider s platformId scope ids)
  | [] => .ok _
  | _ :: ids => by
    refine (refuses_getOr404 _ _ _).bind fun q => .ite (.error (refusal (by decide))) ?_
    refine .ite (.error (refusal (by decide))) ?_
    exact (refuses_loadProvisionersForProvider platformId scope ids).bind fun _ => .ok _

/-! ## Fields -/

theorem refuses_nonEmptyStr (field text : String) : Refuses (nonEmptyStr env field text) :=
  .ite (.error (refusal (by decide))) (.ok _)

theorem refuses_validateCronExpression (field text : String) : Refuses (validateCronExpression env field text) :=
  .ite (.ok _) (.error (refusal (by decide)))

theorem refuses_anyHttpUrl (field text : String) : Refuses (anyHttpUrl env field text) := by
  unfold anyHttpUrl
  cases env.parseUrl text with
  | none => exact .error (refusal (by decide))
  | some url => exact .ok url

theorem refuses_cronField (cron : Option String) : Refuses (cronField env cron) := by
  cases cron with
  | none => exact .ok _
  | some text => exact .map (refuses_validateCronExpression _ _)

theorem refuses_patchField {α : Type} {validate : α → Except HttpException α} (h : ∀ a, Refuses (validate a)) :
    ∀ f : Patch α, Refuses (patchField validate f)
  | .unset | .null => .ok _
  | .value a => .map (h a)

theorem refuses_validateMockPreset (preset : String) : Refuses (validateMockPresetOr400 env preset) := by
  unfold validateMockPresetOr400
  cases env.resolveMockPresetPath preset with
  | error detail => exact .error (refusal (by decide))
  | ok _ => exact .ok _

/-! ## Bodies -/

theorem refuses_capsuleCreate (b : CapsuleProvisionerCreate) : Refuses (b.validate env) :=
  (refuses_nonEmptyStr _ _).bind fun _ => (refuses_cronField _).bind fun _ => (refuses_nonEmptyStr _ _).bind fun _ =>
    .ok _

theorem refuses_capsuleUpdate (b : CapsuleProvisionerUpdate) : Refuses (b.validate env) :=
  (refuses_patchField (refuses_nonEmptyStr _) _).bind fun _ =>
    (refuses_patchField (refuses_validateCronExpression _) _).bind fun _ =>
      (refuses_patchField (refuses_nonEmptyStr _) _).bind fun _ => .ok _

theorem refuses_dynatraceCreate (b : DynatraceProvisionerCreate) : Refuses (b.validate env) :=
  (refuses_capsuleCreate _).bind fun _ => (refuses_anyHttpUrl _ _).bind fun _ => .ok _

theorem refuses_dynatraceUpdate (b : DynatraceProvisionerUpdate) : Refuses (b.validate env) :=
  (refuses_capsuleUpdate _).bind fun _ => (refuses_patchField (refuses_anyHttpUrl _) _).bind fun _ => .ok _

theorem refuses_mockCreate (b : MockProvisionerCreate) : Refuses (b.validate env) :=
  (refuses_nonEmptyStr _ _).bind fun _ => (refuses_cronField _).bind fun _ => (refuses_nonEmptyStr _ _).bind fun _ =>
    .ok _

theorem refuses_mockUpdate (b : MockProvisionerUpdate) : Refuses (b.validate env) :=
  (refuses_patchField (refuses_nonEmptyStr _) _).bind fun _ =>
    (refuses_patchField (refuses_validateCronExpression _) _).bind fun _ =>
      (refuses_patchField (refuses_nonEmptyStr _) _).bind fun _ => .ok _

theorem refuses_prometheusCreate (b : PrometheusProviderCreate) : Refuses (b.validate env) :=
  (refuses_nonEmptyStr _ _).bind fun _ => (refuses_anyHttpUrl _ _).bind fun _ => (refuses_nonEmptyStr _ _).bind fun _ =>
    .ok _

theorem refuses_prometheusUpdate (b : PrometheusProviderUpdate) : Refuses (b.validate env) :=
  (refuses_patchField (refuses_nonEmptyStr _) _).bind fun _ =>
    (refuses_patchField (refuses_anyHttpUrl _) _).bind fun _ =>
    (refuses_patchField (refuses_nonEmptyStr _) _).bind fun _ => .ok _

theorem refuses_dynatraceProviderCreate (b : DynatraceProviderCreate) : Refuses (b.validate env) :=
  (refuses_nonEmptyStr _ _).bind fun _ => (refuses_anyHttpUrl _ _).bind fun _ => (refuses_nonEmptyStr _ _).bind fun _ =>
    .ok _

theorem refuses_dynatraceProviderUpdate (b : DynatraceProviderUpdate) : Refuses (b.validate env) :=
  (refuses_patchField (refuses_nonEmptyStr _) _).bind fun _ =>
    (refuses_patchField (refuses_anyHttpUrl _) _).bind fun _ =>
    (refuses_patchField (refuses_nonEmptyStr _) _).bind fun _ => .ok _

/-! ## Routes -/

theorem refuses_createProvider (columns : ProviderColumns) (ids : List Nat) (view : Nat → View) :
    Refuses (createProvider s columns ids view) :=
  (refuses_getOr404 _ _ _).bind fun _ => (refuses_loadProvisionersForProvider _ _ _).bind fun _ => .ok _

theorem refuses_scopeCanChange (p : MachineProvider) :
    ∀ scope : Patch ScopeName, Refuses (ensureScopeCanChange s p scope)
  | .unset | .null => .ok _
  | .value _ => .ite (.error (refusal (by decide))) (.ok _)

theorem refuses_providerPlatformCanChange (p : MachineProvider) :
    ∀ platformId : Patch Nat, Refuses (ensureProviderPlatformCanChange s p platformId)
  | .unset => .ok _
  | .null => .error (refusal (by decide))
  | .value _ => (refuses_getOr404 _ _ _).bind fun _ => .ite (.error (refusal (by decide))) (.ok _)

theorem refuses_updateProvider (id : Nat) (connectorType : String) (platformId : Patch Nat) (name : Patch String)
    (scope : Patch ScopeName) (change : ConnectorConfig → ConnectorConfig) (view : View) :
    Refuses (updateProvider env s id connectorType platformId name scope change view) :=
  (refuses_loadProviderOfType _ _).bind fun p => (refuses_scopeCanChange p scope).bind fun _ =>
    (refuses_providerPlatformCanChange p platformId).bind fun _ => .ok _

theorem refuses_setProviderEnabled (id : Nat) (enabled : Bool) : Refuses (setProviderEnabled s id enabled) :=
  (refuses_getOr404 _ _ _).bind fun _ => .ok _

theorem refuses_attachProviderProvisioner (id provisionerId : Nat) :
    Refuses (attachProviderProvisioner s id provisionerId) := by
  refine (refuses_getOr404 _ _ _).bind fun p => (refuses_getOr404 _ _ _).bind fun q => ?_
  refine .ite (.error (refusal (by decide))) (.ite (.ok _) ?_)
  exact .ite (.error (refusal (by decide))) (.ok _)

theorem refuses_createProvisioner (columns : ProvisionerColumns) (view : Nat → View) :
    Refuses (createProvisioner s columns view) :=
  (refuses_getOr404 _ _ _).bind fun _ => .ok _

theorem refuses_platformPatchCanChange (q : MachineProvisioner) :
    ∀ platformId : Patch Nat, Refuses (ensurePlatformPatchCanChange s q platformId)
  | .unset => .ok _
  | .null => .error (refusal (by decide))
  | .value _ => by
    refine (refuses_getOr404 _ _ _).bind fun _ => .ite (.ok _) (.ite (.error (refusal (by decide))) ?_)
    exact .ite (.error (refusal (by decide))) (.ok _)

theorem refuses_updateProvisioner (id : Nat) (connectorType : String) (platformId : Patch Nat)
    (name cron : Patch String)
    {change : ConnectorConfig → Except HttpException ConnectorConfig} (hchange : ∀ c, Refuses (change c))
    (view : View) :
    Refuses (updateProvisioner env s id connectorType platformId name cron change view) :=
  (refuses_loadProvisionerOfType _ _).bind fun q => (refuses_platformPatchCanChange q platformId).bind fun _ =>
    (hchange _).bind fun _ => .ok _

theorem refuses_setProvisionerEnabled (id : Nat) (enabled : Bool) : Refuses (setProvisionerEnabled s id enabled) :=
  (refuses_getOr404 _ _ _).bind fun _ => .ok _

/-- A route refuses a request with a client error. -/
theorem plan_refusal (request : Request) : Refuses (request.plan env s) := by
  cases request with
  | createPlatform body => exact Raises.bind ((refuses_nonEmptyStr _ _).bind fun _ => .ok _) fun _ => .ok _
  | updatePlatform id body => exact (refuses_getOr404 _ _ _).bind fun _ => .ok _
  | deletePlatform id => exact (refuses_getOr404 _ _ _).bind fun _ => .ok _
  | createPrometheusProvider body => exact (refuses_prometheusCreate body).bind fun _ => refuses_createProvider _ _ _
  | createDynatraceProvider body =>
    exact (refuses_dynatraceProviderCreate body).bind fun _ => refuses_createProvider _ _ _
  | createMockProvider body =>
    exact Raises.bind ((refuses_nonEmptyStr _ _).bind fun _ => .ok _) fun _ => refuses_createProvider _ _ _
  | updatePrometheusProvider id body =>
    exact (refuses_prometheusUpdate body).bind fun _ => refuses_updateProvider _ _ _ _ _ _ _
  | updateDynatraceProvider id body =>
    exact (refuses_dynatraceProviderUpdate body).bind fun _ => refuses_updateProvider _ _ _ _ _ _ _
  | updateMockProvider id body =>
    refine Raises.bind ((refuses_patchField (refuses_nonEmptyStr _) _).bind fun _ => .ok _) fun _ => ?_
    exact refuses_updateProvider _ _ _ _ _ _ _
  | enableProvider id => exact refuses_setProviderEnabled id true
  | disableProvider id => exact refuses_setProviderEnabled id false
  | deleteProvider id => exact (refuses_getOr404 _ _ _).bind fun _ => .ok _
  | attachProviderProvisioner id provisionerId => exact refuses_attachProviderProvisioner id provisionerId
  | detachProviderProvisioner id provisionerId =>
    refine (refuses_getOr404 _ _ _).bind fun _ => (refuses_getOr404 _ _ _).bind fun _ => ?_
    exact .ite (.error (refusal (by decide))) (.ok _)
  | createCapsuleProvisioner body => exact (refuses_capsuleCreate body).bind fun _ => refuses_createProvisioner _ _
  | createDynatraceProvisioner body => exact (refuses_dynatraceCreate body).bind fun _ => refuses_createProvisioner _ _
  | createMockProvisioner body =>
    exact (refuses_mockCreate body).bind fun _ => (refuses_getOr404 _ _ _).bind fun _ =>
      (refuses_validateMockPreset _).bind fun _ => refuses_createProvisioner _ _
  | updateCapsuleProvisioner id body =>
    exact (refuses_capsuleUpdate body).bind fun _ => refuses_updateProvisioner _ _ _ _ _ (fun _ => .ok _) _
  | updateDynatraceProvisioner id body =>
    exact (refuses_dynatraceUpdate body).bind fun _ => refuses_updateProvisioner _ _ _ _ _ (fun _ => .ok _) _
  | updateMockProvisioner id body =>
    refine (refuses_mockUpdate body).bind fun payload => refuses_updateProvisioner _ _ _ _ _ (fun c => ?_) _
    cases payload.preset with
    | unset | null => exact .ok _
    | value preset => exact (refuses_validateMockPreset preset).bind fun _ => .ok _
  | enableProvisioner id => exact refuses_setProvisionerEnabled id true
  | disableProvisioner id => exact refuses_setProvisionerEnabled id false
  | deleteProvisioner id => exact (refuses_getOr404 _ _ _).bind fun _ => .ok _
  | deleteMachine id => exact (refuses_getOr404 _ _ _).bind fun _ => .ok _

/-! ## Commits -/

/-- A checked statement runs into a constraint of the database, and the update of a platform into none. -/
theorem Statement.Checked.run_error {statement : Statement} {e : DbError} (hc : statement.Checked env s)
    (h : statement.run s = .error e) : e = .integrityError ∧ ∀ id c, statement ≠ .updatePlatform id c := by
  cases statement with
  | insertPlatform name description extra =>
    simp only [run] at h
    split_ifs at h
    cases h
    exact ⟨rfl, by rintro _ _ ⟨⟩⟩
  | updatePlatform id c => simp [run, show id ∈ Table.ids s.platforms from hc] at h
  | insertProvider v ids =>
    simp only [run] at h
    split_ifs at h
    cases h
    exact ⟨rfl, by rintro _ _ ⟨⟩⟩
  | updateProvider id c =>
    obtain ⟨p, hp, -⟩ := hc
    simp only [run, hp] at h
    refine ⟨?_, by rintro _ _ ⟨⟩⟩
    cases hr : c.update p with
    | none =>
      rw [hr] at h
      exact (Except.error.inj h).symm
    | some r =>
      simp only [hr] at h
      split_ifs at h
      exact (Except.error.inj h).symm
  | deleteProvider id ids =>
    obtain ⟨p, hp, rfl⟩ := hc
    simp only [run] at h
    split_ifs at h with hattached
    refine absurd (fun i hi => ?_) hattached
    obtain ⟨q, hq, rfl⟩ := List.mem_map.mp hi
    obtain ⟨-, hpair⟩ := mem_provisionersOf.mp hq
    rwa [show p.id = id from (Table.get_some hp).2] at hpair
  | insertProvisioner v =>
    simp only [run] at h
    split_ifs at h
    cases h
    exact ⟨rfl, by rintro _ _ ⟨⟩⟩
  | updateProvisioner id c =>
    obtain ⟨q, hq, -⟩ := hc
    simp only [run, hq] at h
    refine ⟨?_, by rintro _ _ ⟨⟩⟩
    cases hr : c.update q with
    | none =>
      rw [hr] at h
      exact (Except.error.inj h).symm
    | some r =>
      simp only [hr] at h
      split_ifs at h
      exact (Except.error.inj h).symm
  | attach pair =>
    simp only [run] at h
    split_ifs at h
    cases h
    exact ⟨rfl, by rintro _ _ ⟨⟩⟩
  | detach pair => simp [run, show pair ∈ s.attachments from hc] at h
  | deletePlatform id | deleteProvisioner id | deleteMachine id => cases h

end Washing
