import Washing.Api.Readable
import Washing.Security.Veil

/-!
# Secrets

The tokens of connectors are written by requests and never shown. Two histories of calls that differ in their tokens
only are answered alike, and leave rows that differ in the encrypted configurations only (`tokens_never_shown`).

A call on the veiled rows whose own token is masked too does what the call does, veiled (`handle_veil`). An update is
where the two differ: one of them may find that the configuration does not change, and emits nothing.
-/

namespace Washing

open Resources Routes

/-! ## Calls -/

/-- The calls that read platforms and connectors. -/
inductive Reading
  | listPlatforms (offset limit : Nat)
  | getPlatform (platformId : Nat)
  | listProviders (platformId : Option Nat) (scope : Option ScopeName) (enabled : Option Bool) (offset limit : Nat)
  | getProvider (providerId : Nat)
  | getPrometheusProvider (providerId : Nat)
  | getDynatraceProvider (providerId : Nat)
  | getMockProvider (providerId : Nat)
  | listProviderProvisioners (providerId offset limit : Nat)
  | listProvisioners (platformId : Option Nat) (enabled : Option Bool) (offset limit : Nat)
  | getProvisioner (provisionerId : Nat)
  | getCapsuleProvisioner (provisionerId : Nat)
  | getDynatraceProvisioner (provisionerId : Nat)
  | getMockProvisioner (provisionerId : Nat)
  | listProvisionerProviders (provisionerId offset limit : Nat)

/-- What a call is answered with. -/
inductive Answer
  | one (body : Body)
  | platforms (page : PaginatedResponse PlatformRead)
  | providers (page : PaginatedResponse ProviderRead)
  | provisioners (page : PaginatedResponse ProvisionerRead)

/-- The answer of the route of a call that reads. -/
def Reading.answer (env : ApiEnv) (s : Store) : Reading → Except HttpException Answer
  | listPlatforms offset limit => (Routes.listPlatforms env s offset limit).map .platforms
  | getPlatform id => (Routes.getPlatform env s id).map fun r => .one (.platform r)
  | listProviders platformId scope enabled offset limit =>
    (Routes.listProviders env s platformId scope enabled offset limit).map .providers
  | getProvider id => (Routes.getProvider env s id).map fun r => .one (.provider r)
  | getPrometheusProvider id => (Routes.getPrometheusProvider env s id).map fun r => .one (.prometheusProvider r)
  | getDynatraceProvider id => (Routes.getDynatraceProvider env s id).map fun r => .one (.dynatraceProvider r)
  | getMockProvider id => (Routes.getMockProvider env s id).map fun r => .one (.mockProvider r)
  | listProviderProvisioners id offset limit =>
    (Routes.listProviderProvisioners env s id offset limit).map .provisioners
  | listProvisioners platformId enabled offset limit =>
    (Routes.listProvisioners env s platformId enabled offset limit).map .provisioners
  | getProvisioner id => (Routes.getProvisioner env s id).map fun r => .one (.provisioner r)
  | getCapsuleProvisioner id => (Routes.getCapsuleProvisioner env s id).map fun r => .one (.capsuleProvisioner r)
  | getDynatraceProvisioner id => (Routes.getDynatraceProvisioner env s id).map fun r => .one (.dynatraceProvisioner r)
  | getMockProvisioner id => (Routes.getMockProvisioner env s id).map fun r => .one (.mockProvisioner r)
  | listProvisionerProviders id offset limit => (Routes.listProvisionerProviders env s id offset limit).map .providers

/-! ## Reading veiled rows -/

section Reading

variable {env : ApiEnv} {s : Store}

/-- What the routes read in a veiled configuration. -/
theorem loads_veil_written (henv : env.Keeps) {text : String} (h : ∃ c, text = env.dumps c) :
    env.loads (env.veil text) = (env.loads text).masked := by
  obtain ⟨c, rfl⟩ := h
  rw [loads_veil henv, henv.loads_dumps, ConnectorConfig.canonical_canonical]

theorem getOr404_veilProvider {β : Type} {f g : MachineProvider → Except HttpException β}
    (h : ∀ p ∈ s.providers, f (p.mapConfig env.veil) = g p) (id : Nat) (detail : String) :
    (getOr404 (s.veil env).providers id detail >>= f) = (getOr404 s.providers id detail >>= g) := by
  rw [getOr404, getOr404, Store.veil, get_mapProvider]
  cases hp : Table.get s.providers id with
  | none => rfl
  | some p => exact h p (Table.get_some hp).1

theorem loadProvider_veil {β : Type} {f g : MachineProvider → β} (h : ∀ p ∈ s.providers, f (p.mapConfig env.veil) = g p)
    (id : Nat) : (Routes.loadProvider (s.veil env) id).map f = (Routes.loadProvider s id).map g := by
  rw [Routes.loadProvider, Routes.loadProvider, getOr404, getOr404, Store.veil, get_mapProvider]
  cases hp : Table.get s.providers id with
  | none => rfl
  | some p => exact congrArg Except.ok (h p (Table.get_some hp).1)

theorem getOr404_veilProvisioner {β : Type} {f g : MachineProvisioner → Except HttpException β}
    (h : ∀ q ∈ s.provisioners, f (q.mapConfig env.veil) = g q) (id : Nat) (detail : String) :
    (getOr404 (s.veil env).provisioners id detail >>= f) = (getOr404 s.provisioners id detail >>= g) := by
  rw [getOr404, getOr404, Store.veil, get_mapProvisioner]
  cases hq : Table.get s.provisioners id with
  | none => rfl
  | some q => exact h q (Table.get_some hq).1

theorem providerRead_veil (p : MachineProvider) :
    ProviderRead.modelValidate env (s.veil env) (p.mapConfig env.veil) = ProviderRead.modelValidate env s p := by
  rw [ProviderRead.modelValidate, ProviderRead.modelValidate, Store.veil, mapConfig_provisionerIds]
  rfl

theorem loadProviderOfType_veil {β : Type} {f g : MachineProvider → Except HttpException β}
    (hfg : ∀ p ∈ s.providers, f (p.mapConfig env.veil) = g p) (id : Nat) (type : String) :
    (loadProviderOfType (s.veil env) id type >>= f) = (loadProviderOfType s id type >>= g) := by
  rw [loadProviderOfType, loadProviderOfType, bind_assoc, bind_assoc]
  refine getOr404_veilProvider (fun p hp => ?_) id _
  have hsame : (p.mapConfig env.veil).type = p.type := rfl
  rw [hsame]
  by_cases htype : p.type ≠ type
  · rw [if_pos htype, if_pos htype]
    rfl
  · rw [if_neg htype, if_neg htype]
    exact hfg p hp

theorem loadProvisionerOfType_veil {β : Type} {f g : MachineProvisioner → Except HttpException β}
    (hfg : ∀ q ∈ s.provisioners, f (q.mapConfig env.veil) = g q) (id : Nat) (type : String) :
    (loadProvisionerOfType (s.veil env) id type >>= f) = (loadProvisionerOfType s id type >>= g) := by
  rw [loadProvisionerOfType, loadProvisionerOfType, bind_assoc, bind_assoc]
  refine getOr404_veilProvisioner (fun q hq => ?_) id _
  have hsame : (q.mapConfig env.veil).type = q.type := rfl
  rw [hsame]
  by_cases htype : q.type ≠ type
  · rw [if_pos htype, if_pos htype]
    rfl
  · rw [if_neg htype, if_neg htype]
    exact hfg q hq

/-- A list of rows with the order of their names, on the veiled rows. -/
theorem paginate_veil {α β : Type} {g : α → α} {k : α → String × Nat} (hk : ∀ a, k (g a) = k a)
    {serialize serialize' : α → Except HttpException β} (rows : List α)
    (h : ∀ a ∈ rows, serialize' (g a) = serialize a) (offset limit : Nat) :
    (paginateQuery (rows.map g) (fun a b => namedLe (k a) (k b)) offset limit).serialize serialize' =
      (paginateQuery rows (fun a b => namedLe (k a) (k b)) offset limit).serialize serialize := by
  have hsorted : orderBy (fun a b => namedLe (k a) (k b)) (rows.map g) =
      (orderBy (fun a b => namedLe (k a) (k b)) rows).map g :=
    (List.map_insertionSort (r := _) (s := _) g rows fun a _ b _ => by rw [hk, hk]).symm
  have hitems : ∀ items : List α, (∀ a ∈ items, a ∈ rows) →
      (items.map g).mapM serialize' = items.mapM serialize := by
    intro items hitems
    induction items with
    | nil => rfl
    | cons a items ih =>
      rw [List.map_cons, List.mapM_cons, List.mapM_cons, h a (hitems a List.mem_cons_self),
        ih fun b hb => hitems b (List.mem_cons_of_mem _ hb)]
  simp only [PaginatedResponse.serialize, paginateQuery, hsorted, ← List.map_drop, ← List.map_take, List.length_map]
  rw [hitems _ fun a ha => mem_orderBy.mp (List.mem_of_mem_drop (List.mem_of_mem_take ha))]

theorem getProvider_veil (id : Nat) : getProvider env (s.veil env) id = getProvider env s id := by
  refine getOr404_veilProvider (fun p _ => ?_) id _
  rw [providerRead_veil]

theorem getProvisioner_veil (id : Nat) : getProvisioner env (s.veil env) id = getProvisioner env s id :=
  getOr404_veilProvisioner (fun _ _ => by rfl) id _

theorem getMockProvider_veil (id : Nat) : getMockProvider env (s.veil env) id = getMockProvider env s id :=
  loadProviderOfType_veil (fun _ _ => by rfl) id _

theorem listProviders_veil (platformId : Option Nat) (scope : Option ScopeName) (enabled : Option Bool)
    (offset limit : Nat) : listProviders env (s.veil env) platformId scope enabled offset limit =
      listProviders env s platformId scope enabled offset limit := by
  rw [listProviders, listProviders]
  have hrows : (s.veil env).providers = s.providers.map (MachineProvider.mapConfig env.veil) := rfl
  rw [hrows, List.filter_map]
  exact paginate_veil (k := fun p : MachineProvider => (p.name, p.id)) (fun _ => by rfl) _
    (fun p _ => by rw [providerRead_veil]) offset limit

theorem listProvisioners_veil (platformId : Option Nat) (enabled : Option Bool) (offset limit : Nat) :
    listProvisioners env (s.veil env) platformId enabled offset limit =
      listProvisioners env s platformId enabled offset limit := by
  rw [listProvisioners, listProvisioners]
  have hrows : (s.veil env).provisioners = s.provisioners.map (MachineProvisioner.mapConfig env.veil) := rfl
  rw [hrows, List.filter_map]
  exact paginate_veil (k := fun q : MachineProvisioner => (q.name, q.id)) (fun _ => by rfl) _ (fun _ _ => by rfl)
    offset limit

theorem listProviderProvisioners_veil (id offset limit : Nat) :
    listProviderProvisioners env (s.veil env) id offset limit = listProviderProvisioners env s id offset limit := by
  refine getOr404_veilProvider (fun p _ => ?_) id _
  rw [Store.veil, mapConfig_provisionersOf]
  exact paginate_veil (k := fun q : MachineProvisioner => (q.name, q.id)) (fun _ => by rfl) _ (fun _ _ => by rfl)
    offset limit

theorem listProvisionerProviders_veil (id offset limit : Nat) :
    listProvisionerProviders env (s.veil env) id offset limit = listProvisionerProviders env s id offset limit := by
  refine getOr404_veilProvisioner (fun q _ => ?_) id _
  have hrows : (s.veil env).providersOf (q.mapConfig env.veil) =
      (s.providersOf q).map (MachineProvider.mapConfig env.veil) := mapConfig_providersOf env.veil s q
  rw [hrows]
  exact paginate_veil (k := fun p : MachineProvider => (p.name, p.id)) (fun _ => by rfl) _
    (fun p _ => by rw [providerRead_veil]) offset limit

variable (henv : env.Keeps) (h : s.Settled env)

include henv h

theorem prometheusRead_veil {p : MachineProvider} (hp : p ∈ s.providers) :
    prometheusReadModel env (s.veil env) (p.mapConfig env.veil) = prometheusReadModel env s p := by
  rw [prometheusReadModel, prometheusReadModel, providerRead_veil, MachineProvider.mapConfig,
    loads_veil_written henv (h.writtenProviders p hp)]
  rfl

theorem dynatraceProviderRead_veil {p : MachineProvider} (hp : p ∈ s.providers) :
    dynatraceProviderReadModel env (s.veil env) (p.mapConfig env.veil) = dynatraceProviderReadModel env s p := by
  rw [dynatraceProviderReadModel, dynatraceProviderReadModel, providerRead_veil, MachineProvider.mapConfig,
    loads_veil_written henv (h.writtenProviders p hp), ConnectorConfig.hasToken_masked]
  rfl

theorem capsuleRead_veil {q : MachineProvisioner} (hq : q ∈ s.provisioners) :
    capsuleReadModel env (q.mapConfig env.veil) = capsuleReadModel env q := by
  rw [capsuleReadModel, capsuleReadModel, MachineProvisioner.mapConfig,
    loads_veil_written henv (h.writtenProvisioners q hq), ConnectorConfig.hasToken_masked]
  rfl

theorem dynatraceProvisionerRead_veil {q : MachineProvisioner} (hq : q ∈ s.provisioners) :
    dynatraceProvisionerReadModel env (q.mapConfig env.veil) = dynatraceProvisionerReadModel env q := by
  rw [dynatraceProvisionerReadModel, dynatraceProvisionerReadModel, MachineProvisioner.mapConfig,
    loads_veil_written henv (h.writtenProvisioners q hq), ConnectorConfig.hasToken_masked]
  rfl

theorem mockRead_veil {q : MachineProvisioner} (hq : q ∈ s.provisioners) :
    mockReadModel env (q.mapConfig env.veil) = mockReadModel env q := by
  rw [mockReadModel, mockReadModel, MachineProvisioner.mapConfig, loads_veil_written henv (h.writtenProvisioners q hq)]
  rfl

theorem getPrometheusProvider_veil (id : Nat) :
    getPrometheusProvider env (s.veil env) id = getPrometheusProvider env s id := by
  refine loadProviderOfType_veil (fun p hp => ?_) id _
  rw [prometheusRead_veil henv h hp]

theorem getDynatraceProvider_veil (id : Nat) :
    getDynatraceProvider env (s.veil env) id = getDynatraceProvider env s id := by
  refine loadProviderOfType_veil (fun p hp => ?_) id _
  rw [dynatraceProviderRead_veil henv h hp]

theorem getCapsuleProvisioner_veil (id : Nat) :
    getCapsuleProvisioner env (s.veil env) id = getCapsuleProvisioner env s id :=
  loadProvisionerOfType_veil (fun _ hq => capsuleRead_veil henv h hq) id _

theorem getDynatraceProvisioner_veil (id : Nat) :
    getDynatraceProvisioner env (s.veil env) id = getDynatraceProvisioner env s id :=
  loadProvisionerOfType_veil (fun _ hq => dynatraceProvisionerRead_veil henv h hq) id _

theorem getMockProvisioner_veil (id : Nat) : getMockProvisioner env (s.veil env) id = getMockProvisioner env s id :=
  loadProvisionerOfType_veil (fun _ hq => mockRead_veil henv h hq) id _

/-- What a call reads on the veiled rows is what it reads. -/
theorem answer_veil (reading : Reading) : reading.answer env (s.veil env) = reading.answer env s := by
  cases reading with
  | listPlatforms offset limit => rfl
  | getPlatform id => rfl
  | listProviders platformId scope enabled offset limit =>
    simp only [Reading.answer, listProviders_veil]
  | getProvider id => simp only [Reading.answer, getProvider_veil]
  | getPrometheusProvider id => simp only [Reading.answer, getPrometheusProvider_veil henv h]
  | getDynatraceProvider id => simp only [Reading.answer, getDynatraceProvider_veil henv h]
  | getMockProvider id => simp only [Reading.answer, getMockProvider_veil]
  | listProviderProvisioners id offset limit => simp only [Reading.answer, listProviderProvisioners_veil]
  | listProvisioners platformId enabled offset limit => simp only [Reading.answer, listProvisioners_veil]
  | getProvisioner id => simp only [Reading.answer, getProvisioner_veil]
  | getCapsuleProvisioner id => simp only [Reading.answer, getCapsuleProvisioner_veil henv h]
  | getDynatraceProvisioner id => simp only [Reading.answer, getDynatraceProvisioner_veil henv h]
  | getMockProvisioner id => simp only [Reading.answer, getMockProvisioner_veil henv h]
  | listProvisionerProviders id offset limit => simp only [Reading.answer, listProvisionerProviders_veil]

/-- What a response reads back from the veiled rows is what it reads back. -/
theorem respond_veil (view : View) : view.respond env (s.veil env) = view.respond env s := by
  cases view with
  | platform id => rfl
  | provider id => simp only [View.respond, getProvider_veil]
  | prometheusProvider id =>
    exact loadProvider_veil (fun p hp => congrArg Body.prometheusProvider (prometheusRead_veil henv h hp)) id
  | dynatraceProvider id =>
    exact loadProvider_veil (fun p hp => congrArg Body.dynatraceProvider (dynatraceProviderRead_veil henv h hp)) id
  | mockProvider id => simp only [View.respond, getMockProvider_veil]
  | provisioner id => simp only [View.respond, getProvisioner_veil]
  | capsuleProvisioner id =>
    exact getOr404_veilProvisioner (fun q hq => by rw [capsuleRead_veil henv h hq]) id _
  | dynatraceProvisioner id =>
    exact getOr404_veilProvisioner (fun q hq => by rw [dynatraceProvisionerRead_veil henv h hq]) id _
  | mockProvisioner id => exact getOr404_veilProvisioner (fun q hq => by rw [mockRead_veil henv h hq]) id _
  | noContent => rfl

end Reading

/-! ## Masked calls -/

/-- The token of a body, of which only is left whether it is blank. -/
def maskBlank (U : Unicode) (token : String) : String := maskToken (U.strip token)

/-- The call with its token masked. -/
def Request.masked (U : Unicode) : Request → Request
  | createDynatraceProvider b => createDynatraceProvider { b with token := maskBlank U b.token }
  | updateDynatraceProvider id b => updateDynatraceProvider id { b with token := b.token.map (maskBlank U) }
  | createCapsuleProvisioner b => createCapsuleProvisioner { b with token := maskBlank U b.token }
  | createDynatraceProvisioner b => createDynatraceProvisioner { b with token := maskBlank U b.token }
  | updateCapsuleProvisioner id b => updateCapsuleProvisioner id { b with token := b.token.map (maskBlank U) }
  | updateDynatraceProvisioner id b => updateDynatraceProvisioner id { b with token := b.token.map (maskBlank U) }
  | request => request

section Bodies

variable {env : ApiEnv}

theorem agrees_map {ε α β : Type} (x : Except ε α) (f : α → β) : Agrees (fun a b => b = f a) x (x.map f) := by
  cases x with
  | error e => exact rfl
  | ok a => exact rfl

theorem strip_mask : env.unicode.strip "" = "" ∧ env.unicode.strip "*" = "*" :=
  ⟨(env.unicode.strip_ascii (by decide)).trans (by decide +kernel),
    (env.unicode.strip_ascii (by decide)).trans (by decide +kernel)⟩

/-- A masked token passes where the token does. -/
theorem nonEmptyStr_mask (field token : String) :
    nonEmptyStr env field (maskBlank env.unicode token) = (nonEmptyStr env field token).map maskToken := by
  rw [nonEmptyStr, nonEmptyStr, maskBlank]
  by_cases h : env.unicode.strip token = ""
  · rw [if_pos h, h, maskToken, if_pos rfl, strip_mask.1, if_pos rfl]
    rfl
  · rw [if_neg h, maskToken, if_neg h, strip_mask.2, if_neg (by decide), Except.map, maskToken, if_neg h]

theorem patchField_mask (field : String) (token : Patch String) :
    patchField (nonEmptyStr env field) (token.map (maskBlank env.unicode)) =
      (patchField (nonEmptyStr env field) token).map (Patch.map maskToken) := by
  cases token with
  | unset => rfl
  | null => rfl
  | value token =>
    simp only [Patch.map, patchField, nonEmptyStr_mask]
    cases nonEmptyStr env field token <;> rfl

theorem capsuleCreate_mask (b : CapsuleProvisionerCreate) :
    CapsuleProvisionerCreate.validate env { b with token := maskBlank env.unicode b.token } =
      (b.validate env).map fun payload => { payload with token := maskToken payload.token } := by
  simp only [CapsuleProvisionerCreate.validate, nonEmptyStr_mask]
  cases nonEmptyStr env "name" b.name with
  | error e => rfl
  | ok name =>
    cases cronField env b.cron with
    | error e => rfl
    | ok cron => cases nonEmptyStr env "token" b.token <;> rfl

theorem capsuleUpdate_mask (b : CapsuleProvisionerUpdate) :
    CapsuleProvisionerUpdate.validate env { b with token := b.token.map (maskBlank env.unicode) } =
      (b.validate env).map fun payload => { payload with token := payload.token.map maskToken } := by
  simp only [CapsuleProvisionerUpdate.validate, patchField_mask]
  cases patchField (nonEmptyStr env "name") b.name with
  | error e => rfl
  | ok name =>
    cases patchField (validateCronExpression env "cron") b.cron with
    | error e => rfl
    | ok cron => cases patchField (nonEmptyStr env "token") b.token <;> rfl

theorem dynatraceProvisionerCreate_mask (b : DynatraceProvisionerCreate) :
    DynatraceProvisionerCreate.validate env { b with token := maskBlank env.unicode b.token } =
      (b.validate env).map fun payload => { payload with token := maskToken payload.token } := by
  simp only [DynatraceProvisionerCreate.validate, capsuleCreate_mask]
  cases b.toCapsuleProvisionerCreate.validate env with
  | error e => rfl
  | ok shared => cases anyHttpUrl env "url" b.url <;> rfl

theorem dynatraceProvisionerUpdate_mask (b : DynatraceProvisionerUpdate) :
    DynatraceProvisionerUpdate.validate env { b with token := b.token.map (maskBlank env.unicode) } =
      (b.validate env).map fun payload => { payload with token := payload.token.map maskToken } := by
  simp only [DynatraceProvisionerUpdate.validate, capsuleUpdate_mask]
  cases b.toCapsuleProvisionerUpdate.validate env with
  | error e => rfl
  | ok shared => cases patchField (anyHttpUrl env "url") b.url <;> rfl

theorem dynatraceProviderCreate_mask (b : DynatraceProviderCreate) :
    DynatraceProviderCreate.validate env { b with token := maskBlank env.unicode b.token } =
      (b.validate env).map fun payload => { payload with token := maskToken payload.token } := by
  simp only [DynatraceProviderCreate.validate, nonEmptyStr_mask]
  cases nonEmptyStr env "name" b.name with
  | error e => rfl
  | ok name =>
    cases anyHttpUrl env "url" b.url with
    | error e => rfl
    | ok url => cases nonEmptyStr env "token" b.token <;> rfl

theorem dynatraceProviderUpdate_mask (b : DynatraceProviderUpdate) :
    DynatraceProviderUpdate.validate env { b with token := b.token.map (maskBlank env.unicode) } =
      (b.validate env).map fun payload => { payload with token := payload.token.map maskToken } := by
  simp only [DynatraceProviderUpdate.validate, patchField_mask]
  cases patchField (nonEmptyStr env "name") b.name with
  | error e => rfl
  | ok name =>
    cases patchField (anyHttpUrl env "url") b.url with
    | error e => rfl
    | ok url => cases patchField (nonEmptyStr env "token") b.token <;> rfl

end Bodies

/-! ## Plans -/

/-- The plan of a call on the rows, and one of the masked call on the veiled rows. -/
structure Plan.Veils (env : ApiEnv) (s : Store) (plan plan' : Plan) : Prop where
  view : plan'.view = plan.view
  commit : (plan'.commit env.storable (s.veil env)).map (Store.veil env) =
    (plan.commit env.storable s).map (Store.veil env)
  configs : ∀ statement ∈ plan.statement, ∀ text ∈ statement.configs, ∃ c, text = env.dumps c

section Plans

variable {env : ApiEnv} {s : Store} (henv : env.Keeps)

include henv

/-- A plan whose statement writes no configuration. -/
theorem veils_plain {plan : Plan} (h : ∀ statement ∈ plan.statement, statement.configs = []) :
    Plan.Veils env s plan plan := by
  refine ⟨rfl, ?_, fun statement hmem text htext => absurd (h statement hmem ▸ htext) List.not_mem_nil⟩
  obtain ⟨statement, conflict, view⟩ := plan
  cases statement with
  | none => exact congrArg Except.ok (veil_veil_store henv s)
  | some statement => exact commit_veil henv rfl Iff.rfl conflict view

theorem veils_none {conflict : Option String} {view : View} :
    Plan.Veils env s ⟨none, conflict, view⟩ ⟨none, conflict, view⟩ :=
  veils_plain henv fun _ h => by cases h

theorem veils_some {statement : Statement} (h : statement.configs = []) {conflict : Option String} {view : View} :
    Plan.Veils env s ⟨some statement, conflict, view⟩ ⟨some statement, conflict, view⟩ :=
  veils_plain henv fun _ hmem => Option.some.inj hmem ▸ h

theorem veils_ite {c : Prop} [Decidable c] {statement : Statement} (h : statement.configs = [])
    {conflict : Option String} {view : View} :
    Plan.Veils env s ⟨if c then none else some statement, conflict, view⟩
      ⟨if c then none else some statement, conflict, view⟩ := by
  by_cases hc : c
  · rw [if_pos hc]
    exact veils_none henv
  · rw [if_neg hc]
    exact veils_some henv h

/-- The same plan on both rows. -/
theorem agrees_plain {x : Except HttpException Plan}
    (h : Ensures x fun plan => ∀ statement ∈ plan.statement, statement.configs = []) : Agrees (Plan.Veils env s) x x :=
  (Agrees.same x).mono fun plan _ hplan => hplan.1 ▸ veils_plain henv (h plan hplan.2)

omit henv

theorem agrees_getProvider (id : Nat) (detail : String) :
    Agrees (fun p p' => p ∈ s.providers ∧ Table.get s.providers id = some p ∧ p' = p.mapConfig env.veil)
      (getOr404 s.providers id detail) (getOr404 (s.veil env).providers id detail) := by
  rw [getOr404, getOr404, Store.veil, get_mapProvider]
  cases hp : Table.get s.providers id with
  | none => exact rfl
  | some p => exact ⟨(Table.get_some hp).1, rfl, rfl⟩

theorem agrees_getProvisioner (id : Nat) (detail : String) :
    Agrees (fun q q' => q ∈ s.provisioners ∧ Table.get s.provisioners id = some q ∧ q' = q.mapConfig env.veil)
      (getOr404 s.provisioners id detail) (getOr404 (s.veil env).provisioners id detail) := by
  rw [getOr404, getOr404, Store.veil, get_mapProvisioner]
  cases hq : Table.get s.provisioners id with
  | none => exact rfl
  | some q => exact ⟨(Table.get_some hq).1, rfl, rfl⟩

theorem agrees_loadProviderOfType (id : Nat) (type : String) :
    Agrees (fun p p' => p ∈ s.providers ∧ Table.get s.providers id = some p ∧ p' = p.mapConfig env.veil)
      (loadProviderOfType s id type) (loadProviderOfType (s.veil env) id type) := by
  refine (agrees_getProvider id _).bind fun p p' hp => ?_
  obtain ⟨hmem, hget, rfl⟩ := hp
  exact Agrees.guard Iff.rfl fun _ => ⟨hmem, hget, rfl⟩

theorem agrees_loadProvisionerOfType (id : Nat) (type : String) :
    Agrees (fun q q' => q ∈ s.provisioners ∧ Table.get s.provisioners id = some q ∧ q' = q.mapConfig env.veil)
      (loadProvisionerOfType s id type) (loadProvisionerOfType (s.veil env) id type) := by
  refine (agrees_getProvisioner id _).bind fun q q' hq => ?_
  obtain ⟨hmem, hget, rfl⟩ := hq
  exact Agrees.guard Iff.rfl fun _ => ⟨hmem, hget, rfl⟩

theorem agrees_loadProvisioners (platformId : Nat) (scope : ScopeName) : ∀ ids : List Nat,
    Agrees (fun qs qs' => qs' = qs.map (MachineProvisioner.mapConfig env.veil))
      (loadProvisionersForProvider s platformId scope ids)
      (loadProvisionersForProvider (s.veil env) platformId scope ids)
  | [] => rfl
  | id :: ids => by
    rw [loadProvisionersForProvider, loadProvisionersForProvider]
    refine (agrees_getProvisioner id _).bind fun q q' hq => ?_
    obtain ⟨-, -, rfl⟩ := hq
    refine Agrees.guard Iff.rfl fun _ => ?_
    have hconflict := mapConfig_findProviderScopeConflict env.veil s q scope none
    refine Agrees.guard (by rw [Store.veil, hconflict]) fun _ => ?_
    refine (agrees_loadProvisioners platformId scope ids).bind fun qs qs' hqs => ?_
    rw [hqs]
    exact rfl

include henv

/-- A provider with a configuration that is masked, too. -/
theorem createProvider_veil {columns : ProviderColumns} {config config' : ConnectorConfig}
    (hconfig : columns.config = env.dumps config) (hmasked : config'.canonical.masked = config.canonical.masked)
    (ids : List Nat) (view : Nat → View) :
    Agrees (Plan.Veils env s) (createProvider s columns ids view)
      (createProvider (s.veil env) { columns with config := env.dumps config' } ids view) := by
  refine (Agrees.same _).bind fun platform platform' _ => ?_
  refine (agrees_loadProvisioners columns.platformId columns.scope ids).bind fun qs qs' hqs => ?_
  obtain rfl := hqs
  have hids : (qs.map (MachineProvisioner.mapConfig env.veil)).map (·.id) = qs.map (·.id) := by
    rw [List.map_map]
    rfl
  rw [hids]
  refine ⟨rfl, commit_veil henv ?_ ?_ _ _, ?_⟩
  · simp only [Statement.mapConfig, hconfig, veil_dumps henv, hmasked]
  · simp only [Statement.Fits, Statement.texts, hconfig, List.forall_mem_cons, henv.storable]
  · rintro _ ⟨⟩ text htext
    exact ⟨config, (List.mem_singleton.mp htext).trans hconfig⟩

theorem createProvisioner_veil {columns : ProvisionerColumns} {config config' : ConnectorConfig}
    (hconfig : columns.config = env.dumps config) (hmasked : config'.canonical.masked = config.canonical.masked)
    (view : Nat → View) :
    Agrees (Plan.Veils env s) (createProvisioner s columns view)
      (createProvisioner (s.veil env) { columns with config := env.dumps config' } view) := by
  refine (Agrees.same _).bind fun platform platform' _ => ?_
  refine ⟨rfl, commit_veil henv ?_ ?_ _ _, ?_⟩
  · simp only [Statement.mapConfig, hconfig, veil_dumps henv, hmasked]
  · simp only [Statement.Fits, Statement.texts, hconfig, List.forall_mem_cons, henv.storable]
  · rintro _ ⟨⟩ text htext
    exact ⟨config, (List.mem_singleton.mp htext).trans hconfig⟩

/-- What is in the column after a change of the configuration, whether it is written or not. -/
theorem veil_changeConfig (old : String) (change : ConnectorConfig → ConnectorConfig) :
    env.veil ((changeConfig env old change).toOption.getD old) =
      env.dumps (change (env.loads old)).canonical.masked := by
  rw [changeConfig]
  by_cases h : change (env.loads old) = env.loads old
  · rw [if_pos h, h]
    rfl
  · rw [if_neg h]
    exact veil_dumps henv _

/-- A change and one that does the same to the masked configuration. -/
theorem veil_changeConfig_masked {old : String} (hold : ∃ c, old = env.dumps c)
    {change change' : ConnectorConfig → ConnectorConfig}
    (hchange : change' (env.loads old).masked = (change (env.loads old)).masked) :
    env.veil ((changeConfig env (env.veil old) change').toOption.getD (env.veil old)) =
      env.veil ((changeConfig env old change).toOption.getD old) := by
  rw [veil_changeConfig henv, veil_changeConfig henv, loads_veil_written henv hold, hchange,
    ConnectorConfig.canonical_masked, ConnectorConfig.masked_masked]

omit henv in
theorem changeConfig_written (env : ApiEnv) (old : String) (change : ConnectorConfig → ConnectorConfig) :
    changeConfig env old change ≠ .null ∧
      ∀ text ∈ (changeConfig env old change).toOption.toList, ∃ c, text = env.dumps c := by
  rw [changeConfig]
  by_cases h : change (env.loads old) = env.loads old
  · rw [if_pos h]
    exact ⟨by simp, fun _ hmem => absurd hmem List.not_mem_nil⟩
  · rw [if_neg h]
    exact ⟨by simp, fun _ hmem => ⟨_, List.mem_singleton.mp hmem⟩⟩

/-- Two PATCHes of a provider that differ in what they do to the token only. -/
theorem veils_updateProvider (h : s.Settled env) {id : Nat} {p : MachineProvider}
    (hget : Table.get s.providers id = some p) (change change' : ConnectorConfig → ConnectorConfig)
    (hchange : change' (env.loads p.config).masked = (change (env.loads p.config)).masked) {c : ProviderChanges}
    (hc : c.config = changeConfig env p.config change) (conflict : Option String) (view : View) :
    Plan.Veils env s
      ⟨if c = ⟨.unset, .unset, .unset, .unset, .unset⟩ then none else some (.updateProvider id c), conflict, view⟩
      ⟨if { c with config := changeConfig env (env.veil p.config) change' } = ⟨.unset, .unset, .unset, .unset, .unset⟩
        then none
        else some (.updateProvider id { c with config := changeConfig env (env.veil p.config) change' }),
        conflict, view⟩ := by
  have hwritten := h.writtenProviders p (Table.get_some hget).1
  have hwritten' := h.veil.writtenProviders (p.mapConfig env.veil) (List.mem_map_of_mem (Table.get_some hget).1)
  have hget' : Table.get (s.veil env).providers id = some (p.mapConfig env.veil) := by
    rw [Store.veil, get_mapProvider, hget]
    rfl
  obtain ⟨hnull, hdumps⟩ := changeConfig_written env p.config change
  obtain ⟨hnull', hdumps'⟩ := changeConfig_written env (env.veil p.config) change'
  have hstored := (storable_config henv hnull hwritten hdumps).1
  have hstored' := (storable_config henv hnull' hwritten' hdumps').1
  refine ⟨rfl, ?_, ?_⟩
  · rw [commit_updateProvider henv h hget (hc ▸ hnull) (hc ▸ hdumps),
      commit_updateProvider henv h.veil hget' hnull' hdumps']
    refine commit_veil henv ?_ ?_ conflict view
    · simp only [Statement.mapConfig, ProviderChanges.withConfig, Patch.map, hc]
      rw [← veil_changeConfig_masked henv hwritten hchange]
      rfl
    · simp only [Statement.Fits, Statement.texts, ProviderChanges.withConfig, List.forall_mem_append, Patch.toOption,
        List.forall_mem_map, Option.toList_some, List.forall_mem_singleton, hc]
      exact and_congr_right fun _ => ⟨fun _ => hstored, fun _ => hstored'⟩
  · intro statement hmem text htext
    split_ifs at hmem with hunset
    · cases hmem
    · obtain rfl := Option.some.inj hmem
      exact hdumps text (hc ▸ htext)

theorem veils_updateProvisioner (h : s.Settled env) {id : Nat} {q : MachineProvisioner}
    (hget : Table.get s.provisioners id = some q) (change change' : ConnectorConfig → ConnectorConfig)
    (hchange : change' (env.loads q.config).masked = (change (env.loads q.config)).masked) {c : ProvisionerChanges}
    (hc : c.config = changeConfig env q.config change) (conflict : Option String) (view : View) :
    Plan.Veils env s
      ⟨if c = ⟨.unset, .unset, .unset, .unset, .unset⟩ then none else some (.updateProvisioner id c), conflict, view⟩
      ⟨if { c with config := changeConfig env (env.veil q.config) change' } = ⟨.unset, .unset, .unset, .unset, .unset⟩
        then none
        else some (.updateProvisioner id { c with config := changeConfig env (env.veil q.config) change' }),
        conflict, view⟩ := by
  have hwritten := h.writtenProvisioners q (Table.get_some hget).1
  have hwritten' := h.veil.writtenProvisioners (q.mapConfig env.veil) (List.mem_map_of_mem (Table.get_some hget).1)
  have hget' : Table.get (s.veil env).provisioners id = some (q.mapConfig env.veil) := by
    rw [Store.veil, get_mapProvisioner, hget]
    rfl
  obtain ⟨hnull, hdumps⟩ := changeConfig_written env q.config change
  obtain ⟨hnull', hdumps'⟩ := changeConfig_written env (env.veil q.config) change'
  have hstored := (storable_config henv hnull hwritten hdumps).1
  have hstored' := (storable_config henv hnull' hwritten' hdumps').1
  refine ⟨rfl, ?_, ?_⟩
  · rw [commit_updateProvisioner henv h hget (hc ▸ hnull) (hc ▸ hdumps),
      commit_updateProvisioner henv h.veil hget' hnull' hdumps']
    refine commit_veil henv ?_ ?_ conflict view
    · simp only [Statement.mapConfig, ProvisionerChanges.withConfig, Patch.map, hc]
      rw [← veil_changeConfig_masked henv hwritten hchange]
      rfl
    · simp only [Statement.Fits, Statement.texts, ProvisionerChanges.withConfig, List.forall_mem_append, Patch.toOption,
        List.forall_mem_map, Option.toList_some, List.forall_mem_singleton, hc]
      exact and_congr_right fun _ => ⟨fun _ => hstored, fun _ => hstored'⟩
  · intro statement hmem text htext
    split_ifs at hmem with hunset
    · cases hmem
    · obtain rfl := Option.some.inj hmem
      exact hdumps text (hc ▸ htext)

omit henv

theorem ensureScopeCanChange_veil (p : MachineProvider) (scope : Patch ScopeName) :
    ensureScopeCanChange (s.veil env) (p.mapConfig env.veil) scope = ensureScopeCanChange s p scope := by
  cases scope with
  | unset => rfl
  | null => rfl
  | value scope =>
    rw [ensureScopeCanChange, ensureScopeCanChange, ensureProviderScopeMatchesProvisioners,
      ensureProviderScopeMatchesProvisioners]
    refine if_congr ?_ rfl rfl
    rw [Store.veil, mapConfig_provisionersOf]
    simp only [List.mem_map, exists_exists_and_eq_and, mapConfig_findProviderScopeConflict]
    rfl

theorem ensureProviderPlatform_veil (p : MachineProvider) (platformId : Patch Nat) :
    ensureProviderPlatformCanChange (s.veil env) (p.mapConfig env.veil) platformId =
      ensureProviderPlatformCanChange s p platformId := by
  cases platformId with
  | unset => rfl
  | null => rfl
  | value platformId =>
    have hmatches : ensureProviderPlatformMatchesProvisioners (s.veil env) (p.mapConfig env.veil) platformId =
        ensureProviderPlatformMatchesProvisioners s p platformId := by
      rw [ensureProviderPlatformMatchesProvisioners, ensureProviderPlatformMatchesProvisioners]
      refine if_congr ?_ rfl rfl
      rw [Store.veil, mapConfig_provisionersOf]
      simp only [List.mem_map, exists_exists_and_eq_and]
      rfl
    rw [ensureProviderPlatformCanChange, ensureProviderPlatformCanChange, hmatches]
    rfl

theorem ensurePlatformPatch_veil (q : MachineProvisioner) (platformId : Patch Nat) :
    ensurePlatformPatchCanChange (s.veil env) (q.mapConfig env.veil) platformId =
      ensurePlatformPatchCanChange s q platformId := by
  cases platformId with
  | unset => rfl
  | null => rfl
  | value platformId =>
    have hmoves : ensureProvisionerPlatformCanChange (s.veil env) (q.mapConfig env.veil) platformId =
        ensureProvisionerPlatformCanChange s q platformId := by
      rw [ensureProvisionerPlatformCanChange, ensureProvisionerPlatformCanChange]
      refine if_congr Iff.rfl rfl (if_congr Iff.rfl rfl (if_congr ?_ rfl rfl))
      rw [Store.veil, mapConfig_providersOf]
      simp only [List.mem_map, exists_exists_and_eq_and]
      rfl
    rw [ensurePlatformPatchCanChange, ensurePlatformPatchCanChange, hmoves]
    rfl

/-- A configuration whose token is masked. -/
theorem canonical_mask (c : ConnectorConfig) : c.masked.canonical.masked = c.canonical.masked :=
  congrArg ConnectorConfig.canonical (ConnectorConfig.masked_masked c)

/-- A token that is masked where it is changed and where it is kept. -/
theorem mask_or (token : Patch String) (old : Option String) :
    (token.map maskToken).toOption.or (old.map maskToken) = (token.toOption.or old).map maskToken := by
  cases token <;> rfl

include henv

theorem updateProvider_veil (h : s.Settled env) (id : Nat) (type : String) (platformId : Patch Nat)
    (name : Patch String) (scope : Patch ScopeName) {change change' : ConnectorConfig → ConnectorConfig}
    (hchange : ∀ c, change' c.masked = (change c).masked) (view : View) :
    Agrees (Plan.Veils env s) (updateProvider env s id type platformId name scope change view)
      (updateProvider env (s.veil env) id type platformId name scope change' view) := by
  refine (agrees_loadProviderOfType id type).bind fun p p' hp => ?_
  obtain ⟨-, hget, rfl⟩ := hp
  rw [ensureScopeCanChange_veil, ensureProviderPlatform_veil]
  refine (Agrees.same _).bind fun _ _ _ => (Agrees.same _).bind fun _ _ _ => ?_
  exact veils_updateProvider henv h hget change change' (hchange _) rfl _ view

theorem updateProvisioner_veil (h : s.Settled env) (id : Nat) (type : String) (platformId : Patch Nat)
    (name cron : Patch String) {change change' : ConnectorConfig → Except HttpException ConnectorConfig}
    (hchange : ∀ c, Agrees (fun c c' => c' = c.masked) (change c) (change' c.masked)) (view : View) :
    Agrees (Plan.Veils env s) (updateProvisioner env s id type platformId name cron change view)
      (updateProvisioner env (s.veil env) id type platformId name cron change' view) := by
  refine (agrees_loadProvisionerOfType id type).bind fun q q' hq => ?_
  obtain ⟨hmem, hget, rfl⟩ := hq
  rw [ensurePlatformPatch_veil]
  refine (Agrees.same _).bind fun _ _ _ => ?_
  have hloads : env.loads (q.mapConfig env.veil).config = (env.loads q.config).masked :=
    loads_veil_written henv (h.writtenProvisioners q hmem)
  rw [hloads]
  refine (hchange _).bind fun config config' hconfig => ?_
  exact veils_updateProvisioner henv h hget (fun _ => config) (fun _ => config') hconfig rfl _ view

theorem setProviderEnabled_veil (id : Nat) (enabled : Bool) :
    Agrees (Plan.Veils env s) (setProviderEnabled s id enabled) (setProviderEnabled (s.veil env) id enabled) := by
  refine (agrees_getProvider id _).bind fun p p' hp => ?_
  obtain ⟨-, -, rfl⟩ := hp
  exact veils_ite henv rfl

theorem setProvisionerEnabled_veil (id : Nat) (enabled : Bool) :
    Agrees (Plan.Veils env s) (setProvisionerEnabled s id enabled)
      (setProvisionerEnabled (s.veil env) id enabled) := by
  refine (agrees_getProvisioner id _).bind fun q q' hq => ?_
  obtain ⟨-, -, rfl⟩ := hq
  exact veils_ite henv rfl

omit henv in
/-- Whether a provisioner is attached can be read from the association table. -/
theorem attached_veil {p : MachineProvider} {q : MachineProvisioner} (hq : q ∈ s.provisioners) :
    q.mapConfig env.veil ∈ (s.veil env).provisionersOf (p.mapConfig env.veil) ↔ q ∈ s.provisionersOf p := by
  simp only [Database.provisionersOf, List.mem_filter]
  constructor
  · rintro ⟨-, hpair⟩
    exact ⟨hq, hpair⟩
  · rintro ⟨-, hpair⟩
    exact ⟨List.mem_map_of_mem hq, hpair⟩

theorem attach_veil (id provisionerId : Nat) :
    Agrees (Plan.Veils env s) (attachProviderProvisioner s id provisionerId)
      (attachProviderProvisioner (s.veil env) id provisionerId) := by
  refine (agrees_getProvider id _).bind fun p p' hp => ?_
  obtain ⟨-, -, rfl⟩ := hp
  refine (agrees_getProvisioner provisionerId _).bind fun q q' hq => ?_
  obtain ⟨hmem, -, rfl⟩ := hq
  refine Agrees.guard Iff.rfl fun _ => ?_
  have hconflict := mapConfig_findProviderScopeConflict env.veil s q p.scope (some p.id)
  by_cases hattached : q ∈ s.provisionersOf p
  · rw [if_pos hattached, if_pos ((attached_veil hmem).mpr hattached)]
    exact veils_none henv
  · rw [if_neg hattached, if_neg fun h' => hattached ((attached_veil hmem).mp h')]
    exact Agrees.guard (by rw [← hconflict]; rfl) fun _ => veils_some henv rfl

theorem detach_veil (id provisionerId : Nat) :
    Agrees (Plan.Veils env s) (detachProviderProvisioner s id provisionerId)
      (detachProviderProvisioner (s.veil env) id provisionerId) := by
  refine (agrees_getProvider id _).bind fun p p' hp => ?_
  obtain ⟨-, -, rfl⟩ := hp
  refine (agrees_getProvisioner provisionerId _).bind fun q q' hq => ?_
  obtain ⟨hmem, -, rfl⟩ := hq
  refine Agrees.guard Iff.rfl fun _ => ?_
  by_cases hattached : q ∈ s.provisionersOf p
  · rw [if_pos hattached, if_pos ((attached_veil hmem).mpr hattached)]
    exact veils_some henv rfl
  · rw [if_neg hattached, if_neg fun h' => hattached ((attached_veil hmem).mp h')]
    exact veils_none henv

theorem deleteProvider_veil (id : Nat) :
    Agrees (Plan.Veils env s) (deleteProvider s id) (deleteProvider (s.veil env) id) := by
  refine (agrees_getProvider id _).bind fun p p' hp => ?_
  obtain ⟨-, -, rfl⟩ := hp
  rw [Store.veil, mapConfig_provisionerIds]
  exact veils_some henv rfl

theorem deleteProvisioner_veil (id : Nat) :
    Agrees (Plan.Veils env s) (deleteProvisioner s id) (deleteProvisioner (s.veil env) id) :=
  (agrees_getProvisioner id _).bind fun _ _ _ => veils_some henv rfl

/-- The plans of a call and of the masked call. -/
theorem plan_veil (h : s.Settled env) (request : Request) :
    Agrees (Plan.Veils env s) (request.plan env s) ((request.masked env.unicode).plan env (s.veil env)) := by
  cases request with
  | createPlatform body =>
    refine agrees_plain henv (x := Routes.createPlatform env s body) (Ensures.skip fun payload => Ensures.pure ?_)
    rintro _ ⟨⟩
    rfl
  | updatePlatform id body =>
    refine agrees_plain henv (x := Routes.updatePlatform s id body) (Ensures.skip fun platform => Ensures.pure ?_)
    intro statement hmem
    split_ifs at hmem
    · cases hmem
    · cases hmem
      rfl
  | deletePlatform id =>
    refine agrees_plain henv (x := Routes.deletePlatform s id) (Ensures.skip fun platform => Ensures.pure ?_)
    rintro _ ⟨⟩
    rfl
  | createPrometheusProvider body =>
    exact (Agrees.same _).bind fun payload _ hpayload => hpayload.1 ▸ createProvider_veil henv rfl rfl [] _
  | createDynatraceProvider body =>
    simp only [Request.masked, Request.plan, Routes.createDynatraceProvider, dynatraceProviderCreate_mask]
    refine (agrees_map _ _).bind fun payload payload' hpayload => ?_
    rw [hpayload]
    exact createProvider_veil henv rfl (canonical_mask
      { ConnectorConfig.empty with url := some payload.url, token := some payload.token }) payload.provisionerIds _
  | createMockProvider body =>
    exact (Agrees.same _).bind fun payload _ hpayload => hpayload.1 ▸ createProvider_veil henv rfl rfl [] _
  | updatePrometheusProvider id body =>
    exact (Agrees.same _).bind fun payload _ hpayload =>
      hpayload.1 ▸ updateProvider_veil henv h id _ _ _ _ (fun _ => by rfl) _
  | updateDynatraceProvider id body =>
    simp only [Request.masked, Request.plan, Routes.updateDynatraceProvider, dynatraceProviderUpdate_mask]
    refine (agrees_map _ _).bind fun payload payload' hpayload => ?_
    rw [hpayload]
    refine updateProvider_veil henv h id _ _ _ _ (fun c => ?_) _
    simp only [ConnectorConfig.masked, mask_or]
  | updateMockProvider id body =>
    exact (Agrees.same _).bind fun payload _ hpayload =>
      hpayload.1 ▸ updateProvider_veil henv h id _ _ _ _ (fun _ => by rfl) _
  | enableProvider id => exact setProviderEnabled_veil henv id true
  | disableProvider id => exact setProviderEnabled_veil henv id false
  | deleteProvider id => exact deleteProvider_veil henv id
  | attachProviderProvisioner id provisionerId => exact attach_veil henv id provisionerId
  | detachProviderProvisioner id provisionerId => exact detach_veil henv id provisionerId
  | createCapsuleProvisioner body =>
    simp only [Request.masked, Request.plan, Routes.createCapsuleProvisioner, capsuleCreate_mask]
    refine (agrees_map _ _).bind fun payload payload' hpayload => ?_
    rw [hpayload]
    exact createProvisioner_veil henv rfl (canonical_mask
      { ConnectorConfig.empty with token := some payload.token, parameters := some payload.parameters }) _
  | createDynatraceProvisioner body =>
    simp only [Request.masked, Request.plan, Routes.createDynatraceProvisioner, dynatraceProvisionerCreate_mask]
    refine (agrees_map _ _).bind fun payload payload' hpayload => ?_
    rw [hpayload]
    exact createProvisioner_veil henv rfl (canonical_mask
      { ConnectorConfig.empty with url := some payload.url, token := some payload.token }) _
  | createMockProvisioner body =>
    refine (Agrees.same _).bind fun payload _ hpayload => hpayload.1 ▸ ?_
    refine (Agrees.same _).bind fun _ _ _ => (Agrees.same _).bind fun preset _ hpreset => hpreset.1 ▸ ?_
    exact createProvisioner_veil henv rfl rfl _
  | updateCapsuleProvisioner id body =>
    simp only [Request.masked, Request.plan, Routes.updateCapsuleProvisioner, capsuleUpdate_mask]
    refine (agrees_map _ _).bind fun payload payload' hpayload => ?_
    rw [hpayload]
    refine updateProvisioner_veil henv h id _ _ _ _ (fun c => ?_) _
    simp only [Agrees, ConnectorConfig.masked, mask_or]
  | updateDynatraceProvisioner id body =>
    simp only [Request.masked, Request.plan, Routes.updateDynatraceProvisioner, dynatraceProvisionerUpdate_mask]
    refine (agrees_map _ _).bind fun payload payload' hpayload => ?_
    rw [hpayload]
    refine updateProvisioner_veil henv h id _ _ _ _ (fun c => ?_) _
    simp only [Agrees, ConnectorConfig.masked, mask_or]
  | updateMockProvisioner id body =>
    refine (Agrees.same _).bind fun payload _ hpayload => hpayload.1 ▸ ?_
    refine updateProvisioner_veil henv h id _ _ _ _ (fun c => ?_) _
    cases payload.preset with
    | unset => exact rfl
    | null => exact rfl
    | value preset => exact (Agrees.same _).bind fun preset _ hpreset => hpreset.1 ▸ rfl
  | enableProvisioner id => exact setProvisionerEnabled_veil henv id true
  | disableProvisioner id => exact setProvisionerEnabled_veil henv id false
  | deleteProvisioner id => exact deleteProvisioner_veil henv id
  | deleteMachine id =>
    refine agrees_plain henv (x := Routes.deleteMachine s id) (Ensures.skip fun platform => Ensures.pure ?_)
    rintro _ ⟨⟩
    rfl

end Plans

/-! ## Histories -/

/-- A call of the API about platforms and connectors. -/
inductive Call
  | read (reading : Reading)
  | write (request : Request)

/-- The call with its token masked. -/
def Call.masked (U : Unicode) : Call → Call
  | read reading => read reading
  | write request => write (request.masked U)

/-- The committed rows after a call, and its answer. -/
def Call.serve (env : ApiEnv) (s : Store) : Call → Store × Except HttpException Answer
  | read reading => (s, reading.answer env s)
  | write request => ((request.handle env s).1, (request.handle env s).2.map .one)

/-- The committed rows after a history of calls, and the answers. -/
def serveAll (env : ApiEnv) (s : Store) : List Call → Store × List (Except HttpException Answer)
  | [] => (s, [])
  | call :: calls =>
    ((serveAll env (call.serve env s).1 calls).1, (call.serve env s).2 :: (serveAll env (call.serve env s).1 calls).2)

section Histories

variable {env : ApiEnv} {s s' : Store} (henv : env.Keeps)

include henv

/-- What a plan writes to a configuration the routes wrote. -/
theorem plan_configs (h : s.Settled env) {request : Request} {plan : Plan} (hplan : request.plan env s = .ok plan) :
    ∀ statement ∈ plan.statement, ∀ text ∈ statement.configs, ∃ c, text = env.dumps c := by
  have hagrees := plan_veil henv h request
  rw [hplan] at hagrees
  cases hmasked : (request.masked env.unicode).plan env (s.veil env) with
  | error e =>
    rw [hmasked] at hagrees
    exact hagrees.elim
  | ok plan' =>
    rw [hmasked] at hagrees
    exact hagrees.configs

omit henv in
theorem commit_settled (h : s.Settled env) {plan : Plan}
    (hconfigs : ∀ statement ∈ plan.statement, ∀ text ∈ statement.configs, ∃ c, text = env.dumps c)
    (hcommit : plan.commit env.storable s = .ok s') : s'.Settled env := by
  rcases Plan.commit_cases hcommit with ⟨-, rfl⟩ | ⟨statement, hstatement, hexecute⟩
  · exact h
  · exact h.ran (Statement.execute_cases hexecute) (hconfigs statement hstatement)

theorem handle_settled (h : s.Settled env) (request : Request) : (request.handle env s).1.Settled env := by
  rw [Request.handle]
  cases hplan : request.plan env s with
  | error e => exact h
  | ok plan =>
    cases hcommit : plan.commit env.storable s with
    | error e =>
      simp only [hcommit]
      exact h
    | ok s' =>
      simp only [hcommit]
      exact commit_settled h (plan_configs henv h hplan) hcommit

/-- A masked call on the veiled rows has the answer of the call, and leaves its rows veiled. -/
theorem handle_veil (h : s.Settled env) (request : Request) :
    (((request.masked env.unicode).handle env (s.veil env)).1.veil env = (request.handle env s).1.veil env) ∧
      ((request.masked env.unicode).handle env (s.veil env)).2 = (request.handle env s).2 := by
  have hagrees := plan_veil henv h request
  have hsettled := handle_settled henv h request
  have hsettled' := handle_settled henv h.veil (request.masked env.unicode)
  rw [Request.handle] at hsettled hsettled' ⊢
  rw [Request.handle]
  cases hplan : request.plan env s with
  | error e =>
    cases hplan' : (request.masked env.unicode).plan env (s.veil env) with
    | error e' =>
      rw [hplan, hplan'] at hagrees
      obtain rfl : e = e' := hagrees
      exact ⟨veil_veil_store henv s, rfl⟩
    | ok plan' =>
      rw [hplan, hplan'] at hagrees
      exact hagrees.elim
  | ok plan =>
    cases hplan' : (request.masked env.unicode).plan env (s.veil env) with
    | error e' =>
      rw [hplan, hplan'] at hagrees
      exact hagrees.elim
    | ok plan' =>
      rw [hplan, hplan'] at hagrees
      have hcommits := hagrees.commit
      simp only [hplan, hplan'] at hsettled hsettled' ⊢
      cases hcommit : plan.commit env.storable s with
      | error e =>
        cases hcommit' : plan'.commit env.storable (s.veil env) with
        | error e' =>
          rw [hcommit, hcommit'] at hcommits
          obtain rfl : e' = e := Except.error.inj hcommits
          exact ⟨veil_veil_store henv s, rfl⟩
        | ok s₂ =>
          rw [hcommit, hcommit'] at hcommits
          cases hcommits
      | ok s₁ =>
        cases hcommit' : plan'.commit env.storable (s.veil env) with
        | error e' =>
          rw [hcommit, hcommit'] at hcommits
          cases hcommits
        | ok s₂ =>
          rw [hcommit, hcommit'] at hcommits
          simp only [hcommit, hcommit'] at hsettled hsettled' ⊢
          have hveil : s₂.veil env = s₁.veil env := Except.ok.inj hcommits
          refine ⟨hveil, ?_⟩
          rw [← respond_veil henv hsettled, ← respond_veil henv hsettled', hveil, hagrees.view]

/-- One call each on rows that look alike, which differ in their tokens. -/
theorem serve_alike (h : s.Settled env) (h' : s'.Settled env) (hveil : s.veil env = s'.veil env) {call call' : Call}
    (hmasked : call.masked env.unicode = call'.masked env.unicode) :
    (call.serve env s).1.Settled env ∧ (call'.serve env s').1.Settled env ∧
      (call.serve env s).1.veil env = (call'.serve env s').1.veil env ∧
      (call.serve env s).2 = (call'.serve env s').2 := by
  cases call with
  | read reading =>
    cases call' with
    | write request' => cases hmasked
    | read reading' =>
      obtain rfl : reading = reading' := Call.read.inj hmasked
      refine ⟨h, h', hveil, ?_⟩
      calc reading.answer env s = reading.answer env (s.veil env) := (answer_veil henv h reading).symm
        _ = reading.answer env (s'.veil env) := by rw [hveil]
        _ = reading.answer env s' := answer_veil henv h' reading
  | write request =>
    cases call' with
    | read reading' => cases hmasked
    | write request' =>
      have hrequests : request.masked env.unicode = request'.masked env.unicode := Call.write.inj hmasked
      obtain ⟨hrows, hanswer⟩ := handle_veil henv h request
      obtain ⟨hrows', hanswer'⟩ := handle_veil henv h' request'
      refine ⟨handle_settled henv h request, handle_settled henv h' request', ?_, ?_⟩
      · rw [Call.serve, Call.serve, ← hrows, ← hrows', hveil, hrequests]
      · rw [Call.serve, Call.serve, ← hanswer, ← hanswer', hveil, hrequests]

theorem serveAll_alike : ∀ {calls calls' : List Call} {s s' : Store}, s.Settled env → s'.Settled env →
    s.veil env = s'.veil env → calls.map (Call.masked env.unicode) = calls'.map (Call.masked env.unicode) →
    (serveAll env s calls).2 = (serveAll env s' calls').2 ∧
      (serveAll env s calls).1.veil env = (serveAll env s' calls').1.veil env
  | [], [], _, _, _, _, hveil, _ => ⟨rfl, hveil⟩
  | [], _ :: _, _, _, _, _, _, h => by cases h
  | _ :: _, [], _, _, _, _, _, h => by cases h
  | call :: calls, call' :: calls', s, s', hs, hs', hveil, h => by
    obtain ⟨hcall, hcalls⟩ := List.cons.inj h
    obtain ⟨hs₁, hs₁', hveil₁, hanswer⟩ := serve_alike henv hs hs' hveil hcall
    obtain ⟨hanswers, hrows⟩ := serveAll_alike hs₁ hs₁' hveil₁ hcalls
    exact ⟨by rw [serveAll, serveAll, hanswer, hanswers], hrows⟩

end Histories

theorem Store.settled_empty (env : ApiEnv) : Store.empty.Settled env where
  toIntact := (Store.readable_empty env).toIntact
  acceptsProviders := fun _ h => absurd h List.not_mem_nil
  acceptsProvisioners := fun _ h => absurd h List.not_mem_nil
  writtenProviders := fun _ h => absurd h List.not_mem_nil
  writtenProvisioners := fun _ h => absurd h List.not_mem_nil

/-- Two histories of calls that differ in their tokens only: the answers are the same, and so are the rows but for the
configurations. -/
theorem tokens_never_shown (env : ApiEnv) (F : Fernet) (hF : F.RoundTrip) (salt : ConnectorConfig → Nat)
    (hstorable : ∀ c, env.storable none ((env.encrypted F salt).dumps c)) (calls calls' : List Call)
    (hmasked : calls.map (Call.masked env.unicode) = calls'.map (Call.masked env.unicode)) :
    (serveAll (env.encrypted F salt) .empty calls).2 = (serveAll (env.encrypted F salt) .empty calls').2 ∧
      (serveAll (env.encrypted F salt) .empty calls).1.mapConfig (fun _ => "") =
        (serveAll (env.encrypted F salt) .empty calls').1.mapConfig (fun _ => "") := by
  have henv : (env.encrypted F salt).Keeps := ⟨encrypted_loads_dumps hF env salt, hstorable⟩
  have hempty := Store.settled_empty (env.encrypted F salt)
  obtain ⟨hanswers, hveil⟩ := serveAll_alike henv hempty hempty rfl hmasked
  refine ⟨hanswers, ?_⟩
  have hblank := congrArg (Store.mapConfig fun _ => "") hveil
  rw [Store.veil, Store.veil, mapConfig_mapConfig, mapConfig_mapConfig] at hblank
  exact hblank

/-- A provider with a token, which is changed, and what is read of it. -/
def tokenCalls (token token' : String) : List Call :=
  [.write (.createPlatform { name := "north" }),
    .write (.createDynatraceProvider
      { platformId := 1, name := "apm", scope := .cpu, url := "http://apm", token := token }),
    .write (.updateDynatraceProvider 2 { token := .value token' }),
    .read (.getDynatraceProvider 2), .read (.listProviders none none none 0 10)]

theorem tokens_never_shown_small :
    (serveAll (smallApi.encrypted markingFernet fun _ => 0) .empty (tokenCalls "first" "second")).2 =
      (serveAll (smallApi.encrypted markingFernet fun _ => 0) .empty (tokenCalls "other" "other")).2 :=
  (tokens_never_shown smallApi markingFernet markingFernet_roundTrip (fun _ => 0) (fun _ => rfl) _ _ (by rfl)).1

end Washing
