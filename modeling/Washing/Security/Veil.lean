import Washing.Db.Configs
import Washing.Db.Constraints
import Washing.Security.Encryption

/-!
# Veiled rows

`Store.veil` masks the token in every configuration. What the read routes answer on the veiled rows is what they answer
on the rows (`respond_veil`, `answer_veil`), and a statement whose own configuration is veiled has the veiled result
(`execute_veil`). An update of a row by itself, which the routes do not even emit, is accepted as any other
(`commit_updateProvider`, `commit_updateProvisioner`): every stored row meets the constraints (`Store.Settled`).
-/

namespace Washing

open Json

/-! ## Masked configurations -/

/-- A token, of which only is left whether it is empty. -/
def maskToken (token : String) : String := if token = "" then "" else "*"

/-- The configuration with its token masked. -/
def ConnectorConfig.masked (c : ConnectorConfig) : ConnectorConfig := { c with token := c.token.map maskToken }

theorem maskToken_idem (token : String) : maskToken (maskToken token) = maskToken token := by
  unfold maskToken
  split
  · rfl
  · rfl

namespace ConnectorConfig

theorem masked_masked (c : ConnectorConfig) : c.masked.masked = c.masked := by
  rw [masked, masked, Option.map_map]
  congr 2
  exact funext maskToken_idem

theorem hasToken_masked (c : ConnectorConfig) : c.masked.hasToken = c.hasToken := by
  rw [hasToken, hasToken, masked, Option.any_map]
  congr 1
  funext token
  by_cases h : token = ""
  · rw [h]
    rfl
  · have hmasked : maskToken token = "*" := if_neg h
    rw [hmasked, decide_eq_true h]
    rfl

end ConnectorConfig

/-- Texts as entries of a dictionary. -/
theorem map_textEntry {entries : List (String × Json)} (h : ∀ e ∈ entries, ∃ s, e.2 = .string s) :
    (entries.filterMap textEntry).map (fun e => (e.1, Json.string e.2)) = entries := by
  induction entries with
  | nil => rfl
  | cons e entries ih =>
    obtain ⟨s, hs⟩ := h e List.mem_cons_self
    obtain ⟨key, v⟩ := e
    obtain rfl : v = .string s := hs
    rw [List.filterMap_cons_some (f := textEntry) rfl, List.map_cons, ih fun e he => h e (List.mem_cons_of_mem _ he)]

/-- Pairs with distinct keys are the dictionary of them. -/
theorem parametersOf_of_nodup {pairs : List (String × String)} (h : (pairs.map Prod.fst).Nodup) :
    parametersOf pairs = pairs.map fun e => (e.1, .string e.2) := by
  induction pairs using List.reverseRecOn with
  | nil => rfl
  | append_singleton pairs e ih =>
    rw [List.map_append, List.nodup_append] at h
    have hnew : e.1 ∉ (pairs.map fun e => (e.1, Json.string e.2)).map Prod.fst := by
      rw [List.map_map]
      exact fun hmem => h.2.2 e.1 hmem e.1 (List.mem_singleton_self _) rfl
    rw [parametersOf_append, ih h.1, setKey_of_notMem hnew, List.map_append]
    rfl

theorem canonicalParameters_idem (pairs : List (String × String)) :
    canonicalParameters (canonicalParameters pairs) = canonicalParameters pairs := by
  obtain ⟨hkeys, htexts⟩ := parametersOf_texts pairs
  have hentries : (canonicalParameters pairs).map (fun e => (e.1, Json.string e.2)) =
      (parametersOf pairs).insertionSort KeyLE :=
    map_textEntry fun e he => htexts e ((List.perm_insertionSort KeyLE _).mem_iff.mp he)
  have hnodup : ((canonicalParameters pairs).map Prod.fst).Nodup := by
    have hfst : (canonicalParameters pairs).map Prod.fst =
        ((canonicalParameters pairs).map fun e => (e.1, Json.string e.2)).map Prod.fst := by
      rw [List.map_map]
      rfl
    rw [hfst, hentries]
    exact ((List.perm_insertionSort KeyLE _).map Prod.fst).nodup_iff.mpr hkeys
  have hsorted : ((parametersOf pairs).insertionSort KeyLE).insertionSort KeyLE =
      (parametersOf pairs).insertionSort KeyLE := (List.pairwise_insertionSort KeyLE _).insertionSort_eq
  rw [canonicalParameters, parametersOf_of_nodup hnodup, hentries, hsorted]
  rfl

theorem ConnectorConfig.canonical_canonical (c : ConnectorConfig) : c.canonical.canonical = c.canonical := by
  rw [canonical, canonical, Option.map_map]
  congr 2
  exact funext canonicalParameters_idem

theorem ConnectorConfig.canonical_masked (c : ConnectorConfig) : c.masked.canonical = c.canonical.masked := rfl

/-- The surroundings keep what the routes write in canonical order, and the column takes it. -/
structure ApiEnv.Keeps (env : ApiEnv) : Prop where
  loads_dumps : ∀ c, env.loads (env.dumps c) = c.canonical
  storable : ∀ c, env.storable none (env.dumps c)

/-- The text of the configuration with its token masked. -/
def ApiEnv.veil (env : ApiEnv) (text : String) : String := env.dumps (env.loads text).canonical.masked

section Veil

variable {env : ApiEnv} (henv : env.Keeps)

include henv

theorem loads_veil (text : String) : env.loads (env.veil text) = (env.loads text).canonical.masked := by
  rw [ApiEnv.veil, henv.loads_dumps, ConnectorConfig.canonical_masked, ConnectorConfig.canonical_canonical]

theorem veil_veil (text : String) : env.veil (env.veil text) = env.veil text := by
  rw [ApiEnv.veil, loads_veil henv, ConnectorConfig.canonical_masked, ConnectorConfig.canonical_canonical,
    ConnectorConfig.masked_masked]
  rfl

theorem veil_dumps (c : ConnectorConfig) : env.veil (env.dumps c) = env.dumps c.canonical.masked := by
  rw [ApiEnv.veil, henv.loads_dumps, ConnectorConfig.canonical_canonical]

end Veil

/-! ## Rows -/

/-- The configurations that a statement writes. -/
def Statement.configs : Statement → List String
  | insertProvider v _ => [v.config]
  | updateProvider _ c => c.config.toOption.toList
  | insertProvisioner v => [v.config]
  | updateProvisioner _ c => c.config.toOption.toList
  | _ => []

/-- The rows with the tokens of all configurations masked. -/
def Store.veil (env : ApiEnv) (s : Store) : Store := s.mapConfig env.veil

/-- Every connector meets the constraints of its table, and its configuration was written by the routes. -/
structure Store.Settled (env : ApiEnv) (s : Store) : Prop extends s.Intact, s.Accepted where
  writtenProviders : ∀ p ∈ s.providers, ∃ c, p.config = env.dumps c
  writtenProvisioners : ∀ q ∈ s.provisioners, ∃ c, q.config = env.dumps c

section Rows

variable {env : ApiEnv} {s s' : Store}

theorem mapConfig_mapConfig (f g : String → String) (s : Store) :
    (s.mapConfig f).mapConfig g = s.mapConfig (g ∘ f) := by
  simp only [Store.mapConfig, List.map_map]
  rfl

theorem veil_veil_store (henv : env.Keeps) (s : Store) : (s.veil env).veil env = s.veil env := by
  rw [Store.veil, Store.veil, mapConfig_mapConfig]
  exact congrArg (fun f => s.mapConfig f) (funext (veil_veil henv))

theorem Store.Settled.veil (h : s.Settled env) : (s.veil env).Settled env where
  platforms := h.platforms
  providers := h.providers.of_ids (ids_mapProviders env.veil s.providers)
  provisioners := h.provisioners.of_ids (ids_mapProvisioners env.veil s.provisioners)
  machines := h.machines
  attachments := by
    intro a ha
    obtain ⟨hprovider, hprovisioner⟩ := h.attachments a ha
    exact ⟨(ids_mapProviders env.veil s.providers).symm ▸ hprovider,
      (ids_mapProvisioners env.veil s.provisioners).symm ▸ hprovisioner⟩
  sources := fun m hm i hi => (ids_mapProvisioners env.veil s.provisioners).symm ▸ h.sources m hm i hi
  samples := fun scope r hr =>
    ⟨(ids_mapProviders env.veil s.providers).symm ▸ (h.samples scope r (by cases scope <;> exact hr)).1,
      (h.samples scope r (by cases scope <;> exact hr)).2⟩
  acceptsProviders := by
    intro p' hp'
    obtain ⟨p, hp, rfl⟩ := List.mem_map.mp hp'
    exact (mapConfig_acceptsProvider env.veil s p).mpr (h.acceptsProviders p hp)
  acceptsProvisioners := by
    intro q' hq'
    obtain ⟨q, hq, rfl⟩ := List.mem_map.mp hq'
    exact (mapConfig_acceptsProvisioner env.veil s q).mpr (h.acceptsProvisioners q hq)
  writtenProviders := by
    intro p' hp'
    obtain ⟨p, -, rfl⟩ := List.mem_map.mp hp'
    exact ⟨_, rfl⟩
  writtenProvisioners := by
    intro q' hq'
    obtain ⟨q, -, rfl⟩ := List.mem_map.mp hq'
    exact ⟨_, rfl⟩

theorem ProviderChanges.update_config {c : ProviderChanges} {p r : MachineProvider} (h : c.update p = some r) :
    c.config.assign p.config = some r.config := by
  simp only [update, Option.bind_eq_bind, Option.bind_eq_some_iff, Option.pure_def, Option.some.injEq] at h
  obtain ⟨platformId, -, name, -, scope, -, config, hconfig, enabled, -, rfl⟩ := h
  exact hconfig

theorem ProvisionerChanges.update_config {c : ProvisionerChanges} {q r : MachineProvisioner}
    (h : c.update q = some r) : c.config.assign q.config = some r.config := by
  simp only [update, Option.bind_eq_bind, Option.bind_eq_some_iff, Option.pure_def, Option.some.injEq] at h
  obtain ⟨platformId, -, name, -, cron, -, config, hconfig, enabled, -, rfl⟩ := h
  exact hconfig

/-- What an update leaves in a column was there, or is written. -/
theorem assign_cases {f : Patch String} {old a : String} (h : f.assign old = some a) :
    a = old ∨ a ∈ f.toOption.toList := by
  cases f with
  | unset => exact .inl (Option.some.inj h).symm
  | null => cases h
  | value b => exact .inr ((Option.some.inj h) ▸ List.mem_singleton_self b)

/-- A statement whose configurations the routes wrote. -/
theorem Store.Settled.ran {statement : Statement} (h : s.Settled env) (hran : statement.Ran s s')
    (hconfigs : ∀ text ∈ statement.configs, ∃ c, text = env.dumps c) : s'.Settled env := by
  have hrows : s'.Intact ∧ s'.Accepted := ⟨h.toIntact.ran hran, h.toAccepted.ran hran⟩
  have hunwritten : s'.providers = s.providers → s'.provisioners = s.provisioners → s'.Settled env :=
    fun hproviders hprovisioners => { hrows.1, hrows.2 with
      writtenProviders := hproviders ▸ h.writtenProviders
      writtenProvisioners := hprovisioners ▸ h.writtenProvisioners }
  cases hran with
  | platformInserted name description extra free => exact hunwritten rfl rfl
  | platformUpdated id c stored => exact hunwritten rfl rfl
  | providerInserted v provisionerIds accepted once stored =>
    refine { hrows.1, hrows.2 with writtenProviders := fun x hx => ?_, writtenProvisioners := h.writtenProvisioners }
    rcases mem_append_row hx with rfl | hx
    · exact hconfigs v.config (List.mem_singleton_self _)
    · exact h.writtenProviders x hx
  | providerUpdated id c p r stored updated accepted =>
    refine { hrows.1, hrows.2 with writtenProviders := fun x hx => ?_, writtenProvisioners := h.writtenProvisioners }
    rcases Table.mem_replace hx with rfl | ⟨hx, -⟩
    · rcases assign_cases (ProviderChanges.update_config updated) with hold | hnew
      · exact hold ▸ h.writtenProviders p (Table.get_some stored).1
      · exact hconfigs _ hnew
    · exact h.writtenProviders x hx
  | provisionerInserted v accepted =>
    refine { hrows.1, hrows.2 with writtenProviders := h.writtenProviders, writtenProvisioners := fun x hx => ?_ }
    rcases mem_append_row hx with rfl | hx
    · exact hconfigs v.config (List.mem_singleton_self _)
    · exact h.writtenProvisioners x hx
  | provisionerUpdated id c q r stored updated accepted =>
    refine { hrows.1, hrows.2 with writtenProviders := h.writtenProviders, writtenProvisioners := fun x hx => ?_ }
    rcases Table.mem_replace hx with rfl | ⟨hx, -⟩
    · rcases assign_cases (ProvisionerChanges.update_config updated) with hold | hnew
      · exact hold ▸ h.writtenProvisioners q (Table.get_some stored).1
      · exact hconfigs _ hnew
    · exact h.writtenProvisioners x hx
  | attached pair accepted => exact hunwritten rfl rfl
  | detached pair stored => exact hunwritten rfl rfl
  | deleted statement deletes s' shrinks =>
    exact { hrows.1, hrows.2 with
      writtenProviders := fun p hp => h.writtenProviders p (shrinks.providers.subset (List.mem_of_mem_filter hp))
      writtenProvisioners := fun q hq =>
        h.writtenProvisioners q (shrinks.provisioners.subset (List.mem_of_mem_filter hq)) }

end Rows

/-! ## Commits -/

/-- The texts of a statement fit. -/
def Statement.Fits (storable : Storable) (statement : Statement) : Prop := ∀ x ∈ statement.texts, storable x.1 x.2

section Commits

variable {env : ApiEnv} {s : Store}

theorem execute_fits {storable : Storable} {statement : Statement} (h : statement.Fits storable) (s : Store) :
    statement.execute storable s = statement.run s := if_pos h

theorem execute_not_fits {storable : Storable} {statement : Statement} (h : ¬ statement.Fits storable) (s : Store) :
    statement.execute storable s = .error .dataError := if_neg h

/-- Statements that differ in their configurations only, on the rows and on the veiled rows. -/
theorem execute_veil (henv : env.Keeps) {statement statement' : Statement}
    (hmap : statement'.mapConfig env.veil = statement.mapConfig env.veil)
    (hfits : statement'.Fits env.storable ↔ statement.Fits env.storable) :
    (statement'.execute env.storable (s.veil env)).map (Store.veil env) =
      (statement.execute env.storable s).map (Store.veil env) := by
  by_cases h : statement.Fits env.storable
  · rw [execute_fits h, execute_fits (hfits.mpr h)]
    calc (statement'.run (s.veil env)).map (Store.veil env)
        = (statement'.mapConfig env.veil).run ((s.veil env).veil env) := (run_mapConfig env.veil _ _).symm
      _ = (statement.mapConfig env.veil).run (s.veil env) := by rw [hmap, veil_veil_store henv]
      _ = (statement.run s).map (Store.veil env) := run_mapConfig env.veil s statement
  · rw [execute_not_fits h, execute_not_fits fun h' => h (hfits.mp h')]

/-- What a commit makes of the result of its statement. -/
theorem commit_eq (storable : Storable) (statement : Statement) (conflict : Option String) (view : View) :
    Plan.commit storable ⟨some statement, conflict, view⟩ s =
      (statement.execute storable s).mapError (Plan.answer ⟨some statement, conflict, view⟩) := by
  cases h : statement.execute storable s with
  | error e => simp only [Plan.commit, h, Except.mapError]
  | ok s' => simp only [Plan.commit, h, Except.mapError]

theorem map_mapError {ε ε' α β : Type} (x : Except ε α) (f : ε → ε') (g : α → β) :
    (x.mapError f).map g = (x.map g).mapError f := by
  cases x <;> rfl

theorem commit_veil (henv : env.Keeps) {statement statement' : Statement}
    (hmap : statement'.mapConfig env.veil = statement.mapConfig env.veil)
    (hfits : statement'.Fits env.storable ↔ statement.Fits env.storable) (conflict : Option String) (view : View) :
    (Plan.commit env.storable ⟨some statement', conflict, view⟩ (s.veil env)).map (Store.veil env) =
      (Plan.commit env.storable ⟨some statement, conflict, view⟩ s).map (Store.veil env) := by
  rw [commit_eq, commit_eq, map_mapError, map_mapError, execute_veil henv hmap hfits]
  rfl

/-- A row that is put in its own place. -/
theorem modify_self {α : Type} [Row α] {rows : List α} (hk : Table.Keyed rows) {r : α} (hr : r ∈ rows) :
    Table.modify rows (Row.id r) (fun _ => r) = rows := by
  refine (List.map_congr_left fun x hx => ?_).trans (List.map_id rows)
  by_cases h : Row.id x = Row.id r
  · rw [if_pos h, hk.eq_of_id hx hr h]
    rfl
  · rw [if_neg h]
    rfl

/-- An update that writes the configuration, too. -/
def ProviderChanges.withConfig (c : ProviderChanges) (p : MachineProvider) : ProviderChanges :=
  { c with config := .value (c.config.toOption.getD p.config) }

def ProvisionerChanges.withConfig (c : ProvisionerChanges) (q : MachineProvisioner) : ProvisionerChanges :=
  { c with config := .value (c.config.toOption.getD q.config) }

theorem update_withConfig {c : ProviderChanges} (hnull : c.config ≠ .null) (p : MachineProvider) :
    (c.withConfig p).update p = c.update p := by
  have hassign : (c.withConfig p).config.assign p.config = c.config.assign p.config := by
    simp only [ProviderChanges.withConfig]
    cases hc : c.config with
    | unset => rfl
    | null => exact absurd hc hnull
    | value text => rfl
  rw [ProviderChanges.update, ProviderChanges.update, hassign]
  rfl

theorem updateProvisioner_withConfig {c : ProvisionerChanges} (hnull : c.config ≠ .null) (q : MachineProvisioner) :
    (c.withConfig q).update q = c.update q := by
  have hassign : (c.withConfig q).config.assign q.config = c.config.assign q.config := by
    simp only [ProvisionerChanges.withConfig]
    cases hc : c.config with
    | unset => rfl
    | null => exact absurd hc hnull
    | value text => rfl
  rw [ProvisionerChanges.update, ProvisionerChanges.update, hassign]
  rfl

/-- A plan that emits nothing where its statement would change nothing, and a statement that does the same. -/
theorem commit_unchanged {storable : Storable} {unchanged : Prop} [Decidable unchanged]
    {statement statement' : Statement} (hrun : statement'.run s = statement.run s)
    (hfits : statement'.Fits storable ↔ statement.Fits storable)
    (hself : unchanged → statement.Fits storable ∧ statement.run s = .ok s) (conflict : Option String) (view : View) :
    Plan.commit storable ⟨if unchanged then none else some statement, conflict, view⟩ s =
      Plan.commit storable ⟨some statement', conflict, view⟩ s := by
  by_cases hc : unchanged
  · obtain ⟨hfit, hdone⟩ := hself hc
    rw [if_pos hc, commit_eq, execute_fits (hfits.mpr hfit), hrun, hdone]
    rfl
  · rw [if_neg hc]
    by_cases hfit : statement.Fits storable
    · rw [commit_eq, commit_eq, execute_fits hfit, execute_fits (hfits.mpr hfit), hrun]
      rfl
    · rw [commit_eq, commit_eq, execute_not_fits hfit, execute_not_fits fun h' => hfit (hfits.mp h')]
      rfl

/-- What is written to a configuration fits. -/
theorem storable_config (henv : env.Keeps) {c : Patch String} {old : String} (hnull : c ≠ .null)
    (hold : ∃ config, old = env.dumps config)
    (hwritten : ∀ text ∈ c.toOption.toList, ∃ config, text = env.dumps config) :
    env.storable none (c.toOption.getD old) ∧ ∀ text ∈ c.toOption.toList, env.storable none text := by
  cases c with
  | unset =>
    obtain ⟨config, rfl⟩ := hold
    exact ⟨henv.storable config, fun _ hmem => absurd hmem List.not_mem_nil⟩
  | null => exact absurd rfl hnull
  | value text =>
    obtain ⟨config, rfl⟩ := hwritten text (List.mem_singleton_self _)
    exact ⟨henv.storable config, fun x hx => List.mem_singleton.mp hx ▸ henv.storable config⟩

/-- A PATCH commits like the statement that writes the configuration in any case. -/
theorem commit_updateProvider (henv : env.Keeps) (h : s.Settled env) {id : Nat} {p : MachineProvider}
    (hp : Table.get s.providers id = some p) {c : ProviderChanges} (hnull : c.config ≠ .null)
    (hwritten : ∀ text ∈ c.config.toOption.toList, ∃ config, text = env.dumps config) (conflict : Option String)
    (view : View) :
    Plan.commit env.storable ⟨if c = ⟨.unset, .unset, .unset, .unset, .unset⟩ then none
      else some (.updateProvider id c), conflict, view⟩ s =
    Plan.commit env.storable ⟨some (.updateProvider id (c.withConfig p)), conflict, view⟩ s := by
  obtain ⟨hmem, hid⟩ := Table.get_some hp
  obtain ⟨hnew, hold⟩ := storable_config henv hnull (h.writtenProviders p hmem) hwritten
  refine commit_unchanged ?_ ?_ ?_ conflict view
  · simp only [Statement.run, hp, update_withConfig hnull]
  · simp only [Statement.Fits, Statement.texts, ProviderChanges.withConfig, List.forall_mem_append, Patch.toOption,
      List.forall_mem_map, Option.toList_some, List.forall_mem_singleton]
    exact and_congr_right fun _ => ⟨fun _ => hold, fun _ => hnew⟩
  · rintro rfl
    have hself : Table.modify s.providers id (fun _ => p) = s.providers := hid ▸ modify_self h.providers.1 hmem
    have hupdate : ProviderChanges.update ⟨.unset, .unset, .unset, .unset, .unset⟩ p = some p := rfl
    refine ⟨fun x hx => absurd hx List.not_mem_nil, ?_⟩
    simp only [Statement.run, hp, hupdate, if_pos (h.acceptsProviders p hmem), hself]

theorem commit_updateProvisioner (henv : env.Keeps) (h : s.Settled env) {id : Nat} {q : MachineProvisioner}
    (hq : Table.get s.provisioners id = some q) {c : ProvisionerChanges} (hnull : c.config ≠ .null)
    (hwritten : ∀ text ∈ c.config.toOption.toList, ∃ config, text = env.dumps config) (conflict : Option String)
    (view : View) :
    Plan.commit env.storable ⟨if c = ⟨.unset, .unset, .unset, .unset, .unset⟩ then none
      else some (.updateProvisioner id c), conflict, view⟩ s =
    Plan.commit env.storable ⟨some (.updateProvisioner id (c.withConfig q)), conflict, view⟩ s := by
  obtain ⟨hmem, hid⟩ := Table.get_some hq
  obtain ⟨hnew, hold⟩ := storable_config henv hnull (h.writtenProvisioners q hmem) hwritten
  refine commit_unchanged ?_ ?_ ?_ conflict view
  · simp only [Statement.run, hq, updateProvisioner_withConfig hnull]
  · simp only [Statement.Fits, Statement.texts, ProvisionerChanges.withConfig, List.forall_mem_append, Patch.toOption,
      List.forall_mem_map, Option.toList_some, List.forall_mem_singleton]
    exact and_congr_right fun _ => ⟨fun _ => hold, fun _ => hnew⟩
  · rintro rfl
    have hself : Table.modify s.provisioners id (fun _ => q) = s.provisioners := hid ▸ modify_self h.provisioners.1 hmem
    have hupdate : ProvisionerChanges.update ⟨.unset, .unset, .unset, .unset, .unset⟩ q = some q := rfl
    refine ⟨fun x hx => absurd hx List.not_mem_nil, ?_⟩
    simp only [Statement.run, hq, hupdate, if_pos (h.acceptsProvisioners q hmem), hself]

end Commits

end Washing
