import Washing.Connectors.Membership

/-!
# One provider for each scope

A provisioner has one provider for each scope at most (`ScopesUnique`). The routes look for a rival on the rows that
they loaded, and commit later: under READ COMMITTED a rival that is committed in between is missed. If no commit has
such a rival, the rule holds in every committed state (`scopes_unique`); a commit that has one breaks the rule
(`HasRival.breaks`), as two attachments at once do (`attachments_race`).
-/

namespace Washing

/-- No provisioner has two attached providers with the same scope. -/
def Store.ScopesUnique (s : Store) : Prop :=
  ∀ q ∈ s.provisioners, ∀ p ∈ s.providersOf q, ∀ p' ∈ s.providersOf q, p.scope = p'.scope → p = p'

/-- A statement gives a provider, on some provisioner, the scope of another provider that is attached there. -/
def Statement.HasRival (s : Store) : Statement → Prop
  | insertProvider v provisionerIds => ∃ i ∈ provisionerIds, ∃ p' ∈ s.providers,
      ⟨p'.id, i⟩ ∈ s.attachments ∧ p'.scope = v.scope
  | attach pair => ∃ p ∈ s.providers, p.id = pair.providerId ∧ ∃ p' ∈ s.providers,
      ⟨p'.id, pair.provisionerId⟩ ∈ s.attachments ∧ p'.id ≠ p.id ∧ p'.scope = p.scope
  | updateProvider id c => ∃ p' ∈ s.providers, p'.id ≠ id ∧ c.scope = .value p'.scope ∧ ∃ a ∈ s.attachments,
      a.providerId = id ∧ ⟨p'.id, a.provisionerId⟩ ∈ s.attachments
  | _ => False

instance (s : Store) : Decidable s.ScopesUnique := inferInstanceAs (Decidable (∀ q ∈ s.provisioners, _))

instance decidableHasRival (s : Store) : DecidablePred (Statement.HasRival s)
  | .insertProvider _ provisionerIds => inferInstanceAs (Decidable (∃ i ∈ provisionerIds, _))
  | .attach _ => inferInstanceAs (Decidable (∃ p ∈ s.providers, _))
  | .updateProvider _ _ => inferInstanceAs (Decidable (∃ p' ∈ s.providers, _))
  | .insertPlatform _ _ _ | .updatePlatform _ _ | .deletePlatform _ | .deleteProvider _ _ | .insertProvisioner _
  | .updateProvisioner _ _ | .deleteProvisioner _ | .detach _ | .deleteMachine _ => inferInstanceAs (Decidable False)

section Statements

variable {env : ApiEnv} {s s' : Store} {statement : Statement}

/-- What the routes check: no rival among the loaded rows. -/
theorem Statement.Checked.no_rival (h : statement.Checked env s) (hs : s.Intact) : ¬ statement.HasRival s := by
  cases statement with
  | insertProvider v ids =>
    rintro ⟨i, hi, p', hp', ha, hscope⟩
    obtain ⟨q, hq, -, hconflict⟩ := h i hi
    have hid : q.id = i := (Table.get_some hq).2
    exact findProviderScopeConflict_eq_none_iff.mp hconflict p' (mem_providersOf.mpr ⟨hp', hid ▸ ha⟩) nofun hscope
  | attach pair =>
    rintro ⟨p, hp, hid, p', hp', ha, hne, hscope⟩
    obtain ⟨p₀, q, hp₀, hq, -, hconflict⟩ := h
    cases (Table.get_of_mem hs.providers.keyed hp).symm.trans (hid ▸ hp₀ : Table.get s.providers p.id = some p₀)
    have hqid : q.id = pair.provisionerId := (Table.get_some hq).2
    refine findProviderScopeConflict_eq_none_iff.mp hconflict p' (mem_providersOf.mpr ⟨hp', hqid ▸ ha⟩) ?_ hscope
    exact fun heq => hne (Option.some.inj heq).symm
  | updateProvider id c =>
    rintro ⟨p', hp', hne, hscope, a, ha, hid, hrival⟩
    obtain ⟨p, hp, -, hconflict, -⟩ := h
    have hpid : p.id = id := (Table.get_some hp).2
    obtain ⟨q, hq, hqid⟩ := Table.mem_ids.mp (hs.attachments a ha).2
    have hpair : ⟨p.id, q.id⟩ = a := by
      rw [hpid, ← hid, show q.id = a.provisionerId from hqid]
    have hattached : q ∈ s.provisionersOf p := mem_provisionersOf.mpr ⟨hq, hpair ▸ ha⟩
    refine findProviderScopeConflict_eq_none_iff.mp (hconflict p'.scope hscope q hattached) p' ?_ ?_ rfl
    · exact mem_providersOf.mpr ⟨hp', (show q.id = a.provisionerId from hqid) ▸ hrival⟩
    · exact fun heq => hne ((Option.some.inj heq).symm.trans hpid)
  | insertPlatform _ _ _ | updatePlatform _ _ | deletePlatform _ | deleteProvider _ _ | insertProvisioner _
  | updateProvisioner _ _ | deleteProvisioner _ | detach _ | deleteMachine _ => exact id

/-- The rule for the keys of an attachment. -/
theorem Store.ScopesUnique.eq (h : s.ScopesUnique) (hs : s.Intact) {i : Nat} {p p' : MachineProvider}
    (hp : p ∈ s.providers) (hp' : p' ∈ s.providers) (ha : ⟨p.id, i⟩ ∈ s.attachments)
    (ha' : ⟨p'.id, i⟩ ∈ s.attachments) (hscope : p.scope = p'.scope) : p = p' := by
  obtain ⟨q, hq, rfl⟩ := Table.mem_ids.mp (hs.attachments _ ha).2
  exact h q hq p (mem_providersOf.mpr ⟨hp, ha⟩) p' (mem_providersOf.mpr ⟨hp', ha'⟩) hscope

/-- It suffices to compare providers of one scope on the key of a provisioner. -/
theorem scopesUnique_of_keys (h : ∀ i, ∀ p ∈ s.providers, ∀ p' ∈ s.providers, ⟨p.id, i⟩ ∈ s.attachments →
    ⟨p'.id, i⟩ ∈ s.attachments → p.scope = p'.scope → p = p') : s.ScopesUnique := by
  intro q _ p hp p' hp'
  obtain ⟨hp, ha⟩ := mem_providersOf.mp hp
  obtain ⟨hp', ha'⟩ := mem_providersOf.mp hp'
  exact h q.id p hp p' hp' ha ha'

/-- A statement without a rival keeps the rule. -/
theorem Store.ScopesUnique.ran (h : s.ScopesUnique) (hs : s.Intact) (hrival : ¬ statement.HasRival s)
    (hran : statement.Ran s s') : s'.ScopesUnique := by
  cases hran with
  | platformInserted => exact h
  | platformUpdated => exact h
  | providerInserted v ids accepted once stored =>
    have hfresh : ∀ p ∈ s.providers, p.id ≠ s.nextId := fun p hp => (hs.providers.fresh p hp).ne
    have hold : ∀ i, ⟨s.nextId, i⟩ ∉ s.attachments := by
      intro i ha
      obtain ⟨p, hp, hid⟩ := Table.mem_ids.mp (hs.attachments _ ha).1
      exact hfresh p hp hid
    have hnew : ∀ {p : MachineProvider} {i : Nat}, p.id ≠ s.nextId →
        ⟨p.id, i⟩ ∈ s.attachments ++ ids.map (⟨s.nextId, ·⟩) → ⟨p.id, i⟩ ∈ s.attachments := by
      intro p i hne ha
      obtain ha | ha := List.mem_append.mp ha
      · exact ha
      · obtain ⟨j, -, heq⟩ := List.mem_map.mp ha
        exact absurd (MachineProviderProvisioner.mk.inj heq).1.symm hne
    have hattached : ∀ {i : Nat}, ⟨s.nextId, i⟩ ∈ s.attachments ++ ids.map (⟨s.nextId, ·⟩) → i ∈ ids := by
      intro i ha
      obtain ha | ha := List.mem_append.mp ha
      · exact absurd ha (hold i)
      · obtain ⟨j, hj, heq⟩ := List.mem_map.mp ha
        exact (MachineProviderProvisioner.mk.inj heq).2 ▸ hj
    -- the new provider and an old one, on a provisioner of the new one
    have hmixed : ∀ {p : MachineProvider} {i : Nat}, p ∈ s.providers →
        ⟨p.id, i⟩ ∈ s.attachments ++ ids.map (⟨s.nextId, ·⟩) →
        ⟨s.nextId, i⟩ ∈ s.attachments ++ ids.map (⟨s.nextId, ·⟩) → p.scope ≠ v.scope := fun hp ha hi hscope =>
      hrival ⟨_, hattached hi, _, hp, hnew (hfresh _ hp) ha, hscope⟩
    refine scopesUnique_of_keys fun i p hp p' hp' ha ha' hscope => ?_
    obtain hp | hp := List.mem_append.mp hp <;> obtain hp' | hp' := List.mem_append.mp hp'
    · exact h.eq hs hp hp' (hnew (hfresh p hp) ha) (hnew (hfresh p' hp') ha') hscope
    · cases List.mem_singleton.mp hp'
      exact absurd hscope (hmixed hp ha ha')
    · cases List.mem_singleton.mp hp
      exact absurd hscope.symm (hmixed hp' ha' ha)
    · rw [List.mem_singleton.mp hp, List.mem_singleton.mp hp']
  | providerUpdated id c p r stored updated accepted =>
    obtain ⟨hid, -, -, -, hassign⟩ := ProviderChanges.update_some updated
    obtain ⟨hp, hpid⟩ := Table.get_some stored
    have hrid : r.id = id := hid.trans hpid
    -- the updated provider and another one
    have hmixed : ∀ {p' : MachineProvider} {i : Nat}, p' ∈ s.providers → p'.id ≠ id → ⟨p'.id, i⟩ ∈ s.attachments →
        ⟨r.id, i⟩ ∈ s.attachments → p'.scope ≠ r.scope := by
      intro p' i hp' hne ha' ha hscope
      cases hpatch : c.scope with
      | unset =>
        rw [hpatch] at hassign
        have heq : p' = p := h.eq hs hp' hp ha' (hid ▸ ha) (hscope.trans (Option.some.inj hassign).symm)
        exact hne (heq ▸ hpid)
      | null => simp [hpatch, Patch.assign] at hassign
      | value scope =>
        rw [hpatch] at hassign
        have hvalue : c.scope = .value p'.scope := by rw [hpatch, hscope, Option.some.inj hassign]
        exact hrival ⟨p', hp', hne, hvalue, _, ha, hrid, ha'⟩
    refine scopesUnique_of_keys fun i p₁ hp₁ p₂ hp₂ ha₁ ha₂ hscope => ?_
    obtain rfl | ⟨hold₁, hne₁⟩ := Table.mem_replace hp₁ <;> obtain rfl | ⟨hold₂, hne₂⟩ := Table.mem_replace hp₂
    · rfl
    · exact absurd hscope.symm (hmixed hold₂ hne₂ ha₂ ha₁)
    · exact absurd hscope (hmixed hold₁ hne₁ ha₁ ha₂)
    · exact h.eq hs hold₁ hold₂ ha₁ ha₂ hscope
  | provisionerInserted => exact scopesUnique_of_keys fun i p hp p' hp' => h.eq hs hp hp'
  | provisionerUpdated => exact scopesUnique_of_keys fun i p hp p' hp' => h.eq hs hp hp'
  | attached pair accepted =>
    have hmixed : ∀ {p p' : MachineProvider} {i : Nat}, p ∈ s.providers → p' ∈ s.providers → ⟨p.id, i⟩ = pair →
        ⟨p'.id, i⟩ ∈ s.attachments → p'.scope = p.scope → p' = p := by
      intro p p' i hp hp' hpair ha' hscope
      by_contra hne
      have hid : p'.id ≠ p.id := fun heq => hne (hs.providers.keyed.eq_of_id hp' hp heq)
      exact hrival ⟨p, hp, congrArg (·.providerId) hpair, p', hp', congrArg (·.provisionerId) hpair ▸ ha', hid, hscope⟩
    refine scopesUnique_of_keys fun i p hp p' hp' ha ha' hscope => ?_
    obtain ha | ha := List.mem_append.mp ha <;> obtain ha' | ha' := List.mem_append.mp ha'
    · exact h.eq hs hp hp' ha ha' hscope
    · exact hmixed hp' hp (List.mem_singleton.mp ha') ha hscope
    · exact (hmixed hp hp' (List.mem_singleton.mp ha) ha' hscope.symm).symm
    · have heq := (List.mem_singleton.mp ha).trans (List.mem_singleton.mp ha').symm
      exact hs.providers.keyed.eq_of_id hp hp' (congrArg (·.providerId) heq)
  | detached pair =>
    refine scopesUnique_of_keys fun i p hp p' hp' ha ha' => ?_
    exact h.eq hs hp hp' (List.mem_of_mem_filter ha) (List.mem_of_mem_filter ha')
  | deleted _ _ s' shrinks =>
    have hs' := shrinks.cascade
    refine scopesUnique_of_keys fun i p hp p' hp' ha ha' => ?_
    exact h.eq hs (hs'.providers.subset hp) (hs'.providers.subset hp') (hs'.attachments.subset ha)
      (hs'.attachments.subset ha')

/-- A statement that has a rival and succeeds breaks the rule. -/
theorem Statement.HasRival.breaks (h : statement.HasRival s) (hs : s.Intact) (hran : statement.Ran s s') :
    ¬ s'.ScopesUnique := by
  intro hunique
  cases hran with
  | platformInserted | platformUpdated | provisionerInserted | provisionerUpdated | detached => exact h
  | providerInserted v ids accepted once stored =>
    obtain ⟨i, hi, p', hp', ha, hscope⟩ := h
    obtain ⟨q, hq, rfl⟩ := Table.mem_ids.mp (stored i hi)
    have hnew : v.row s.nextId ∈ s.providers ++ [v.row s.nextId] := List.mem_append_right _ (List.mem_singleton_self _)
    have hpair : ⟨s.nextId, Row.id q⟩ ∈ s.attachments ++ ids.map (⟨s.nextId, ·⟩) :=
      List.mem_append_right _ (List.mem_map_of_mem hi)
    have heq := hunique q hq _ (mem_providersOf.mpr ⟨hnew, hpair⟩) p'
      (mem_providersOf.mpr ⟨List.mem_append_left _ hp', List.mem_append_left _ ha⟩) hscope.symm
    exact (hs.providers.fresh p' hp').ne (congrArg MachineProvider.id heq).symm
  | providerUpdated id c p r stored updated accepted =>
    obtain ⟨p', hp', hne, hvalue, a, ha, hid, ha'⟩ := h
    obtain ⟨hrid, -, -, -, hassign⟩ := ProviderChanges.update_some updated
    obtain ⟨hp, hpid⟩ := Table.get_some stored
    obtain ⟨q, hq, hqid⟩ := Table.mem_ids.mp (hs.attachments a ha).2
    rw [hvalue] at hassign
    have hnew : r ∈ Table.modify s.providers id fun _ => r := Table.mem_modify.mpr ⟨p, hp, (if_pos hpid).symm⟩
    have hold : p' ∈ Table.modify s.providers id fun _ => r := Table.mem_modify.mpr ⟨p', hp', (if_neg hne).symm⟩
    have hpair : ⟨r.id, q.id⟩ = a := by
      rw [hrid, show p.id = id from hpid, ← hid, show q.id = a.provisionerId from hqid]
    have heq := hunique q hq r (mem_providersOf.mpr ⟨hnew, hpair ▸ ha⟩) p'
      (mem_providersOf.mpr ⟨hold, (show q.id = a.provisionerId from hqid) ▸ ha'⟩) (Option.some.inj hassign).symm
    exact hne (heq ▸ hrid.trans hpid)
  | attached pair accepted =>
    obtain ⟨p, hp, hid, p', hp', ha, hne, hscope⟩ := h
    obtain ⟨q, hq, hqid⟩ := Table.mem_ids.mp accepted.2.1
    have hpair : (⟨p.id, q.id⟩ : MachineProviderProvisioner) = pair := by
      rw [hid, show q.id = pair.provisionerId from hqid]
    have hrival : (⟨p'.id, q.id⟩ : MachineProviderProvisioner) ∈ s.attachments :=
      (show q.id = pair.provisionerId from hqid) ▸ ha
    have heq := hunique q hq p' (mem_providersOf.mpr ⟨hp', List.mem_append_left _ hrival⟩) p
      (mem_providersOf.mpr ⟨hp, List.mem_append_right _ (List.mem_singleton.mpr hpair)⟩) hscope
    exact hne (congrArg MachineProvider.id heq)
  | deleted statement deletes => cases statement <;> first | exact h | exact deletes

end Statements

/-! ## Concurrent requests -/

/-- How far a request has come: it has loaded the rows, it has checked them, it has committed, or it was refused. -/
inductive RequestPhase
  | waiting
  | loaded (rows : Store)
  | checked (rows : Store) (plan : Plan)
  | committed
  | refused (error : HttpException)

/-- The committed rows, and the requests. -/
structure RequestsState where
  store : Store
  phase : Nat → RequestPhase

namespace RequestsState

/-- No request has begun. -/
def start (store : Store) : RequestsState := ⟨store, fun _ => .waiting⟩

def advance (s : RequestsState) (i : Nat) (phase : RequestPhase) : RequestsState :=
  { s with phase := Function.update s.phase i phase }

@[simp] theorem phase_advance_self (s : RequestsState) (i : Nat) (phase : RequestPhase) :
    (s.advance i phase).phase i = phase := Function.update_self ..

theorem phase_advance_ne (s : RequestsState) {i j : Nat} (h : j ≠ i) (phase : RequestPhase) :
    (s.advance i phase).phase j = s.phase j := Function.update_of_ne h ..

end RequestsState

/-- The next step of a request. It loads rows that are committed, checks what it has loaded, and commits to the rows
that are committed by then. -/
def stepRequest (env : ApiEnv) (requests : Nat → Request) (s : RequestsState) (i : Nat) : Option RequestsState :=
  match s.phase i with
  | .waiting => some (s.advance i (.loaded s.store))
  | .loaded rows =>
    match (requests i).plan env rows with
    | .error e => some (s.advance i (.refused e))
    | .ok plan => some (s.advance i (.checked rows plan))
  | .checked _ plan =>
    match plan.commit env.storable s.store with
    | .error e => some (s.advance i (.refused e))
    | .ok store => some (RequestsState.advance { s with store } i .committed)
  | .committed | .refused _ => none

/-- The commit has no rival that the request could not see among the rows it loaded. -/
def NoRivalMissed (s : RequestsState) (i : Nat) : Prop :=
  match s.phase i with
  | .checked rows plan => ∀ statement ∈ plan.statement, statement.HasRival s.store → statement.HasRival rows
  | .waiting | .loaded _ | .committed | .refused _ => True

instance (s : RequestsState) (i : Nat) : Decidable (NoRivalMissed s i) := by
  unfold NoRivalMissed
  split <;> infer_instance

/-- What is known of a request from its phase. -/
def RequestPhase.Known (env : ApiEnv) (request : Request) : RequestPhase → Prop
  | loaded rows => rows.Intact
  | checked rows plan => rows.Intact ∧ request.plan env rows = .ok plan
  | waiting | committed | refused _ => True

/-- The invariant of the interleaved requests. -/
structure ScopesInv (env : ApiEnv) (requests : Nat → Request) (s : RequestsState) : Prop where
  intact : s.store.Intact
  unique : s.store.ScopesUnique
  known : ∀ i, (s.phase i).Known env (requests i)

section Requests

variable {env : ApiEnv} {requests : Nat → Request} {s s' : RequestsState} {i : Nat}

theorem known_advance (h : ∀ j, (s.phase j).Known env (requests j)) {phase : RequestPhase}
    (hphase : phase.Known env (requests i)) : ∀ j, ((s.advance i phase).phase j).Known env (requests j) := by
  intro j
  by_cases hj : j = i
  · subst hj
    rwa [RequestsState.phase_advance_self]
  · rw [RequestsState.phase_advance_ne s hj]
    exact h j

/-- The commit of a checked plan, on whatever rows are committed by then. -/
theorem commit_cases (h : ScopesInv env requests s) {rows : Store} {plan : Plan}
    (hphase : s.phase i = .checked rows plan)
    {store : Store} (hcommit : plan.commit env.storable s.store = .ok store) : store = s.store ∨
      ∃ statement, plan.statement = some statement ∧ ¬ statement.HasRival rows ∧ statement.Ran s.store store := by
  have hknown := h.known i
  rw [hphase] at hknown
  obtain ⟨hintact, hplan⟩ := hknown
  obtain ⟨-, hstore⟩ | ⟨statement, hstatement, hexecute⟩ := Plan.commit_cases hcommit
  · exact .inl hstore
  · exact .inr ⟨statement, hstatement, (plan_checked hplan statement hstatement).no_rival hintact,
      Statement.execute_cases hexecute⟩

/-- A step that misses no rival preserves the invariant. -/
theorem ScopesInv.step (h : ScopesInv env requests s) (hrival : NoRivalMissed s i)
    (hs : stepRequest env requests s i = some s') : ScopesInv env requests s' := by
  unfold stepRequest at hs
  unfold NoRivalMissed at hrival
  have hknown := h.known i
  cases hphase : s.phase i with
  | waiting =>
    simp only [hphase, Option.some.injEq] at hs
    exact hs ▸ ⟨h.intact, h.unique, known_advance h.known h.intact⟩
  | loaded rows =>
    simp only [hphase] at hs hknown
    cases hplan : (requests i).plan env rows with
    | error e =>
      simp only [hplan, Option.some.injEq] at hs
      exact hs ▸ ⟨h.intact, h.unique, known_advance h.known trivial⟩
    | ok plan =>
      simp only [hplan, Option.some.injEq] at hs
      exact hs ▸ ⟨h.intact, h.unique, known_advance h.known ⟨hknown, hplan⟩⟩
  | checked rows plan =>
    simp only [hphase] at hs hrival
    cases hcommit : plan.commit env.storable s.store with
    | error e =>
      simp only [hcommit, Option.some.injEq] at hs
      exact hs ▸ ⟨h.intact, h.unique, known_advance h.known trivial⟩
    | ok store =>
      simp only [hcommit, Option.some.injEq] at hs
      subst hs
      obtain rfl | ⟨statement, hstatement, hno, hran⟩ := commit_cases h hphase hcommit
      · exact ⟨h.intact, h.unique, known_advance h.known trivial⟩
      · exact ⟨h.intact.ran hran, h.unique.ran h.intact (fun hr => hno (hrival statement hstatement hr)) hran,
          known_advance (s := { s with store }) h.known trivial⟩
  | committed | refused e => simp [hphase] at hs

/-- A commit that misses a rival breaks the rule. -/
theorem ScopesInv.breaks (h : ScopesInv env requests s) (hmissed : ¬ NoRivalMissed s i)
    (hs : stepRequest env requests s i = some s') (hcommitted : s'.phase i = .committed) : ¬ s'.store.ScopesUnique := by
  unfold NoRivalMissed at hmissed
  unfold stepRequest at hs
  cases hphase : s.phase i with
  | checked rows plan =>
    simp only [hphase] at hs hmissed
    obtain ⟨statement, hstatement, hrival⟩ : ∃ statement ∈ plan.statement, statement.HasRival s.store := by
      by_contra hnone
      exact hmissed fun statement hstatement hrival => absurd ⟨statement, hstatement, hrival⟩ hnone
    cases hcommit : plan.commit env.storable s.store with
    | error e =>
      simp only [hcommit, Option.some.injEq] at hs
      subst hs
      simp at hcommitted
    | ok store =>
      simp only [hcommit, Option.some.injEq] at hs
      subst hs
      obtain ⟨hnone, -⟩ | ⟨_, hsome, hexecute⟩ := Plan.commit_cases hcommit
      · rw [hnone] at hstatement
        cases hstatement
      · cases hsome.symm.trans hstatement
        exact hrival.breaks h.intact (Statement.execute_cases hexecute)
  | waiting | loaded _ | committed | refused _ => simp [hphase] at hmissed

end Requests

/-- In every run of any number of requests in which no commit misses a rival, no provisioner ever has two providers with
the same scope; a commit that misses one breaks that. -/
theorem scopes_unique (env : ApiEnv) (requests : Nat → Request) (store : Store) (hs : store.Intact)
    (hu : store.ScopesUnique) (schedule : List Nat)
    (hall : AllSteps (stepRequest env requests) NoRivalMissed (.start store) schedule) (s : RequestsState)
    (hrun : exec (stepRequest env requests) (.start store) schedule = some s) :
    s.store.ScopesUnique ∧ ∀ i s', stepRequest env requests s i = some s' → s'.phase i = .committed →
      ¬ NoRivalMissed s i → ¬ s'.store.ScopesUnique := by
  have hstart : ScopesInv env requests (.start store) := ⟨hs, hu, fun _ => trivial⟩
  have hend := exec_invariant (fun _ _ _ h hrival hstep => h.step hrival hstep) hstart hall hrun
  exact ⟨hend.unique, fun i s' hstep hcommitted hmissed => hend.breaks hmissed hstep hcommitted⟩

/-- A provisioner, two providers of one scope and one of another, which are not attached yet. -/
def scopeOperations : List Operation :=
  [.request (.createPlatform { name := "north" }),
    .request (.createMockProvisioner { platformId := 1, name := "inventory" }),
    .request (.createMockProvider { platformId := 1, name := "first", scope := .cpu }),
    .request (.createMockProvider { platformId := 1, name := "second", scope := .cpu }),
    .request (.createMockProvider { platformId := 1, name := "third", scope := .ram })]

/-- The first request attaches the first provider, the second one the third, and all others the second. -/
def mixedAttachments (i : Nat) : Request :=
  .attachProviderProvisioner (if i = 0 then 3 else if i = 1 then 5 else 4) 2

/-- Two requests about different scopes check before either of them commits; a third one comes when one of them has. -/
def mixedSchedule : List Nat := [0, 1, 0, 1, 0, 2, 1, 2]

theorem scopes_unique_interleaved : ∃ s,
    exec (stepRequest smallApi mixedAttachments) (.start (runOperations smallApi .empty scopeOperations))
      mixedSchedule = some s ∧ s.store.attachments.length = 2 ∧ s.store.ScopesUnique ∧
    ∀ i s', stepRequest smallApi mixedAttachments s i = some s' → s'.phase i = .committed →
      ¬ NoRivalMissed s i → ¬ s'.store.ScopesUnique := by
  have hruns : ((exec (stepRequest smallApi mixedAttachments) (.start (runOperations smallApi .empty scopeOperations))
      mixedSchedule).map fun s => s.store.attachments.length) = some 2 := by decide +kernel
  obtain ⟨s, hs, hlength⟩ := Option.map_eq_some_iff.mp hruns
  exact ⟨s, hs, hlength, scopes_unique smallApi mixedAttachments _ (sound_operations rfl scopeOperations).toIntact
    (by decide +kernel) mixedSchedule (by decide +kernel) s hs⟩

/-- The first request attaches the first provider, all others the second one. -/
def attachments (i : Nat) : Request := .attachProviderProvisioner (if i = 0 then 3 else 4) 2

/-- Both requests check before either of them commits. -/
theorem attachments_race : (runOperations smallApi .empty scopeOperations).Intact ∧
    (runOperations smallApi .empty scopeOperations).ScopesUnique ∧ ∃ s,
    exec (stepRequest smallApi attachments) (.start (runOperations smallApi .empty scopeOperations))
      [0, 0, 1, 1, 0, 1] = some s ∧ ¬ s.store.ScopesUnique := by
  refine ⟨(sound_operations rfl scopeOperations).toIntact, by decide +kernel, ?_⟩
  have hruns : ((exec (stepRequest smallApi attachments) (.start (runOperations smallApi .empty scopeOperations))
      [0, 0, 1, 1, 0, 1]).map fun s => decide s.store.ScopesUnique) = some false := by decide +kernel
  obtain ⟨s, hs, hbroken⟩ := Option.map_eq_some_iff.mp hruns
  exact ⟨s, hs, of_decide_eq_false hbroken⟩

end Washing
