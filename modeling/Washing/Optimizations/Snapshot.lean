import Washing.Optimizations.Evaluate

/-!
# The optimization snapshot

`buildOptimizationSnapshot` evaluates the three scopes and aggregates them. `Coherent` says that the numbers of a
snapshot and its actions tell the same story: scope by scope (`ScopeCoherent`), and for the global action, which is
determined by the targets that lie above and below the current capacities (`Above`, `Below`). The proof reads the global
action off the actions of the calculable scopes (`aggregate_action`) and those off the targets (`Sound.above_iff`,
`Sound.below_iff`, `Sound.target_none_iff`).
-/

namespace Washing

/-! ## Aggregation -/

/-- Return the aggregated action for the set of scope actions. -/
def actionFromSet (actions : List ScopeAction) : OptimizationAction :=
  if .scaleUp ∈ actions ∧ .scaleDown ∈ actions then .mixed
  else if .scaleUp ∈ actions then .scaleUp
  else if .scaleDown ∈ actions then .scaleDown
  else if actions ≠ [] then .keep
  else .insufficientData

/-- Aggregate scope-level decisions into one global optimization. -/
def aggregateOptimization (scopes : List ScopeDetails) : OptimizationStatus × OptimizationAction :=
  let hasAmbiguousProvider := ∃ scope ∈ scopes, scope.status = .ambiguousProvider
  let okScopes := scopes.filter fun scope => scope.status = .ok
  let actions := okScopes.map (·.action)
  if hasAmbiguousProvider ∧ okScopes = [] then (.error, .unavailable)
  else if hasAmbiguousProvider then
    (.error, if .scaleUp ∈ actions ∧ .scaleDown ∈ actions then .mixed else actionFromSet actions)
  else if okScopes = [] then (.partial_, .insufficientData)
  else if ∃ scope ∈ scopes, scope.status ≠ .ok then (.partial_, actionFromSet actions)
  else (.ready, actionFromSet actions)

/-- The current capacity of a machine in a scope. -/
def Machine.capacity (m : Machine) : ScopeName → Option ℚ
  | .cpu => m.cpu
  | .ram => m.ramMb
  | .disk => m.diskMb

/-- The evaluation of one scope under the settings. -/
def evaluate (s : Settings) (db : Database) (machine : Machine) (scope : ScopeName) : ScopeDetails :=
  evaluateScope db machine scope (machine.capacity scope) s.flavorOptimizationWindowSize (s.bounds scope)

/-- Build the stored snapshot payload for one machine. -/
def buildOptimizationSnapshot (s : Settings) (db : Database) (machine : Machine) (now : Time) : OptimizationSnapshot :=
  let cpu := evaluate s db machine .cpu
  let ram := evaluate s db machine .ram
  let disk := evaluate s db machine .disk
  let aggregated := aggregateOptimization [cpu, ram, disk]
  { status := aggregated.1
    action := aggregated.2
    windowSize := s.flavorOptimizationWindowSize
    minCpu := s.flavorOptimizationMinCpu
    maxCpu := s.flavorOptimizationMaxCpu
    minRamMb := s.flavorOptimizationMinRamMb
    maxRamMb := s.flavorOptimizationMaxRamMb
    computedAt := now
    currentCpu := machine.cpu
    currentRamMb := machine.ramMb
    currentDiskMb := machine.diskMb
    targetCpu := effectiveTarget machine.cpu cpu
    targetRamMb := effectiveTarget machine.ramMb ram
    targetDiskMb := effectiveTarget machine.diskMb disk
    details := ⟨some cpu, some ram, some disk⟩ }

/-! ## Coherence -/

/-- The current capacity that a snapshot records for a scope. -/
def OptimizationSnapshot.current (r : OptimizationSnapshot) : ScopeName → Option ℚ
  | .cpu => r.currentCpu
  | .ram => r.currentRamMb
  | .disk => r.currentDiskMb

/-- The target capacity that a snapshot records for a scope. -/
def OptimizationSnapshot.target (r : OptimizationSnapshot) : ScopeName → Option ℚ
  | .cpu => r.targetCpu
  | .ram => r.targetRamMb
  | .disk => r.targetDiskMb

/-- The action and the status of a scope agree with its current and its target capacity. -/
structure ScopeCoherent (s : Settings) (scope : ScopeName) (current target : Option ℚ) (d : ScopeDetails) : Prop where
  scale_up : d.action = .scaleUp → ∃ c t, current = some c ∧ target = some t ∧ c < t ∧ InCatalog s scope t
  scale_down : d.action = .scaleDown →
    scope ≠ .disk ∧ ∃ c t, current = some c ∧ target = some t ∧ t < c ∧ InCatalog s scope t
  keep : d.action = .keep → ∃ c, current = some c ∧ target = some c
  not_ok : d.status ≠ .ok → target = none

/-- Some target of the scope is above the current capacity. -/
def Above (r : OptimizationSnapshot) (scope : ScopeName) : Prop :=
  ∃ c t, r.current scope = some c ∧ r.target scope = some t ∧ c < t

/-- Some target of the scope is below the current capacity. -/
def Below (r : OptimizationSnapshot) (scope : ScopeName) : Prop :=
  ∃ c t, r.current scope = some c ∧ r.target scope = some t ∧ t < c

/-- The snapshot is coherent: scope by scope, and in its global action. -/
structure Coherent (s : Settings) (r : OptimizationSnapshot) : Prop where
  scopes : ∀ scope, ∃ d, r.details.get scope = some d ∧ ScopeCoherent s scope (r.current scope) (r.target scope) d
  mixed_iff : r.action = .mixed ↔ (∃ scope, Above r scope) ∧ ∃ scope, Below r scope
  scaleUp_iff : r.action = .scaleUp ↔ (∃ scope, Above r scope) ∧ ¬ ∃ scope, Below r scope
  scaleDown_iff : r.action = .scaleDown ↔ (∃ scope, Below r scope) ∧ ¬ ∃ scope, Above r scope
  keep_iff : r.action = .keep ↔
    (∃ scope t, r.target scope = some t) ∧ ∀ scope t, r.target scope = some t → r.current scope = some t
  no_target_iff : r.action = .insufficientData ∨ r.action = .unavailable ↔ ∀ scope, r.target scope = none
  unavailable_iff : r.action = .unavailable ↔ (∀ scope, r.target scope = none) ∧
    ∃ scope d, r.details.get scope = some d ∧ d.status = .ambiguousProvider

/-! ## One scope -/

section Scope

variable {s : Settings} {scope : ScopeName} {current : Option ℚ} {d : ScopeDetails}

@[simp] theorem effectiveTarget_not_ok (h : d.status ≠ .ok) : effectiveTarget current d = none := by
  cases current <;> simp [effectiveTarget, h]

theorem effectiveTarget_scaled {c : ℚ} (h : d.status = .ok) (ha : d.action = .scaleUp ∨ d.action = .scaleDown) :
    effectiveTarget (some c) d = d.boundedTargetCapacity := by simp [effectiveTarget, h, ha]

theorem effectiveTarget_keep {c : ℚ} (h : d.status = .ok) (ha : d.action = .keep) :
    effectiveTarget (some c) d = some c := by simp [effectiveTarget, h, ha]

/-- The target of a calculable scope is its current capacity unless the scope is scaled. -/
theorem Sound.coherent (h : Sound s scope current d) : ScopeCoherent s scope current (effectiveTarget current d) d := by
  cases h with
  | notCalculable hs ha =>
    refine ⟨?_, ?_, ?_, fun _ => effectiveTarget_not_ok hs⟩ <;> rcases ha with ha | ha <;> simp [ha]
  | scaleUp c t hc hs ha ht hlt hcat =>
    subst hc
    have htarget := (effectiveTarget_scaled (c := c) hs (.inl ha)).trans ht
    exact ⟨fun _ => ⟨c, t, rfl, htarget, hlt, hcat⟩, by simp [ha], by simp [ha], absurd hs⟩
  | scaleDown c t hc hs ha ht hlt hcat hdisk =>
    subst hc
    have htarget := (effectiveTarget_scaled (c := c) hs (.inr ha)).trans ht
    exact ⟨by simp [ha], fun _ => ⟨hdisk, c, t, rfl, htarget, hlt, hcat⟩, by simp [ha], absurd hs⟩
  | keep c hc hs ha =>
    subst hc
    exact ⟨by simp [ha], by simp [ha], fun _ => ⟨c, rfl, effectiveTarget_keep hs ha⟩, absurd hs⟩

/-- The target of a scope is above, below or at the current capacity, or missing, as the action says. -/
inductive Position (current target : Option ℚ) (d : ScopeDetails) : Prop
  | none (status : d.status ≠ .ok) (target : target = none)
  | above (c t : ℚ) (status : d.status = .ok) (action : d.action = .scaleUp) (current : current = some c)
      (target : target = some t) (lt : c < t)
  | below (c t : ℚ) (status : d.status = .ok) (action : d.action = .scaleDown) (current : current = some c)
      (target : target = some t) (lt : t < c)
  | equal (c : ℚ) (status : d.status = .ok) (action : d.action = .keep) (current : current = some c)
      (target : target = some c)

theorem Sound.position (h : Sound s scope current d) : Position current (effectiveTarget current d) d := by
  have hcoh := h.coherent
  cases h with
  | notCalculable hs _ => exact .none hs (hcoh.not_ok hs)
  | scaleUp _ _ _ hs ha _ _ _ =>
    obtain ⟨c, t, hc, ht, hlt, -⟩ := hcoh.scale_up ha
    exact .above c t hs ha hc ht hlt
  | scaleDown _ _ _ hs ha _ _ _ _ =>
    obtain ⟨-, c, t, hc, ht, hlt, -⟩ := hcoh.scale_down ha
    exact .below c t hs ha hc ht hlt
  | keep _ _ hs ha =>
    obtain ⟨c, hc, ht⟩ := hcoh.keep ha
    exact .equal c hs ha hc ht

variable {target : Option ℚ}

theorem Position.above_iff (h : Position current target d) :
    (∃ c t, current = some c ∧ target = some t ∧ c < t) ↔ d.status = .ok ∧ d.action = .scaleUp := by
  cases h with
  | none hs ht => simp [hs, ht]
  | above c t hs ha hc ht hlt => simp [hs, ha, hc, ht, hlt]
  | below c t hs ha hc ht hlt => simp [ha, hc, ht, hlt.le]
  | equal c hs ha hc ht => simp [ha, hc, ht]

theorem Position.below_iff (h : Position current target d) :
    (∃ c t, current = some c ∧ target = some t ∧ t < c) ↔ d.status = .ok ∧ d.action = .scaleDown := by
  cases h with
  | none hs ht => simp [hs, ht]
  | above c t hs ha hc ht hlt => simp [ha, hc, ht, hlt.le]
  | below c t hs ha hc ht hlt => simp [hs, ha, hc, ht, hlt]
  | equal c hs ha hc ht => simp [ha, hc, ht]

/-- Exactly the calculable scopes have a target. -/
theorem Position.target_iff (h : Position current target d) : (∃ t, target = some t) ↔ d.status = .ok := by
  cases h with
  | none hs ht => simp [hs, ht]
  | above _ _ hs _ _ ht _ | below _ _ hs _ _ ht _ | equal _ hs _ _ ht => simp [hs, ht]

/-- A target that equals the current capacity is neither above nor below it, and conversely. -/
theorem Position.equal_iff (h : Position current target d) : (∀ t, target = some t → current = some t) ↔
    ¬ (d.status = .ok ∧ d.action = .scaleUp) ∧ ¬ (d.status = .ok ∧ d.action = .scaleDown) := by
  cases h with
  | none hs ht => simp [hs, ht]
  | above c t hs ha hc ht hlt => simp [hs, ha, hc, ht, hlt.ne]
  | below c t hs ha hc ht hlt => simp [hs, ha, hc, ht, hlt.ne']
  | equal c hs ha hc ht => simp [ha, hc, ht]

end Scope

/-! ## The global action -/

/-- The actions of the calculable scopes. -/
def okActions (scopes : List ScopeDetails) : List ScopeAction :=
  (scopes.filter fun scope => scope.status = .ok).map (·.action)

/-- The global action depends on the actions of the calculable scopes, and on an ambiguity when there are none. -/
theorem aggregate_cases (scopes : List ScopeDetails) :
    ((∃ d ∈ scopes, d.status = .ambiguousProvider) ∧ okActions scopes = [] ∧
      (aggregateOptimization scopes).2 = .unavailable) ∨
    (¬ ((∃ d ∈ scopes, d.status = .ambiguousProvider) ∧ okActions scopes = []) ∧
      (aggregateOptimization scopes).2 = actionFromSet (okActions scopes)) := by
  unfold aggregateOptimization
  extract_lets ambiguous okScopes actions
  have hactions : okActions scopes = actions := rfl
  have hnil : actions = [] ↔ okScopes = [] := List.map_eq_nil_iff
  rw [hactions, hnil]
  split_ifs with h1 h2 h3 h4 h5
  · exact .inl ⟨h1.1, h1.2, rfl⟩
  · exact .inr ⟨h1, (if_pos h3).symm⟩
  · exact .inr ⟨h1, rfl⟩
  · refine .inr ⟨h1, ?_⟩
    rw [hnil.mpr h4]
    rfl
  · exact .inr ⟨h1, rfl⟩
  · exact .inr ⟨h1, rfl⟩

/-- What each value of the aggregated action says about the set of actions. -/
theorem actionFromSet_cases (actions : List ScopeAction) :
    (actionFromSet actions = .mixed ↔ .scaleUp ∈ actions ∧ .scaleDown ∈ actions) ∧
    (actionFromSet actions = .scaleUp ↔ .scaleUp ∈ actions ∧ .scaleDown ∉ actions) ∧
    (actionFromSet actions = .scaleDown ↔ .scaleDown ∈ actions ∧ .scaleUp ∉ actions) ∧
    (actionFromSet actions = .keep ↔ actions ≠ [] ∧ .scaleUp ∉ actions ∧ .scaleDown ∉ actions) ∧
    (actionFromSet actions = .insufficientData ↔ actions = []) ∧ actionFromSet actions ≠ .unavailable := by
  unfold actionFromSet
  by_cases hup : ScopeAction.scaleUp ∈ actions <;> by_cases hdown : ScopeAction.scaleDown ∈ actions
  · have hne : actions ≠ [] := List.ne_nil_of_mem hup
    simp [hup, hdown, hne]
  · have hne : actions ≠ [] := List.ne_nil_of_mem hup
    simp [hup, hdown, hne]
  · have hne : actions ≠ [] := List.ne_nil_of_mem hdown
    simp [hup, hdown, hne]
  · by_cases hnil : actions = [] <;> simp [hup, hdown, hnil]

section Build

variable (s : Settings) (db : Database) (m : Machine) (now : Time)

/-- The evaluations of all scopes, in the order of the source. -/
def evaluations : List ScopeDetails := ScopeName.all.map (evaluate s db m)

theorem evaluate_sound (scope : ScopeName) : Sound s scope (m.capacity scope) (evaluate s db m scope) :=
  evaluateScope_sound s db m scope _ _

/-- The snapshot records the evaluation, the current capacity and the effective target of each scope. -/
theorem build_details (scope : ScopeName) :
    (buildOptimizationSnapshot s db m now).details.get scope = some (evaluate s db m scope) := by cases scope <;> rfl

theorem build_current (scope : ScopeName) :
    (buildOptimizationSnapshot s db m now).current scope = m.capacity scope := by
  cases scope <;> rfl

theorem build_target (scope : ScopeName) : (buildOptimizationSnapshot s db m now).target scope =
    effectiveTarget (m.capacity scope) (evaluate s db m scope) := by cases scope <;> rfl

theorem build_position (scope : ScopeName) : Position ((buildOptimizationSnapshot s db m now).current scope)
    ((buildOptimizationSnapshot s db m now).target scope) (evaluate s db m scope) := by
  rw [build_current, build_target]
  exact (evaluate_sound s db m scope).position

theorem mem_okActions (a : ScopeAction) : a ∈ okActions (evaluations s db m) ↔
    ∃ scope, (evaluate s db m scope).status = .ok ∧ (evaluate s db m scope).action = a := by
  simp [okActions, evaluations, and_assoc]

theorem okActions_nil_iff : okActions (evaluations s db m) = [] ↔ ∀ scope, (evaluate s db m scope).status ≠ .ok := by
  simp [okActions, evaluations]

theorem above_iff : (∃ scope, Above (buildOptimizationSnapshot s db m now) scope) ↔
    .scaleUp ∈ okActions (evaluations s db m) := by
  rw [mem_okActions]
  exact exists_congr fun scope => (build_position s db m now scope).above_iff

theorem below_iff : (∃ scope, Below (buildOptimizationSnapshot s db m now) scope) ↔
    .scaleDown ∈ okActions (evaluations s db m) := by
  rw [mem_okActions]
  exact exists_congr fun scope => (build_position s db m now scope).below_iff

/-- No scope has a target exactly when none is calculable. -/
theorem no_target_iff : (∀ scope, (buildOptimizationSnapshot s db m now).target scope = none) ↔
    okActions (evaluations s db m) = [] := by
  rw [okActions_nil_iff]
  refine forall_congr' fun scope => ?_
  rw [ne_eq, ← (build_position s db m now scope).target_iff]
  cases (buildOptimizationSnapshot s db m now).target scope <;> simp

/-- All targets are at the current capacities exactly when no scope is scaled. -/
theorem all_equal_iff : (∀ scope t, (buildOptimizationSnapshot s db m now).target scope = some t →
    (buildOptimizationSnapshot s db m now).current scope = some t) ↔
      .scaleUp ∉ okActions (evaluations s db m) ∧ .scaleDown ∉ okActions (evaluations s db m) := by
  rw [mem_okActions, mem_okActions, not_exists, not_exists, ← forall_and]
  exact forall_congr' fun scope => (build_position s db m now scope).equal_iff

theorem build_action : (buildOptimizationSnapshot s db m now).action = (aggregateOptimization (evaluations s db m)).2 :=
  rfl

end Build

/-- The snapshot built for a machine is coherent, whatever its capacities, the providers and the samples. -/
theorem build_coherent (s : Settings) (db : Database) (m : Machine) (now : Time) :
    Coherent s (buildOptimizationSnapshot s db m now) := by
  have hscopes : ∀ scope, ∃ d, (buildOptimizationSnapshot s db m now).details.get scope = some d ∧
      ScopeCoherent s scope ((buildOptimizationSnapshot s db m now).current scope)
        ((buildOptimizationSnapshot s db m now).target scope) d := by
    intro scope
    refine ⟨_, build_details s db m now scope, ?_⟩
    rw [build_current, build_target]
    exact (evaluate_sound s db m scope).coherent
  have hambiguous : (∃ scope d, (buildOptimizationSnapshot s db m now).details.get scope = some d ∧
      d.status = .ambiguousProvider) ↔ ∃ d ∈ evaluations s db m, d.status = .ambiguousProvider := by
    simp only [build_details, Option.some.injEq, exists_eq_left', evaluations, List.mem_map, ScopeName.mem_all,
      true_and, exists_exists_eq_and]
  have hsome : (∃ scope t, (buildOptimizationSnapshot s db m now).target scope = some t) ↔
      okActions (evaluations s db m) ≠ [] := by
    rw [ne_eq, ← no_target_iff s db m now]
    simp [Option.ne_none_iff_exists']
  rcases aggregate_cases (evaluations s db m) with ⟨ha, hnil, haction⟩ | ⟨hna, haction⟩
  · -- an ambiguity and nothing calculable: no target at all
    refine ⟨hscopes, ?_, ?_, ?_, ?_, ?_, ?_⟩ <;>
      simp [build_action, haction, above_iff, below_iff, no_target_iff, hsome, hambiguous, ha, hnil]
  · obtain ⟨hmixed, hscaleUp, hscaleDown, hkeep, hinsufficient, hunavailable⟩ :=
      actionFromSet_cases (okActions (evaluations s db m))
    refine ⟨hscopes, ?_, ?_, ?_, ?_, ?_, ?_⟩ <;> rw [build_action, haction]
    · rw [above_iff, below_iff, hmixed]
    · rw [above_iff, below_iff, hscaleUp]
    · rw [above_iff, below_iff, hscaleDown]
    · rw [hsome, all_equal_iff, hkeep]
    · rw [no_target_iff, hinsufficient, or_iff_left hunavailable]
    · rw [no_target_iff, hambiguous, and_comm]
      exact iff_of_false hunavailable hna

end Washing
