import Washing.Lib.Publish

/-!
# Jobs on a session

A job works on a copy of the database that only it sees (`working`), and nothing of it lasts before a commit. Any of
its steps may raise, by itself or because something outside fails (`Faults`), and then the copy is left in whatever
condition. `Uncommitted` and `Atomic` say what has lasted by then; they are shown step by step (`Uncommitted.bind`,
`Uncommitted.atomic`). `Computes` describes a job to which nothing happens from outside, and `Refines` says that
another job that gets through does the same.
-/

namespace Washing

/-- The database, the copy that the session works on, and the number of steps made so far. -/
structure Work (D W : Type) where
  committed : D
  working : W
  steps : Nat

/-- The steps that fail from outside: what they raise, and the condition in which they leave the copy. -/
abbrev Faults (W : Type) := Nat → Option (Exc × W)

/-- Nothing fails. -/
def Faults.none {W : Type} : Faults W := fun _ => Option.none

/-- A computation on a session, which returns or raises. -/
def Job (D W α : Type) := Work D W → Except Exc α × Work D W

namespace Job

variable {D W α β : Type}

instance : Monad (Job D W) where
  pure a s := (.ok a, s)
  bind x f s :=
    match x s with
    | (.ok a, s) => f a s
    | (.error e, s) => (.error e, s)

/-- Raise an exception. -/
def fail (e : Exc) : Job D W α := fun s => (.error e, s)

/-- Read the copy. -/
def look (f : W → α) : Job D W α := fun s => (.ok (f s.working), s)

/-- One step on the copy. -/
def step (faults : Faults W) (f : W → Except Exc (W × α)) : Job D W α := fun s =>
  match faults s.steps with
  | some (e, w) => (.error e, ⟨s.committed, w, s.steps + 1⟩)
  | none =>
    match f s.working with
    | .ok (w, a) => (.ok a, ⟨s.committed, w, s.steps + 1⟩)
    | .error e => (.error e, ⟨s.committed, s.working, s.steps + 1⟩)

/-- The commit, which stores the copy unless it fails. -/
def commit (faults : Faults W) (store : W → D) : Job D W Unit := fun s =>
  match faults s.steps with
  | some (e, w) => (.error e, ⟨s.committed, w, s.steps + 1⟩)
  | none => (.ok (), ⟨store s.working, s.working, s.steps + 1⟩)

/-- Commit at the end. -/
def committing (faults : Faults W) (store : W → D) (x : Job D W α) : Job D W α := do
  let a ← x
  commit faults store
  return a

/-- Change the copy and commit. -/
def save (store : W → D) (f : W → W) : Job D W Unit := fun s =>
  (.ok (), ⟨store (f s.working), f s.working, s.steps + 1⟩)

/-- `try: … except Exception as exc: rollback; record the exception; raise`. -/
def guarded (load : D → W) (store : W → D) (record : Exc → W → W) (body : Job D W α) : Job D W α := fun s =>
  match body s with
  | (.ok a, s) => (.ok a, s)
  | (.error e, s) => (.error e, ⟨store (record e (load s.committed)), record e (load s.committed), s.steps + 1⟩)

/-- Publish messages in order; `call k a` is the outcome of the `k`-th call, on the message `a`. -/
def publishing (faults : Faults W) (call : Nat → α → Option Exc) : Nat → List α → Job D W Unit
  | _, [] => pure ()
  | k, a :: l => do
    step faults fun w =>
      match call k a with
      | some e => .error e
      | none => .ok (w, ())
    publishing faults call (k + 1) l

/-- The calls of a publication that begins after `steps` steps, when each of them may fail from outside as well. -/
def interrupted (faults : Faults W) (steps : Nat) (call : Nat → α → Option Exc) (k : Nat) (a : α) : Option Exc :=
  ((faults (steps + k)).map Prod.fst).or (call k a)

/-! ## What lasts -/

/-- Nothing is committed. -/
def Uncommitted (x : Job D W α) : Prop := ∀ s, (x s).2.committed = s.committed

/-- Nothing is committed by a job that raises. -/
def Atomic (x : Job D W α) : Prop := ∀ s e, (x s).1 = .error e → (x s).2.committed = s.committed

theorem Uncommitted.atomic {x : Job D W α} (h : Uncommitted x) : Atomic x := fun s _ _ => h s

theorem uncommitted_pure (a : α) : Uncommitted (pure a : Job D W α) := fun _ => rfl

theorem uncommitted_step (faults : Faults W) (f : W → Except Exc (W × α)) :
    Uncommitted (step faults f : Job D W α) := by
  intro s
  unfold step
  cases faults s.steps with
  | some x => rfl
  | none =>
    cases f s.working with
    | ok r => rfl
    | error e => rfl

theorem bind_eq (x : Job D W α) (f : α → Job D W β) (s : Work D W) : (x >>= f) s =
    match x s with
    | (.ok a, s) => f a s
    | (.error e, s) => (.error e, s) := rfl

@[simp] theorem look_bind (f : W → α) (g : α → Job D W β) (s : Work D W) : (look f >>= g) s = g (f s.working) s := rfl

theorem bind_ok {x : Job D W α} {f : α → Job D W β} {s s' : Work D W} {b : β} (h : (x >>= f) s = (.ok b, s')) :
    ∃ a s₁, x s = (.ok a, s₁) ∧ f a s₁ = (.ok b, s') := by
  rw [bind_eq] at h
  cases hrun : x s with
  | mk result s₁ =>
    rw [hrun] at h
    cases result with
    | ok a => exact ⟨a, s₁, rfl, h⟩
    | error e => cases h

theorem step_ok {faults : Faults W} {f : W → Except Exc (W × α)} {s s' : Work D W} {a : α}
    (h : step faults f s = (.ok a, s')) :
    faults s.steps = none ∧ ∃ w, f s.working = .ok (w, a) ∧ s' = ⟨s.committed, w, s.steps + 1⟩ := by
  unfold step at h
  cases hfault : faults s.steps with
  | some x => simp [hfault] at h
  | none =>
    cases hf : f s.working with
    | error e => simp [hfault, hf] at h
    | ok r =>
      simp only [hfault, hf, Prod.mk.injEq, Except.ok.injEq] at h
      obtain ⟨rfl, rfl⟩ := h
      exact ⟨rfl, r.1, rfl, rfl⟩

/-- A publication gets through when none of its calls fails, by itself or from outside. -/
theorem publishing_ok {faults : Faults W} {call : Nat → α → Option Exc} {steps : Nat} :
    ∀ {k : Nat} {l : List α} {s s' : Work D W}, s.steps = steps + k → publishing faults call k l s = (.ok (), s') →
      (publishAll (interrupted faults steps call) k l).2 = none
  | _, [], _, _, _, _ => rfl
  | k, a :: l, s, s', hsteps, h => by
    obtain ⟨_, s₁, hstep, hrest⟩ := bind_ok h
    obtain ⟨hfault, w, hcall, rfl⟩ := step_ok hstep
    have hnone : interrupted faults steps call k a = none := by
      rw [interrupted, ← hsteps, hfault]
      cases hk : call k a with
      | some e => simp [hk] at hcall
      | none => rfl
    simp only [publishAll, hnone]
    exact publishing_ok (congrArg Nat.succ hsteps) hrest

theorem Uncommitted.bind {x : Job D W α} (hx : Uncommitted x) {f : α → Job D W β} (hf : ∀ a, Uncommitted (f a)) :
    Uncommitted (x >>= f) := by
  intro s
  have hs := hx s
  rw [bind_eq]
  cases hrun : x s with
  | mk result s' =>
    rw [hrun] at hs
    cases result with
    | ok a => exact (hf a s').trans hs
    | error e => exact hs

theorem Uncommitted.bind_atomic {x : Job D W α} (hx : Uncommitted x) {f : α → Job D W β} (hf : ∀ a, Atomic (f a)) :
    Atomic (x >>= f) := by
  intro s e he
  have hs := hx s
  rw [bind_eq] at he ⊢
  cases hrun : x s with
  | mk result s' =>
    rw [hrun] at hs he
    cases result with
    | ok a => exact (hf a s' e he).trans hs
    | error e => exact hs

theorem uncommitted_publishing (faults : Faults W) (call : Nat → α → Option Exc) : ∀ (k : Nat) (l : List α),
    Uncommitted (publishing faults call k l : Job D W Unit)
  | _, [] => uncommitted_pure ()
  | k, _ :: l => (uncommitted_step faults _).bind fun _ => uncommitted_publishing faults call (k + 1) l

/-- The commit is the last thing that can fail. -/
theorem Uncommitted.committing {x : Job D W α} (hx : Uncommitted x) (faults : Faults W) (store : W → D) :
    Atomic (committing faults store x) := by
  refine hx.bind_atomic fun a s e he => ?_
  rw [bind_eq] at he ⊢
  unfold commit at he ⊢
  cases hfault : faults s.steps with
  | some x => rfl
  | none =>
    rw [hfault] at he
    cases he

section Guarded

variable {load : D → W} {store : W → D} {record : Exc → W → W} {body : Job D W α}

/-- A guarded job raises what its body raises. -/
theorem guarded_error_iff {s : Work D W} {e : Exc} :
    (guarded load store record body s).1 = .error e ↔ (body s).1 = .error e := by
  unfold guarded
  cases body s with
  | mk result s' => cases result <;> rfl

/-- What has lasted when a guarded job raises: the record of the exception. -/
theorem guarded_error (h : Atomic body) {s : Work D W} {e : Exc}
    (he : (guarded load store record body s).1 = .error e) :
    (guarded load store record body s).2.committed = store (record e (load s.committed)) := by
  have hbody := guarded_error_iff.mp he
  have hlast := h s e hbody
  unfold guarded
  cases hrun : body s with
  | mk result s' =>
    rw [hrun] at hbody hlast
    cases hbody
    exact congrArg (fun d => store (record e (load d))) hlast

theorem guarded_ok {s s' : Work D W} {a : α} :
    guarded load store record body s = (.ok a, s') ↔ body s = (.ok a, s') := by
  unfold guarded
  cases body s with
  | mk result s'' => cases result <;> simp

end Guarded

/-! ## What is computed -/

/-- Nothing happens from outside: the job computes `g` on the copy and commits nothing. -/
def Computes (x : Job D W α) (g : W → Except Exc (W × α)) : Prop := ∀ s,
  (∀ e, g s.working = .error e → ∃ w k, x s = (.error e, ⟨s.committed, w, k⟩)) ∧
    ∀ w a, g s.working = .ok (w, a) → ∃ k, x s = (.ok a, ⟨s.committed, w, k⟩)

theorem Computes.congr {x : Job D W α} {g h : W → Except Exc (W × α)} (hx : Computes x g) (heq : ∀ w, g w = h w) :
    Computes x h := funext heq ▸ hx

theorem computes_pure (a : α) : Computes (pure a : Job D W α) fun w => .ok (w, a) := by
  refine fun s => ⟨nofun, fun w b h => ?_⟩
  cases h
  exact ⟨s.steps, rfl⟩

theorem computes_step (f : W → Except Exc (W × α)) : Computes (step .none f : Job D W α) f := by
  refine fun s => ⟨fun e he => ⟨s.working, s.steps + 1, ?_⟩, fun w a ha => ⟨s.steps + 1, ?_⟩⟩
  · simp only [step, Faults.none, he]
  · simp only [step, Faults.none, ha]

theorem Computes.bind {x : Job D W α} {g : W → Except Exc (W × α)} (hx : Computes x g) {f : α → Job D W β}
    {h : α → W → Except Exc (W × β)} (hf : ∀ a, Computes (f a) (h a)) :
    Computes (x >>= f) fun w => g w >>= fun r => h r.2 r.1 := by
  intro s
  cases hg : g s.working with
  | error e =>
    obtain ⟨w, k, hrun⟩ := (hx s).1 e hg
    have hfails : (g s.working >>= fun r => h r.2 r.1) = .error e := by rw [hg]; rfl
    refine ⟨fun e' he => ⟨w, k, ?_⟩, fun w a ha => absurd (hfails.symm.trans ha) nofun⟩
    cases hfails.symm.trans he
    rw [bind_eq, hrun]
  | ok r =>
    obtain ⟨k, hrun⟩ := (hx s).2 r.1 r.2 hg
    have hnext : (g s.working >>= fun r => h r.2 r.1) = h r.2 r.1 := by rw [hg]; rfl
    obtain ⟨herror, hok⟩ := hf r.2 ⟨s.committed, r.1, k⟩
    rw [bind_eq, hrun]
    exact ⟨fun e he => herror e (hnext.symm.trans he), fun w a ha => hok w a (hnext.symm.trans ha)⟩

/-- The calls raise what the first of them that fails raises. -/
theorem computes_publishing (call : Nat → α → Option Exc) : ∀ (k : Nat) (l : List α),
    Computes (publishing .none call k l : Job D W Unit) fun w =>
      match (publishAll call k l).2 with
      | some e => .error e
      | none => .ok (w, ())
  | _, [] => computes_pure ()
  | k, a :: l => by
    refine ((computes_step _).bind fun _ => computes_publishing call (k + 1) l).congr fun w => ?_
    rw [publishAll]
    cases call k a with
    | some e => rfl
    | none =>
      simp only [bind, Except.bind]

/-- What has lasted after a guarded job to which nothing happens from outside: what its block computes, or the record of
the exception that the block raises. -/
theorem Computes.guarded {x : Job D W α} {g : W → Except Exc (W × α)} (hx : Computes x g) {load : D → W} {store : W → D}
    {record : Exc → W → W} {s : Work D W} {run : Except Exc α × Work D W}
    (hrun : guarded load store record (committing .none store x) s = run) :
    (∀ e, g s.working = .error e → run.1 = .error e ∧ run.2.committed = store (record e (load s.committed))) ∧
    ∀ w a, g s.working = .ok (w, a) → run.1 = .ok a ∧ run.2.committed = store w := by
  obtain ⟨herror, hok⟩ := hx s
  subst hrun
  refine ⟨fun e he => ?_, fun w a hw => ?_⟩
  · obtain ⟨w, k, hraised⟩ := herror e he
    have hbody : committing .none store x s = (.error e, ⟨s.committed, w, k⟩) := by
      unfold committing
      rw [bind_eq, hraised]
    unfold Job.guarded
    rw [hbody]
    exact ⟨rfl, rfl⟩
  · obtain ⟨k, hreturned⟩ := hok w a hw
    have hbody : committing .none store x s = (.ok a, ⟨store w, w, k + 1⟩) := by
      unfold committing
      rw [bind_eq, hreturned]
      rfl
    rw [guarded_ok.mpr hbody]
    exact ⟨rfl, rfl⟩

/-- A run that gets through is a run to which nothing happened from outside. -/
def Refines (x y : Job D W α) : Prop := ∀ s a s', x s = (.ok a, s') → y s = (.ok a, s')

theorem Refines.refl (x : Job D W α) : Refines x x := fun _ _ _ h => h

theorem refines_step (faults : Faults W) (f : W → Except Exc (W × α)) :
    Refines (step faults f : Job D W α) (step .none f) := by
  intro s a s' h
  unfold step at h ⊢
  cases hfault : faults s.steps with
  | some x =>
    rw [hfault] at h
    cases h
  | none =>
    rw [hfault] at h
    exact h

theorem refines_commit (faults : Faults W) (store : W → D) :
    Refines (commit faults store : Job D W Unit) (commit .none store) := by
  intro s a s' h
  unfold commit at h ⊢
  cases hfault : faults s.steps with
  | some x =>
    rw [hfault] at h
    cases h
  | none =>
    rw [hfault] at h
    exact h

theorem Refines.bind {x y : Job D W α} (hx : Refines x y) {f g : α → Job D W β} (hf : ∀ a, Refines (f a) (g a)) :
    Refines (x >>= f) (y >>= g) := by
  intro s b s' h
  rw [bind_eq] at h ⊢
  cases hrun : x s with
  | mk result s₁ =>
    rw [hrun] at h
    cases result with
    | ok a =>
      rw [hx s a s₁ hrun]
      exact hf a s₁ b s' h
    | error e => cases h

theorem refines_publishing (faults : Faults W) (call : Nat → α → Option Exc) : ∀ (k : Nat) (l : List α),
    Refines (publishing faults call k l : Job D W Unit) (publishing .none call k l)
  | _, [] => .refl _
  | k, _ :: l => (refines_step faults _).bind fun _ => refines_publishing faults call (k + 1) l

theorem Refines.committing {x y : Job D W α} (h : Refines x y) (faults : Faults W) (store : W → D) :
    Refines (committing faults store x) (committing .none store y) :=
  h.bind fun _ => (refines_commit faults store).bind fun _ => .refl _

/-- A guarded job that gets through is one to which nothing happened from outside. -/
theorem Refines.guarded {x y : Job D W α} (h : Refines x y) {load : D → W} {store : W → D} {record : Exc → W → W}
    {s : Work D W} {a : α} (ha : (guarded load store record x s).1 = .ok a) :
    guarded load store record x s = guarded load store record y s := by
  have hx := guarded_ok.mp (Prod.ext ha rfl)
  exact (guarded_ok.mpr hx).trans (guarded_ok.mpr (h s a _ hx)).symm

end Job

end Washing
