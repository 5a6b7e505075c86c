import Washing.Lib.Publish

/-!
# Dispatchers that reserve before they publish

A dispatcher reserves the rows that are due and commits, publishes one message for each of them, and when a publish
fails it writes back what it remembers of the rows that it did not publish. Any number of dispatchers run at the same
time: a `DispatchState` holds the table, what each of them has still to publish, and the log of what happened so far.
An action is one step of one dispatcher, or the end of a published job.

Neither the publish nor the write-back looks at the row again. `InTurn` says that an action settles only rows that no
other dispatcher has reserved in the meantime; `run_invariant` is the rule for runs all of whose actions are in turn,
and `Holding` is what holds in every run.
-/

namespace Washing

variable {T D R J : Type}

/-! ## Protocols -/

/-- What dispatchers do to a table `D`: reserve the rows that are due at a time and not locked, remembering some `R` for
each; write back what they remember of some rows; and what the end of a job `J` of a row writes. -/
structure ReservationProtocol (T D R J : Type) where
  Valid : D → Prop
  reserve : D → T → List Nat → D × List (Nat × R)
  release : D → List (Nat × R) → D
  finish : D → Nat → J → T → D
  valid_reserve : ∀ db now locked, Valid db → Valid (reserve db now locked).1
  valid_release : ∀ db remaining, Valid db → Valid (release db remaining)
  valid_finish : ∀ db id job now, Valid db → Valid (finish db id job now)
  nodup_reserve : ∀ db now locked, Valid db → ((reserve db now locked).2.map Prod.fst).Nodup

/-- A dispatcher after its reservation: the rows it has still to publish, and whether a publish failed. -/
structure Dispatcher (T R : Type) where
  reservedAt : T
  remaining : List (Nat × R)
  failed : Bool

/-- What happened to a row, and by which dispatcher; `finished` is the end of the job that the dispatcher published. -/
inductive DispatchEvent (T : Type)
  | reserved (run id : Nat) (time : T)
  | published (run id : Nat) (time : T)
  | released (run id : Nat)
  | finished (run id : Nat)
  deriving DecidableEq, Repr

/-- The committed table, the clock, the dispatchers and the log, the newest event first. -/
structure DispatchState (T D R : Type) where
  db : D
  clock : T
  dispatchers : Nat → Option (Dispatcher T R)
  log : List (DispatchEvent T)

/-- The steps: a dispatcher starts, publishes its next row, fails to, or writes back; or a job ends. -/
inductive DispatchAction (T J : Type)
  | reserve (run : Nat) (now : T) (locked : List Nat)
  | publish (run : Nat)
  | fail (run : Nat)
  | release (run : Nat)
  | finish (run id : Nat) (job : J) (now : T)

/-- The event is the publication of a row by a dispatcher. -/
def DispatchEvent.Publishes (run id : Nat) : DispatchEvent T → Prop
  | .published r i _ => r = run ∧ i = id
  | _ => False

instance (run id : Nat) (e : DispatchEvent T) : Decidable (e.Publishes run id) := by
  cases e <;> unfold DispatchEvent.Publishes <;> infer_instance

/-- The latest reservation of a row: its dispatcher and its time. -/
def lastReservation : List (DispatchEvent T) → Nat → Option (Nat × T)
  | [], _ => none
  | .reserved run i time :: log, id => if i = id then some (run, time) else lastReservation log id
  | .published _ _ _ :: log, id | .released _ _ :: log, id | .finished _ _ :: log, id => lastReservation log id

namespace ReservationProtocol

variable [LinearOrder T] (P : ReservationProtocol T D R J)

/-- One step, if the action is possible. -/
def step (s : DispatchState T D R) : DispatchAction T J → Option (DispatchState T D R)
  | .reserve run now locked =>
    match s.dispatchers run with
    | some _ => none
    | none =>
      if s.clock ≤ now then
        let reserved := P.reserve s.db now locked
        some { db := reserved.1, clock := now
               dispatchers := Function.update s.dispatchers run (some ⟨now, reserved.2, false⟩)
               log := reserved.2.map (fun x => .reserved run x.1 now) ++ s.log }
      else none
  | .publish run =>
    match s.dispatchers run with
    | some ⟨time, x :: remaining, false⟩ =>
      some { s with
        dispatchers := Function.update s.dispatchers run (some ⟨time, remaining, false⟩)
        log := .published run x.1 time :: s.log }
    | _ => none
  | .fail run =>
    match s.dispatchers run with
    | some ⟨time, x :: remaining, false⟩ =>
      some { s with dispatchers := Function.update s.dispatchers run (some ⟨time, x :: remaining, true⟩) }
    | _ => none
  | .release run =>
    match s.dispatchers run with
    | some ⟨time, remaining, true⟩ =>
      some { s with
        db := P.release s.db remaining
        dispatchers := Function.update s.dispatchers run (some ⟨time, [], false⟩)
        log := remaining.map (fun x => .released run x.1) ++ s.log }
    | _ => none
  | .finish run id job now =>
    if s.clock ≤ now ∧ (∃ e ∈ s.log, e.Publishes run id) ∧ .finished run id ∉ s.log then
      some { s with db := P.finish s.db id job now, clock := now, log := .finished run id :: s.log }
    else none

/-- A run: one action after the other. -/
def run : DispatchState T D R → List (DispatchAction T J) → Option (DispatchState T D R)
  | s, [] => some s
  | s, a :: actions => (P.step s a).bind fun s' => run s' actions

end ReservationProtocol

/-- The rows that an action settles, with the dispatcher that reserved them. -/
def DispatchAction.settles (s : DispatchState T D R) : DispatchAction T J → List (Nat × Nat)
  | .reserve _ _ _ | .fail _ => []
  | .publish run =>
    match s.dispatchers run with
    | some d => (d.remaining.take 1).map fun x => (run, x.1)
    | none => []
  | .release run =>
    match s.dispatchers run with
    | some d => d.remaining.map fun x => (run, x.1)
    | none => []
  | .finish run id _ _ => [(run, id)]

/-- No row that the action settles was reserved by another dispatcher in the meantime. -/
def InTurn (s : DispatchState T D R) (a : DispatchAction T J) : Prop :=
  ∀ x ∈ a.settles s, (lastReservation s.log x.2).map Prod.fst = some x.1

instance (s : DispatchState T D R) (a : DispatchAction T J) : Decidable (InTurn s a) :=
  inferInstanceAs (Decidable (∀ x ∈ a.settles s, _))

namespace ReservationProtocol

variable [LinearOrder T] (P : ReservationProtocol T D R J)

/-- All the actions of a run are in turn. -/
def AllInTurn : DispatchState T D R → List (DispatchAction T J) → Prop
  | _, [] => True
  | s, a :: actions => InTurn s a ∧ ∀ s' ∈ P.step s a, AllInTurn s' actions

instance decidableAllInTurn : ∀ (s : DispatchState T D R) (actions : List (DispatchAction T J)),
    Decidable (P.AllInTurn s actions)
  | _, [] => inferInstanceAs (Decidable True)
  | s, a :: actions =>
    have : DecidablePred fun s' => P.AllInTurn s' actions := fun s' => decidableAllInTurn s' actions
    inferInstanceAs (Decidable (InTurn s a ∧ ∀ s' ∈ P.step s a, P.AllInTurn s' actions))

variable {P}

/-- What every action in turn preserves holds at the end of every run in turn. -/
theorem run_invariant {I : DispatchState T D R → Prop}
    (hstep : ∀ s a s', I s → InTurn s a → P.step s a = some s' → I s') :
    ∀ {actions : List (DispatchAction T J)} {s s' : DispatchState T D R}, I s → P.AllInTurn s actions →
      P.run s actions = some s' → I s'
  | [], s, s', hs, _, hrun => by
    cases hrun
    exact hs
  | a :: actions, s, s', hs, hturn, hrun => by
    obtain ⟨s₁, hs₁, hrest⟩ := Option.bind_eq_some_iff.mp hrun
    exact run_invariant hstep (hstep s a s₁ hs hturn.1 hs₁) (hturn.2 s₁ hs₁) hrest

/-! ## The steps -/

section Steps

variable {s s' : DispatchState T D R} {run id : Nat} {now : T}

theorem step_reserve {locked : List Nat} (h : P.step s (.reserve run now locked) = some s') :
    s.dispatchers run = none ∧ s.clock ≤ now ∧ s' =
      { db := (P.reserve s.db now locked).1, clock := now
        dispatchers := Function.update s.dispatchers run (some ⟨now, (P.reserve s.db now locked).2, false⟩)
        log := (P.reserve s.db now locked).2.map (fun x => .reserved run x.1 now) ++ s.log } := by
  simp only [step] at h
  split at h
  · cases h
  · rename_i hnone
    split_ifs at h with hle
    exact ⟨hnone, hle, (Option.some.inj h).symm⟩

theorem step_publish (h : P.step s (.publish run) = some s') :
    ∃ time x remaining, s.dispatchers run = some ⟨time, x :: remaining, false⟩ ∧ s' =
      { s with
        dispatchers := Function.update s.dispatchers run (some ⟨time, remaining, false⟩)
        log := .published run x.1 time :: s.log } := by
  simp only [step] at h
  split at h
  · rename_i time x remaining hsome
    exact ⟨time, x, remaining, hsome, (Option.some.inj h).symm⟩
  · cases h

theorem step_fail (h : P.step s (.fail run) = some s') :
    ∃ time x remaining, s.dispatchers run = some ⟨time, x :: remaining, false⟩ ∧ s' =
      { s with dispatchers := Function.update s.dispatchers run (some ⟨time, x :: remaining, true⟩) } := by
  simp only [step] at h
  split at h
  · rename_i time x remaining hsome
    exact ⟨time, x, remaining, hsome, (Option.some.inj h).symm⟩
  · cases h

theorem step_release (h : P.step s (.release run) = some s') :
    ∃ time remaining, s.dispatchers run = some ⟨time, remaining, true⟩ ∧ s' =
      { s with
        db := P.release s.db remaining
        dispatchers := Function.update s.dispatchers run (some ⟨time, [], false⟩)
        log := remaining.map (fun x => .released run x.1) ++ s.log } := by
  simp only [step] at h
  split at h
  · rename_i time remaining hsome
    exact ⟨time, remaining, hsome, (Option.some.inj h).symm⟩
  · cases h

theorem step_finish {job : J} (h : P.step s (.finish run id job now) = some s') :
    s.clock ≤ now ∧ (∃ e ∈ s.log, e.Publishes run id) ∧ .finished run id ∉ s.log ∧ s' =
      { s with db := P.finish s.db id job now, clock := now, log := .finished run id :: s.log } := by
  simp only [step] at h
  split_ifs at h with hpossible
  exact ⟨hpossible.1, hpossible.2.1, hpossible.2.2, (Option.some.inj h).symm⟩

end Steps

end ReservationProtocol

/-! ## The log -/

section Log

variable {log : List (DispatchEvent T)} {run id : Nat} {time : T}

@[simp] theorem lastReservation_published {r i : Nat} :
    lastReservation (.published r i time :: log) id = lastReservation log id := rfl

@[simp] theorem lastReservation_finished {r i : Nat} :
    lastReservation (.finished r i :: log) id = lastReservation log id := rfl

@[simp] theorem lastReservation_released (batch : List (Nat × R)) :
    lastReservation (batch.map (fun x => .released run x.1) ++ log) id = lastReservation log id := by
  induction batch with
  | nil => rfl
  | cons _ _ ih => exact ih

theorem lastReservation_reserved : ∀ {batch : List (Nat × R)},
    lastReservation (batch.map (fun x => .reserved run x.1 time) ++ log) id =
      if id ∈ batch.map Prod.fst then some (run, time) else lastReservation log id
  | [] => rfl
  | x :: batch => by
    simp only [List.map_cons, List.cons_append, lastReservation, List.mem_cons]
    by_cases hx : x.1 = id
    · simp [hx]
    · have hne : ¬ id = x.1 := fun h => hx h.symm
      rw [if_neg hx, lastReservation_reserved]
      simp only [hne, false_or]

theorem mem_of_lastReservation (h : lastReservation log id = some (run, time)) : .reserved run id time ∈ log := by
  induction log with
  | nil => cases h
  | cons e log ih =>
    cases e with
    | reserved r i t =>
      unfold lastReservation at h
      split_ifs at h with hi
      · cases h
        rw [hi]
        exact List.mem_cons_self
      · exact List.mem_cons_of_mem _ (ih h)
    | published _ _ _ | released _ _ | finished _ _ => exact List.mem_cons_of_mem _ (ih h)

end Log

/-- The job that a dispatcher published for a row has not ended. -/
def Unfinished (run id : Nat) (time : T) : List (DispatchEvent T) → Prop
  | [] => False
  | e :: log => e = .published run id time ∨ e ≠ .finished run id ∧ Unfinished run id time log

theorem Unfinished.published {run id : Nat} {time : T} : ∀ {log : List (DispatchEvent T)}, Unfinished run id time log →
    .published run id time ∈ log
  | _ :: _, .inl h => h ▸ List.mem_cons_self
  | _ :: _, .inr h => List.mem_cons_of_mem _ h.2.published

/-- Events that are not about the job do not end it, nor begin it. -/
theorem unfinished_append {run id : Nat} {time : T} {log : List (DispatchEvent T)} :
    ∀ {events : List (DispatchEvent T)},
    (∀ e ∈ events, e ≠ .published run id time ∧ e ≠ .finished run id) →
    (Unfinished run id time (events ++ log) ↔ Unfinished run id time log)
  | [], _ => Iff.rfl
  | e :: events, h => by
    obtain ⟨⟨hpublished, hfinished⟩, hrest⟩ := List.forall_mem_cons.mp h
    rw [List.cons_append, Unfinished, or_iff_right hpublished, and_iff_right hfinished, unfinished_append hrest]

/-! ## What holds in every run -/

/-- The dispatchers hold rows that they reserved, once, and did not publish; a dispatcher that has not started left no
trace in the log. -/
structure Holding [LinearOrder T] (s : DispatchState T D R) : Prop where
  reserved_le : ∀ run d, s.dispatchers run = some d → d.reservedAt ≤ s.clock
  nodup : ∀ run d, s.dispatchers run = some d → (d.remaining.map Prod.fst).Nodup
  reserved_at : ∀ run d, s.dispatchers run = some d → ∀ id time, .reserved run id time ∈ s.log → time = d.reservedAt
  unpublished : ∀ run d, s.dispatchers run = some d → ∀ x ∈ d.remaining, ∀ time, .published run x.1 time ∉ s.log
  unstarted : ∀ run, s.dispatchers run = none → ∀ id time,
    .reserved run id time ∉ s.log ∧ .published run id time ∉ s.log

section Holding

variable [LinearOrder T] {P : ReservationProtocol T D R J} {s s' : DispatchState T D R}

/-- Before the first action. -/
theorem holding_start {db : D} {clock : T} : Holding (⟨db, clock, fun _ => none, []⟩ : DispatchState T D R) := by
  constructor <;> simp

omit [LinearOrder T] in
theorem update_eq_some {dispatchers : Nat → Option (Dispatcher T R)} {run r : Nat} {d d' : Dispatcher T R}
    (h : Function.update dispatchers run (some d) r = some d') :
    (r = run ∧ d' = d) ∨ (r ≠ run ∧ dispatchers r = some d') := by
  by_cases hr : r = run
  · subst hr
    rw [Function.update_self] at h
    exact .inl ⟨rfl, (Option.some.inj h).symm⟩
  · rw [Function.update_of_ne hr] at h
    exact .inr ⟨hr, h⟩

omit [LinearOrder T] in
theorem update_eq_none {dispatchers : Nat → Option (Dispatcher T R)} {run r : Nat} {d : Dispatcher T R}
    (h : Function.update dispatchers run (some d) r = none) : r ≠ run ∧ dispatchers r = none := by
  by_cases hr : r = run
  · subst hr
    rw [Function.update_self] at h
    cases h
  · rw [Function.update_of_ne hr] at h
    exact ⟨hr, h⟩

/-- A reservation is the first trace of its dispatcher. -/
theorem Holding.reserve (h : Holding s) {db : D} {run : Nat} (hnew : s.dispatchers run = none) {now : T}
    (hnow : s.clock ≤ now) {batch : List (Nat × R)} (hbatch : (batch.map Prod.fst).Nodup) :
    Holding { db, clock := now, dispatchers := Function.update s.dispatchers run (some ⟨now, batch, false⟩)
              log := batch.map (fun x => .reserved run x.1 now) ++ s.log } := by
  have hreserved : ∀ r id time, .reserved r id time ∈ batch.map (fun x => DispatchEvent.reserved run x.1 now) ++ s.log →
      (r = run ∧ time = now) ∨ .reserved r id time ∈ s.log := by
    intro r id time hmem
    rcases List.mem_append.mp hmem with hmem | hmem
    · obtain ⟨x, -, hx⟩ := List.mem_map.mp hmem
      cases hx
      exact .inl ⟨rfl, rfl⟩
    · exact .inr hmem
  have hpublished : ∀ r id time,
      .published r id time ∈ batch.map (fun x => DispatchEvent.reserved run x.1 now) ++ s.log →
      .published r id time ∈ s.log := by
    intro r id time hmem
    rcases List.mem_append.mp hmem with hmem | hmem
    · obtain ⟨x, -, hx⟩ := List.mem_map.mp hmem
      cases hx
    · exact hmem
  constructor
  case reserved_le =>
    intro r d hd
    rcases update_eq_some hd with ⟨-, rfl⟩ | ⟨-, hd⟩
    · exact le_rfl
    · exact (h.reserved_le r d hd).trans hnow
  case nodup =>
    intro r d hd
    rcases update_eq_some hd with ⟨-, rfl⟩ | ⟨-, hd⟩
    · exact hbatch
    · exact h.nodup r d hd
  case reserved_at =>
    intro r d hd id time hmem
    rcases update_eq_some hd with ⟨rfl, rfl⟩ | ⟨hne, hd⟩
    · rcases hreserved r id time hmem with ⟨-, rfl⟩ | hmem
      · rfl
      · exact absurd hmem (h.unstarted r hnew id time).1
    · rcases hreserved r id time hmem with ⟨hr, -⟩ | hmem
      · exact absurd hr hne
      · exact h.reserved_at r d hd id time hmem
  case unpublished =>
    intro r d hd x hx time hmem
    rcases update_eq_some hd with ⟨rfl, rfl⟩ | ⟨-, hd⟩
    · exact (h.unstarted r hnew x.1 time).2 (hpublished _ _ _ hmem)
    · exact h.unpublished r d hd x hx time (hpublished _ _ _ hmem)
  case unstarted =>
    intro r hd id time
    obtain ⟨hne, hd⟩ := update_eq_none hd
    refine ⟨fun hmem => ?_, fun hmem => (h.unstarted r hd id time).2 (hpublished _ _ _ hmem)⟩
    rcases hreserved r id time hmem with ⟨hr, -⟩ | hmem
    · exact hne hr
    · exact (h.unstarted r hd id time).1 hmem

/-- A dispatcher goes on with some of its rows; the new events are its own, and publish none of these rows. -/
theorem Holding.proceed (h : Holding s) {db : D} {run : Nat} {d : Dispatcher T R} (hd : s.dispatchers run = some d)
    (d' : Dispatcher T R) (hat : d'.reservedAt = d.reservedAt) (hrows : d'.remaining.Sublist d.remaining)
    (events : List (DispatchEvent T))
    (hreserved : ∀ r id time, .reserved r id time ∉ events)
    (hpublished : ∀ r id time, .published r id time ∈ events → r = run ∧ ∀ x ∈ d'.remaining, x.1 ≠ id) :
    Holding
      { db, clock := s.clock
        dispatchers := Function.update s.dispatchers run (some d')
        log := events ++ s.log } := by
  have hold : ∀ r id time, .reserved r id time ∈ events ++ s.log → .reserved r id time ∈ s.log :=
    fun r id time hmem => (List.mem_append.mp hmem).resolve_left (hreserved r id time)
  constructor
  case reserved_le =>
    intro r e he
    rcases update_eq_some he with ⟨-, rfl⟩ | ⟨-, he⟩
    · exact hat ▸ h.reserved_le run d hd
    · exact h.reserved_le r e he
  case nodup =>
    intro r e he
    rcases update_eq_some he with ⟨-, rfl⟩ | ⟨-, he⟩
    · exact (h.nodup run d hd).sublist (hrows.map _)
    · exact h.nodup r e he
  case reserved_at =>
    intro r e he id time hmem
    rcases update_eq_some he with ⟨rfl, rfl⟩ | ⟨-, he⟩
    · exact hat ▸ h.reserved_at r d hd id time (hold _ _ _ hmem)
    · exact h.reserved_at r e he id time (hold _ _ _ hmem)
  case unpublished =>
    intro r e he x hx time hmem
    rcases update_eq_some he with ⟨rfl, rfl⟩ | ⟨hne, he⟩
    · rcases List.mem_append.mp hmem with hmem | hmem
      · exact (hpublished _ _ _ hmem).2 x hx rfl
      · exact h.unpublished r d hd x (hrows.subset hx) time hmem
    · rcases List.mem_append.mp hmem with hmem | hmem
      · exact hne (hpublished _ _ _ hmem).1
      · exact h.unpublished r e he x hx time hmem
  case unstarted =>
    intro r he id time
    obtain ⟨hne, he⟩ := update_eq_none he
    refine ⟨fun hmem => (h.unstarted r he id time).1 (hold _ _ _ hmem), fun hmem => ?_⟩
    rcases List.mem_append.mp hmem with hmem | hmem
    · exact hne (hpublished _ _ _ hmem).1
    · exact (h.unstarted r he id time).2 hmem

/-- Every step keeps the table valid and the invariant. -/
theorem Holding.step (h : Holding s) (hv : P.Valid s.db) {a : DispatchAction T J} (hs : P.step s a = some s') :
    Holding s' ∧ P.Valid s'.db := by
  cases a with
  | reserve run now locked =>
    obtain ⟨hnew, hnow, rfl⟩ := ReservationProtocol.step_reserve hs
    exact ⟨h.reserve hnew hnow (P.nodup_reserve _ _ _ hv), P.valid_reserve _ _ _ hv⟩
  | publish run =>
    obtain ⟨time, x, remaining, hd, rfl⟩ := ReservationProtocol.step_publish hs
    have hnodup := h.nodup run _ hd
    rw [List.map_cons, List.nodup_cons] at hnodup
    refine ⟨h.proceed hd ⟨time, remaining, false⟩ rfl (List.sublist_cons_self x remaining) [.published run x.1 time]
      (by simp) ?_, hv⟩
    rintro r id t hmem
    cases List.mem_singleton.mp hmem
    exact ⟨rfl, fun y hy hid => hnodup.1 (hid ▸ List.mem_map_of_mem hy)⟩
  | fail run =>
    obtain ⟨time, x, remaining, hd, rfl⟩ := ReservationProtocol.step_fail hs
    exact ⟨h.proceed hd ⟨time, x :: remaining, true⟩ rfl (List.Sublist.refl _) [] (by simp) (by simp), hv⟩
  | release run =>
    obtain ⟨time, remaining, hd, rfl⟩ := ReservationProtocol.step_release hs
    exact ⟨h.proceed hd ⟨time, [], false⟩ rfl (List.nil_sublist _) _ (by simp) (by simp), P.valid_release _ _ hv⟩
  | finish run id job now =>
    obtain ⟨hnow, -, -, rfl⟩ := ReservationProtocol.step_finish hs
    refine ⟨⟨fun r d hd => (h.reserved_le r d hd).trans hnow, h.nodup, ?_, ?_, ?_⟩, P.valid_finish _ _ _ _ hv⟩
    · intro r d hd i t hmem
      exact h.reserved_at r d hd i t (by simpa using hmem)
    · intro r d hd x hx t hmem
      exact h.unpublished r d hd x hx t (by simpa using hmem)
    · intro r hd i t
      simpa using h.unstarted r hd i t

/-- The latest reservation of a row, if it is a dispatcher's, is as old as the dispatcher says. -/
theorem Holding.last_at (h : Holding s) {run id : Nat} {d : Dispatcher T R} (hd : s.dispatchers run = some d)
    (hlast : (lastReservation s.log id).map Prod.fst = some run) :
    lastReservation s.log id = some (run, d.reservedAt) := by
  obtain ⟨⟨r, time⟩, hreservation, rfl⟩ := Option.map_eq_some_iff.mp hlast
  rw [hreservation, h.reserved_at r d hd id time (mem_of_lastReservation hreservation)]

/-- No reservation is later than the clock. -/
theorem Holding.last_le (h : Holding s) {run id : Nat} {time : T}
    (hlast : lastReservation s.log id = some (run, time)) :
    time ≤ s.clock := by
  have hmem := mem_of_lastReservation hlast
  cases hd : s.dispatchers run with
  | none => exact absurd hmem (h.unstarted run hd id time).1
  | some d => exact h.reserved_at run d hd id time hmem ▸ h.reserved_le run d hd

/-- A release does not change the stamps of the rows that another dispatcher has reserved in the meantime. -/
def KeepsLater {S : Type} (stamp : D → Nat → S) (run : Nat) (s s' : DispatchState T D R) : Prop :=
  ∀ id, (∃ other, (lastReservation s.log id).map Prod.fst = some other ∧ other ≠ run) → stamp s'.db id = stamp s.db id

/-- A release in turn keeps them, if it changes the stamps of the released rows only. -/
theorem keepsLater_release {S : Type} {stamp : D → Nat → S} {run : Nat}
    (hframe : ∀ db remaining id, id ∉ remaining.map Prod.fst → stamp (P.release db remaining) id = stamp db id)
    (hturn : InTurn s (.release run : DispatchAction T J)) (hs : P.step s (.release run) = some s') :
    KeepsLater stamp run s s' := by
  obtain ⟨time, remaining, hd, rfl⟩ := ReservationProtocol.step_release hs
  rintro id ⟨other, hlast, hne⟩
  refine hframe s.db remaining id fun hmem => ?_
  obtain ⟨x, hx, rfl⟩ := List.mem_map.mp hmem
  have hrun : (lastReservation s.log x.1).map Prod.fst = some run := by
    refine hturn (run, x.1) ?_
    simp only [DispatchAction.settles, hd]
    exact List.mem_map_of_mem hx
  exact hne (Option.some.inj (hlast.symm.trans hrun))

end Holding

end Washing
