import Washing.Applications.Overlap
import Washing.Scheduler.Overlap

/-!
# Interleaved dispatchers

Both dispatchers release their reservations blindly: they write back what they remember of a row without checking that
it still holds their own stamp. A release that comes after another dispatcher has reserved the row undoes that
reservation, and the row is published again too early (`reservation_undone`). If every publication, every release and
every end of a job comes before the row is reserved again, no reservation is undone, and the publications keep their
distance (`reservations_not_undone`).
-/

namespace Washing

/-- The reservation stamp of a provisioner. -/
def provisionerStamp (db : Database) (id : Nat) : Option (Option Time) :=
  (Table.get db.provisioners id).map (·.lastScheduledAt)

theorem provisionerStamp_release : ∀ (db : Database) (remaining : List (Nat × Option Time)) (id : Nat),
    id ∉ remaining.map Prod.fst → provisionerStamp (releaseProvisioners db remaining) id = provisionerStamp db id
  | _, [], _, _ => rfl
  | db, (i, stamp) :: remaining, id, hid => by
    obtain ⟨hne, hrest⟩ := not_or.mp (List.mem_cons.not.mp hid)
    have hget := Table.get_modify (f := fun p => p.stamped stamp) (fun _ => rfl) db.provisioners i id
    simp only [if_neg hne, Option.map_id'] at hget
    rw [releaseProvisioners, provisionerStamp_release _ remaining id hrest]
    exact congrArg (Option.map _) hget

theorem syncStamp_release (db : Database) (remaining : List (Nat × Unit)) (id : Nat)
    (hid : id ∉ remaining.map Prod.fst) :
    syncStamp (releaseApplications db (remaining.map Prod.fst)) id = syncStamp db id := by
  have hrow : ∀ a : Application, Row.id (if a.id ∈ remaining.map Prod.fst then a.released else a) = Row.id a := by
    intro a
    split_ifs <;> rfl
  rw [syncStamp, syncStamp, releaseApplications, Database.updateApplications, Table.get_map hrow]
  cases hget : Table.get db.applications id with
  | none => rfl
  | some a =>
    have hid' : a.id = id := (Table.get_some hget).2
    rw [Option.map_some, hid', if_neg hid]

/-- Before the first action. -/
def DispatchState.start {R : Type} (db : Database) (clock : Time) : DispatchState Time Database R :=
  ⟨db, clock, fun _ => none, []⟩

/-- The releases keep the stamps of other dispatchers, and between two publications of a provisioner there is a slot. -/
structure JobsNotUndone (c : Croniter) (s : JobDispatchState) : Prop where
  release : ∀ run s', (provisionerProtocol c).step s (.release run) = some s' →
    InTurn s (.release run : DispatchAction Time Empty) → KeepsLater provisionerStamp run s s'
  slots : ∀ p ∈ s.db.provisioners, SlotsBetween c p.cron p.id s.log

/-- The releases keep the stamps of other dispatchers, and publications of an application whose sync has not ended are
the retry delay apart. -/
structure SyncsNotUndone (U : Unicode) (config : SyncDispatchConfig) (s : SyncDispatchState) : Prop where
  release : ∀ run s', (applicationProtocol U config).step s (.release run) = some s' →
    InTurn s (.release run : DispatchAction Time (Nat → Nat × Nat → Option Exc)) → KeepsLater syncStamp run s s'
  spaced : Spaced (seconds config.retryAfterSeconds) s.log

/-- In every run of any number of dispatchers in which no row is published, released or finished after another
dispatcher has reserved it again, no reservation is undone, for provisioners and for applications. -/
theorem reservations_not_undone (c : Croniter) (U : Unicode) (config : SyncDispatchConfig) (db : Database)
    (hc : db.Consistent) (clock : Time) :
    (∀ actions s, (provisionerProtocol c).AllInTurn (.start db clock) actions →
      (provisionerProtocol c).run (.start db clock) actions = some s → JobsNotUndone c s) ∧
    (∀ actions s, (applicationProtocol U config).AllInTurn (.start db clock) actions →
      (applicationProtocol U config).run (.start db clock) actions = some s → SyncsNotUndone U config s) := by
  constructor
  · intro actions s hturn hrun
    have hstart : SlotInv c (.start db clock) :=
      ⟨hc.provisioners_keyed, holding_start, by simp [DispatchState.start], by simp [DispatchState.start],
        fun _ _ => List.Pairwise.nil⟩
    have hend := ReservationProtocol.run_invariant (fun _ _ _ h => h.step) hstart hturn hrun
    exact ⟨fun run s' hs hin => keepsLater_release provisionerStamp_release hin hs, hend.slots⟩
  · intro actions s hturn hrun
    have hstart : SpacedInv (seconds config.retryAfterSeconds) (.start db clock) :=
      ⟨hc.applications_keyed, holding_start, by simp [DispatchState.start, Unfinished],
        by simp [DispatchState.start, lastReservation], by simp [DispatchState.start], trivial⟩
    have hend := ReservationProtocol.run_invariant (fun _ _ _ h => h.step (U := U)) hstart hturn hrun
    exact ⟨fun run s' hs hin => keepsLater_release syncStamp_release hin hs, hend.spaced⟩

/-- Every hour. -/
def hourly : Croniter where
  next _ t := (t / seconds 3600 + 1) * seconds 3600
  lt_next _ t := Int.lt_ediv_add_one_mul_self t (by decide)
  mono _ t u h := by
    have hhours : t / seconds 3600 ≤ u / seconds 3600 := Int.ediv_le_ediv (by decide) h
    exact mul_le_mul_of_nonneg_right (add_le_add_left hhours 1) (by decide)

/-- A sync is retried after an hour. -/
def hourlyRetry : SyncDispatchConfig := ⟨5, 3600, 0, 3600⟩

/-- Two provisioners and two applications. -/
def twoRows : Database :=
  { Database.empty with
    provisioners := [⟨1, 1, "inventory", "mock", "{}", true, "0 * * * *", some 0, none, none, none⟩,
      ⟨2, 1, "backup", "mock", "{}", true, "0 * * * *", some 0, none, none, none⟩]
    applications := [⟨1, "A", "UNKNOWN", "UNKNOWN", none, none, none⟩,
      ⟨2, "B", "UNKNOWN", "UNKNOWN", none, none, none⟩] }

/-- Two dispatchers at the same time, each with one row while the other row is locked. The second one fails to publish
and releases its row, when the first one has published; an hour later a third one goes on. -/
def overlapping {J : Type} : List (DispatchAction Time J) :=
  [.reserve 1 (seconds 3600) [2], .reserve 2 (seconds 3600) [1], .fail 2, .publish 1, .release 2,
    .reserve 3 (seconds 7200) [], .publish 3]

theorem reservations_not_undone_hourly :
    (∃ s, (provisionerProtocol hourly).run (.start twoRows 0) overlapping = some s ∧
      provisionerStamp s.db 2 = some (some (seconds 7200)) ∧ JobsNotUndone hourly s) ∧
    (∃ s, (applicationProtocol Unicode.ascii hourlyRetry).run (.start twoRows 0) overlapping = some s ∧
      syncStamp s.db 2 = some none ∧ SyncsNotUndone Unicode.ascii hourlyRetry s) := by
  obtain ⟨hjobs, hsyncs⟩ := reservations_not_undone hourly Unicode.ascii hourlyRetry twoRows (by decide) 0
  constructor
  · have hruns : ((provisionerProtocol hourly).run (.start twoRows 0) overlapping).map
        (fun s => provisionerStamp s.db 2) = some (some (some (seconds 7200))) := by decide +kernel
    obtain ⟨s, hs, hstamp⟩ := Option.map_eq_some_iff.mp hruns
    exact ⟨s, hs, hstamp, hjobs overlapping s (by decide +kernel) hs⟩
  · have hruns : ((applicationProtocol Unicode.ascii hourlyRetry).run (.start twoRows 0) overlapping).map
        (fun s => syncStamp s.db 2) = some (some none) := by decide +kernel
    obtain ⟨s, hs, hstamp⟩ := Option.map_eq_some_iff.mp hruns
    exact ⟨s, hs, hstamp, hsyncs overlapping s (by decide +kernel) hs⟩

/-- One provisioner and one application. -/
def dispatchDb : Database :=
  { Database.empty with
    provisioners := [⟨1, 1, "inventory", "mock", "{}", true, "0 * * * *", some 0, none, none, none⟩]
    applications := [⟨1, "A", "UNKNOWN", "UNKNOWN", none, none, none⟩] }

/-! ## A slow dispatcher -/

/-- The first dispatcher is slow: the second one reserves and publishes the row at the next slot, and then the first one
fails to publish. -/
def slowDispatcher {J : Type} : List (DispatchAction Time J) :=
  [.reserve 1 (seconds 3600) [], .reserve 2 (seconds 7200) [], .publish 2, .fail 1]

/-- After the release of the slow dispatcher, a third one finds the row due again a minute later. -/
def slowRelease {J : Type} : List (DispatchAction Time J) :=
  slowDispatcher ++ [.release 1, .reserve 3 (seconds 7260) [], .publish 3]

/-- The log of a run of `slowRelease`: two publications, a minute apart. -/
def slowLog : List (DispatchEvent Time) :=
  [.published 3 1 (seconds 7260), .reserved 3 1 (seconds 7260), .released 1 1, .published 2 1 (seconds 7200),
    .reserved 2 1 (seconds 7200), .reserved 1 1 (seconds 3600)]

/-- What a run leads to, before and after a release. -/
def releaseEffect {R J S : Type} (P : ReservationProtocol Time Database R J) (stamp : Database → Nat → S)
    (s : DispatchState Time Database R) (run id : Nat) : Option (Option Nat × S × S) :=
  (P.step s (.release run)).map fun s' => ((lastReservation s.log id).map Prod.fst, stamp s.db id, stamp s'.db id)

/-- A release that changes the stamp of a row of another dispatcher. -/
theorem undone_of_releaseEffect {R J S : Type} {P : ReservationProtocol Time Database R J} {stamp : Database → Nat → S}
    {start : DispatchState Time Database R} {actions : List (DispatchAction Time J)} {run : Nat} (id other : Nat)
    (a b : S)
    (h : ((P.run start actions).bind fun s => releaseEffect P stamp s run id) = some (some other, a, b))
    (hother : other ≠ run) (hab : b ≠ a) :
    ∃ s s', P.run start actions = some s ∧ P.step s (.release run) = some s' ∧ ¬ KeepsLater stamp run s s' := by
  obtain ⟨s, hs, heffect⟩ := Option.bind_eq_some_iff.mp h
  obtain ⟨s', hs', hstamps⟩ := Option.map_eq_some_iff.mp heffect
  simp only [Prod.mk.injEq] at hstamps
  obtain ⟨hlast, ha, hb⟩ := hstamps
  refine ⟨s, s', hs, hs', fun hkeeps => hab ?_⟩
  rw [← ha, ← hb]
  exact hkeeps id ⟨other, hlast, hother⟩

/-- The two publications of `slowLog` are in one slot. -/
theorem slowLog_not_slots : ¬ SlotsBetween hourly "0 * * * *" 1 slowLog := by
  intro h
  have hnone : ∀ hour : Int, ¬ (7200000000 < hour * 3600000000 ∧ hour * 3600000000 ≤ 7260000000) := by
    intro hour
    omega
  obtain ⟨slot, ⟨t, hslot⟩, hlt, hle⟩ := (List.pairwise_cons.mp h).1 (.published 2 1 (seconds 7200)) (by decide)
    3 (seconds 7260) 2 (seconds 7200) rfl rfl
  subst hslot
  exact hnone (t / seconds 3600 + 1) ⟨hlt, hle⟩

theorem slowLog_not_spaced : ¬ Spaced (seconds hourlyRetry.retryAfterSeconds) slowLog := by
  intro h
  have hfar := (h.2 3 1 (seconds 7260) rfl 2 (seconds 7200) (by simp [Unfinished])).1
  revert hfar
  decide

/-- The slow dispatcher undoes the reservation of the second one, and the third one publishes the row in the same slot
of its cron, and while the sync is not done. -/
theorem reservation_undone :
    (∃ s s', (provisionerProtocol hourly).run (.start dispatchDb 0) slowDispatcher = some s ∧
      (provisionerProtocol hourly).step s (.release 1) = some s' ∧ ¬ KeepsLater provisionerStamp 1 s s') ∧
    (∃ s, (provisionerProtocol hourly).run (.start dispatchDb 0) slowRelease = some s ∧
      ¬ SlotsBetween hourly "0 * * * *" 1 s.log) ∧
    (∃ s s', (applicationProtocol Unicode.ascii hourlyRetry).run (.start dispatchDb 0) slowDispatcher = some s ∧
      (applicationProtocol Unicode.ascii hourlyRetry).step s (.release 1) = some s' ∧ ¬ KeepsLater syncStamp 1 s s') ∧
    ∃ s, (applicationProtocol Unicode.ascii hourlyRetry).run (.start dispatchDb 0) slowRelease = some s ∧
      ¬ Spaced (seconds hourlyRetry.retryAfterSeconds) s.log := by
  refine ⟨undone_of_releaseEffect 1 2 (some (some (seconds 7200))) (some (some 0)) ?_ (by decide) (by decide), ?_,
    undone_of_releaseEffect 1 2 (some (some (seconds 7200))) (some none) ?_ (by decide) (by decide), ?_⟩
  · decide +kernel
  · have hlog : ((provisionerProtocol hourly).run (.start dispatchDb 0) slowRelease).map (·.log) = some slowLog := by
      decide +kernel
    obtain ⟨s, hs, hslow⟩ := Option.map_eq_some_iff.mp hlog
    exact ⟨s, hs, hslow ▸ slowLog_not_slots⟩
  · decide +kernel
  · have hlog : ((applicationProtocol Unicode.ascii hourlyRetry).run (.start dispatchDb 0) slowRelease).map (·.log) =
        some slowLog := by decide +kernel
    obtain ⟨s, hs, hslow⟩ := Option.map_eq_some_iff.mp hlog
    exact ⟨s, hs, hslow ▸ slowLog_not_spaced⟩

end Washing
