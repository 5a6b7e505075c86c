import Washing.Applications.Dispatch
import Washing.Lib.Sweep

/-!
# One window of calls

The batch size is such that the calls of one window have just enough slots for all applications. The calls are a sweep
(`window_sweep`): the applications that no call has returned yet stay due, and the returned ones that are due again
(their sync failed, or has been pending for the retry delay) come before them, since their last sync is not newer. So a
window covers all applications exactly when the repetitions leave enough slots (`window_covers_iff`).
-/

namespace Washing

/-! ## A window -/

/-- The execution of a sync that was published: how its publishes end, and when it finishes. -/
structure SyncJob where
  applicationId : Nat
  enqueue : Nat → Nat × Nat → Option Exc
  finishedAt : Time

/-- Execute syncs, one after the other. -/
def runJobs (U : Unicode) : Database → List SyncJob → Database
  | db, [] => db
  | db, job :: jobs => runJobs U (runApplicationMetricsSync U db job.applicationId job.enqueue job.finishedAt).db jobs

/-- The number of calls in a window. -/
def callsPerWindow (config : SyncDispatchConfig) : Nat :=
  (max 1 (config.windowDays * 86400 / max 1 config.tickSeconds)).toNat

/-- The time of a call. -/
def callTime (config : SyncDispatchConfig) (start : Time) (i : Nat) : Time := start + seconds (i * config.tickSeconds)

/-- The database before a call, and the ids that the calls before it returned. -/
structure WindowState where
  db : Database
  returned : List Nat

/-- The calls of a window; `jobs i` are the syncs executed between call `i` and the next one. -/
def window (U : Unicode) (config : SyncDispatchConfig) (start : Time) (jobs : Nat → List SyncJob) (db : Database) :
    Nat → WindowState
  | 0 => ⟨db, []⟩
  | i + 1 =>
    let before := window U config start jobs db i
    let outcome :=
      dispatchDueApplicationMetricsSyncs before.db config (fun _ _ => none) (callTime config start i)
    ⟨runJobs U outcome.db (jobs i), before.returned ++ outcome.returned⟩

/-- The syncs executed between two calls are of applications returned so far, and finish between these calls. -/
def JobsAllowed (U : Unicode) (config : SyncDispatchConfig) (start : Time) (jobs : Nat → List SyncJob) (db : Database) :
    Prop :=
  ∀ i < callsPerWindow config, ∀ job ∈ jobs i, job.applicationId ∈ (window U config start jobs db (i + 1)).returned ∧
    callTime config start i ≤ job.finishedAt ∧ job.finishedAt ≤ callTime config start (i + 1)

instance (U : Unicode) (config : SyncDispatchConfig) (start : Time) (jobs : Nat → List SyncJob) (db : Database) :
    Decidable (JobsAllowed U config start jobs db) := inferInstanceAs (Decidable (∀ i < callsPerWindow config, _))

/-- The applications that are due at a call although an earlier call has returned them. -/
def repeated (config : SyncDispatchConfig) (now : Time) (st : WindowState) : List Application :=
  st.db.applications.filter fun a => a.id ∈ st.returned ∧ a.Due config now

/-- The calls of the window return all the applications, and nothing else. -/
def Covers (db : Database) (returned : List Nat) : Prop := ∀ i, i ∈ returned ↔ i ∈ Table.ids db.applications

/-- The slots of the window that repetitions take. -/
def repeatedSlots (U : Unicode) (config : SyncDispatchConfig) (start : Time) (jobs : Nat → List SyncJob)
    (db : Database) :
    Nat :=
  ∑ i ∈ Finset.range (callsPerWindow config), min (config.batchSize db).toNat
    (repeated config (callTime config start i) (window U config start jobs db i)).length

/-! ## The state before a call -/

/-- What the calls and the syncs keep: the returned applications have been synced since the window began, or come before
all the applications that were not returned; these are as due as they were. -/
structure WindowInv (config : SyncDispatchConfig) (start : Time) (db : Database) (st : WindowState) : Prop where
  ids : Table.ids st.db.applications = Table.ids db.applications
  stored : ∀ i ∈ st.returned, i ∈ Table.ids db.applications
  due : ∀ a ∈ st.db.applications, a.id ∉ st.returned → a.Due config start
  ahead : ∀ a ∈ st.db.applications, a.id ∈ st.returned → (∃ s, a.syncAt = some s ∧ start ≤ s) ∨
    ∀ b ∈ st.db.applications, b.id ∉ st.returned → a.syncOrder < b.syncOrder

theorem syncOrder_congr {a b : Application} (hid : a.id = b.id) (hsync : a.syncAt = b.syncAt) :
    a.syncOrder = b.syncOrder := by
  rw [Application.syncOrder, Application.syncOrder, hid, hsync]

section Steps

variable {U : Unicode} {config : SyncDispatchConfig} {start : Time} {db : Database} {st : WindowState}

/-- The sync of a returned application keeps the invariant. -/
theorem WindowInv.job (h : WindowInv config start db st) {job : SyncJob} (hin : job.applicationId ∈ st.returned)
    (htime : start ≤ job.finishedAt) : WindowInv config start db
      ⟨(runApplicationMetricsSync U st.db job.applicationId job.enqueue job.finishedAt).db, st.returned⟩ := by
  obtain ⟨f, hf, happlications⟩ := sync_applications U st.db job.applicationId job.enqueue job.finishedAt
  have hrows : ∀ a ∈ (runApplicationMetricsSync U st.db job.applicationId job.enqueue job.finishedAt).db.applications,
      ∃ b ∈ st.db.applications, a.id = b.id ∧ (b.id = job.applicationId ∧ a = f b ∨ a = b) := by
    intro a ha
    rw [happlications] at ha
    obtain ⟨b, hb, rfl⟩ := Table.mem_modify.mp ha
    by_cases hid : Row.id b = job.applicationId
    · exact ⟨b, hb, by simp [hid, (hf b).1], .inl ⟨hid, by simp [hid]⟩⟩
    · exact ⟨b, hb, by simp [hid], .inr (by simp [hid])⟩
  have hunreturned :
      ∀ a ∈ (runApplicationMetricsSync U st.db job.applicationId job.enqueue job.finishedAt).db.applications,
      a.id ∉ st.returned → a ∈ st.db.applications := by
    intro a ha hout
    obtain ⟨b, hb, hid, ⟨hjob, -⟩ | rfl⟩ := hrows a ha
    · exact absurd (hid ▸ hjob ▸ hin) hout
    · exact hb
  refine ⟨?_, h.stored, fun a ha hout => h.due a (hunreturned a ha hout) hout, fun a ha hret => ?_⟩
  · rw [happlications, Table.ids_modify fun a => (hf a).1]
    exact h.ids
  · obtain ⟨b, hb, hid, hcases⟩ := hrows a ha
    rcases h.ahead b hb (hid ▸ hret) with hsynced | hahead
    · rcases hcases with ⟨-, rfl⟩ | rfl
      · rcases (hf b).2 with hsame | hnow
        · exact .inl (hsame ▸ hsynced)
        · exact .inl ⟨_, hnow, htime⟩
      · exact .inl hsynced
    · rcases hcases with ⟨-, rfl⟩ | rfl
      · rcases (hf b).2 with hsame | hnow
        · refine .inr fun c hc hout => ?_
          rw [syncOrder_congr (hf b).1 hsame]
          exact hahead c (hunreturned c hc hout) hout
        · exact .inl ⟨_, hnow, htime⟩
      · exact .inr fun c hc hout => hahead c (hunreturned c hc hout) hout

theorem WindowInv.jobs : ∀ {jobs : List SyncJob} {st : WindowState}, WindowInv config start db st →
    (∀ job ∈ jobs, job.applicationId ∈ st.returned ∧ start ≤ job.finishedAt) →
    WindowInv config start db ⟨runJobs U st.db jobs, st.returned⟩
  | [], _, h, _ => h
  | job :: jobs, st, h, hjobs => by
    obtain ⟨⟨hin, htime⟩, hrest⟩ := List.forall_mem_cons.mp hjobs
    exact (h.job hin htime).jobs hrest

/-- In the order of a call, the due applications that were returned come before those that were not. -/
theorem WindowInv.sorted (h : WindowInv config start db st) {now : Time}
    (hrecent : ∀ a ∈ st.db.applications, a.id ∈ st.returned → a.Due config now → ¬ ∃ s, a.syncAt = some s ∧ start ≤ s) :
    (dueApplications st.db config now []).Pairwise fun a b =>
      decide (b.id ∈ st.returned) → decide (a.id ∈ st.returned) := by
  refine (dueApplications_sorted _ _ _ _).imp_of_mem fun {a b} ha hb hle hret => ?_
  rw [mem_dueApplications] at ha hb
  rw [decide_eq_true_iff] at hret ⊢
  by_contra hout
  rcases h.ahead b hb.1 hret with hsynced | hahead
  · exact hrecent b hb.1 hret hb.2.1 hsynced
  · exact absurd hle (hahead a ha.1 hout).not_ge

/-- A call is a round of the sweep. -/
theorem WindowInv.call (h : WindowInv config start db st) (hne : st.db.applications ≠ []) {now : Time}
    (hnow : start ≤ now)
    (hrecent : ∀ a ∈ st.db.applications, a.id ∈ st.returned → a.Due config now → ¬ ∃ s, a.syncAt = some s ∧ start ≤ s) :
    ∃ again fresh, again.length = (repeated config now st).length ∧
      SweepRound (Table.ids db.applications) (config.batchSize st.db).toNat st.returned again fresh
        (st.returned ++ (dispatchDueApplicationMetricsSyncs st.db config (fun _ _ => none) now).returned) := by
  have hsorted := h.sorted hrecent
  set due := dueApplications st.db config now [] with hdue
  have hsplit := filter_append_filter_not hsorted
  refine ⟨(due.filter fun a => a.id ∈ st.returned).map (·.id),
    (due.filter fun a => ! decide (a.id ∈ st.returned)).map (·.id),
    ?_, ?_, ?_, ?_⟩
  · rw [List.length_map, (dueApplications_perm.filter _).length_eq, List.filter_filter, repeated]
    refine congrArg List.length (List.filter_congr fun a _ => ?_)
    simp
  · intro i hi
    obtain ⟨a, ha, rfl⟩ := List.mem_map.mp hi
    simpa using (List.mem_filter.mp ha).2
  · have hfresh : (due.filter fun a => ! decide (a.id ∈ st.returned)).Perm
        (st.db.applications.filter fun a => ! decide (a.id ∈ st.returned)) := by
      refine (dueApplications_perm.filter _).trans (List.Perm.of_eq ?_)
      rw [List.filter_filter]
      refine List.filter_congr fun a ha => ?_
      by_cases hret : a.id ∈ st.returned
      · simp [hret]
      · simp [hret, (h.due a ha hret).mono hnow]
    refine (hfresh.map _).trans (List.Perm.of_eq ?_)
    rw [unvisited, ← h.ids, Table.ids, List.filter_map]
    refine congrArg (List.map _) (List.filter_congr fun a _ => ?_)
    simp
    rfl
  · rw [(dispatch_published config hne now).2, reserveApplications, ← List.map_append, hsplit, ← List.map_take]

/-- A call keeps the invariant. -/
theorem WindowInv.dispatch (h : WindowInv config start db st) (hk : Table.Keyed db.applications)
    (hne : st.db.applications ≠ []) {now : Time} (hnow : start ≤ now) : WindowInv config start db
      ⟨(dispatchDueApplicationMetricsSyncs st.db config (fun _ _ => none) now).db,
        st.returned ++ (dispatchDueApplicationMetricsSyncs st.db config (fun _ _ => none) now).returned⟩ := by
  obtain ⟨hdb, hreturned⟩ := dispatch_published config hne now
  rw [hdb, hreturned]
  have hids := reserveApplications_ids st.db config now []
  have hkeyed : Table.Keyed st.db.applications := by
    unfold Table.Keyed
    rw [h.ids]
    exact hk
  have hrows : ∀ a ∈ (reserveApplications st.db config now []).1.applications, ∃ b ∈ st.db.applications,
      a.id = b.id ∧ a.syncAt = b.syncAt ∧ (a.id ∉ (reserveApplications st.db config now []).2 → a = b) := by
    intro a ha
    obtain ⟨b, hb, rfl⟩ := List.mem_map.mp ha
    refine ⟨b, hb, ?_⟩
    split_ifs with hin
    · exact ⟨rfl, rfl, fun hout => absurd hin hout⟩
    · exact ⟨rfl, rfl, fun _ => rfl⟩
  have hbatch : ∀ i, i ∈ (reserveApplications st.db config now []).2 ↔
      ∃ a ∈ (dueApplications st.db config now []).take (config.batchSize st.db).toNat, a.id = i := by
    intro i
    exact List.mem_map
  set batch := (reserveApplications st.db config now []).2
  have hunreturned : ∀ a ∈ (reserveApplications st.db config now []).1.applications, a.id ∉ st.returned ++ batch →
      a ∈ st.db.applications ∧ a.id ∉ st.returned ∧ a.id ∉ batch := by
    intro a ha hout
    obtain ⟨hret, hres⟩ := not_or.mp (List.mem_append.not.mp hout)
    obtain ⟨b, hb, -, -, hsame⟩ := hrows a ha
    exact ⟨hsame hres ▸ hb, hret, hres⟩
  refine ⟨hids.trans h.ids, fun i hi => ?_, fun a ha hout => ?_, fun a ha hret => ?_⟩
  · rcases List.mem_append.mp hi with hi | hi
    · exact h.stored i hi
    · obtain ⟨a, ha, rfl⟩ := (hbatch i).mp hi
      rw [← h.ids]
      exact Table.mem_ids.mpr ⟨a, (mem_dueApplications.mp (List.mem_of_mem_take ha)).1, rfl⟩
  · obtain ⟨hmem, hret, -⟩ := hunreturned a ha hout
    exact h.due a hmem hret
  · obtain ⟨b, hb, hid, hsync, -⟩ := hrows a ha
    rw [syncOrder_congr hid hsync, hsync]
    rcases List.mem_append.mp hret with hret | hres
    · refine (h.ahead b hb (hid ▸ hret)).imp_right fun hahead c hc hout => ?_
      obtain ⟨hmem, hcret, -⟩ := hunreturned c hc hout
      exact hahead c hmem hcret
    · -- a new reservation: whatever was not returned comes later in the order of the call
      refine .inr fun c hc hout => ?_
      obtain ⟨hmem, hcret, hcres⟩ := hunreturned c hc hout
      obtain ⟨x, hx, hxid⟩ := (hbatch _).mp hres
      have hxb : x = b := hkeyed.eq_of_id (mem_dueApplications.mp (List.mem_of_mem_take hx)).1 hb (hxid.trans hid)
      have hcdue : c ∈ dueApplications st.db config now [] :=
        mem_dueApplications.mpr ⟨hmem, (h.due c hmem hcret).mono hnow, List.not_mem_nil⟩
      have hclater : c ∈ (dueApplications st.db config now []).drop (config.batchSize st.db).toNat := by
        rw [← List.take_append_drop (config.batchSize st.db).toNat (dueApplications st.db config now [])] at hcdue
        rcases List.mem_append.mp hcdue with hc | hc
        · exact absurd ((hbatch _).mpr ⟨c, hc, rfl⟩) hcres
        · exact hc
      have hsorted := dueApplications_sorted st.db config now []
      rw [← List.take_append_drop (config.batchSize st.db).toNat (dueApplications st.db config now []),
        List.pairwise_append] at hsorted
      refine lt_of_le_of_ne (hxb ▸ hsorted.2.2 x hx c hclater) fun heq => hcres ?_
      have hsame : b.id = c.id := congrArg (fun k => (ofLex k).2) heq
      exact hsame ▸ hid ▸ hres

end Steps

/-! ## The calls of a window -/

section Window

variable {U : Unicode} {config : SyncDispatchConfig} {start : Time} {jobs : Nat → List SyncJob} {db : Database}

theorem callTime_mono (htick : 1 ≤ config.tickSeconds) {i j : Nat} (h : i ≤ j) :
    callTime config start i ≤ callTime config start j := by
  have hcast : (i : Int) ≤ j := Int.ofNat_le.mpr h
  have hticks : (i : Int) * config.tickSeconds ≤ j * config.tickSeconds :=
    mul_le_mul_of_nonneg_right hcast (zero_le_one.trans htick)
  unfold callTime seconds
  linarith

theorem start_le_callTime (htick : 1 ≤ config.tickSeconds) (i : Nat) : start ≤ callTime config start i := by
  have hmono : callTime config start 0 ≤ callTime config start i := callTime_mono htick (Nat.zero_le i)
  simpa [callTime, seconds] using hmono

/-- The calls of a window are less than a window apart. -/
theorem callTime_lt (htick : 1 ≤ config.tickSeconds) {i : Nat} (hpos : 0 < i) (hi : i < callsPerWindow config) :
    callTime config start i - days config.windowDays < start := by
  have hcalls : (i : Int) + 1 ≤ config.windowDays * 86400 / config.tickSeconds := by
    unfold callsPerWindow at hi
    rw [max_eq_right htick] at hi
    omega
  have hwindow : ((i : Int) + 1) * config.tickSeconds ≤ config.windowDays * 86400 :=
    (mul_le_mul_of_nonneg_right hcalls (zero_le_one.trans htick)).trans
      (Int.ediv_mul_le _ (zero_lt_one.trans_le htick).ne')
  unfold callTime days seconds
  linarith

/-- The hypotheses of a window: all the applications are due when it starts, and the syncs are those it published. -/
structure WindowStart (U : Unicode) (config : SyncDispatchConfig) (start : Time) (jobs : Nat → List SyncJob)
    (db : Database) : Prop where
  tick : 1 ≤ config.tickSeconds
  keyed : Table.Keyed db.applications
  nonempty : db.applications ≠ []
  due : ∀ a ∈ db.applications, a.Due config start
  jobs : JobsAllowed U config start jobs db

theorem ne_nil_of_ids {rows rows' : List Application} (h : Table.ids rows = Table.ids rows') (hne : rows' ≠ []) :
    rows ≠ [] := by
  rintro rfl
  exact hne (List.map_eq_nil_iff.mp h.symm)

theorem window_inv (h : WindowStart U config start jobs db) : ∀ i ≤ callsPerWindow config,
    WindowInv config start db (window U config start jobs db i) := by
  intro i
  induction i with
  | zero => exact fun _ => ⟨rfl, by simp [window], fun a ha _ => h.due a ha, by simp [window]⟩
  | succ i ih =>
    intro hi
    have hinv := ih (Nat.le_of_succ_le hi)
    have hcall := hinv.dispatch h.keyed (ne_nil_of_ids hinv.ids h.nonempty) (start_le_callTime h.tick i)
    refine hcall.jobs fun job hjob => ?_
    obtain ⟨hin, hafter, -⟩ := h.jobs i hi job hjob
    exact ⟨hin, (start_le_callTime h.tick i).trans hafter⟩

/-- The calls of a window are a sweep of the applications. -/
theorem window_sweep (h : WindowStart U config start jobs db) :
    Sweep (Table.ids db.applications) (config.batchSize db).toNat (fun i => (window U config start jobs db i).returned)
      (fun i => (repeated config (callTime config start i) (window U config start jobs db i)).length)
      (callsPerWindow config) := by
  refine ⟨h.keyed, rfl, fun i hi => ?_⟩
  have hinv := window_inv h i hi.le
  have hbatch : config.batchSize (window U config start jobs db i).db = config.batchSize db := by
    have hlength := congrArg List.length hinv.ids
    rw [Table.ids, Table.ids, List.length_map, List.length_map] at hlength
    rw [SyncDispatchConfig.batchSize, SyncDispatchConfig.batchSize, hlength]
  rw [← hbatch]
  refine hinv.call (ne_nil_of_ids hinv.ids h.nonempty) (start_le_callTime h.tick i) fun a _ hret hdue => ?_
  rintro ⟨s, hs, hsince⟩
  cases i with
  | zero => simp [window] at hret
  | succ i => exact absurd (hsince.trans (hdue.1 s hs)) (callTime_lt h.tick i.succ_pos hi).not_ge

end Window

/-- The calls of one window return all the applications exactly when the slots taken by repetitions are no more than the
slots that the window has beyond one for each application. -/
theorem window_covers_iff (U : Unicode) (config : SyncDispatchConfig) (start : Time) (jobs : Nat → List SyncJob)
    (db : Database) (h : WindowStart U config start jobs db) :
    Covers db (window U config start jobs db (callsPerWindow config)).returned ↔
      db.applications.length + repeatedSlots U config start jobs db ≤
        callsPerWindow config * (config.batchSize db).toNat := by
  have hcovers := (window_sweep h).covers_iff
  rw [Table.ids, List.length_map] at hcovers
  rw [repeatedSlots, ← hcovers]
  constructor
  · exact fun hall i hi => (hall i).mpr hi
  · exact fun hall i => ⟨(window_inv h _ le_rfl).stored i, hall i⟩

/-- A window has a slot for every application. -/
theorem length_le_slots {config : SyncDispatchConfig} {db : Database} (hbatch : config.configuredBatchSize = 0)
    (hne : db.applications ≠ []) :
    db.applications.length ≤ callsPerWindow config * (config.batchSize db).toNat := by
  have hlength : 0 < db.applications.length := List.length_pos_iff.mpr hne
  have hcalls : max 1 (max 1 (config.windowDays * 24 * 60 * 60) / max 1 config.tickSeconds) =
      (callsPerWindow config : Int) := by
    have htick : 1 ≤ max 1 config.tickSeconds := le_max_left _ _
    have hseconds : config.windowDays * 24 * 60 * 60 = config.windowDays * 86400 := by ring
    rw [callsPerWindow, Int.toNat_of_nonneg (zero_le_one.trans (le_max_left _ _)), hseconds]
    by_cases hwindow : 1 ≤ config.windowDays * 86400
    · rw [max_eq_right hwindow]
    · -- a window without seconds has one call
      have hnone : config.windowDays * 86400 ≤ 0 := by omega
      have hone : (1 : Int) / max 1 config.tickSeconds ≤ 1 := Int.ediv_le_self _ zero_le_one
      have hzero : config.windowDays * 86400 / max 1 config.tickSeconds ≤ 0 :=
        Int.ediv_nonpos_of_nonpos_of_neg hnone (zero_lt_one.trans_le htick)
      rw [max_eq_left (hnone.trans zero_le_one), max_eq_left hone, max_eq_left (hzero.trans zero_le_one)]
  have hpos : (0 : ℚ) < callsPerWindow config := by
    have : 0 < (callsPerWindow config : Int) := by rw [← hcalls]; exact lt_max_of_lt_left one_pos
    exact_mod_cast this
  have hceil : ⌈(db.applications.length : ℚ) / callsPerWindow config⌉ ≤ config.batchSize db := by
    have hunconfigured : ¬ 0 < config.configuredBatchSize := by omega
    rw [SyncDispatchConfig.batchSize, calculateApplicationMetricsSyncBatchSize, if_neg (by omega), if_neg hunconfigured]
    simp only [hcalls]
    exact le_max_right _ _
  have hslots : (db.applications.length : ℚ) ≤ callsPerWindow config * (config.batchSize db : ℚ) := by
    have hle := (Int.le_ceil ((db.applications.length : ℚ) / callsPerWindow config)).trans (Int.cast_le.mpr hceil)
    rwa [div_le_iff₀ hpos, mul_comm] at hle
  have hnat : ((config.batchSize db).toNat : Int) = config.batchSize db :=
    Int.toNat_of_nonneg (batchSize_pos hne).le
  have hint : (db.applications.length : Int) ≤ callsPerWindow config * config.batchSize db := by exact_mod_cast hslots
  rw [← hnat] at hint
  exact_mod_cast hint

/-- If no application is due again in the window in which it was returned, the window covers all of them. -/
theorem window_covers_of_no_repeats {U : Unicode} {config : SyncDispatchConfig} {start : Time}
    {jobs : Nat → List SyncJob} {db : Database} (h : WindowStart U config start jobs db)
    (hbatch : config.configuredBatchSize = 0)
    (hno : ∀ i < callsPerWindow config,
      repeated config (callTime config start i) (window U config start jobs db i) = []) :
    Covers db (window U config start jobs db (callsPerWindow config)).returned := by
  rw [window_covers_iff _ _ _ _ _ h, repeatedSlots, Finset.sum_eq_zero fun i hi => ?_, add_zero]
  · exact length_le_slots hbatch h.nonempty
  · rw [hno i (Finset.mem_range.mp hi)]
    simp

/-! ## A failing sync -/

/-- Two calls a day, and reservations that hold for a day. -/
def twiceDaily : SyncDispatchConfig := ⟨1, 43200, 0, 86400⟩

/-- Two applications; the first has machines. -/
def twoApplications : Database :=
  { mixedFleet with
    applications := [⟨1, "A", "UNKNOWN", "UNKNOWN", none, none, none⟩,
      ⟨2, "B", "UNKNOWN", "UNKNOWN", none, none, none⟩] }

/-- The sync of the first application fails after the first call: its first publish raises. -/
def failingJobs : Nat → List SyncJob
  | 0 => [⟨1, fun _ _ => some ⟨.other "OperationalError", "connection refused"⟩, seconds 60⟩]
  | _ + 1 => []

/-- The sync of the first application publishes its collections after the first call. -/
def succeedingJobs : Nat → List SyncJob
  | 0 => [⟨1, fun _ _ => none, seconds 60⟩]
  | _ + 1 => []

theorem failingWindow_start : WindowStart Unicode.ascii twiceDaily 0 failingJobs twoApplications :=
  ⟨by decide, by decide, by decide, by decide, by decide +kernel⟩

/-- The sync of the first application fails in one window, and succeeds in the other. -/
theorem window_covers_failing :
    (Covers twoApplications
        (window Unicode.ascii twiceDaily 0 failingJobs twoApplications (callsPerWindow twiceDaily)).returned ↔
      twoApplications.applications.length + repeatedSlots Unicode.ascii twiceDaily 0 failingJobs twoApplications ≤
        callsPerWindow twiceDaily * (twiceDaily.batchSize twoApplications).toNat) ∧
    Covers twoApplications
      (window Unicode.ascii twiceDaily 0 succeedingJobs twoApplications (callsPerWindow twiceDaily)).returned :=
  ⟨window_covers_iff Unicode.ascii twiceDaily 0 failingJobs twoApplications failingWindow_start,
  (window_covers_iff Unicode.ascii twiceDaily 0 succeedingJobs twoApplications
    ⟨by decide, by decide, by decide, by decide, by decide +kernel⟩).mpr (by decide +kernel)⟩

/-- The first application is returned by both calls of the window, and the second by none. -/
theorem failing_sync_takes_slot : WindowStart Unicode.ascii twiceDaily 0 failingJobs twoApplications ∧
    twiceDaily.configuredBatchSize = 0 ∧ 0 < twiceDaily.retryAfterSeconds ∧
    (window Unicode.ascii twiceDaily 0 failingJobs twoApplications (callsPerWindow twiceDaily)).returned = [1, 1] ∧
    ¬ Covers twoApplications
      (window Unicode.ascii twiceDaily 0 failingJobs twoApplications (callsPerWindow twiceDaily)).returned := by
  have hreturned : (window Unicode.ascii twiceDaily 0 failingJobs twoApplications
      (callsPerWindow twiceDaily)).returned = [1, 1] := by decide +kernel
  refine ⟨failingWindow_start, rfl, by decide, hreturned, fun hall => ?_⟩
  have hsecond := (hall 2).mpr (by decide)
  rw [hreturned] at hsecond
  revert hsecond
  decide

end Washing
