import WebhookBroker.Dispatcher.LaneLabels
import WebhookBroker.Dispatcher.LaneOrder

/-!
# The copies of a job that the scheduler holds

The retry pass skips a job when `isHeld` says so, and otherwise offers a copy of it to `enqueue`. An
offer for a job that waits replaces the data of the held copy if its retry attempt count is higher;
this write goes through the pointer that the queue has too, and leaves the order of the queue as it
is. So the held copy has the highest count that was offered since it was accepted
(`LaneRun.isGreatest_offered`), and `isHeld` is true exactly when an offer would change nothing
(`isHeld_iff_enqueue`).
-/

namespace WebhookBroker

open Lib Function

section
variable {s : LaneScheduler} {out : List JobPtr} {p q : JobPtr}

/-- `t` has the lanes, the ready list, the tracked jobs and the data of held jobs that `s` has. -/
structure HeldUnchanged (s t : LaneScheduler) : Prop where
  lanes : t.lanes = s.lanes
  laneAt : t.laneAt = s.laneAt
  ready : t.ready = s.ready
  tracked : t.tracked = s.tracked
  data : ∀ id held, s.tracked.lookup id = some held → t.jobAt held.job = s.jobAt held.job

/-- `enqueue` of a job that is held drops it, and refreshes the held copy if this waits and has a
lower count. -/
theorem enqueue_held {held : HeldJob} (h : s.tracked.lookup (s.idOf p) = some held) :
    s.enqueue p = (false, if held.running = false ∧
        (s.jobAt held.job).data.retryAttemptCount < (s.jobAt p).data.retryAttemptCount then
      s.setJob held.job { s.jobAt held.job with data := (s.jobAt p).data } else s) := by
  have hlookup : s.tracked.lookup (s.jobAt p).data.id.string = some held := h
  simp only [LaneScheduler.enqueue, hlookup, Bool.and_eq_true, Bool.not_eq_true',
    decide_eq_true_eq, gt_iff_lt]
  split <;> rfl

theorem isHeld_iff_enqueue (s : LaneScheduler) (p : JobPtr) :
    s.isHeld (s.jobAt p).data = true ↔
      (s.enqueue p).1 = false ∧ HeldUnchanged s (s.enqueue p).2 := by
  cases htracked : s.tracked.lookup (s.idOf p) with
  | none =>
    have hheld : s.tracked.lookup (s.jobAt p).data.id.string = none := htracked
    rw [enqueue_eq_accept htracked]
    simp [LaneScheduler.isHeld, hheld]
  | some held =>
    have hheld : s.tracked.lookup (s.jobAt p).data.id.string = some held := htracked
    rw [enqueue_held htracked]
    simp only [LaneScheduler.isHeld, hheld, Bool.or_eq_true, decide_eq_true_eq, true_and]
    by_cases hrefresh : held.running = false ∧
        (s.jobAt held.job).data.retryAttemptCount < (s.jobAt p).data.retryAttemptCount
    · rw [if_pos hrefresh]
      refine iff_of_false (by simp [hrefresh.1, Nat.not_le.2 hrefresh.2]) fun hunchanged => ?_
      have hdata := hunchanged.data _ held htracked
      simp only [LaneScheduler.setJob, update_self] at hdata
      exact hrefresh.2.ne' (congrArg (fun job => job.data.retryAttemptCount) hdata)
    · rw [if_neg hrefresh]
      refine iff_of_true ?_ ⟨rfl, rfl, rfl, rfl, fun _ _ _ => rfl⟩
      rwa [not_and_or, Bool.not_eq_false, Nat.not_lt] at hrefresh

theorem enqueue_data_accepted (h : s.tracked.lookup (s.idOf p) = none) (q : JobPtr) :
    ((s.enqueue p).2.jobAt q).data = (s.jobAt q).data := by
  have hl := laneFor_hasLane s (laneIdentity (s.jobAt p)).1 (laneIdentity (s.jobAt p)).2.1
    (s.keyOf p)
  rw [enqueue_eq_accept h, markReadyLocked_jobAt, accept_jobAt, hl.jobAt]
  by_cases hq : q = p
  · rw [hq, update_self]
  · rw [update_of_ne hq]

/-- An offer changes the data of a held copy only if it is for the same job, the copy waits and the
offer has a higher count. -/
theorem enqueue_data_held (h : JobsInv s out) {held : HeldJob}
    (hheld : s.tracked.lookup (s.idOf held.job) = some held) (q : JobPtr) :
    ((s.enqueue q).2.jobAt held.job).data =
      if s.idOf q = s.idOf held.job ∧ held.running = false ∧
          (s.jobAt held.job).data.retryAttemptCount < (s.jobAt q).data.retryAttemptCount then
        (s.jobAt q).data
      else (s.jobAt held.job).data := by
  cases htracked : s.tracked.lookup (s.idOf q) with
  | none =>
    have hid : s.idOf q ≠ s.idOf held.job := by
      intro hid
      rw [hid, hheld] at htracked
      cases htracked
    rw [if_neg fun hcond => hid hcond.1, enqueue_data_accepted htracked]
  | some held' =>
    rw [enqueue_held htracked]
    by_cases hid : s.idOf q = s.idOf held.job
    · rw [hid, hheld, Option.some.injEq] at htracked
      subst htracked
      by_cases hrefresh : held.running = false ∧
          (s.jobAt held.job).data.retryAttemptCount < (s.jobAt q).data.retryAttemptCount
      · rw [if_pos hrefresh, if_pos ⟨hid, hrefresh⟩]
        simp only [LaneScheduler.setJob, update_self]
      · rw [if_neg hrefresh, if_neg fun hcond => hrefresh hcond.2]
    · have hjob : held.job ≠ held'.job := by
        intro hjob
        exact hid ((h.idOf_held htracked).symm.trans (congrArg s.idOf hjob.symm))
      rw [if_neg fun hcond : s.idOf q = s.idOf held.job ∧ _ => hid hcond.1]
      split
      · simp only [LaneScheduler.setJob, update_of_ne hjob]
      · rfl

end

theorem LaneState.step_jobAt {σ σ' : LaneState} {a : LaneAction} (h : SchedInv σ.sched σ.out)
    (hstep : σ.step a = some σ') (ha : ∀ q, a ≠ .enqueue q) :
    σ'.sched.jobAt = σ.sched.jobAt := by
  cases a with
  | enqueue p => exact absurd rfl (ha p)
  | tryNext =>
    cases hstep
    exact (narrows_tryNext h.ready).jobAt
  | isHeld job =>
    cases hstep
    rfl
  | done p =>
    simp only [LaneState.step] at hstep
    split at hstep
    · rename_i hp
      cases hstep
      exact (narrows_done h.jobs hp).jobAt
    · cases hstep
  | discardQueued =>
    cases hstep
    exact (narrows_discardQueued _).jobAt

section
variable (r : LaneRun)

/-- The retry attempt counts that the calls from `i` up to `n` offered for a job id. -/
def LaneRun.offered (id : String) (i n : Nat) : Set Nat :=
  { c | ∃ k q, i ≤ k ∧ k < n ∧ r.act k = .enqueue q ∧ (r.state k).sched.idOf q = id ∧
    ((r.state k).sched.jobAt q).data.retryAttemptCount = c }

variable {r}
variable {k : Nat}

theorem LaneRun.sched_enqueue (hk : k < r.len) {q : JobPtr} (hact : r.act k = .enqueue q) :
    (r.state (k + 1)).sched = ((r.state k).sched.enqueue q).2 := by
  have hstep := r.next k hk
  rw [hact] at hstep
  exact congrArg LaneState.sched (Option.some.inj hstep).symm

theorem LaneRun.data_held (hk : k < r.len) (held : HeldJob)
    (hheld : (r.state k).sched.tracked.lookup ((r.state k).sched.idOf held.job) = some held) :
    (∃ q, r.act k = .enqueue q ∧ (r.state k).sched.idOf q = (r.state k).sched.idOf held.job ∧
      held.running = false ∧
      ((r.state k).sched.jobAt held.job).data.retryAttemptCount <
        ((r.state k).sched.jobAt q).data.retryAttemptCount ∧
      ((r.state (k + 1)).sched.jobAt held.job).data = ((r.state k).sched.jobAt q).data) ∨
    ((∀ q, r.act k = .enqueue q →
        (r.state k).sched.idOf q = (r.state k).sched.idOf held.job → held.running = false →
        ((r.state k).sched.jobAt q).data.retryAttemptCount ≤
          ((r.state k).sched.jobAt held.job).data.retryAttemptCount) ∧
      ((r.state (k + 1)).sched.jobAt held.job).data = ((r.state k).sched.jobAt held.job).data) := by
  have hinv := r.schedInv hk.le
  have hstep := r.next k hk
  by_cases hact : ∃ q, r.act k = .enqueue q
  · obtain ⟨q, hact⟩ := hact
    have hdata := enqueue_data_held hinv.jobs hheld q
    rw [← r.sched_enqueue hk hact] at hdata
    split at hdata
    · rename_i hcond
      exact .inl ⟨q, hact, hcond.1, hcond.2.1, hcond.2.2, hdata⟩
    · rename_i hcond
      refine .inr ⟨fun q' hact' hid hwaits => ?_, hdata⟩
      cases hact.symm.trans hact'
      exact Nat.not_lt.1 fun hlt => hcond ⟨hid, hwaits, hlt⟩
  · have hsame := LaneState.step_jobAt hinv hstep fun q hq => hact ⟨q, hq⟩
    refine .inr ⟨fun q hq => absurd ⟨q, hq⟩ hact, by rw [hsame]⟩

theorem LaneRun.idOf_held (hk : k < r.len) (held : HeldJob)
    (hheld : (r.state k).sched.tracked.lookup ((r.state k).sched.idOf held.job) = some held) :
    (r.state (k + 1)).sched.idOf held.job = (r.state k).sched.idOf held.job := by
  rcases r.data_held hk held hheld with ⟨q, -, hid, -, -, hdata⟩ | ⟨-, hdata⟩
  · rw [LaneScheduler.idOf, hdata]
    exact hid
  · rw [LaneScheduler.idOf, hdata]
    rfl

/-- The copy that waits has the highest count that was offered since it was accepted. -/
theorem LaneRun.isGreatest_offered {n : Nat} (hn : n ≤ r.len) {p : JobPtr}
    (hp : p ∈ (r.state n).sched.waiting) :
    ∃ i, r.acceptedAt n p i ∧ IsGreatest (r.offered ((r.state n).sched.idOf p) i n)
      ((r.state n).sched.jobAt p).data.retryAttemptCount := by
  induction n with
  | zero =>
    obtain ⟨⟨limitFor, jobAt, metrics, hs⟩, -, -⟩ := r.start
    rw [hs] at hp
    cases hp
  | succ n ih =>
    have hn' := Nat.le_of_lt hn
    rcases (r.laneStep hn).waiting_cases (r.schedInv hn') hp with ⟨hp', -⟩ | ⟨hact, haccept, -⟩
    · obtain ⟨i, ⟨hi, haccept, hlast⟩, ⟨k, q, hik, hk, hact, hid, hcount⟩, hmax⟩ := ih hn' hp'
      have hheld := (r.schedInv hn').jobs.mem_waiting.1 hp'
      have hidOf := r.idOf_held hn ⟨p, false⟩ hheld
      refine ⟨i, ⟨Nat.lt_succ_of_lt hi, haccept, fun j hij hj => ?_⟩, ?_⟩
      · rcases Nat.lt_succ_iff_lt_or_eq.1 hj with hj | rfl
        · exact hlast j hij hj
        · exact LaneRun.not_accepts_of_waiting hn' hp'
      simp only at hidOf
      rw [hidOf]
      rcases r.data_held hn ⟨p, false⟩ hheld with
        ⟨q', hact', hid', -, hlt, hdata⟩ | ⟨hle, hdata⟩
      · rw [hdata]
        refine ⟨⟨n, q', hi.le, Nat.lt_succ_self n, hact', hid', rfl⟩, ?_⟩
        rintro c ⟨j, a, hij, hj, hact, hid, rfl⟩
        rcases Nat.lt_succ_iff_lt_or_eq.1 hj with hj | rfl
        · exact (hmax ⟨j, a, hij, hj, hact, hid, rfl⟩).trans hlt.le
        · cases hact'.symm.trans hact
          exact le_rfl
      · rw [hdata]
        refine ⟨⟨k, q, hik, Nat.lt_succ_of_lt hk, hact, hid, hcount⟩, ?_⟩
        rintro c ⟨j, a, hij, hj, hact, hid, rfl⟩
        rcases Nat.lt_succ_iff_lt_or_eq.1 hj with hj | rfl
        · exact hmax ⟨j, a, hij, hj, hact, hid, rfl⟩
        · exact hle a hact hid rfl
    · refine ⟨n, ⟨Nat.lt_succ_self n, ⟨hact, haccept⟩, fun j hij hj => by omega⟩, ?_⟩
      have hnone : (r.state n).sched.tracked.lookup ((r.state n).sched.idOf p) = none := by
        cases htracked : (r.state n).sched.tracked.lookup ((r.state n).sched.idOf p) with
        | none => rfl
        | some held =>
          rw [enqueue_held htracked] at haccept
          cases haccept
      have hdata : ((r.state (n + 1)).sched.jobAt p).data = ((r.state n).sched.jobAt p).data := by
        rw [r.sched_enqueue hn hact, enqueue_data_accepted hnone]
      rw [LaneScheduler.idOf, hdata]
      refine ⟨⟨n, p, le_rfl, Nat.lt_succ_self n, hact, rfl, rfl⟩, ?_⟩
      rintro c ⟨j, a, hij, hj, hact', -, rfl⟩
      obtain rfl : j = n := by omega
      cases hact.symm.trans hact'
      exact le_rfl

theorem LaneRun.data_running {i j : Nat} {p : JobPtr} (hij : i ≤ j) (hj : j ≤ r.len)
    (hruns : ∀ k, i ≤ k → k < j → p ∈ (r.state k).out) :
    ((r.state j).sched.jobAt p).data = ((r.state i).sched.jobAt p).data := by
  induction j, hij using Nat.le_induction with
  | base => rfl
  | succ j hij ih =>
    rw [← ih (Nat.le_of_succ_le hj) fun k hk hkj => hruns k hk (Nat.lt_succ_of_lt hkj)]
    have hout := hruns j hij (Nat.lt_succ_self j)
    have hheld := ((r.schedInv (Nat.le_of_succ_le hj)).jobs.out_held p hout).1
    rcases r.data_held hj ⟨p, true⟩ hheld with ⟨_, -, -, hwaits, -⟩ | ⟨-, hdata⟩
    · cases hwaits
    · exact hdata

/-- An offer for a held job leaves the lanes, the ready list and the order of the jobs as they
are. -/
theorem LaneRun.place_offered (hk : k < r.len) {q : JobPtr} {held : HeldJob}
    (hact : r.act k = .enqueue q)
    (hheld : (r.state k).sched.tracked.lookup ((r.state k).sched.idOf q) = some held) :
    (r.state (k + 1)).sched.lanes = (r.state k).sched.lanes ∧
      (r.state (k + 1)).sched.laneAt = (r.state k).sched.laneAt ∧
      (r.state (k + 1)).sched.ready = (r.state k).sched.ready ∧
      (r.state (k + 1)).sched.tracked = (r.state k).sched.tracked ∧
      jobLess (r.state (k + 1)).sched.jobAt = jobLess (r.state k).sched.jobAt := by
  rw [r.sched_enqueue hk hact, enqueue_held hheld]
  split
  · exact ⟨rfl, rfl, rfl, rfl, jobLess_refresh _ _ _⟩
  · exact ⟨rfl, rfl, rfl, rfl, rfl⟩

end

structure HeldCopies (r : LaneRun) : Prop where
  /-- `isHeld` is true exactly when an offer of the copy would change nothing; `p` is the pointer of
  the new job -/
  isHeld : ∀ n ≤ r.len, ∀ (d : DeliveryJob) (p : JobPtr),
    (∀ id held, (r.state n).sched.tracked.lookup id = some held → held.job ≠ p) →
    ((r.state n).sched.isHeld d = true ↔
      (((r.state n).sched.setJob p (newJob d)).enqueue p).1 = false ∧
        HeldUnchanged ((r.state n).sched.setJob p (newJob d))
          (((r.state n).sched.setJob p (newJob d)).enqueue p).2)
  /-- a copy that waits has the highest count offered since it was accepted -/
  newest : ∀ n ≤ r.len, ∀ p ∈ (r.state n).sched.waiting, ∃ i, r.acceptedAt n p i ∧
    IsGreatest (r.offered ((r.state n).sched.idOf p) i n)
      ((r.state n).sched.jobAt p).data.retryAttemptCount
  /-- an offer for it changes neither the queues nor their order -/
  place : ∀ k < r.len, ∀ q held, r.act k = .enqueue q →
    (r.state k).sched.tracked.lookup ((r.state k).sched.idOf q) = some held →
    (r.state (k + 1)).sched.lanes = (r.state k).sched.lanes ∧
      (r.state (k + 1)).sched.laneAt = (r.state k).sched.laneAt ∧
      (r.state (k + 1)).sched.ready = (r.state k).sched.ready ∧
      (r.state (k + 1)).sched.tracked = (r.state k).sched.tracked ∧
      jobLess (r.state (k + 1)).sched.jobAt = jobLess (r.state k).sched.jobAt
  /-- the data of a copy that runs is not replaced -/
  running : ∀ i j p, i ≤ j → j ≤ r.len → (∀ k, i ≤ k → k < j → p ∈ (r.state k).out) →
    ((r.state j).sched.jobAt p).data = ((r.state i).sched.jobAt p).data

/-- In every run, the held copies of jobs are the newest ones offered, and `isHeld` agrees with
`enqueue`. -/
theorem held_copies (r : LaneRun) : HeldCopies r := by
  refine ⟨fun n _ d p hfresh => ?_, fun n hn p hp => r.isGreatest_offered hn hp,
    fun k hk q held => r.place_offered hk, fun i j p => r.data_running⟩
  have hisHeld : (r.state n).sched.isHeld d =
      ((r.state n).sched.setJob p (newJob d)).isHeld d := by
    simp only [LaneScheduler.isHeld, LaneScheduler.setJob]
    cases htracked : (r.state n).sched.tracked.lookup d.id.string with
    | none => rfl
    | some held => simp only [update_of_ne (hfresh _ held htracked)]
  have hoffer := isHeld_iff_enqueue ((r.state n).sched.setJob p (newJob d)) p
  have hdata : (((r.state n).sched.setJob p (newJob d)).jobAt p).data = d := by
    simp only [LaneScheduler.setJob, update_self, newJob]
  rw [hdata] at hoffer
  rw [hisHeld]
  exact hoffer

end WebhookBroker
