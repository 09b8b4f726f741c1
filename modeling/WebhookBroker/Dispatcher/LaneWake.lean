import WebhookBroker.Dispatcher.LaneRun

/-!
# The wake-up of the assigner

`enqueue` and `done` send a signal after they unlock, which is dropped when the one slot of `wake`
is full. The assigner runs `next`: it calls `tryNext`, and when no lane can run it waits for a
signal. Each section under the mutex is one step, and so is each signal. Nothing is assumed of the
jobs, and `done` may be called for any job. A lane that can run is always in the ready list
(`Covered`), so the assigner waits only when no lane can run, and every call that changes this
sends a signal afterwards.
-/

namespace WebhookBroker

open Lib List Function

inductive Assigner where
  | outside
  | trying
  | selecting
deriving DecidableEq

/-- The scheduler with the slot of `wake`, the callers that are between their unlock and their
signal, and the assigner. -/
structure WakeState where
  sched : LaneScheduler
  wake : Bool
  signalling : Nat → Bool
  assigner : Assigner

inductive WakeAction where
  | enqueue (u : Nat) (p : JobPtr)
  | done (u : Nat) (p : JobPtr)
  | signal (u : Nat)
  | next
  | tryNext
  | wake
  | stop
deriving DecidableEq, Inhabited

namespace WakeState

def isInitial (σ : WakeState) : Prop :=
  (∃ limitFor jobAt metrics, σ.sched = newLaneScheduler limitFor jobAt metrics) ∧
    σ.wake = false ∧ (∀ u, σ.signalling u = false) ∧ σ.assigner = .outside

def step (σ : WakeState) : WakeAction → Option WakeState
  | .enqueue u p =>
    if σ.signalling u then none
    else
      let (accepted, sched) := σ.sched.enqueue p
      some { σ with sched, signalling := update σ.signalling u accepted }
  | .done u p =>
    if σ.signalling u then none
    else some { σ with
      sched := σ.sched.done p, signalling := update σ.signalling u true }
  | .signal u =>
    -- a full slot drops the signal and stays full
    if σ.signalling u then
      some { σ with wake := true, signalling := update σ.signalling u false }
    else none
  | .next => if σ.assigner = .outside then some { σ with assigner := .trying } else none
  | .tryNext =>
    if σ.assigner = .trying then
      match σ.sched.tryNext with
      | (some _, sched) => some { σ with sched, assigner := .outside }
      | (none, sched) => some { σ with sched, assigner := .selecting }
    else none
  | .wake =>
    if σ.assigner = .selecting ∧ σ.wake = true then
      some { σ with wake := false, assigner := .trying }
    else none
  | .stop => if σ.assigner = .selecting then some { σ with assigner := .outside } else none

/-- Some lane has a waiting job and room, the assigner waits for a signal, and none will come. -/
def isStuck (σ : WakeState) : Prop :=
  σ.assigner = .selecting ∧ σ.wake = false ∧ (∀ u, σ.signalling u = false) ∧
    ∃ key, σ.sched.laneCanRun key = true

end WakeState

abbrev WakeRun := Run WakeState.isInitial WakeState.step

/-! ## Lanes that can run are in the ready list -/

/-- Every lane that can run is marked ready, and every lane that is marked is in the list. -/
structure Covered (s : LaneScheduler) : Prop where
  complete : Complete s
  listed : ∀ key ptr, s.lanes.lookup key = some ptr → (s.laneAt ptr).ready = true → ptr ∈ s.ready

section
variable {s t : LaneScheduler} {ptr : LanePtr}

theorem covered_newLaneScheduler (limitFor : String → String → Nat) (jobAt : JobPtr → Job)
    (metrics : Metrics) : Covered (newLaneScheduler limitFor jobAt metrics) :=
  ⟨fun _ _ hk => absurd hk.symm (Option.some_ne_none _),
    fun _ _ hk => absurd hk.symm (Option.some_ne_none _)⟩

/-- `markReadyLocked` makes up for a write to its lane. -/
theorem covered_markReady (hself : (t.laneAt ptr).ready = true → ptr ∈ t.ready)
    (hother : ∀ key q, t.lanes.lookup key = some q → q ≠ ptr →
      ((t.laneAt q).canRun = true → (t.laneAt q).ready = true) ∧
      ((t.laneAt q).ready = true → q ∈ t.ready)) : Covered (t.markReadyLocked ptr) := by
  refine ⟨complete_markReady fun key q hk hq => (hother key q hk hq).1, fun key q hk hr => ?_⟩
  rw [markReadyLocked_lanes] at hk
  rcases markReadyLocked_cases t ptr with ⟨-, -, heq⟩ | ⟨-, heq⟩
  · rw [heq] at hr ⊢
    simp only [LaneScheduler.setLane] at hr
    by_cases hq : q = ptr
    · rw [hq]
      exact mem_append_right _ (mem_singleton_self ptr)
    · rw [update_of_ne hq] at hr
      exact mem_append_left _ ((hother key q hk hq).2 hr)
  · rw [heq] at hr ⊢
    by_cases hq : q = ptr
    · subst hq
      exact hself hr
    · exact (hother key q hk hq).2 hr

section
variable (h : Covered s)
include h

theorem Covered.mem_ready {key : String} (hk : s.lanes.lookup key = some ptr)
    (hrun : (s.laneAt ptr).canRun = true) : ptr ∈ s.ready :=
  h.listed key ptr hk (h.complete key ptr hk hrun)

theorem Covered.enqueue (p : JobPtr) : Covered (s.enqueue p).2 := by
  rcases enqueue_cases s p with ⟨-, heq | ⟨q, heq⟩⟩ | ⟨-, ptr, t, hl, heq⟩
  · rwa [heq]
  · rw [heq]
    exact ⟨h.complete, h.listed⟩
  · rw [heq]
    refine covered_markReady (fun hr => ?_) fun key q hk hq => ?_
    · have hr' : (t.laneAt ptr).ready = true := by
        rwa [(accept_write t ptr p).self] at hr
      rcases hl.old_or_new with ⟨hlane, hk⟩ | ⟨-, hnew, -⟩
      · rw [hlane] at hr'
        exact hl.ready.symm ▸ h.listed _ ptr hk hr'
      · rw [hnew] at hr'
        cases hr'
    · obtain ⟨hk', hlane⟩ := hl.of_ne hk hq
      rw [(accept_write t ptr p).of_ne hq, hlane,
        show (t.accept ptr p).ready = s.ready from hl.ready]
      exact ⟨h.complete key q hk', h.listed key q hk'⟩

theorem Covered.done (p : JobPtr) : Covered (s.done p) := by
  cases hk : s.lanes.lookup (s.keyOf p) with
  | none =>
    simp only [LaneScheduler.done, hk]
    exact ⟨h.complete, h.listed⟩
  | some ptr =>
    obtain ⟨t, -, hlanes, hready, hlane, hends⟩ := done_of_lookup hk
    have hflag : (t.laneAt ptr).ready = (s.laneAt ptr).ready := by
      rw [hlane, update_self]
    have hother : ∀ q, q ≠ ptr → t.laneAt q = s.laneAt q := fun q hq => by
      rw [hlane, update_of_ne hq]
    rcases hends with ⟨hqueue, -, hoff, heq⟩ | ⟨-, heq⟩
    · rw [heq]
      refine ⟨fun key q hq hrun => ?_, fun key q hq hr => ?_⟩
      · have hq' : s.lanes.lookup key = some q := hlanes ▸ (lookup_erase_eq_some.1 hq).2
        by_cases hqp : q = ptr
        · subst hqp
          exact absurd hqueue (ConsumerLane.canRun_iff.1 hrun).1
        · simp only [hother q hqp] at hrun ⊢
          exact h.complete key q hq' hrun
      · have hq' : s.lanes.lookup key = some q := hlanes ▸ (lookup_erase_eq_some.1 hq).2
        by_cases hqp : q = ptr
        · subst hqp
          rw [hoff] at hr
          cases hr
        · simp only [hother q hqp] at hr
          simp only [hready]
          exact h.listed key q hq' hr
    · rw [heq]
      refine covered_markReady (fun hr => ?_) fun key q hq hqp => ?_
      · rw [hready]
        exact h.listed _ ptr hk (hflag ▸ hr)
      · rw [hlanes] at hq
        rw [hother q hqp, hready]
        exact ⟨h.complete key q hq, h.listed key q hq⟩

/-- The loop of `tryNext` takes only lanes off the list that cannot run. -/
theorem Covered.scanned : Covered s.scanned := by
  refine ⟨fun key q hk (hrun : (unflag s.laneAt s.ready q).canRun = true) => ?_,
    fun key q hk (hr : (unflag s.laneAt s.ready q).ready = true) => ?_⟩
  · show (unflag s.laneAt s.ready q).ready = true
    rw [canRun_unflag] at hrun
    rcases unflag_cases s.laneAt s.ready q with heq | ⟨-, hno⟩
    · rw [heq]
      exact h.complete key q hk hrun
    · rw [hrun] at hno
      cases hno
  · have hmem : q ∈ s.ready := by
      rcases unflag_cases s.laneAt s.ready q with heq | ⟨heq, -⟩
      · rw [heq] at hr
        exact h.listed key q hk hr
      · rw [heq] at hr
        cases hr
    refine mem_filter.2 ⟨hmem, ?_⟩
    cases hrun : (s.laneAt q).canRun with
    | true => rfl
    | false =>
      rw [unflag, if_pos ⟨hmem, hrun⟩] at hr
      cases hr

theorem Covered.tryNext : Covered s.tryNext.2 := by
  rcases tryNext_scanned s with ⟨-, heq⟩ | ⟨i, best, ptr, p, t, -, hi, hdeq, heq⟩
  · rw [heq]
    exact h.scanned
  · rw [heq]
    obtain ⟨⟨p', queue⟩, -, ht⟩ := Option.map_eq_some_iff.1 hdeq
    cases ht
    refine covered_markReady (fun hr => ?_) fun key q hk hq => ?_
    · simp only [LaneScheduler.setLane, update_self] at hr
      cases hr
    · simp only [LaneScheduler.setLane, update_of_ne hq]
      refine ⟨h.scanned.complete key q hk, fun hr => ?_⟩
      obtain ⟨k, hget⟩ := mem_iff_getElem?.1 (h.scanned.listed key q hk hr)
      refine mem_eraseIdx_iff_getElem?.2 ⟨k, ?_, hget⟩
      rintro rfl
      exact hq (Option.some.inj (hget.symm.trans hi))

theorem Covered.not_canRun (hnone : s.tryNext.1 = none) (key : String) :
    s.tryNext.2.laneCanRun key ≠ true := by
  intro hrun
  obtain ⟨ptr, hk, hrun⟩ := LaneScheduler.laneCanRun_iff.1 hrun
  rcases tryNext_scanned s with ⟨hnil, heq⟩ | ⟨i, best, ptr, p, t, -, -, -, heq⟩
  · rw [heq] at hk hrun
    have hmem := h.scanned.mem_ready hk hrun
    rw [hnil] at hmem
    cases hmem
  · rw [heq] at hnone
    cases hnone

end

end

/-! ## No lost wake-up -/

/-- If a lane can run while the assigner waits, a signal is in the slot or will be sent. -/
structure WakeInv (σ : WakeState) : Prop where
  covered : Covered σ.sched
  wakes : σ.assigner = .selecting → ∀ key, σ.sched.laneCanRun key = true →
    σ.wake = true ∨ ∃ u, σ.signalling u = true

theorem WakeState.isInitial.wakeInv {σ : WakeState} (h : σ.isInitial) : WakeInv σ := by
  obtain ⟨⟨limitFor, jobAt, metrics, hs⟩, -, -, hassigner⟩ := h
  refine ⟨hs ▸ covered_newLaneScheduler limitFor jobAt metrics, fun hsel => ?_⟩
  rw [hassigner] at hsel
  cases hsel

theorem laneCanRun_of_dropped {s : LaneScheduler} {p : JobPtr} (hno : (s.enqueue p).1 = false)
    (key : String) : (s.enqueue p).2.laneCanRun key = s.laneCanRun key := by
  rcases enqueue_cases s p with ⟨-, heq | ⟨q, heq⟩⟩ | ⟨-, ptr, t, -, heq⟩
  · rw [heq]
  · rw [heq]
    rfl
  · rw [heq] at hno
    cases hno

theorem WakeState.step_wakeInv {σ σ' : WakeState} {a : WakeAction} (h : WakeInv σ)
    (hstep : σ.step a = some σ') : WakeInv σ' := by
  cases a with
    simp only [WakeState.step, Option.ite_none_left_eq_some, Option.ite_none_right_eq_some,
      Option.some.injEq] at hstep
  | enqueue u p =>
    obtain ⟨hu, rfl⟩ := hstep
    refine ⟨h.covered.enqueue p, fun hsel key hrun => ?_⟩
    cases haccept : (σ.sched.enqueue p).1 with
    | true => exact .inr ⟨u, update_self ..⟩
    | false =>
      rw [laneCanRun_of_dropped haccept] at hrun
      refine (h.wakes hsel key hrun).imp_right ?_
      rintro ⟨v, hv⟩
      have hne : v ≠ u := by
        rintro rfl
        exact hu hv
      exact ⟨v, (update_of_ne hne _ _).trans hv⟩
  | done u p =>
    obtain ⟨-, rfl⟩ := hstep
    exact ⟨h.covered.done p, fun _ _ _ => .inr ⟨u, update_self ..⟩⟩
  | signal u =>
    obtain ⟨-, rfl⟩ := hstep
    exact ⟨h.covered, fun _ _ _ => .inl rfl⟩
  | next =>
    obtain ⟨-, rfl⟩ := hstep
    exact ⟨h.covered, fun hsel => nomatch hsel⟩
  | tryNext =>
    obtain ⟨-, hstep⟩ := hstep
    split at hstep
    · rename_i p sched heq
      cases hstep
      exact ⟨by simpa only [heq] using h.covered.tryNext, fun hsel => nomatch hsel⟩
    · rename_i sched heq
      cases hstep
      refine ⟨by simpa only [heq] using h.covered.tryNext, fun _ key hrun => ?_⟩
      have hno := h.covered.not_canRun (by rw [heq]) key
      rw [heq] at hno
      exact absurd hrun hno
  | wake =>
    obtain ⟨-, rfl⟩ := hstep
    exact ⟨h.covered, fun hsel => nomatch hsel⟩
  | stop =>
    obtain ⟨-, rfl⟩ := hstep
    exact ⟨h.covered, fun hsel => nomatch hsel⟩

/-- In no state of any run of any number of callers and the assigner does the assigner wait with
an empty slot and no signal to come while some lane has a waiting job and room. -/
theorem no_lost_wake_up (r : WakeRun) {n : Nat} (hn : n ≤ r.len) : ¬ (r.state n).isStuck := by
  rintro ⟨hsel, hwake, hsignal, key, hrun⟩
  have h := r.invariant (P := WakeInv) (fun _ h => h.wakeInv)
    (fun _ _ _ h hstep => WakeState.step_wakeInv h hstep) n hn
  rcases h.wakes hsel key hrun with htrue | ⟨u, hu⟩
  · rw [hwake] at htrue
    cases htrue
  · rw [hsignal u] at hu
    cases hu

/-- The assigner waits when a job is enqueued, and the signal wakes it. -/
def Sample.wakeUp : List WakeAction :=
  [.next, .tryNext, .enqueue 0 0, .signal 0, .wake, .tryNext]

theorem no_lost_wake_up_enqueue :
    ∃ r : WakeRun, (r.state 3).assigner = .selecting ∧ (r.state 3).wake = false ∧
      (r.state 3).sched.laneCanRun "c/d" = true ∧ (r.state 6).assigner = .outside ∧
      ¬ (r.state 3).isStuck := by
  let r : WakeRun := Run.ofActs
    { sched := Sample.lanes.sched, wake := false, signalling := fun _ => false,
      assigner := .outside }
    Sample.wakeUp ⟨⟨_, _, _, rfl⟩, rfl, fun _ => rfl, rfl⟩ (by decide +kernel)
  exact ⟨r, by decide +kernel, by decide +kernel, by decide +kernel, by decide +kernel,
    no_lost_wake_up r (by decide)⟩

end WebhookBroker
