import WebhookBroker.Dispatcher.LaneLabels

/-!
# The gauges of the lane scheduler

`enqueue` counts a job under its own ids, `tryNext`, `done` and `discardQueued` count it under the
ids of its lane. With ids that have no slash these are the same ids (`Labelled.labels_eq`), so that
every gauge is the number of the jobs it is named after (`GaugesRight`). A call moves one job at a
time, and each kind of move keeps the gauges by one lemma.
-/

namespace WebhookBroker

open Lib List

structure GaugesRight (s : LaneScheduler) (out : List JobPtr) : Prop where
  queued : s.metrics.queuedJobCount = s.waiting.length
  consumerQueued : ∀ l, s.metrics.consumerQueuedJobCount l =
    s.waiting.countP fun p => s.labelsOf p == l
  consumerInflight : ∀ l, s.metrics.consumerInflightJobCount l = s.running out l

theorem addGauge_apply (gauge : String × String → Int) (l : String × String) (n : Int)
    (l' : String × String) :
    addGauge gauge l.1 l.2 n l' = gauge l' + if l = l' then n else 0 := by
  unfold addGauge
  by_cases hl : l = l'
  · subst hl
    rw [Function.update_self, if_pos rfl]
  · rw [Function.update_of_ne (Ne.symm hl), if_neg hl, Int.add_zero]

@[simp] theorem addGauge_zero (gauge : String × String → Int) (channelID consumerID : String) :
    addGauge gauge channelID consumerID 0 = gauge := by
  simp [addGauge]

variable {l l' : List JobPtr}

theorem perm_cons_of_mem_iff {p : JobPtr} (hl : l.Nodup) (hl' : l'.Nodup) (hp : p ∉ l)
    (hp' : p ∈ l') (h : ∀ q, q ≠ p → (q ∈ l' ↔ q ∈ l)) : l'.Perm (p :: l) := by
  refine (perm_ext_iff_of_nodup hl' (nodup_cons.2 ⟨hp, hl⟩)).2 fun q => ?_
  rw [mem_cons]
  by_cases hq : q = p
  · subst hq
    exact ⟨fun _ => .inl rfl, fun _ => hp'⟩
  · rw [h q hq]
    exact (or_iff_right hq).symm

section
variable {s t : LaneScheduler} {out out' : List JobPtr} {ptr : LanePtr} {p : JobPtr}
  {lane : ConsumerLane} {key : String}

theorem waiting_perm (h : JobsInv s out) (h' : JobsInv t out') (ht : t.tracked = s.tracked)
    (hid : ∀ q, t.idOf q = s.idOf q) : t.waiting.Perm s.waiting := by
  refine (perm_ext_iff_of_nodup h'.waiting_nodup h.waiting_nodup).2 fun q => ?_
  rw [h'.mem_waiting, h.mem_waiting, ht, hid]

section
variable (hm : JobMove s t out out' ptr lane p) (h : JobsInv s out)
include hm h

theorem JobMove.mem_waiting_iff {q : JobPtr} (hq : q ≠ p) : q ∈ t.waiting ↔ q ∈ s.waiting := by
  rw [(h.move hm).mem_waiting, h.mem_waiting, hm.idOf]
  by_cases hid : s.idOf q = s.idOf p
  · rw [hid]
    constructor
    · intro hheld
      exact absurd (hm.after _ hheld) hq
    · intro hheld
      exact absurd (hm.before _ hheld) hq
  · rw [hm.tracked _ hid]

theorem JobMove.mem_waiting_self : p ∈ t.waiting ↔ p ∈ lane.queue := by
  rw [(h.move hm).mem_waiting, hm.idOf, hm.waiting]

theorem JobMove.waiting_perm_cons (hbefore : p ∉ s.waiting) (hafter : p ∈ lane.queue) :
    t.waiting.Perm (p :: s.waiting) :=
  perm_cons_of_mem_iff h.waiting_nodup (h.move hm).waiting_nodup hbefore
    ((hm.mem_waiting_self h).2 hafter) fun _ hq => hm.mem_waiting_iff h hq

theorem JobMove.waiting_perm_of_leaves (hbefore : p ∈ s.waiting) (hafter : p ∉ lane.queue) :
    s.waiting.Perm (p :: t.waiting) :=
  perm_cons_of_mem_iff (h.move hm).waiting_nodup h.waiting_nodup
    (fun hp => hafter ((hm.mem_waiting_self h).1 hp)) hbefore
    fun _ hq => (hm.mem_waiting_iff h hq).symm

end

/-! ## A move of one job -/

theorem GaugesRight.of_perm (h : GaugesRight s out) (hw : t.waiting.Perm s.waiting)
    (hm : t.metrics = s.metrics) (hl : ∀ q, t.labelsOf q = s.labelsOf q) : GaugesRight t out := by
  refine ⟨?_, fun l => ?_, fun l => ?_⟩
  · rw [hm, hw.length_eq]
    exact h.queued
  · rw [hm, hw.countP_eq]
    simp only [hl]
    exact h.consumerQueued l
  · rw [hm]
    simp only [LaneScheduler.running, hl]
    exact h.consumerInflight l

/-- `l'` has `n` copies of `p` more than `l`, and is the same otherwise. -/
def CountsShift (l l' : List JobPtr) (p : JobPtr) (n : Int) : Prop :=
  ∀ f : JobPtr → Bool, (l'.countP f : Int) = l.countP f + if f p then n else 0

theorem countsShift_zero (h : l'.Perm l) : CountsShift l l' p 0 := by
  intro f
  rw [h.countP_eq]
  simp

theorem countsShift_one (h : l'.Perm (p :: l)) : CountsShift l l' p 1 := by
  intro f
  rw [h.countP_eq, countP_cons]
  split <;> simp

theorem countsShift_neg_one (h : l.Perm (p :: l')) : CountsShift l l' p (-1) := by
  intro f
  rw [h.countP_eq, countP_cons]
  split <;> omega

/-- A job is taken into or out of the waiting and the running jobs, and the gauges are written under
its ids. -/
theorem GaugesRight.move (h : GaugesRight s out) {nq nr : Int}
    (hw : CountsShift s.waiting t.waiting p nq) (hr : CountsShift out out' p nr)
    (hl : ∀ q, t.labelsOf q = s.labelsOf q)
    (hm : t.metrics =
      { queuedJobCount := s.metrics.queuedJobCount + nq
        consumerQueuedJobCount := addGauge s.metrics.consumerQueuedJobCount (s.labelsOf p).1
          (s.labelsOf p).2 nq
        consumerInflightJobCount := addGauge s.metrics.consumerInflightJobCount (s.labelsOf p).1
          (s.labelsOf p).2 nr }) : GaugesRight t out' := by
  refine ⟨?_, fun l => ?_, fun l => ?_⟩
  · have hcount := hw fun _ => true
    simp only [countP_true, if_true] at hcount
    rw [hm, hcount, h.queued]
  · rw [hm, hw]
    simp only [addGauge_apply, h.consumerQueued, hl, beq_iff_eq]
  · rw [hm, LaneScheduler.running, hr]
    simp only [addGauge_apply, h.consumerInflight, LaneScheduler.running, hl, beq_iff_eq]

theorem GaugesRight.markReady (h : GaugesRight s out) (hj : JobsInv s out) (ptr : LanePtr) :
    GaugesRight (s.markReadyLocked ptr) out := by
  have hperm := waiting_perm hj (hj.markReady ptr)
  rcases markReadyLocked_cases s ptr with ⟨-, -, heq⟩ | ⟨-, heq⟩
  · rw [heq] at hperm ⊢
    exact h.of_perm (hperm rfl fun _ => rfl) rfl fun _ => rfl
  · rw [heq]
    exact h

theorem GaugesRight.laneFor (h : GaugesRight s out) (hinv : SchedInv s out)
    (channelID consumerID key : String) :
    GaugesRight (s.laneFor channelID consumerID key).2 out := by
  obtain ⟨-, hj, -, -, -⟩ := hinv.laneFor channelID consumerID key
  have hl := laneFor_hasLane s channelID consumerID key
  refine h.of_perm (waiting_perm hinv.jobs hj hl.tracked fun q => ?_) ?_ fun q => ?_
  · rw [LaneScheduler.idOf, hl.jobAt]
    rfl
  · rcases laneFor_cases s channelID consumerID key with ⟨ptr, -, heq⟩ | ⟨-, heq⟩ <;> rw [heq]
    rfl
  · rw [LaneScheduler.labelsOf, hl.jobAt]
    rfl

theorem labelsOf_setJob {U : String × String → Prop} (hU : KeysApart U) (h : Labelled U s)
    (hj : JobsInv s out) {id : String} {held : HeldJob} (hheld : s.tracked.lookup id = some held)
    (hid : s.idOf p = id) (hp : U (s.labelsOf p)) (q : JobPtr) :
    (s.setJob held.job { s.jobAt held.job with data := (s.jobAt p).data }).labelsOf q =
      s.labelsOf q := by
  refine labelsOf_update (p := held.job) ?_ q
  refine hU _ _ hp (h.held id held hheld) ?_
  exact hj.share p held.job (hid.trans (hj.idOf_held hheld).symm)

theorem GaugesRight.enqueue {U : String × String → Prop} (hU : KeysApart U) (h : GaugesRight s out)
    (hinv : SchedInv s out) (hlab : Labelled U s) (hp : U (s.labelsOf p)) :
    GaugesRight (s.enqueue p).2 out := by
  cases htracked : s.tracked.lookup (s.idOf p) with
  | some held =>
    have hlabels := labelsOf_setJob hU hlab hinv.jobs htracked rfl hp
    have hlookup : s.tracked.lookup (s.jobAt p).data.id.string = some held := htracked
    simp only [LaneScheduler.enqueue, hlookup]
    split
    · exact h.of_perm (.refl _) rfl hlabels
    · exact h
  | none =>
    rw [enqueue_eq_accept htracked]
    have hl := laneFor_hasLane s (laneIdentity (s.jobAt p)).1 (laneIdentity (s.jobAt p)).2.1
      (s.keyOf p)
    have hg := h.laneFor hinv (laneIdentity (s.jobAt p)).1 (laneIdentity (s.jobAt p)).2.1
      (s.keyOf p)
    obtain ⟨-, hj, -, -, -⟩ := hinv.laneFor (laneIdentity (s.jobAt p)).1
      (laneIdentity (s.jobAt p)).2.1 (s.keyOf p)
    generalize (s.laneFor (laneIdentity (s.jobAt p)).1 (laneIdentity (s.jobAt p)).2.1
      (s.keyOf p)).1 = ptr at *
    generalize (s.laneFor (laneIdentity (s.jobAt p)).1 (laneIdentity (s.jobAt p)).2.1
      (s.keyOf p)).2 = t at *
    have hidOf : t.idOf p = s.idOf p := by rw [LaneScheduler.idOf, hl.jobAt]; rfl
    have hkeyOf : t.keyOf p = s.keyOf p := by rw [LaneScheduler.keyOf, hl.jobAt]; rfl
    have hnone : t.tracked.lookup (t.idOf p) = none := by rw [hl.tracked, hidOf, htracked]
    have hm := hj.accept hnone (hkeyOf ▸ hl.lookup)
    have hnot : p ∉ t.waiting := by
      rw [hj.mem_waiting, hnone]
      simp
    have hmem : p ∈ (t.joined ptr p).queue :=
      (PriorityQueue.enqueue_perm _ _ _).mem_iff.2 mem_cons_self
    refine GaugesRight.markReady ?_ (hj.move hm) ptr
    refine hg.move (countsShift_one (hm.waiting_perm_cons hj hnot hmem))
      (countsShift_zero (.refl _)) (labelsOf_update rfl) ?_
    rw [addGauge_zero]
    rfl

theorem mem_waiting_of_dequeue {queue : PriorityQueue} (hk : s.lanes.lookup key = some ptr)
    (hdeq : (s.laneAt ptr).queue.dequeue s.jobAt = some (p, queue)) :
    p ∈ (s.laneAt ptr).queue ∧ p ∈ s.waiting := by
  have hperm : (p :: queue).Perm (s.laneAt ptr).queue := Heap.pop_perm hdeq
  have hp := hperm.mem_iff.1 mem_cons_self
  exact ⟨hp, LaneScheduler.mem_waiting.2 ⟨key, ptr, hk, hp⟩⟩

theorem tryNext_metrics (h : ReadyInv s) :
    s.tryNext = (none, s) ∨ ∃ ptr p queue t, ptr ∈ s.ready ∧ Serves s t ptr p queue ∧
      t.metrics = { queuedJobCount := s.metrics.queuedJobCount - 1
                    consumerQueuedJobCount := addGauge s.metrics.consumerQueuedJobCount
                      (s.laneAt ptr).channelID (s.laneAt ptr).consumerID (-1)
                    consumerInflightJobCount := addGauge s.metrics.consumerInflightJobCount
                      (s.laneAt ptr).channelID (s.laneAt ptr).consumerID 1 } ∧
      s.tryNext = (some p, t.markReadyLocked ptr) := by
  have hcases := tryNext_scanned s
  rw [h.scanned] at hcases
  rcases hcases with ⟨-, heq⟩ | ⟨i, best, ptr, p, t, -, hi, hdeq, heq⟩
  · exact .inl heq
  · obtain ⟨hlt, hget⟩ := List.getElem?_eq_some_iff.1 hi
    have herase : s.ready.eraseIdx i = s.ready.erase ptr := by
      rw [← hget, h.nodup.erase_getElem]
    obtain ⟨queue, hserves⟩ := dequeueFrom_serves hdeq herase
    obtain ⟨-, -, -, -, -, -, hmetrics, -⟩ := dequeueFrom_eq hdeq
    exact .inr ⟨ptr, p, queue, t, mem_of_getElem? hi, hserves, hmetrics, heq⟩

section
variable {U : String × String → Prop} (hU : KeysApart U)
include hU

theorem GaugesRight.tryNext (h : GaugesRight s out) (hinv : SchedInv s out) (hlab : Labelled U s) :
    GaugesRight s.tryNext.2 (s.tryNext.1.toList ++ out) := by
  rcases tryNext_metrics hinv.ready with heq | ⟨ptr, p, queue, t, hmem, hs, hmetrics, heq⟩
  · rw [heq]
    exact h
  · rw [heq]
    obtain ⟨key, hk, hr⟩ := (hinv.ready.mem ptr).1 hmem
    obtain ⟨hqueue, hwaits⟩ := mem_waiting_of_dequeue hk hs.dequeue
    have hm := hinv.jobs.serve hs hk (hinv.ready.sound key ptr hk hr)
    have hids : (s.laneAt ptr).labels = s.labelsOf p :=
      hlab.labels_eq hU hinv.jobs ⟨key, hk, .inl hqueue⟩
    have hl : ∀ q, t.labelsOf q = s.labelsOf q := fun q => by
      rw [LaneScheduler.labelsOf, hs.jobAt]
      rfl
    have hleaves : p ∉ queue := by
      have hnodup := hs.queue_perm.nodup_iff.2 (hinv.jobs.lanes _ _ hk).2.nodup
      exact (nodup_cons.1 hnodup).1
    refine GaugesRight.markReady ?_ (hinv.jobs.move hm) ptr
    refine h.move (countsShift_neg_one (hm.waiting_perm_of_leaves hinv.jobs hwaits hleaves))
      (countsShift_one (.refl _)) hl ?_
    rw [hmetrics, ← hids]
    rfl

theorem GaugesRight.done (h : GaugesRight s out) (hinv : SchedInv s out) (hlab : Labelled U s)
    (hp : p ∈ out) : GaugesRight (s.done p) (out.erase p) := by
  obtain ⟨hheld, ptr, hk⟩ := hinv.jobs.out_held p hp
  have hpos : (s.laneAt ptr).inflight > 0 := by
    rw [(hinv.jobs.lanes _ _ hk).2.inflight]
    exact countP_pos_iff.2 ⟨p, hp, beq_self_eq_true _⟩
  obtain ⟨t, ht, -, -, -, hends⟩ := done_of_lookup hk
  obtain rfl := ht hpos
  have hm := hinv.jobs.release hp hk
  have hj : JobsInv (s.release ptr p) (out.erase p) := hinv.jobs.move hm.toJobMove
  have hids : (s.laneAt ptr).labels = s.labelsOf p :=
    hlab.labels_eq hU hinv.jobs ⟨_, hk, .inr ⟨hp, rfl⟩⟩
  have hwaiting : (s.release ptr p).waiting.Perm s.waiting := by
    refine (perm_ext_iff_of_nodup hj.waiting_nodup hinv.jobs.waiting_nodup).2 fun q => ?_
    by_cases hq : q = p
    · subst hq
      have hnot : q ∉ s.waiting := by
        rw [hinv.jobs.mem_waiting, hheld]
        simp
      have hnot' : q ∉ (s.release ptr q).waiting := by
        rw [hj.mem_waiting]
        exact fun hsome => Option.some_ne_none _ (hsome.symm.trans (AList.lookup_erase _ _))
      exact iff_of_false hnot' hnot
    · exact hm.toJobMove.mem_waiting_iff hinv.jobs hq
  have hrelease : GaugesRight (s.release ptr p) (out.erase p) := by
    refine h.move (countsShift_zero hwaiting) (countsShift_neg_one (perm_cons_erase hp))
      (fun _ => rfl) ?_
    rw [addGauge_zero, ← hids]
    simp only [LaneScheduler.release, Int.add_zero]
    rfl
  rcases hends with ⟨hqueue, hin, -, heq⟩ | ⟨-, heq⟩
  · rw [heq]
    exact hrelease.of_perm (waiting_perm hj (hj.eraseLane hk hqueue hin) rfl fun _ => rfl) rfl
      fun _ => rfl
  · rw [heq]
    exact hrelease.markReady hj ptr

theorem GaugesRight.discardJobs (n : Nat) {s : LaneScheduler} (h : GaugesRight s out)
    (hj : JobsInv s out) (hlab : Labelled U s) (hk : s.lanes.lookup key = some ptr) :
    GaugesRight (LaneScheduler.discardJobs ptr n s) out := by
  induction n generalizing s with
  | zero => exact h
  | succ n ih =>
    rw [LaneScheduler.discardJobs]
    cases hdeq : (s.laneAt ptr).queue.dequeue s.jobAt with
    | none => exact h
    | some r =>
      obtain ⟨p, queue⟩ := r
      have hm := hj.discard hk hdeq
      obtain ⟨hqueue, hwaits⟩ := mem_waiting_of_dequeue hk hdeq
      have hids : (s.laneAt ptr).labels = s.labelsOf p :=
        hlab.labels_eq hU hj ⟨key, hk, .inl hqueue⟩
      have hleaves : p ∉ queue := by
        have hperm : (p :: queue).Perm (s.laneAt ptr).queue := Heap.pop_perm hdeq
        exact (nodup_cons.1 (hperm.nodup_iff.2 (hj.lanes _ _ hk).2.nodup)).1
      have hdiscard : GaugesRight (s.discardJob ptr p queue) out := by
        refine h.move (countsShift_neg_one (hm.waiting_perm_of_leaves hj hwaits hleaves))
          (countsShift_zero (.refl _)) (fun _ => rfl) ?_
        rw [addGauge_zero, ← hids]
        rfl
      exact ih hdiscard (hj.move hm) (hlab.narrows (narrows_discardJob s ptr p queue)) hk

theorem GaugesRight.discardLane (h : GaugesRight s out) (hj : JobsInv s out) (hlab : Labelled U s)
    (hk : s.lanes.lookup key = some ptr) : GaugesRight (s.discardLane key ptr) out := by
  have hjobs := h.discardJobs hU (s.laneAt ptr).queue.length hj hlab hk
  obtain ⟨hj', -⟩ := discardJobs_spec _ hj hk rfl
  obtain ⟨hj'', -⟩ := discardLane_spec hj hk
  have hrest : (s.discardLane key ptr).tracked =
        (LaneScheduler.discardJobs ptr (s.laneAt ptr).queue.length s).tracked ∧
      (s.discardLane key ptr).jobAt =
        (LaneScheduler.discardJobs ptr (s.laneAt ptr).queue.length s).jobAt ∧
      (s.discardLane key ptr).metrics =
        (LaneScheduler.discardJobs ptr (s.laneAt ptr).queue.length s).metrics := by
    simp only [LaneScheduler.discardLane]
    split <;> exact ⟨rfl, rfl, rfl⟩
  obtain ⟨htracked, hjobAt, hmetrics⟩ := hrest
  refine hjobs.of_perm (waiting_perm hj' hj'' htracked fun q => ?_) hmetrics fun q => ?_
  · rw [LaneScheduler.idOf, hjobAt]
    rfl
  · rw [LaneScheduler.labelsOf, hjobAt]
    rfl

theorem GaugesRight.discardQueued (h : GaugesRight s out) (hj : JobsInv s out)
    (hlab : Labelled U s) : GaugesRight s.discardQueued out := by
  have hrun : ∀ (rest : List (Sigma fun _ : String => LanePtr)) (s : LaneScheduler),
      Discarding s out rest → Labelled U s → GaugesRight s out →
      GaugesRight (rest.foldl (fun s e => s.discardLane e.1 e.2) s) out := by
    intro rest
    induction rest with
    | nil => exact fun s _ _ h => h
    | cons e rest ih =>
      intro s hd hlab h
      have hk := hd.todo e mem_cons_self
      exact ih _ hd.visit (hlab.narrows (narrows_discardLane s e.1 e.2))
        (h.discardLane hU hd.jobs hlab hk)
  have hd : Discarding s out s.lanes.entries :=
    ⟨hj, s.lanes.nodupKeys, fun e he => AList.mem_lookup_iff.2 he,
      fun key ptr hk => .inl (AList.mem_lookup_iff.1 hk)⟩
  have hgauges := hrun s.lanes.entries s hd hlab h
  exact ⟨hgauges.queued, hgauges.consumerQueued, hgauges.consumerInflight⟩

end

end

theorem LaneState.step_gaugesRight {U : String × String → Prop} (hU : KeysApart U)
    {σ σ' : LaneState} {a : LaneAction} (h : GaugesRight σ.sched σ.out)
    (hinv : SchedInv σ.sched σ.out) (hlab : Labelled U σ.sched)
    (hoffer : ∀ p, a = .enqueue p → U (σ.sched.labelsOf p)) (hstep : σ.step a = some σ') :
    GaugesRight σ'.sched σ'.out := by
  cases a with
  | enqueue p =>
    cases hstep
    exact h.enqueue hU hinv hlab (hoffer p rfl)
  | tryNext =>
    cases hstep
    exact h.tryNext hU hinv hlab
  | isHeld job =>
    cases hstep
    exact h
  | done p =>
    simp only [LaneState.step] at hstep
    split at hstep
    · rename_i hp
      cases hstep
      exact h.done hU hinv hlab hp
    · cases hstep
  | discardQueued =>
    cases hstep
    exact h.discardQueued hU hinv.jobs hlab

theorem queuedLen_eq (s : LaneScheduler) : s.queuedLen = s.waiting.length := by
  rw [LaneScheduler.queuedLen, LaneScheduler.waiting, length_flatMap]

open Sample

end WebhookBroker
