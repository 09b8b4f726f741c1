import WebhookBroker.Dispatcher.LaneRun

/-!
# The job that `tryNext` returns

Every queue is a heap in the order of priority and then of acceptance: an accepted job gets the
next number of the counter `seq`, and a refresh of a waiting copy changes neither its number nor its
priority. With the completeness of the ready list, the job that `tryNext` returns has the highest
priority of all waiting jobs of lanes with room, and is the one of them in its lane that was
accepted first.
-/

namespace WebhookBroker

open Lib List Function

/-! ## The queues are heaps -/

def HeapInv (s : LaneScheduler) : Prop :=
  ∀ key ptr, s.lanes.lookup key = some ptr →
    Heap.IsHeap (jobLess s.jobAt) (s.laneAt ptr).queue (s.laneAt ptr).queue.length

section
variable {s s' t : LaneScheduler} {out : List JobPtr} {a : LaneAction} {key : String}
  {ptr : LanePtr} {p : JobPtr} {queue : PriorityQueue}

theorem jobLess_refresh (jobAt : JobPtr → Job) (q : JobPtr) (data : DeliveryJob) :
    jobLess (update jobAt q { jobAt q with data := data }) = jobLess jobAt := by
  have hjob : ∀ p, (update jobAt q { jobAt q with data := data } p).priority =
        (jobAt p).priority ∧
      (update jobAt q { jobAt q with data := data } p).seq = (jobAt p).seq := by
    intro p
    by_cases hp : p = q
    · rw [hp, update_self]
      exact ⟨rfl, rfl⟩
    · rw [update_of_ne hp]
      exact ⟨rfl, rfl⟩
  funext a b
  simp only [jobLess, Job.less, hjob]

theorem JobsInv.not_mem_queue (h : JobsInv s out) (hp : s.tracked.lookup (s.idOf p) = none)
    (hk : s.lanes.lookup key = some ptr) : p ∉ (s.laneAt ptr).queue := by
  intro hmem
  rw [((h.lanes key ptr hk).2.queued p hmem).2] at hp
  cases hp

theorem isHeap_update {job : Job} (hp : p ∉ queue)
    (h : Heap.IsHeap (jobLess s.jobAt) queue queue.length) :
    Heap.IsHeap (jobLess (update s.jobAt p job)) queue queue.length := by
  refine h.congr fun a ha b hb => ?_
  have hne : ∀ c ∈ queue, c ≠ p := fun c hc heq => hp (heq ▸ hc)
  simp only [jobLess, update_of_ne (hne a ha), update_of_ne (hne b hb)]

theorem LaneStep.heapInv (h : SchedInv s out) (hh : HeapInv s) (hstep : LaneStep s out a s') :
    HeapInv s' := by
  cases hstep with
  | dropped | idle | held => exact hh
  | refreshed =>
    intro key ptr hk
    simp only [LaneScheduler.setJob, jobLess_refresh]
    exact hh key ptr hk
  | @accepted p ptr t _ hp hl =>
    intro key q hk
    rw [markReadyLocked_lanes] at hk
    rw [markReadyLocked_jobAt, markReadyLocked_queue]
    by_cases hq : q = ptr
    · subst hq
      have hold : Heap.IsHeap (jobLess s.jobAt) (t.laneAt q).queue (t.laneAt q).queue.length ∧
          p ∉ (t.laneAt q).queue := by
        rcases hl.old_or_new with ⟨hlane, hk'⟩ | ⟨hnil, -, -⟩
        · rw [hlane]
          exact ⟨hh _ q hk', h.jobs.not_mem_queue hp hk'⟩
        · rw [hnil]
          exact ⟨Heap.isHeap_nil, not_mem_nil⟩
      rw [accept_jobAt, (accept_write t q p).self, LaneScheduler.joined, hl.jobAt]
      exact Heap.push_isHeap (weakOrder_jobLess _) (isHeap_update hold.2 hold.1) p
    · obtain ⟨hk', hlane⟩ := hl.of_ne hk hq
      rw [accept_jobAt, (accept_write t ptr p).of_ne hq, hl.jobAt, hlane]
      exact isHeap_update (h.jobs.not_mem_queue hp hk') (hh key q hk')
  | @served ptr p queue t _ _ hs =>
    intro key q hk
    rw [markReadyLocked_lanes, hs.lanes] at hk
    rw [markReadyLocked_jobAt, markReadyLocked_queue, hs.jobAt]
    by_cases hq : q = ptr
    · subst hq
      rw [hs.self]
      exact (Heap.pop_spec (weakOrder_jobLess _) (hh key q hk) hs.dequeue).2
    · rw [hs.of_ne hq]
      exact hh key q hk
  | @released p ptr t hm =>
    intro key q hk
    rw [markReadyLocked_lanes, hm.lanes] at hk
    rw [markReadyLocked_jobAt, markReadyLocked_queue, hm.jobAt, hm.queue_eq]
    exact hh key q hk
  | @deleted p ptr t hm =>
    intro key q hk
    have hk' := (lookup_erase_eq_some.1 hk).2
    rw [hm.lanes] at hk'
    simp only [hm.jobAt, hm.queue_eq]
    exact hh key q hk'
  | discarded =>
    intro key q hk
    rw [((discardQueued_spec h.jobs).2.2 key q hk).1]
    exact Heap.isHeap_nil

/-! ## The numbers of the waiting jobs -/

/-- A job that waits after a call waited before it with the same number, or the call accepted it
and gave it the next number. -/
theorem LaneStep.waiting_cases (h : SchedInv s out) (hstep : LaneStep s out a s')
    (hp : p ∈ s'.waiting) :
    p ∈ s.waiting ∧ (s'.jobAt p).seq = (s.jobAt p).seq ∨
    a = .enqueue p ∧ (s.enqueue p).1 = true ∧ (s'.jobAt p).seq = s'.seq := by
  obtain ⟨key, q, hk, hmem⟩ := LaneScheduler.mem_waiting.1 hp
  cases hstep with
  | dropped | idle | held => exact .inl ⟨LaneScheduler.mem_waiting.2 ⟨key, q, hk, hmem⟩, rfl⟩
  | @refreshed _ q' =>
    refine .inl ⟨LaneScheduler.mem_waiting.2 ⟨key, q, hk, hmem⟩, ?_⟩
    simp only [LaneScheduler.setJob]
    by_cases hq : p = q'
    · rw [hq, update_self]
    · rw [update_of_ne hq]
  | @accepted p' ptr t haccept hp' hl =>
    rw [markReadyLocked_lanes] at hk
    rw [markReadyLocked_queue] at hmem
    rw [markReadyLocked_jobAt, markReadyLocked_seq]
    simp only [LaneScheduler.accept, LaneScheduler.enqueueIn, LaneScheduler.setLane] at hk hmem ⊢
    by_cases hpp : p = p'
    · subst hpp
      refine .inr ⟨rfl, haccept, ?_⟩
      rw [update_self]
    · rw [update_of_ne hpp, hl.jobAt]
      refine .inl ⟨LaneScheduler.mem_waiting.2 ?_, rfl⟩
      by_cases hq : q = ptr
      · subst hq
        rw [update_self, (PriorityQueue.enqueue_perm ..).mem_iff] at hmem
        have hold := (mem_cons.1 hmem).resolve_left hpp
        rcases hl.old_or_new with ⟨hlane, hk'⟩ | ⟨hnil, -, -⟩
        · exact ⟨_, q, hk', hlane ▸ hold⟩
        · rw [hnil] at hold
          cases hold
      · rw [update_of_ne hq] at hmem
        obtain ⟨hk', hlane⟩ := hl.of_ne hk hq
        exact ⟨key, q, hk', hlane ▸ hmem⟩
  | @served ptr p' queue t _ _ hs =>
    rw [markReadyLocked_lanes, hs.lanes] at hk
    rw [markReadyLocked_queue] at hmem
    rw [markReadyLocked_jobAt, hs.jobAt]
    refine .inl ⟨LaneScheduler.mem_waiting.2 ⟨key, q, hk, ?_⟩, rfl⟩
    by_cases hq : q = ptr
    · subst hq
      rw [hs.self] at hmem
      exact hs.queue_perm.mem_iff.1 (mem_cons_of_mem p' hmem)
    · rwa [hs.of_ne hq] at hmem
  | @released p' ptr t hm =>
    rw [markReadyLocked_lanes, hm.lanes] at hk
    rw [markReadyLocked_queue, hm.queue_eq] at hmem
    rw [markReadyLocked_jobAt, hm.jobAt]
    exact .inl ⟨LaneScheduler.mem_waiting.2 ⟨key, q, hk, hmem⟩, rfl⟩
  | @deleted p' ptr t hm =>
    have hk' := (lookup_erase_eq_some.1 hk).2
    rw [hm.lanes] at hk'
    simp only [hm.queue_eq] at hmem
    refine .inl ⟨LaneScheduler.mem_waiting.2 ⟨key, q, hk', hmem⟩, ?_⟩
    simp only [hm.jobAt]
  | discarded =>
    rw [((discardQueued_spec h.jobs).2.2 key q hk).1] at hmem
    cases hmem

theorem LaneStep.seq_le (hstep : LaneStep s out a s') : s.seq ≤ s'.seq := by
  cases hstep with
  | dropped | refreshed | idle | held => exact le_rfl
  | @accepted p ptr t _ _ hl =>
    rw [markReadyLocked_seq, ← hl.seq]
    exact Nat.le_succ _
  | @served ptr p queue t _ _ hs => rw [markReadyLocked_seq, hs.seq]
  | @released p ptr t hm => rw [markReadyLocked_seq, hm.seq]
  | @deleted p ptr t hm => exact hm.seq.ge
  | discarded => exact (discardQueued_seq s).ge

theorem LaneStep.seq_lt (hstep : LaneStep s out (.enqueue p) s') (h : (s.enqueue p).1 = true) :
    s.seq < s'.seq := by
  cases hstep with
  | dropped hno | refreshed hno =>
    rw [h] at hno
    cases hno
  | @accepted p ptr t _ _ hl =>
    rw [markReadyLocked_seq, ← hl.seq]
    exact Nat.lt_succ_self _

end

/-! ## The order of acceptance in a run -/

section
variable (r : LaneRun)

/-- Step `i` is an `enqueue` that accepts the job. -/
def LaneRun.accepts (i : Nat) (p : JobPtr) : Prop :=
  r.act i = .enqueue p ∧ ((r.state i).sched.enqueue p).1 = true

/-- Step `i` is the last one before `n` that accepts the job. -/
def LaneRun.acceptedAt (n : Nat) (p : JobPtr) (i : Nat) : Prop :=
  i < n ∧ r.accepts i p ∧ ∀ j, i < j → j < n → ¬ r.accepts j p

variable {r}

theorem LaneRun.heapInv {n : Nat} (hn : n ≤ r.len) : HeapInv (r.state n).sched := by
  induction n with
  | zero =>
    obtain ⟨⟨limitFor, jobAt, metrics, hs⟩, -, -⟩ := r.start
    intro key ptr hk
    rw [hs] at hk
    cases hk
  | succ n ih => exact (r.laneStep hn).heapInv (r.schedInv (Nat.le_of_lt hn)) (ih (Nat.le_of_lt hn))

theorem LaneRun.seq_mono {m n : Nat} (hmn : m ≤ n) (hn : n ≤ r.len) :
    (r.state m).sched.seq ≤ (r.state n).sched.seq := by
  induction n, hmn using Nat.le_induction with
  | base => exact le_rfl
  | succ n _ ih => exact (ih (Nat.le_of_lt hn)).trans (r.laneStep hn).seq_le

theorem LaneRun.not_accepts_of_waiting {n : Nat} (hn : n ≤ r.len) {p : JobPtr}
    (hp : p ∈ (r.state n).sched.waiting) : ¬ r.accepts n p := by
  rintro ⟨-, haccept⟩
  have hheld := (r.schedInv hn).jobs.mem_waiting.1 hp
  have hlookup : (r.state n).sched.tracked.lookup ((r.state n).sched.jobAt p).data.id.string =
    some { job := p, running := false } := hheld
  simp only [LaneScheduler.enqueue, hlookup] at haccept
  split at haccept <;> cases haccept

theorem LaneRun.acceptedAt_of_waiting {n : Nat} (hn : n ≤ r.len) {p : JobPtr}
    (hp : p ∈ (r.state n).sched.waiting) :
    ∃ i, r.acceptedAt n p i ∧ ((r.state n).sched.jobAt p).seq = (r.state (i + 1)).sched.seq := by
  induction n with
  | zero =>
    obtain ⟨⟨limitFor, jobAt, metrics, hs⟩, -, -⟩ := r.start
    rw [hs] at hp
    cases hp
  | succ n ih =>
    rcases (r.laneStep hn).waiting_cases (r.schedInv (Nat.le_of_lt hn)) hp with
      ⟨hp', hseq⟩ | ⟨hact, haccept, hseq⟩
    · obtain ⟨i, ⟨hi, haccept, hlast⟩, hseq'⟩ := ih (Nat.le_of_lt hn) hp'
      refine ⟨i, ⟨Nat.lt_succ_of_lt hi, haccept, fun j hij hj => ?_⟩, hseq.trans hseq'⟩
      rcases Nat.lt_succ_iff_lt_or_eq.1 hj with hj | rfl
      · exact hlast j hij hj
      · exact LaneRun.not_accepts_of_waiting (Nat.le_of_lt hn) hp'
    · exact ⟨n, ⟨Nat.lt_succ_self n, ⟨hact, haccept⟩, fun j hij hj => by omega⟩, hseq⟩

theorem LaneRun.lt_of_seq_le {n i k : Nat} {p q : JobPtr} (hn : n ≤ r.len) (hi : r.acceptedAt n p i)
    (hk : r.acceptedAt n q k) (hpq : q ≠ p)
    (hseq : (r.state (i + 1)).sched.seq ≤ (r.state (k + 1)).sched.seq) : i < k := by
  obtain ⟨hin, ⟨hact, haccept⟩, -⟩ := hi
  obtain ⟨hkn, ⟨hact', -⟩, -⟩ := hk
  have hne : i ≠ k := by
    rintro rfl
    rw [hact] at hact'
    cases hact'
    exact hpq rfl
  refine Nat.lt_of_le_of_ne (Nat.not_lt.1 fun hlt => ?_) hne
  have hmono := r.seq_mono (Nat.succ_le_of_lt hlt) (hin.le.trans hn)
  have hstep := r.laneStep (hin.trans_le hn)
  rw [hact] at hstep
  exact absurd (hstep.seq_lt haccept) (Nat.not_lt.2 (hseq.trans hmono))

end

/-! ## The first job of a lane -/

section
variable {s : LaneScheduler} {ptr : LanePtr} {p q : JobPtr} {queue : PriorityQueue}

theorem headPriority_eq (h : (s.laneAt ptr).queue[0]? = some p) :
    s.headPriority ptr = (s.jobAt p).priority := by
  rw [LaneScheduler.headPriority, peekPriority, PriorityQueue.peek, List.head?_eq_getElem?, h]
  rfl

variable {key : String}

theorem le_headPriority (h : HeapInv s) (hk : s.lanes.lookup key = some ptr)
    (hp : p ∈ (s.laneAt ptr).queue) : (s.jobAt p).priority ≤ s.headPriority ptr := by
  have hpos := length_pos_of_mem hp
  have hroot := List.getElem?_eq_getElem hpos
  have hless := (h key ptr hk).root_le (weakOrder_jobLess _) hroot hp
  rw [jobLess, Job.less_eq_false] at hless
  rw [headPriority_eq hroot]
  omega

theorem less_of_dequeue (h : HeapInv s) (hk : s.lanes.lookup key = some ptr)
    (hdeq : (s.laneAt ptr).queue.dequeue s.jobAt = some (p, queue)) :
    s.headPriority ptr = (s.jobAt p).priority ∧ p ∈ (s.laneAt ptr).queue ∧
      ∀ q ∈ (s.laneAt ptr).queue, (s.jobAt q).less (s.jobAt p) = false := by
  have hroot := (Heap.pop_spec (weakOrder_jobLess _) (h key ptr hk) hdeq).1
  exact ⟨headPriority_eq hroot, mem_of_getElem? hroot,
    fun q hq => (h key ptr hk).root_le (weakOrder_jobLess _) hroot hq⟩

/-- A lane with a waiting job that cannot run has its limit of running jobs. -/
theorem JobsInv.full_of_not_canRun {out : List JobPtr} (h : JobsInv s out)
    (hk : s.lanes.lookup key = some ptr) (hqueue : (s.laneAt ptr).queue ≠ [])
    (hrun : (s.laneAt ptr).canRun ≠ true) :
    (s.laneAt ptr).limit ≠ 0 ∧ (out.countP fun p => s.keyOf p == key) = (s.laneAt ptr).limit := by
  have hlane := (h.lanes key ptr hk).2
  rw [ne_eq, ConsumerLane.canRun_iff, not_and, Classical.not_imp] at hrun
  obtain ⟨hlimit, hfull⟩ := hrun hqueue
  refine ⟨hlimit, ?_⟩
  rw [← hlane.inflight]
  exact le_antisymm (hlane.limit hlimit) (Nat.not_lt.1 hfull)

end

/-- Every lane with a waiting job runs its limit of jobs, which is not zero. -/
def LaneState.lanesAreFull (σ : LaneState) : Prop :=
  ∀ key ptr, σ.sched.lanes.lookup key = some ptr → (σ.sched.laneAt ptr).queue ≠ [] →
    (σ.sched.laneAt ptr).limit ≠ 0 ∧
      (σ.out.countP fun p => σ.sched.keyOf p == key) = (σ.sched.laneAt ptr).limit

/-- No waiting job of a lane with room has a higher priority than the job. -/
def LaneScheduler.isHighest (s : LaneScheduler) (p : JobPtr) : Prop :=
  ∀ key ptr, s.lanes.lookup key = some ptr → (s.laneAt ptr).hasRoom = true →
    ∀ q ∈ (s.laneAt ptr).queue, (s.jobAt q).priority ≤ (s.jobAt p).priority

/-- Of the jobs of a lane that wait in state `n` with its priority, the job was accepted first. -/
def LaneRun.isFirstAccepted (r : LaneRun) (n : Nat) (ptr : LanePtr) (p : JobPtr) : Prop :=
  ∃ i, r.acceptedAt n p i ∧
    ∀ q ∈ ((r.state n).sched.laneAt ptr).queue, q ≠ p →
      ((r.state n).sched.jobAt q).priority = ((r.state n).sched.jobAt p).priority →
      ∃ k, r.acceptedAt n q k ∧ i < k

end WebhookBroker
