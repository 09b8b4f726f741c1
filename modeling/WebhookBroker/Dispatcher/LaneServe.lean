import WebhookBroker.Dispatcher.LaneInvariant

/-!
# Serving, releasing and discarding jobs

`tryNext` scans the ready lanes. By the invariant all of them can run, so the scan keeps the ready
list and finds the first lane whose first job has the highest priority (`tryNext_cases`). `done`
releases the slot of a running job (`done_cases`), and `discardQueued` empties every lane. Each
keeps the invariant of the scheduler.
-/

namespace WebhookBroker

open Lib List Function

/-! ## The scan of the ready lanes -/

/-- The place and the priority of the first of the lanes with the highest priority. -/
def IsBest (priority : LanePtr → Nat) (l : List LanePtr) : Option (Nat × Nat) → Prop
  | none => l = []
  | some (i, best) => (∃ ptr, l[i]? = some ptr ∧ priority ptr = best) ∧
      (∀ q ∈ l, priority q ≤ best) ∧ ∀ j < i, ∀ q, l[j]? = some q → priority q < best

/-- The next lane becomes the best if its priority is higher than all before. -/
theorem IsBest.append {priority : LanePtr → Nat} {l : List LanePtr} {best : Option (Nat × Nat)}
    (h : IsBest priority l best) (ptr : LanePtr) :
    IsBest priority (l ++ [ptr])
      (if best.all fun b => decide (priority ptr > b.2) then some (l.length, priority ptr)
        else best) := by
  cases best with
  | none =>
    obtain rfl : l = [] := h
    refine ⟨⟨ptr, rfl, rfl⟩, fun q hq => ?_, fun j hj => absurd hj (Nat.not_lt_zero j)⟩
    rw [mem_singleton.1 hq]
  | some b =>
    obtain ⟨i, best⟩ := b
    obtain ⟨⟨p, hi, hp⟩, hall, hfirst⟩ := h
    obtain ⟨hlt, -⟩ := List.getElem?_eq_some_iff.1 hi
    simp only [Option.all_some, decide_eq_true_eq]
    split
    · rename_i hbetter
      refine ⟨⟨ptr, List.getElem?_concat_length, rfl⟩, fun q hq => ?_, fun j hj q hq => ?_⟩
      · rcases mem_append.1 hq with hq | hq
        · exact (hall q hq).trans hbetter.le
        · rw [mem_singleton.1 hq]
      · rw [List.getElem?_append_left hj] at hq
        exact (hall q (mem_of_getElem? hq)).trans_lt hbetter
    · rename_i hbetter
      refine ⟨⟨p, (List.getElem?_append_left hlt).trans hi, hp⟩, fun q hq => ?_,
        fun j hj q hq => ?_⟩
      · rcases mem_append.1 hq with hq | hq
        · exact hall q hq
        · rw [mem_singleton.1 hq]
          exact Nat.le_of_not_lt hbetter
      · rw [List.getElem?_append_left (hj.trans hlt)] at hq
        exact hfirst j hj q hq

/-- The lanes after the loop: those of the list that cannot run have lost their flag. -/
def unflag (laneAt : LanePtr → ConsumerLane) (l : List LanePtr) (q : LanePtr) : ConsumerLane :=
  if q ∈ l ∧ (laneAt q).canRun = false then { laneAt q with ready := false } else laneAt q

section
variable (laneAt : LanePtr → ConsumerLane) (l : List LanePtr)
include laneAt l

theorem unflag_cases (q : LanePtr) :
    unflag laneAt l q = laneAt q ∨ unflag laneAt l q = { laneAt q with ready := false } ∧
      (laneAt q).canRun = false := by
  unfold unflag
  split
  · rename_i h
    exact .inr ⟨rfl, h.2⟩
  · exact .inl rfl

@[simp] theorem queue_unflag (q : LanePtr) : (unflag laneAt l q).queue = (laneAt q).queue := by
  rcases unflag_cases laneAt l q with h | ⟨h, -⟩ <;> rw [h]

@[simp] theorem canRun_unflag (q : LanePtr) : (unflag laneAt l q).canRun = (laneAt q).canRun := by
  rcases unflag_cases laneAt l q with h | ⟨h, -⟩ <;> rw [h]
  rfl

theorem unflag_append (ptr : LanePtr) :
    unflag laneAt (l ++ [ptr]) = if (laneAt ptr).canRun = true then unflag laneAt l else
      update (unflag laneAt l) ptr { unflag laneAt l ptr with ready := false } := by
  funext q
  by_cases hq : q = ptr
  · subst hq
    cases hrun : (laneAt q).canRun with
    | true => simp [unflag, hrun]
    | false => by_cases hl : q ∈ l <;> simp [unflag, hrun, hl]
  · split <;> simp [unflag, hq]

end

/-- The loop of `tryNext` keeps the lanes that can run. -/
theorem scan_eq (jobAt : JobPtr → Job) (laneAt : LanePtr → ConsumerLane) (l : List LanePtr) :
    ∃ best, IsBest (fun q => peekPriority jobAt (laneAt q))
        (l.filter fun q => (laneAt q).canRun) best ∧
      l.foldl (ReadyScan.visit jobAt) { runnable := [], best := none, laneAt := laneAt } =
        { runnable := l.filter fun q => (laneAt q).canRun, best := best
          laneAt := unflag laneAt l } := by
  induction l using List.reverseRecOn with
  | nil =>
    refine ⟨none, rfl, ?_⟩
    rw [show unflag laneAt [] = laneAt from funext fun q => if_neg fun h => not_mem_nil h.1]
    rfl
  | append_singleton l ptr ih =>
    obtain ⟨best, hbest, heq⟩ := ih
    rw [foldl_append, heq, foldl_cons, foldl_nil, filter_append, unflag_append]
    cases hrun : (laneAt ptr).canRun with
    | true =>
      simp only [filter_cons, hrun, if_true, filter_nil]
      refine ⟨_, hbest.append ptr, ?_⟩
      simp only [ReadyScan.visit, canRun_unflag, hrun, Bool.not_true, Bool.false_eq_true, if_false,
        length_append, length_singleton, Nat.add_sub_cancel, peekPriority, queue_unflag]
      rfl
    | false =>
      simp only [filter_cons, hrun, Bool.false_eq_true, if_false, filter_nil,
        append_nil]
      refine ⟨best, hbest, ?_⟩
      simp only [ReadyScan.visit, canRun_unflag, hrun, Bool.not_false, if_true]

section
variable {s s' t : LaneScheduler} {out : List JobPtr} {key : String} {ptr : LanePtr} {p : JobPtr}
  {queue : PriorityQueue}

def LaneScheduler.headPriority (s : LaneScheduler) (ptr : LanePtr) : Nat :=
  peekPriority s.jobAt (s.laneAt ptr)

/-- `tryNext` takes a job from a lane, before it marks the lane ready again. -/
structure Serves (s t : LaneScheduler) (ptr : LanePtr) (p : JobPtr) (queue : PriorityQueue) : Prop
    extends LaneWrite s t ptr { s.laneAt ptr with
      queue := queue, ready := false, inflight := (s.laneAt ptr).inflight + 1 } where
  dequeue : (s.laneAt ptr).queue.dequeue s.jobAt = some (p, queue)
  tracked : ∀ held, s.tracked.lookup (s.idOf p) = some held →
    t.tracked = s.tracked.insert (s.idOf p) { held with running := true }
  ready : t.ready = s.ready.erase ptr
  jobAt : t.jobAt = s.jobAt
  seq : t.seq = s.seq

/-- The lane that is served: the first of the ready lanes with the highest priority. -/
structure IsServed (s : LaneScheduler) (ptr : LanePtr) : Prop where
  mem : ptr ∈ s.ready
  best : ∀ q ∈ s.ready, s.headPriority q ≤ s.headPriority ptr
  first : ∃ before after, s.ready = before ++ ptr :: after ∧
    ∀ q ∈ before, s.headPriority q < s.headPriority ptr

variable {lane : ConsumerLane}

theorem exists_dequeue (jobAt : JobPtr → Job) (h : lane.canRun = true) :
    ∃ p queue, lane.queue.dequeue jobAt = some (p, queue) := by
  cases hpop : lane.queue.dequeue jobAt with
  | none => exact absurd ((Heap.pop_eq_none _).1 hpop) (ConsumerLane.canRun_iff.1 h).1
  | some r => exact ⟨r.1, r.2, rfl⟩

theorem isServed_of_isBest {i best : Nat} (h : IsBest s.headPriority s.ready (some (i, best)))
    (hi : s.ready[i]? = some ptr) : IsServed s ptr := by
  obtain ⟨⟨q, hq, rfl⟩, hall, hfirst⟩ := h
  cases hi.symm.trans hq
  obtain ⟨hlt, hget⟩ := List.getElem?_eq_some_iff.1 hi
  refine ⟨mem_of_getElem? hi, hall, s.ready.take i, s.ready.drop (i + 1), ?_, fun q hq => ?_⟩
  · rw [← hget, ← drop_eq_getElem_cons hlt, take_append_drop]
  · obtain ⟨j, hj, rfl⟩ := mem_take_iff_getElem.1 hq
    exact hfirst j (by omega) _ (List.getElem?_eq_getElem _)

def LaneScheduler.scanned (s : LaneScheduler) : LaneScheduler :=
  { s with
    ready := s.ready.filter fun q => (s.laneAt q).canRun
    laneAt := unflag s.laneAt s.ready }

theorem tryNext_scanned (s : LaneScheduler) :
    (s.scanned.ready = [] ∧ s.tryNext = (none, s.scanned)) ∨
    ∃ i best ptr p t, IsBest s.scanned.headPriority s.scanned.ready (some (i, best)) ∧
      s.scanned.ready[i]? = some ptr ∧
      LaneScheduler.dequeueFrom { s.scanned with ready := s.scanned.ready.eraseIdx i } ptr =
        some (p, t) ∧
      s.tryNext = (some p, t.markReadyLocked ptr) := by
  obtain ⟨best, hbest, hscan⟩ := scan_eq s.jobAt s.laneAt s.ready
  simp only [LaneScheduler.tryNext, hscan]
  cases best with
  | none => exact .inl ⟨hbest, rfl⟩
  | some b =>
    obtain ⟨i, best⟩ := b
    have hbest' : IsBest s.scanned.headPriority s.scanned.ready (some (i, best)) := by
      have heq : s.scanned.headPriority = fun q => peekPriority s.jobAt (s.laneAt q) := by
        funext q
        simp only [LaneScheduler.headPriority, LaneScheduler.scanned, peekPriority, queue_unflag]
      rwa [heq]
    obtain ⟨ptr, hi, -⟩ := hbest.1
    have hrun : (s.scanned.laneAt ptr).canRun = true := by
      rw [LaneScheduler.scanned, canRun_unflag]
      exact (mem_filter.1 (mem_of_getElem? hi)).2
    obtain ⟨p, queue, hdeq⟩ := exists_dequeue s.jobAt hrun
    obtain ⟨t, ht⟩ : ∃ t, LaneScheduler.dequeueFrom
        { s.scanned with ready := s.scanned.ready.eraseIdx i } ptr = some (p, t) :=
      ⟨_, Option.map_eq_some_iff.2 ⟨(p, queue), hdeq, rfl⟩⟩
    refine .inr ⟨i, best, ptr, p, t, hbest', hi, ht, ?_⟩
    simp only [LaneScheduler.scanned] at ht
    simp only [Option.bind_some, hi, Option.map_some, ht]

theorem ReadyInv.scanned (h : ReadyInv s) : s.scanned = s := by
  have hrun : ∀ q ∈ s.ready, (s.laneAt q).canRun = true := by
    intro q hq
    obtain ⟨key, hk, hr⟩ := (h.mem q).1 hq
    exact h.sound key q hk hr
  have hlanes : unflag s.laneAt s.ready = s.laneAt := by
    funext q
    refine if_neg fun hq => ?_
    rw [hrun q hq.1] at hq
    cases hq.2
  rw [LaneScheduler.scanned, hlanes, filter_eq_self.2 hrun]

theorem dequeueFrom_serves {ready : List LanePtr}
    (hdeq : LaneScheduler.dequeueFrom { s with ready := ready } ptr = some (p, t))
    (hready : ready = s.ready.erase ptr) : ∃ queue, Serves s t ptr p queue := by
  obtain ⟨⟨p', queue⟩, hpop, heq⟩ := Option.map_eq_some_iff.1 hdeq
  cases heq
  refine ⟨queue, ⟨rfl, rfl, rfl, fun _ => rfl, fun _ => rfl⟩, hpop, fun held hheld => ?_, hready,
    rfl, rfl⟩
  simp only [LaneScheduler.idOf] at hheld
  simp only [LaneScheduler.idOf, hheld]

/-- `tryNext` serves the first of the ready lanes with the highest priority, if there is one. -/
theorem tryNext_cases (h : ReadyInv s) :
    (s.ready = [] ∧ s.tryNext = (none, s)) ∨
    ∃ ptr p queue t, IsServed s ptr ∧ Serves s t ptr p queue ∧
      s.tryNext = (some p, t.markReadyLocked ptr) := by
  have hcases := tryNext_scanned s
  rw [h.scanned] at hcases
  rcases hcases with hidle | ⟨i, best, ptr, p, t, hbest, hi, hdeq, heq⟩
  · exact .inl hidle
  · obtain ⟨hlt, hget⟩ := List.getElem?_eq_some_iff.1 hi
    have herase : s.ready.eraseIdx i = s.ready.erase ptr := by
      rw [← hget, h.nodup.erase_getElem]
    obtain ⟨queue, hserves⟩ := dequeueFrom_serves hdeq herase
    exact .inr ⟨ptr, p, queue, t, isServed_of_isBest hbest hi, hserves, heq⟩

theorem Serves.queue_perm (hs : Serves s t ptr p queue) : (p :: queue).Perm (s.laneAt ptr).queue :=
  Heap.pop_perm hs.dequeue

theorem JobsInv.serve (h : JobsInv s out) (hs : Serves s t ptr p queue)
    (hk : s.lanes.lookup key = some ptr) (hrun : (s.laneAt ptr).canRun = true) :
    JobMove s t out (p :: out) ptr
      { s.laneAt ptr with
        queue := queue, ready := false, inflight := (s.laneAt ptr).inflight + 1 } p := by
  have hlane := (h.lanes _ _ hk).2
  have hperm := hs.queue_perm
  have hnodup := nodup_cons.1 (hperm.nodup_iff.2 hlane.nodup)
  obtain ⟨hkey, hheld⟩ := hlane.queued p (hperm.mem_iff.1 mem_cons_self)
  have hnot : p ∉ out := by
    intro hp
    cases (h.out_held p hp).1.symm.trans hheld
  have hnew : t.tracked.lookup (s.idOf p) = some { job := p, running := true } := by
    rw [hs.tracked _ hheld]
    exact AList.lookup_insert _
  refine ⟨hs.toLaneWrite, hkey.symm ▸ hk, fun held hheld' => ?_, fun held hheld' => ?_,
    fun id hid => ?_, ⟨fun hp => absurd hp hnodup.1, fun hp => ?_⟩,
    ⟨fun _ => hnew, fun _ => mem_cons_self⟩, fun q hq => ?_, hnodup.2, fun q hq => ?_,
    nodup_cons.2 ⟨hnot, h.out_nodup⟩, rfl, ?_, fun hlimit => ?_⟩
  · cases hheld.symm.trans hheld'
    rfl
  · cases hnew.symm.trans hheld'
    rfl
  · rw [hs.tracked _ hheld, AList.lookup_insert_ne hid]
  · cases hnew.symm.trans hp
  · exact ((mem_cons.trans (or_iff_right hq)).symm.trans hperm.mem_iff)
  · exact mem_cons.trans (or_iff_right hq)
  · rw [hkey, countP_cons_of_pos (by rw [hkey]; exact beq_self_eq_true _), ← hlane.inflight]
  · exact (ConsumerLane.canRun_iff.1 hrun).2 hlimit

theorem ReadyInv.unmark (h : ReadyInv s) (hw : LaneWrite s t ptr lane)
    (hready : t.ready = s.ready.erase ptr) (hflag : lane.ready = false) : ReadyInv t := by
  refine ⟨?_, fun q => ?_, fun key q hk hr => ?_⟩
  · rw [hready]
    exact h.nodup.erase ptr
  · rw [hready, h.nodup.mem_erase_iff, hw.lanes, h.mem]
    by_cases hq : q = ptr
    · subst hq
      rw [hw.self, hflag]
      exact ⟨fun hmem => absurd rfl hmem.1, fun ⟨_, _, hr⟩ => absurd hr Bool.false_ne_true⟩
    · rw [hw.of_ne hq]
      exact and_iff_right hq
  · rw [hw.lanes] at hk
    by_cases hq : q = ptr
    · rw [hq, hw.self, hflag] at hr
      cases hr
    · rw [hw.of_ne hq] at hr ⊢
      exact h.sound key q hk hr

theorem SchedInv.tryNext (h : SchedInv s out) :
    SchedInv s.tryNext.2 (s.tryNext.1.toList ++ out) := by
  rcases tryNext_cases h.ready with ⟨-, heq⟩ | ⟨ptr, p, queue, t, hserved, hs, heq⟩
  · rw [heq]
    exact h
  · rw [heq]
    obtain ⟨key, hk, hr⟩ := (h.ready.mem ptr).1 hserved.mem
    have hk' : t.lanes.lookup key = some ptr := by rw [hs.lanes, hk]
    have hm := h.jobs.serve hs hk (h.ready.sound key ptr hk hr)
    exact ⟨(h.jobs.move hm).markReady ptr,
      (h.ready.unmark hm.toLaneWrite hs.ready rfl).markReady hk',
      complete_markReady (h.complete.write hm.toLaneWrite),
      (busy_write (fun key q hq _ => h.busy key q hq) hm.toLaneWrite
        (.inr (Nat.succ_ne_zero _))).markReady ptr⟩

/-! ## Deleting a lane -/

theorem lookup_erase_eq_some {β : Type*} {l : AList fun _ : String => β} {k k' : String} {v : β} :
    (l.erase k).lookup k' = some v ↔ k' ≠ k ∧ l.lookup k' = some v := by
  by_cases hk : k' = k
  · subst hk
    rw [AList.lookup_erase]
    exact ⟨fun h => absurd h.symm (Option.some_ne_none v), fun h => absurd rfl h.1⟩
  · rw [AList.lookup_erase_ne hk]
    exact (and_iff_right hk).symm

theorem JobsInv.eraseLane (h : JobsInv s out) (hk : s.lanes.lookup key = some ptr)
    (hqueue : (s.laneAt ptr).queue = []) (hin : (s.laneAt ptr).inflight = 0) :
    JobsInv { s with lanes := s.lanes.erase key } out := by
  have hlane := (h.lanes _ _ hk).2
  refine ⟨h.share, fun key' q hk' => ?_, fun id held hheld hrunning => ?_, h.running,
    fun p hp => ?_, h.out_nodup⟩
  · obtain ⟨hlt, hlane'⟩ := h.lanes key' q (lookup_erase_eq_some.1 hk').2
    exact ⟨hlt, hlane'.congr (fun _ => rfl) (fun _ => rfl) fun _ _ => rfl⟩
  · obtain ⟨hid, q, hq, hmem⟩ := h.waiting id held hheld hrunning
    refine ⟨hid, q, lookup_erase_eq_some.2 ⟨fun hkey : s.keyOf held.job = key => ?_, hq⟩, hmem⟩
    rw [hkey, hk] at hq
    cases hq
    rw [hqueue] at hmem
    cases hmem
  · obtain ⟨hheld, q, hq⟩ := h.out_held p hp
    refine ⟨hheld, q, lookup_erase_eq_some.2 ⟨fun hkey : s.keyOf p = key => ?_, hq⟩⟩
    have hnone := countP_eq_zero.1 (hlane.inflight.symm.trans hin) p hp
    rw [hkey, beq_self_eq_true] at hnone
    exact hnone rfl

theorem ReadyInv.eraseLane (h : ReadyInv s) (hk : s.lanes.lookup key = some ptr)
    (hready : (s.laneAt ptr).ready = false) :
    ReadyInv { s with lanes := s.lanes.erase key } := by
  have hkeep : ∀ {key' q}, (s.laneAt q).ready = true →
      ((s.lanes.erase key).lookup key' = some q ↔ s.lanes.lookup key' = some q) := by
    intro key' q hr
    refine lookup_erase_eq_some.trans (and_iff_right_of_imp ?_)
    rintro hk' rfl
    cases hk.symm.trans hk'
    rw [hready] at hr
    cases hr
  refine ⟨h.nodup, fun q => (h.mem q).trans ?_, fun key' q hk' hr => ?_⟩
  · exact exists_congr fun key' => and_congr_left fun hr => (hkeep hr).symm
  · exact h.sound key' q ((hkeep hr).1 hk') hr

structure Releases (s t : LaneScheduler) (out : List JobPtr) (ptr : LanePtr) (p : JobPtr) : Prop
    extends JobMove s t out (out.erase p) ptr
      { s.laneAt ptr with inflight := (s.laneAt ptr).inflight - 1 } p where
  ready : t.ready = s.ready
  jobAt : t.jobAt = s.jobAt
  seq : t.seq = s.seq

/-- The first part of `done`. -/
def LaneScheduler.release (s : LaneScheduler) (ptr : LanePtr) (p : JobPtr) : LaneScheduler :=
  { s.setLane ptr { s.laneAt ptr with inflight := (s.laneAt ptr).inflight - 1 } with
    tracked := s.tracked.erase (s.idOf p)
    metrics := { s.metrics with
      consumerInflightJobCount := addGauge s.metrics.consumerInflightJobCount
        (s.laneAt ptr).channelID (s.laneAt ptr).consumerID (-1) } }

theorem JobsInv.release (h : JobsInv s out) (hp : p ∈ out)
    (hk : s.lanes.lookup (s.keyOf p) = some ptr) : Releases s (s.release ptr p) out ptr p := by
  have hlane := (h.lanes _ _ hk).2
  obtain ⟨hheld, -⟩ := h.out_held p hp
  have hnone : ∀ held, (s.tracked.erase (s.idOf p)).lookup (s.idOf p) ≠ some held := by
    intro held hsome
    rw [AList.lookup_erase] at hsome
    cases hsome
  have hnot : p ∉ (s.laneAt ptr).queue := by
    intro hmem
    cases (hlane.queued p hmem).2.symm.trans hheld
  have hcount : ((out.erase p).countP fun q => s.keyOf q == s.keyOf p) =
      (s.laneAt ptr).inflight - 1 := by
    rw [hlane.inflight, (perm_cons_erase hp).countP_eq]
    simp only [countP_cons, beq_self_eq_true, if_true, Nat.add_sub_cancel]
  refine ⟨⟨⟨rfl, rfl, rfl, fun _ => rfl, fun _ => rfl⟩, hk, fun held hheld' => ?_,
    fun held hsome => absurd hsome (hnone held), fun id hid => AList.lookup_erase_ne hid,
    ⟨fun hmem => absurd hmem hnot, fun hsome => absurd hsome (hnone _)⟩,
    ⟨fun hmem => ?_, fun hsome => absurd hsome (hnone _)⟩, fun _ _ => Iff.rfl, hlane.nodup,
    fun q hq => mem_erase_of_ne hq, h.out_nodup.erase p, rfl, hcount.symm, fun hlimit => ?_⟩,
    rfl, rfl, rfl⟩
  · cases hheld.symm.trans hheld'
    rfl
  · exact absurd rfl (h.out_nodup.mem_erase_iff.1 hmem).1
  · exact (Nat.sub_le _ _).trans (hlane.limit hlimit)

/-- The second part of `done` deletes the lane if it has no job left, or marks it ready. -/
def EndsDone (s t : LaneScheduler) (ptr : LanePtr) (p : JobPtr) : Prop :=
  (t.laneAt ptr).queue = [] ∧ (t.laneAt ptr).inflight = 0 ∧ (t.laneAt ptr).ready = false ∧
    s.done p = { t with lanes := t.lanes.erase (s.keyOf p) } ∨
  ((t.laneAt ptr).ready = false → (t.laneAt ptr).queue ≠ [] ∨ (t.laneAt ptr).inflight ≠ 0) ∧
    s.done p = t.markReadyLocked ptr

theorem endsDone_of_eq (hdone : s.done p =
      if ((t.laneAt ptr).queue.length == 0 && (t.laneAt ptr).inflight == 0 &&
          !(t.laneAt ptr).ready) = true then
        { t with lanes := t.lanes.erase (s.keyOf p) }
      else t.markReadyLocked ptr) : EndsDone s t ptr p := by
  rw [EndsDone, hdone]
  split
  · rename_i hempty
    simp only [Bool.and_eq_true, beq_iff_eq, length_eq_zero_iff, Bool.not_eq_true'] at hempty
    exact .inl ⟨hempty.1.1, hempty.1.2, hempty.2, rfl⟩
  · rename_i hempty
    refine .inr ⟨fun hready => ?_, rfl⟩
    simp only [hready, Bool.not_false, Bool.and_true, Bool.and_eq_true, beq_iff_eq,
      length_eq_zero_iff] at hempty
    exact not_and_or.1 hempty

theorem done_of_lookup (hk : s.lanes.lookup (s.keyOf p) = some ptr) :
    ∃ t : LaneScheduler, ((s.laneAt ptr).inflight > 0 → t = s.release ptr p) ∧
      t.lanes = s.lanes ∧ t.ready = s.ready ∧
      t.laneAt = update s.laneAt ptr
        { s.laneAt ptr with inflight := (s.laneAt ptr).inflight - 1 } ∧ EndsDone s t ptr p := by
  by_cases hpos : (s.laneAt ptr).inflight > 0
  · refine ⟨s.release ptr p, fun _ => rfl, rfl, rfl, rfl, endsDone_of_eq ?_⟩
    simp only [LaneScheduler.done, hk, hpos, if_true]
    rfl
  · refine ⟨{ s with tracked := s.tracked.erase (s.idOf p) }, fun h => absurd h hpos, rfl, rfl, ?_,
      endsDone_of_eq ?_⟩
    · rw [show (s.laneAt ptr).inflight - 1 = (s.laneAt ptr).inflight by omega]
      exact (update_eq_self ptr s.laneAt).symm
    · simp only [LaneScheduler.done, hk, hpos, if_false]

theorem done_cases (h : JobsInv s out) (hp : p ∈ out) :
    ∃ ptr t, Releases s t out ptr p ∧ EndsDone s t ptr p := by
  obtain ⟨-, ptr, hk⟩ := h.out_held p hp
  have hpos : (s.laneAt ptr).inflight > 0 := by
    rw [(h.lanes _ _ hk).2.inflight]
    exact countP_pos_iff.2 ⟨p, hp, beq_self_eq_true _⟩
  obtain ⟨t, ht, -, -, -, hends⟩ := done_of_lookup hk
  rw [ht hpos] at hends
  exact ⟨ptr, s.release ptr p, h.release hp hk, hends⟩

theorem Releases.queue_eq (hm : Releases s t out ptr p) (q : LanePtr) :
    (t.laneAt q).queue = (s.laneAt q).queue := by
  by_cases hq : q = ptr
  · rw [hq, hm.self]
  · rw [hm.of_ne hq]

theorem canRun_release (h : lane.canRun = true) :
    ({ lane with inflight := lane.inflight - 1 } : ConsumerLane).canRun = true := by
  rw [ConsumerLane.canRun_iff] at h ⊢
  exact ⟨h.1, fun hlimit => (Nat.sub_le _ _).trans_lt (h.2 hlimit)⟩

theorem SchedInv.done (h : SchedInv s out) (hp : p ∈ out) : SchedInv (s.done p) (out.erase p) := by
  obtain ⟨ptr, t, hm, hcases⟩ := done_cases h.jobs hp
  have hw := hm.toLaneWrite
  have hk : t.lanes.lookup (s.keyOf p) = some ptr := by
    rw [hw.lanes]
    exact hm.lookup
  have hj : JobsInv t (out.erase p) := h.jobs.move hm.toJobMove
  have hr : ReadyInv t := h.ready.write hw hm.ready rfl canRun_release
  rcases hcases with ⟨hqueue, hin, hready, heq⟩ | ⟨hbusy, heq⟩
  · rw [heq]
    have hother : ∀ {key q}, (t.lanes.erase (s.keyOf p)).lookup key = some q →
        s.lanes.lookup key = some q ∧ t.laneAt q = s.laneAt q := by
      intro key q hq
      obtain ⟨hne, hq⟩ := lookup_erase_eq_some.1 hq
      rw [hw.lanes] at hq
      refine ⟨hq, hw.of_ne ?_⟩
      rintro rfl
      exact hne (h.jobs.key_inj hq hm.lookup)
    refine ⟨hj.eraseLane hk hqueue hin, hr.eraseLane hk hready, fun key q hq => ?_,
      fun key q hq => ?_⟩
    · obtain ⟨hq', hlane⟩ := hother hq
      simp only [hlane]
      exact h.complete key q hq'
    · obtain ⟨hq', hlane⟩ := hother hq
      simp only [hlane]
      exact h.busy key q hq'
  · rw [heq]
    refine ⟨hj.markReady ptr, hr.markReady hk, complete_markReady (h.complete.write hw), ?_⟩
    refine (busy_write (fun key q hq _ => h.busy key q hq) hw ?_).markReady ptr
    rw [hw.self] at hbusy
    cases hflag : (s.laneAt ptr).ready with
    | false => exact hbusy hflag
    | true =>
      exact .inl (ConsumerLane.canRun_iff.1 (h.ready.sound _ _ hm.lookup hflag)).1

theorem LaneWrite.trans {u : LaneScheduler} {lane lane' : ConsumerLane} (h : LaneWrite s t ptr lane)
    (h' : LaneWrite t u ptr lane') : LaneWrite s u ptr lane' where
  lanes := h'.lanes.trans h.lanes
  nextLane := h'.nextLane.trans h.nextLane
  laneAt := by rw [h'.laneAt, h.laneAt, update_idem]
  idOf p := (h'.idOf p).trans (h.idOf p)
  keyOf p := (h'.keyOf p).trans (h.keyOf p)

theorem JobsInv.discard (h : JobsInv s out) (hk : s.lanes.lookup key = some ptr)
    (hdeq : (s.laneAt ptr).queue.dequeue s.jobAt = some (p, queue)) :
    JobMove s (s.discardJob ptr p queue) out out ptr { s.laneAt ptr with queue := queue } p := by
  have hlane := (h.lanes _ _ hk).2
  have hperm : (p :: queue).Perm (s.laneAt ptr).queue := Heap.pop_perm hdeq
  have hnodup := nodup_cons.1 (hperm.nodup_iff.2 hlane.nodup)
  obtain ⟨hkey, hheld⟩ := hlane.queued p (hperm.mem_iff.1 mem_cons_self)
  have hnone : ∀ held, (s.tracked.erase (s.idOf p)).lookup (s.idOf p) ≠ some held := by
    intro held
    rw [AList.lookup_erase]
    exact (Option.some_ne_none held).symm
  refine ⟨⟨rfl, rfl, rfl, fun _ => rfl, fun _ => rfl⟩, hkey.symm ▸ hk, fun held hheld' => ?_,
    fun held hsome => absurd hsome (hnone held), fun id hid => AList.lookup_erase_ne hid,
    ⟨fun hp => absurd hp hnodup.1, fun hsome => absurd hsome (hnone _)⟩,
    ⟨fun hp => ?_, fun hsome => absurd hsome (hnone _)⟩, fun q hq => ?_, hnodup.2,
    fun _ _ => Iff.rfl, h.out_nodup, rfl, hkey.symm ▸ hlane.inflight, hlane.limit⟩
  · cases hheld.symm.trans hheld'
    rfl
  · cases (h.out_held p hp).1.symm.trans hheld
  · exact (mem_cons.trans (or_iff_right hq)).symm.trans hperm.mem_iff

theorem discardJobs_spec (n : Nat) {s : LaneScheduler} (h : JobsInv s out)
    (hk : s.lanes.lookup key = some ptr) (hn : (s.laneAt ptr).queue.length = n) :
    JobsInv (LaneScheduler.discardJobs ptr n s) out ∧
    LaneWrite s (LaneScheduler.discardJobs ptr n s) ptr { s.laneAt ptr with queue := [] } := by
  induction n generalizing s with
  | zero =>
    have hnil := length_eq_zero_iff.1 hn
    refine ⟨h, rfl, rfl, ?_, fun _ => rfl, fun _ => rfl⟩
    rw [← hnil]
    exact (update_eq_self ptr s.laneAt).symm
  | succ n ih =>
    rw [LaneScheduler.discardJobs]
    cases hdeq : (s.laneAt ptr).queue.dequeue s.jobAt with
    | none =>
      rw [(Heap.pop_eq_none _).1 hdeq] at hn
      cases hn
    | some r =>
      obtain ⟨p, queue⟩ := r
      have hlen : queue.length = n :=
        Nat.succ.inj ((Heap.pop_perm hdeq : (p :: queue).Perm _).length_eq.trans hn)
      have hm := h.discard hk hdeq
      obtain ⟨hj, hw⟩ := ih (h.move hm) hk (by rw [hm.self]; exact hlen)
      rw [hm.self] at hw
      exact ⟨hj, hm.toLaneWrite.trans hw⟩

theorem discardJobs_seq (n : Nat) (s : LaneScheduler) :
    (LaneScheduler.discardJobs ptr n s).seq = s.seq := by
  induction n generalizing s with
  | zero => rfl
  | succ n ih =>
    rw [LaneScheduler.discardJobs]
    split
    · rfl
    · exact ih _

theorem discardLane_seq (s : LaneScheduler) (key : String) (ptr : LanePtr) :
    (s.discardLane key ptr).seq = s.seq := by
  simp only [LaneScheduler.discardLane]
  split <;> exact discardJobs_seq _ s

theorem discardQueued_seq (s : LaneScheduler) : s.discardQueued.seq = s.seq := by
  have hfold : ∀ (l : List (Sigma fun _ : String => LanePtr)) (s : LaneScheduler),
      (l.foldl (fun s e => s.discardLane e.1 e.2) s).seq = s.seq := by
    intro l
    induction l with
    | nil => intro s; rfl
    | cons e l ih => intro s; exact (ih _).trans (discardLane_seq s e.1 e.2)
  exact hfold _ s

/-- One round of `discardQueued` empties a lane, and deletes it unless a job of it runs. -/
theorem discardLane_spec (h : JobsInv s out) (hk : s.lanes.lookup key = some ptr) :
    JobsInv (s.discardLane key ptr) out ∧
    (s.discardLane key ptr).laneAt =
      update s.laneAt ptr { s.laneAt ptr with queue := [], ready := false } ∧
    ((s.laneAt ptr).inflight = 0 ∧ (s.discardLane key ptr).lanes = s.lanes.erase key ∨
      (s.laneAt ptr).inflight ≠ 0 ∧ (s.discardLane key ptr).lanes = s.lanes) := by
  obtain ⟨hj, hw⟩ := discardJobs_spec _ h hk rfl
  simp only [LaneScheduler.discardLane]
  generalize LaneScheduler.discardJobs ptr (s.laneAt ptr).queue.length s = t at *
  have hj' : JobsInv (t.setLane ptr { t.laneAt ptr with ready := false }) out :=
    hj.setReady ptr false t.ready
  have hlane : (t.setLane ptr { t.laneAt ptr with ready := false }).laneAt =
      update s.laneAt ptr { s.laneAt ptr with queue := [], ready := false } := by
    rw [hw.self]
    simp only [LaneScheduler.setLane, hw.laneAt, update_idem]
  have hlanes : (t.setLane ptr { t.laneAt ptr with ready := false }).lanes = s.lanes := hw.lanes
  generalize t.setLane ptr { t.laneAt ptr with ready := false } = u at *
  have hself : u.laneAt ptr = { s.laneAt ptr with queue := [], ready := false } := by
    rw [hlane, update_self]
  split
  · rename_i hin
    rw [hself, beq_iff_eq] at hin
    refine ⟨hj'.eraseLane (hlanes.symm ▸ hk) ?_ ?_, hlane,
      .inl ⟨hin, congrArg (AList.erase key) hlanes⟩⟩
    · exact congrArg ConsumerLane.queue hself
    · exact (congrArg ConsumerLane.inflight hself).trans hin
  · rename_i hin
    rw [hself, beq_iff_eq] at hin
    exact ⟨hj', hlane, .inr ⟨hin, hlanes⟩⟩

/-- A state of the loop of `discardQueued`: the lanes of `rest` are still to be visited. -/
structure Discarding (s : LaneScheduler) (out : List JobPtr)
    (rest : List (Sigma fun _ : String => LanePtr)) : Prop where
  jobs : JobsInv s out
  nodup : rest.NodupKeys
  todo : ∀ e ∈ rest, s.lanes.lookup e.1 = some e.2
  visited : ∀ key ptr, s.lanes.lookup key = some ptr → ⟨key, ptr⟩ ∈ rest ∨
    (s.laneAt ptr).queue = [] ∧ (s.laneAt ptr).ready = false ∧ (s.laneAt ptr).inflight ≠ 0

theorem Discarding.visit {e : Sigma fun _ : String => LanePtr}
    {rest : List (Sigma fun _ : String => LanePtr)} (h : Discarding s out (e :: rest)) :
    Discarding (s.discardLane e.1 e.2) out rest := by
  have hk := h.todo e mem_cons_self
  obtain ⟨hnotin, hnodup⟩ := nodupKeys_cons.1 h.nodup
  have hkey : ∀ e' ∈ rest, e'.1 ≠ e.1 := fun e' he' heq =>
    hnotin (heq ▸ mem_keys_of_mem he')
  obtain ⟨hj, hlane, hlanes⟩ := discardLane_spec h.jobs hk
  have hsub : ∀ {key q}, (s.discardLane e.1 e.2).lanes.lookup key = some q →
      s.lanes.lookup key = some q ∧ (key = e.1 → (s.laneAt e.2).inflight ≠ 0) := by
    intro key q hq
    rcases hlanes with ⟨-, hl⟩ | ⟨hin, hl⟩
    · rw [hl] at hq
      obtain ⟨hne, hq⟩ := lookup_erase_eq_some.1 hq
      exact ⟨hq, fun heq => absurd heq hne⟩
    · rw [hl] at hq
      exact ⟨hq, fun _ => hin⟩
  refine ⟨hj, hnodup, fun e' he' => ?_, fun key ptr hptr => ?_⟩
  · have hk' := h.todo e' (mem_cons_of_mem _ he')
    rcases hlanes with ⟨-, hl⟩ | ⟨-, hl⟩
    · rw [hl]
      exact lookup_erase_eq_some.2 ⟨hkey e' he', hk'⟩
    · rwa [hl]
  · obtain ⟨hptr', hin⟩ := hsub hptr
    by_cases heq : key = e.1
    · subst heq
      cases hk.symm.trans hptr'
      rw [hlane, update_self]
      exact .inr ⟨rfl, rfl, hin rfl⟩
    · have hne : ptr ≠ e.2 := by
        rintro rfl
        exact heq (h.jobs.key_inj hptr' hk)
      rw [hlane, update_of_ne hne]
      refine (h.visited key ptr hptr').imp_left fun hmem => ?_
      refine (mem_cons.1 hmem).resolve_left fun he => ?_
      exact heq (congrArg Sigma.fst he)

theorem Discarding.run {rest : List (Sigma fun _ : String => LanePtr)} (h : Discarding s out rest) :
    Discarding (rest.foldl (fun s e => s.discardLane e.1 e.2) s) out [] := by
  induction rest generalizing s with
  | nil => exact h
  | cons e rest ih => exact ih h.visit

theorem discardQueued_spec (h : JobsInv s out) :
    JobsInv s.discardQueued out ∧ s.discardQueued.ready = [] ∧
    ∀ key ptr, s.discardQueued.lanes.lookup key = some ptr →
      (s.discardQueued.laneAt ptr).queue = [] ∧ (s.discardQueued.laneAt ptr).ready = false ∧
        (s.discardQueued.laneAt ptr).inflight ≠ 0 := by
  have hd : Discarding s out s.lanes.entries :=
    ⟨h, s.lanes.nodupKeys, fun e he => AList.mem_lookup_iff.2 he,
      fun key ptr hk => .inl (AList.mem_lookup_iff.1 hk)⟩
  obtain ⟨hj, -, -, hvisited⟩ := hd.run
  refine ⟨?_, rfl, fun key ptr hk => (hvisited key ptr hk).resolve_left not_mem_nil⟩
  refine ⟨hj.share, fun key q hk => ?_, hj.waiting, hj.running, hj.out_held, hj.out_nodup⟩
  obtain ⟨hkey, hjobs⟩ := hj.lanes key q hk
  exact ⟨hkey, hjobs.congr (fun _ => rfl) (fun _ => rfl) fun _ _ => rfl⟩

theorem SchedInv.discardQueued (h : SchedInv s out) : SchedInv s.discardQueued out := by
  obtain ⟨hj, hready, hlanes⟩ := discardQueued_spec h.jobs
  refine ⟨hj, ⟨?_, fun ptr => ?_, fun key ptr hk hr => ?_⟩, fun key ptr hk hrun => ?_,
    fun key ptr hk => .inr (hlanes key ptr hk).2.2⟩
  · rw [hready]
    exact nodup_nil
  · rw [hready]
    refine ⟨fun hmem => absurd hmem not_mem_nil, ?_⟩
    rintro ⟨key, hk, hr⟩
    rw [(hlanes key ptr hk).2.1] at hr
    cases hr
  · rw [(hlanes key ptr hk).2.1] at hr
    cases hr
  · exact absurd (hlanes key ptr hk).1 (ConsumerLane.canRun_iff.1 hrun).1

end

end WebhookBroker
