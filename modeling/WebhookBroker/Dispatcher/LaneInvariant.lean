import WebhookBroker.Lib.Run
import WebhookBroker.Dispatcher.Lanes

/-!
# The invariant of the lane scheduler

`JobsInv` relates the map of tracked jobs, the queues of the lanes and the running jobs; `ReadyInv`
relates the ready list and the flags of the lanes. The operations are cut into the steps that the
proofs need (push, serve, release, discard, `markReadyLocked`), and each step keeps the invariants
by one lemma. `Complete` and `Busy` hold between operations only: inside one, a lane can be able to
run without being ready, or be empty.
-/

namespace WebhookBroker

open Lib List Function

/-- The lane with the key has a waiting job and room. -/
def LaneScheduler.laneCanRun (s : LaneScheduler) (key : String) : Bool :=
  (s.lanes.lookup key).any fun ptr => (s.laneAt ptr).canRun

theorem LaneScheduler.laneCanRun_iff {s : LaneScheduler} {key : String} :
    s.laneCanRun key = true ↔
      ∃ ptr, s.lanes.lookup key = some ptr ∧ (s.laneAt ptr).canRun = true := by
  unfold LaneScheduler.laneCanRun
  cases s.lanes.lookup key <;> simp

/-- The jobs of a lane with the given key; `out` are the jobs that run. -/
structure LaneJobs (s : LaneScheduler) (out : List JobPtr) (key : String) (lane : ConsumerLane) :
    Prop where
  key_eq : lane.key = key
  queued : ∀ p ∈ lane.queue,
    s.keyOf p = key ∧ s.tracked.lookup (s.idOf p) = some { job := p, running := false }
  nodup : lane.queue.Nodup
  inflight : lane.inflight = out.countP fun p => s.keyOf p == key
  limit : lane.limit ≠ 0 → lane.inflight ≤ lane.limit

/-- The tracked jobs are the waiting and the running ones. -/
structure JobsInv (s : LaneScheduler) (out : List JobPtr) : Prop where
  /-- all copies of one job share one lane -/
  share : ∀ p q, s.idOf p = s.idOf q → s.keyOf p = s.keyOf q
  lanes : ∀ key ptr, s.lanes.lookup key = some ptr →
    ptr < s.nextLane ∧ LaneJobs s out key (s.laneAt ptr)
  waiting : ∀ id held, s.tracked.lookup id = some held → held.running = false →
    s.idOf held.job = id ∧
      ∃ ptr, s.lanes.lookup (s.keyOf held.job) = some ptr ∧ held.job ∈ (s.laneAt ptr).queue
  running : ∀ id held, s.tracked.lookup id = some held → held.running = true →
    s.idOf held.job = id ∧ held.job ∈ out
  out_held : ∀ p ∈ out, s.tracked.lookup (s.idOf p) = some { job := p, running := true } ∧
    ∃ ptr, s.lanes.lookup (s.keyOf p) = some ptr
  out_nodup : out.Nodup

/-- The ready list holds the lanes that are marked ready, which can run. -/
structure ReadyInv (s : LaneScheduler) : Prop where
  nodup : s.ready.Nodup
  mem : ∀ ptr, ptr ∈ s.ready ↔
    ∃ key, s.lanes.lookup key = some ptr ∧ (s.laneAt ptr).ready = true
  sound : ∀ key ptr, s.lanes.lookup key = some ptr → (s.laneAt ptr).ready = true →
    (s.laneAt ptr).canRun = true

def Complete (s : LaneScheduler) : Prop :=
  ∀ key ptr, s.lanes.lookup key = some ptr → (s.laneAt ptr).canRun = true →
    (s.laneAt ptr).ready = true

def Busy (s : LaneScheduler) : Prop :=
  ∀ key ptr, s.lanes.lookup key = some ptr →
    (s.laneAt ptr).queue ≠ [] ∨ (s.laneAt ptr).inflight ≠ 0

section
variable {s s' : LaneScheduler} {out : List JobPtr} {key : String} {ptr : LanePtr} {p : JobPtr}
variable {key' : String}

theorem JobsInv.key_inj (h : JobsInv s out) (hk : s.lanes.lookup key = some ptr)
    (hk' : s.lanes.lookup key' = some ptr) : key = key' :=
  (h.lanes _ _ hk).2.key_eq.symm.trans (h.lanes _ _ hk').2.key_eq

theorem JobsInv.idOf_held (h : JobsInv s out) {id : String} {held : HeldJob}
    (hheld : s.tracked.lookup id = some held) : s.idOf held.job = id := by
  cases hrunning : held.running with
  | false => exact (h.waiting id held hheld hrunning).1
  | true => exact (h.running id held hheld hrunning).1

variable {lane : ConsumerLane}

theorem LaneJobs.congr (h : LaneJobs s out key lane) (hkey : ∀ p, s'.keyOf p = s.keyOf p)
    (hid : ∀ p, s'.idOf p = s.idOf p)
    (htracked : ∀ p ∈ lane.queue, s'.tracked.lookup (s.idOf p) = s.tracked.lookup (s.idOf p)) :
    LaneJobs s' out key lane where
  key_eq := h.key_eq
  queued p hp := by
    rw [hkey, hid, htracked p hp]
    exact h.queued p hp
  nodup := h.nodup
  inflight := by
    simp only [hkey]
    exact h.inflight
  limit := h.limit

/-! ## Marking a lane ready -/

theorem markReadyLocked_cases (s : LaneScheduler) (ptr : LanePtr) :
    ((s.laneAt ptr).ready = false ∧ (s.laneAt ptr).canRun = true ∧
      s.markReadyLocked ptr = { s.setLane ptr { s.laneAt ptr with ready := true } with
        ready := s.ready ++ [ptr] }) ∨
    (((s.laneAt ptr).canRun = true → (s.laneAt ptr).ready = true) ∧ s.markReadyLocked ptr = s) := by
  simp only [LaneScheduler.markReadyLocked]
  split
  · rename_i h
    simp only [Bool.and_eq_true, Bool.not_eq_true'] at h
    exact .inl ⟨h.1, h.2, rfl⟩
  · rename_i h
    refine .inr ⟨fun hc => ?_, rfl⟩
    cases hr : (s.laneAt ptr).ready with
    | true => rfl
    | false => simp [hr, hc] at h

section
variable (s : LaneScheduler) (ptr : LanePtr)

@[simp] theorem markReadyLocked_lanes : (s.markReadyLocked ptr).lanes = s.lanes := by
  rcases markReadyLocked_cases s ptr with ⟨-, -, heq⟩ | ⟨-, heq⟩ <;> rw [heq]
  rfl

@[simp] theorem markReadyLocked_jobAt : (s.markReadyLocked ptr).jobAt = s.jobAt := by
  rcases markReadyLocked_cases s ptr with ⟨-, -, heq⟩ | ⟨-, heq⟩ <;> rw [heq]
  rfl

@[simp] theorem markReadyLocked_seq : (s.markReadyLocked ptr).seq = s.seq := by
  rcases markReadyLocked_cases s ptr with ⟨-, -, heq⟩ | ⟨-, heq⟩ <;> rw [heq]
  rfl

@[simp] theorem markReadyLocked_queue (q : LanePtr) :
    ((s.markReadyLocked ptr).laneAt q).queue = (s.laneAt q).queue := by
  rcases markReadyLocked_cases s ptr with ⟨-, -, heq⟩ | ⟨-, heq⟩
  · rw [heq]
    simp only [LaneScheduler.setLane]
    by_cases hq : q = ptr
    · rw [hq, update_self]
    · rw [update_of_ne hq]
  · rw [heq]

end

theorem JobsInv.setReady (h : JobsInv s out) (ptr : LanePtr) (b : Bool) (ready : List LanePtr) :
    JobsInv { s.setLane ptr { s.laneAt ptr with ready := b } with ready := ready } out := by
  have hqueue : ∀ q, (update s.laneAt ptr { s.laneAt ptr with ready := b } q).queue =
      (s.laneAt q).queue := by
    intro q
    by_cases hq : q = ptr
    · subst hq
      rw [update_self]
    · rw [update_of_ne hq]
  refine ⟨h.share, fun key q hk => ⟨(h.lanes key q hk).1, ?_⟩, ?_, h.running, h.out_held,
    h.out_nodup⟩
  · refine LaneJobs.congr (s := s) ?_ (fun _ => rfl) (fun _ => rfl) fun _ _ => rfl
    have hlane := (h.lanes key q hk).2
    by_cases hq : q = ptr
    · subst hq
      simp only [LaneScheduler.setLane, update_self]
      exact ⟨hlane.key_eq, hlane.queued, hlane.nodup, hlane.inflight, hlane.limit⟩
    · simp only [LaneScheduler.setLane, update_of_ne hq]
      exact hlane
  · intro id held hheld hrunning
    obtain ⟨hid, q, hq, hmem⟩ := h.waiting id held hheld hrunning
    exact ⟨hid, q, hq, by rwa [← hqueue q] at hmem⟩

theorem JobsInv.markReady (h : JobsInv s out) (ptr : LanePtr) :
    JobsInv (s.markReadyLocked ptr) out := by
  rcases markReadyLocked_cases s ptr with ⟨-, -, heq⟩ | ⟨-, heq⟩
  · rw [heq]
    exact h.setReady ptr true _
  · rwa [heq]

theorem ReadyInv.markReady (h : ReadyInv s) (hk : s.lanes.lookup key = some ptr) :
    ReadyInv (s.markReadyLocked ptr) := by
  rcases markReadyLocked_cases s ptr with ⟨hready, hrun, heq⟩ | ⟨-, heq⟩
  · rw [heq]
    have hnot : ptr ∉ s.ready := by
      rw [h.mem]
      rintro ⟨_, -, hr⟩
      rw [hready] at hr
      cases hr
    refine ⟨?_, fun q => ?_, fun key' q hk' hr => ?_⟩
    · exact h.nodup.append (nodup_singleton ptr) (disjoint_singleton.2 hnot)
    · simp only [LaneScheduler.setLane, mem_append, mem_singleton]
      by_cases hq : q = ptr
      · subst hq
        rw [update_self]
        exact ⟨fun _ => ⟨key, hk, rfl⟩, fun _ => .inr rfl⟩
      · rw [update_of_ne hq, h.mem]
        exact ⟨fun hor => hor.resolve_right hq, .inl⟩
    · simp only [LaneScheduler.setLane] at hr ⊢
      by_cases hq : q = ptr
      · subst hq
        rw [update_self]
        exact hrun
      · rw [update_of_ne hq] at hr ⊢
        exact h.sound key' q hk' hr
  · rwa [heq]

theorem complete_markReady (h : ∀ key' q, s.lanes.lookup key' = some q → q ≠ ptr →
    (s.laneAt q).canRun = true → (s.laneAt q).ready = true) : Complete (s.markReadyLocked ptr) := by
  rcases markReadyLocked_cases s ptr with ⟨-, -, heq⟩ | ⟨hready, heq⟩
  · rw [heq]
    intro key' q hk' hrun
    simp only [LaneScheduler.setLane] at hrun ⊢
    by_cases hq : q = ptr
    · subst hq
      rw [update_self]
    · rw [update_of_ne hq] at hrun ⊢
      exact h key' q hk' hq hrun
  · rw [heq]
    intro key' q hk' hrun
    by_cases hq : q = ptr
    · subst hq
      exact hready hrun
    · exact h key' q hk' hq hrun

theorem Busy.markReady (h : Busy s) (ptr : LanePtr) : Busy (s.markReadyLocked ptr) := by
  rcases markReadyLocked_cases s ptr with ⟨-, -, heq⟩ | ⟨-, heq⟩
  · rw [heq]
    intro key' q hk'
    simp only [LaneScheduler.setLane]
    by_cases hq : q = ptr
    · subst hq
      rw [update_self]
      exact h key' q hk'
    · rw [update_of_ne hq]
      exact h key' q hk'
  · rwa [heq]

/-! ## Steps on one lane -/

/-- `s'` is `s` with another content of one lane, apart from the tracked jobs, the ready list and
the data that neither decides a lane nor an id. -/
structure LaneWrite (s s' : LaneScheduler) (ptr : LanePtr) (lane : ConsumerLane) : Prop where
  lanes : s'.lanes = s.lanes
  nextLane : s'.nextLane = s.nextLane
  laneAt : s'.laneAt = update s.laneAt ptr lane
  idOf : ∀ p, s'.idOf p = s.idOf p
  keyOf : ∀ p, s'.keyOf p = s.keyOf p

theorem LaneWrite.self (hw : LaneWrite s s' ptr lane) : s'.laneAt ptr = lane := by
  rw [hw.laneAt, update_self]

variable {q : LanePtr}

theorem LaneWrite.of_ne (hw : LaneWrite s s' ptr lane) (hq : q ≠ ptr) :
    s'.laneAt q = s.laneAt q := by
  rw [hw.laneAt, update_of_ne hq]

/-- One job of a lane changes between untracked, waiting and running, and nothing else does. -/
structure JobMove (s s' : LaneScheduler) (out out' : List JobPtr) (ptr : LanePtr)
    (lane : ConsumerLane) (p : JobPtr) : Prop extends LaneWrite s s' ptr lane where
  lookup : s.lanes.lookup (s.keyOf p) = some ptr
  before : ∀ held, s.tracked.lookup (s.idOf p) = some held → held.job = p
  after : ∀ held, s'.tracked.lookup (s.idOf p) = some held → held.job = p
  tracked : ∀ id, id ≠ s.idOf p → s'.tracked.lookup id = s.tracked.lookup id
  waiting : p ∈ lane.queue ↔ s'.tracked.lookup (s.idOf p) = some { job := p, running := false }
  running : p ∈ out' ↔ s'.tracked.lookup (s.idOf p) = some { job := p, running := true }
  queue : ∀ q, q ≠ p → (q ∈ lane.queue ↔ q ∈ (s.laneAt ptr).queue)
  queue_nodup : lane.queue.Nodup
  out : ∀ q, q ≠ p → (q ∈ out' ↔ q ∈ out)
  out_nodup : out'.Nodup
  key_eq : lane.key = (s.laneAt ptr).key
  inflight : lane.inflight = out'.countP fun q => s.keyOf q == s.keyOf p
  limit : lane.limit ≠ 0 → lane.inflight ≤ lane.limit

variable {out' : List JobPtr} {lane : ConsumerLane}

theorem JobMove.lookup_eq (hm : JobMove s s' out out' ptr lane p) {q : JobPtr} {held : HeldJob}
    (hheld : s.tracked.lookup (s.idOf q) = some held) (hq : held.job = q) (hne : q ≠ p) :
    s'.tracked.lookup (s.idOf q) = some held := by
  rw [hm.tracked _ fun hid => ?_, hheld]
  rw [hid] at hheld
  exact hne (hq.symm.trans (hm.before held hheld))

theorem JobMove.countP_eq (hm : JobMove s s' out out' ptr lane p) (hnodup : out.Nodup)
    {key : String} (hkey : s.keyOf p ≠ key) :
    (out'.countP fun q => s.keyOf q == key) = out.countP fun q => s.keyOf q == key := by
  rw [countP_eq_length_filter, countP_eq_length_filter]
  refine ((perm_ext_iff_of_nodup (hm.out_nodup.filter _) (hnodup.filter _)).2 ?_).length_eq
  intro q
  rw [mem_filter, mem_filter, beq_iff_eq]
  refine and_congr_left fun hq => hm.out q ?_
  rintro rfl
  exact hkey hq

theorem JobsInv.move (h : JobsInv s out) (hm : JobMove s s' out out' ptr lane p) :
    JobsInv s' out' := by
  have hlane := (h.lanes _ _ hm.lookup).2
  refine ⟨?_, ?_, ?_, ?_, ?_, hm.out_nodup⟩
  · intro a b hab
    rw [hm.idOf, hm.idOf] at hab
    rw [hm.keyOf, hm.keyOf]
    exact h.share a b hab
  · intro key q hq
    rw [hm.lanes] at hq
    rw [hm.nextLane]
    refine ⟨(h.lanes _ _ hq).1, ?_⟩
    by_cases hqp : q = ptr
    · subst hqp
      obtain rfl := h.key_inj hm.lookup hq
      rw [hm.self]
      refine ⟨hm.key_eq.trans hlane.key_eq, fun a ha => ?_, hm.queue_nodup, ?_, hm.limit⟩
      · rw [hm.keyOf, hm.idOf]
        by_cases hap : a = p
        · subst hap
          exact ⟨rfl, hm.waiting.1 ha⟩
        · obtain ⟨hkey, hheld⟩ := hlane.queued a ((hm.queue a hap).1 ha)
          exact ⟨hkey, hm.lookup_eq hheld rfl hap⟩
      · simp only [hm.keyOf]
        exact hm.inflight
    · have hother := (h.lanes _ _ hq).2
      have hkey : s.keyOf p ≠ key := by
        rintro rfl
        exact hqp (Option.some.inj (hq.symm.trans hm.lookup))
      rw [hm.of_ne hqp]
      refine ⟨hother.key_eq, fun a ha => ?_, hother.nodup, ?_, hother.limit⟩
      · obtain ⟨hkey', hheld⟩ := hother.queued a ha
        rw [hm.keyOf, hm.idOf]
        refine ⟨hkey', hm.lookup_eq hheld rfl ?_⟩
        rintro rfl
        exact hkey hkey'
      · simp only [hm.keyOf, hm.countP_eq h.out_nodup hkey]
        exact hother.inflight
  · intro id held hheld hrunning
    rw [hm.idOf, hm.keyOf, hm.lanes]
    by_cases hid : id = s.idOf p
    · subst hid
      obtain ⟨job, running⟩ := held
      cases hrunning
      obtain rfl : job = p := hm.after _ hheld
      exact ⟨rfl, ptr, hm.lookup, by rw [hm.self]; exact hm.waiting.2 hheld⟩
    · rw [hm.tracked id hid] at hheld
      obtain ⟨hid', q, hq, hmem⟩ := h.waiting id held hheld hrunning
      have hne : held.job ≠ p := fun hp => hid (hid'.symm.trans (congrArg _ hp))
      refine ⟨hid', q, hq, ?_⟩
      by_cases hqp : q = ptr
      · subst hqp
        rw [hm.self]
        exact (hm.queue _ hne).2 hmem
      · rwa [hm.of_ne hqp]
  · intro id held hheld hrunning
    rw [hm.idOf]
    by_cases hid : id = s.idOf p
    · subst hid
      obtain ⟨job, running⟩ := held
      cases hrunning
      obtain rfl : job = p := hm.after _ hheld
      exact ⟨rfl, hm.running.2 hheld⟩
    · rw [hm.tracked id hid] at hheld
      obtain ⟨hid', hmem⟩ := h.running id held hheld hrunning
      have hne : held.job ≠ p := fun hp => hid (hid'.symm.trans (congrArg _ hp))
      exact ⟨hid', (hm.out _ hne).2 hmem⟩
  · intro a ha
    rw [hm.idOf, hm.keyOf, hm.lanes]
    by_cases hap : a = p
    · subst hap
      exact ⟨hm.running.1 ha, ptr, hm.lookup⟩
    · obtain ⟨hheld, hlookup⟩ := h.out_held a ((hm.out a hap).1 ha)
      exact ⟨hm.lookup_eq hheld rfl hap, hlookup⟩

/-- A lane that keeps its flag and can still run if it could keeps the ready list right. -/
theorem ReadyInv.write (h : ReadyInv s) (hw : LaneWrite s s' ptr lane) (hready : s'.ready = s.ready)
    (hflag : lane.ready = (s.laneAt ptr).ready)
    (hrun : (s.laneAt ptr).canRun = true → lane.canRun = true) : ReadyInv s' := by
  have hflags : ∀ q, (s'.laneAt q).ready = (s.laneAt q).ready := by
    intro q
    by_cases hq : q = ptr
    · rw [hq, hw.self, hflag]
    · rw [hw.of_ne hq]
  refine ⟨hready ▸ h.nodup, fun q => ?_, fun key q hk hr => ?_⟩
  · rw [hready, hw.lanes, hflags, h.mem]
  · rw [hw.lanes] at hk
    rw [hflags] at hr
    have hsound := h.sound key q hk hr
    by_cases hq : q = ptr
    · subst hq
      rw [hw.self]
      exact hrun hsound
    · rwa [hw.of_ne hq]

theorem Complete.write (h : Complete s) (hw : LaneWrite s s' ptr lane) :
    ∀ key q, s'.lanes.lookup key = some q → q ≠ ptr → (s'.laneAt q).canRun = true →
      (s'.laneAt q).ready = true := by
  intro key q hk hq
  rw [hw.lanes] at hk
  rw [hw.of_ne hq]
  exact h key q hk

theorem busy_write (h : ∀ key q, s.lanes.lookup key = some q → q ≠ ptr →
      (s.laneAt q).queue ≠ [] ∨ (s.laneAt q).inflight ≠ 0)
    (hw : LaneWrite s s' ptr lane) (hlane : lane.queue ≠ [] ∨ lane.inflight ≠ 0) : Busy s' := by
  intro key q hk
  rw [hw.lanes] at hk
  by_cases hq : q = ptr
  · rwa [hq, hw.self]
  · rw [hw.of_ne hq]
    exact h key q hk hq

structure SchedInv (s : LaneScheduler) (out : List JobPtr) : Prop where
  jobs : JobsInv s out
  ready : ReadyInv s
  complete : Complete s
  busy : Busy s

def LaneScheduler.newLane (s : LaneScheduler) (channelID consumerID key : String) :
    ConsumerLane where
  key := key
  channelID := channelID
  consumerID := consumerID
  queue := []
  inflight := 0
  limit := s.limitFor channelID consumerID
  ready := false

theorem laneFor_cases (s : LaneScheduler) (channelID consumerID key : String) :
    (∃ ptr, s.lanes.lookup key = some ptr ∧ s.laneFor channelID consumerID key = (ptr, s)) ∨
    (s.lanes.lookup key = none ∧ s.laneFor channelID consumerID key =
      (s.nextLane, { s.setLane s.nextLane (s.newLane channelID consumerID key) with
        lanes := s.lanes.insert key s.nextLane, nextLane := s.nextLane + 1 })) := by
  unfold LaneScheduler.laneFor
  cases hlookup : s.lanes.lookup key with
  | some ptr => exact .inl ⟨ptr, rfl, rfl⟩
  | none => exact .inr ⟨rfl, rfl⟩

/-- What `laneFor` leaves of the invariant: its lane may have no job yet. -/
theorem SchedInv.laneFor (h : SchedInv s out) (channelID consumerID key : String) :
    (s.laneFor channelID consumerID key).2.lanes.lookup key =
      some (s.laneFor channelID consumerID key).1 ∧
    JobsInv (s.laneFor channelID consumerID key).2 out ∧
    ReadyInv (s.laneFor channelID consumerID key).2 ∧
    Complete (s.laneFor channelID consumerID key).2 ∧
    ∀ key' q, (s.laneFor channelID consumerID key).2.lanes.lookup key' = some q →
      q ≠ (s.laneFor channelID consumerID key).1 →
      ((s.laneFor channelID consumerID key).2.laneAt q).queue ≠ [] ∨
        ((s.laneFor channelID consumerID key).2.laneAt q).inflight ≠ 0 := by
  rcases laneFor_cases s channelID consumerID key with ⟨ptr, hk, heq⟩ | ⟨hk, heq⟩
  · rw [heq]
    exact ⟨hk, h.jobs, h.ready, h.complete, fun key' q hk' _ => h.busy key' q hk'⟩
  · rw [heq]
    have hfresh : ∀ {key' q}, s.lanes.lookup key' = some q → q ≠ s.nextLane := fun hk' =>
      Nat.ne_of_lt (h.jobs.lanes _ _ hk').1
    have hkeep : ∀ {key' q}, s.lanes.lookup key' = some q →
        (s.lanes.insert key s.nextLane).lookup key' = some q := by
      intro key' q hk'
      rwa [AList.lookup_insert_ne]
      rintro rfl
      rw [hk] at hk'
      cases hk'
    have hcases : ∀ {key' q}, (s.lanes.insert key s.nextLane).lookup key' = some q →
        (key' = key ∧ q = s.nextLane) ∨ (s.lanes.lookup key' = some q ∧ q ≠ s.nextLane) := by
      intro key' q hk'
      by_cases hkey : key' = key
      · subst hkey
        rw [AList.lookup_insert] at hk'
        exact .inl ⟨rfl, (Option.some.inj hk').symm⟩
      · rw [AList.lookup_insert_ne hkey] at hk'
        exact .inr ⟨hk', hfresh hk'⟩
    refine ⟨AList.lookup_insert _, ?_, ?_, ?_, ?_⟩
    · refine ⟨h.jobs.share, fun key' q hk' => ?_, fun id held hheld hrunning => ?_, h.jobs.running,
        fun p hp => ?_, h.jobs.out_nodup⟩
      · rcases hcases hk' with ⟨rfl, rfl⟩ | ⟨hk', hq⟩
        · have hnone : (out.countP fun p => s.keyOf p == key') = 0 := by
            refine countP_eq_zero.2 fun p hp hkey => ?_
            obtain ⟨-, q, hq⟩ := h.jobs.out_held p hp
            rw [beq_iff_eq.1 hkey, hk] at hq
            cases hq
          simp only [LaneScheduler.setLane, update_self]
          exact ⟨Nat.lt_succ_self _, rfl, fun p hp => (not_mem_nil hp).elim, nodup_nil,
            hnone.symm, fun _ => Nat.zero_le _⟩
        · simp only [LaneScheduler.setLane, update_of_ne hq]
          obtain ⟨hlt, hlane⟩ := h.jobs.lanes key' q hk'
          exact ⟨Nat.lt_succ_of_lt hlt, hlane.congr (fun _ => rfl) (fun _ => rfl) fun _ _ => rfl⟩
      · obtain ⟨hid, q, hq, hmem⟩ := h.jobs.waiting id held hheld hrunning
        refine ⟨hid, q, hkeep hq, ?_⟩
        simp only [LaneScheduler.setLane, update_of_ne (hfresh hq)]
        exact hmem
      · obtain ⟨hheld, q, hq⟩ := h.jobs.out_held p hp
        exact ⟨hheld, q, hkeep hq⟩
    · refine ⟨h.ready.nodup, fun q => ?_, fun key' q hk' hr => ?_⟩
      · refine (h.ready.mem q).trans ⟨?_, ?_⟩
        · rintro ⟨key', hk', hr⟩
          refine ⟨key', hkeep hk', ?_⟩
          simp only [LaneScheduler.setLane, update_of_ne (hfresh hk')]
          exact hr
        · rintro ⟨key', hk', hr⟩
          rcases hcases hk' with ⟨rfl, rfl⟩ | ⟨hk', hq⟩
          · simp only [LaneScheduler.setLane, update_self] at hr
            cases hr
          · simp only [LaneScheduler.setLane, update_of_ne hq] at hr
            exact ⟨key', hk', hr⟩
      · rcases hcases hk' with ⟨rfl, rfl⟩ | ⟨hk', hq⟩
        · simp only [LaneScheduler.setLane, update_self] at hr
          cases hr
        · simp only [LaneScheduler.setLane, update_of_ne hq] at hr ⊢
          exact h.ready.sound key' q hk' hr
    · intro key' q hk' hrun
      rcases hcases hk' with ⟨rfl, rfl⟩ | ⟨hk', hq⟩
      · simp only [LaneScheduler.setLane, update_self] at hrun
        cases hrun
      · simp only [LaneScheduler.setLane, update_of_ne hq] at hrun ⊢
        exact h.complete key' q hk' hrun
    · intro key' q hk' hq
      rcases hcases hk' with ⟨rfl, rfl⟩ | ⟨hk', -⟩
      · exact absurd rfl hq
      · simp only [LaneScheduler.setLane, update_of_ne hq]
        exact h.busy key' q hk'

theorem SchedInv.setJob (h : SchedInv s out) {q : JobPtr} (hid : s.idOf p = s.idOf q) :
    SchedInv (s.setJob q { s.jobAt q with data := (s.jobAt p).data }) out := by
  have hids : ∀ a, (s.setJob q { s.jobAt q with data := (s.jobAt p).data }).idOf a = s.idOf a := by
    intro a
    by_cases ha : a = q
    · subst ha
      simp only [LaneScheduler.idOf, LaneScheduler.setJob, update_self]
      exact hid
    · simp only [LaneScheduler.idOf, LaneScheduler.setJob, update_of_ne ha]
  have hkeys : ∀ a, (s.setJob q { s.jobAt q with data := (s.jobAt p).data }).keyOf a =
      s.keyOf a := by
    intro a
    by_cases ha : a = q
    · subst ha
      simp only [LaneScheduler.keyOf, LaneScheduler.setJob, update_self]
      exact h.jobs.share p a hid
    · simp only [LaneScheduler.keyOf, LaneScheduler.setJob, update_of_ne ha]
  generalize { s.jobAt q with data := (s.jobAt p).data } = job at *
  refine ⟨⟨?_, ?_, ?_, ?_, ?_, h.jobs.out_nodup⟩, ⟨h.ready.nodup, h.ready.mem, h.ready.sound⟩,
    h.complete, h.busy⟩
  · intro a b hab
    rw [hids, hids] at hab
    rw [hkeys, hkeys]
    exact h.jobs.share a b hab
  · intro key ptr hk
    obtain ⟨hlt, hlane⟩ := h.jobs.lanes key ptr hk
    exact ⟨hlt, hlane.congr hkeys hids fun _ _ => rfl⟩
  · intro id held
    rw [hids, hkeys]
    exact h.jobs.waiting id held
  · intro id held
    rw [hids]
    exact h.jobs.running id held
  · intro a ha
    rw [hids, hkeys]
    exact h.jobs.out_held a ha

/-- `t` is `s` with a lane for the key, which was there or is new. -/
structure HasLane (s t : LaneScheduler) (key : String) (ptr : LanePtr) : Prop where
  jobAt : t.jobAt = s.jobAt
  tracked : t.tracked = s.tracked
  ready : t.ready = s.ready
  seq : t.seq = s.seq
  lookup : t.lanes.lookup key = some ptr
  lookup_ne : ∀ key', key' ≠ key → t.lanes.lookup key' = s.lanes.lookup key'
  laneAt : ∀ q, q ≠ ptr → t.laneAt q = s.laneAt q
  old_or_new : t.laneAt ptr = s.laneAt ptr ∧ s.lanes.lookup key = some ptr ∨
    (t.laneAt ptr).queue = [] ∧ (t.laneAt ptr).ready = false ∧ s.lanes.lookup key = none

theorem laneFor_hasLane (s : LaneScheduler) (channelID consumerID key : String) :
    HasLane s (s.laneFor channelID consumerID key).2 key
      (s.laneFor channelID consumerID key).1 := by
  rcases laneFor_cases s channelID consumerID key with ⟨ptr, hk, heq⟩ | ⟨hk, heq⟩
  · rw [heq]
    exact ⟨rfl, rfl, rfl, rfl, hk, fun _ _ => rfl, fun _ _ => rfl, .inl ⟨rfl, hk⟩⟩
  · rw [heq]
    refine ⟨rfl, rfl, rfl, rfl, AList.lookup_insert _, fun _ hne => AList.lookup_insert_ne hne,
      fun _ hq => update_of_ne hq _ _, .inr ⟨?_, ?_, hk⟩⟩
    · simp only [LaneScheduler.setLane, update_self]
      rfl
    · simp only [LaneScheduler.setLane, update_self]
      rfl

theorem HasLane.of_ne {t : LaneScheduler} (hl : HasLane s t key ptr)
    (hk : t.lanes.lookup key' = some q) (hq : q ≠ ptr) :
    s.lanes.lookup key' = some q ∧ t.laneAt q = s.laneAt q := by
  have hne : key' ≠ key := by
    rintro rfl
    exact hq (Option.some.inj (hk.symm.trans hl.lookup))
  exact ⟨(hl.lookup_ne key' hne).symm.trans hk, hl.laneAt q hq⟩

theorem HasLane.keep {t : LaneScheduler} (hl : HasLane s t key ptr)
    (hk : s.lanes.lookup key' = some q) : t.lanes.lookup key' = some q := by
  by_cases hne : key' = key
  · subst hne
    rcases hl.old_or_new with ⟨-, hk'⟩ | ⟨-, -, hnone⟩
    · rw [hl.lookup, ← hk', hk]
    · rw [hk] at hnone
      cases hnone
  · rw [hl.lookup_ne key' hne, hk]

/-- The state in which an accepted job has joined the queue of its lane. -/
def LaneScheduler.accept (s : LaneScheduler) (ptr : LanePtr) (p : JobPtr) : LaneScheduler :=
  LaneScheduler.enqueueIn { s with
      tracked := s.tracked.insert (s.idOf p) { job := p, running := false }
      seq := s.seq + 1
      jobAt := update s.jobAt p { s.jobAt p with seq := s.seq + 1 } }
    ptr (laneIdentity (s.jobAt p)).1 (laneIdentity (s.jobAt p)).2.1 p

theorem enqueue_eq_accept (hp : s.tracked.lookup (s.idOf p) = none) :
    s.enqueue p = (true,
      ((s.laneFor (laneIdentity (s.jobAt p)).1 (laneIdentity (s.jobAt p)).2.1 (s.keyOf p)).2.accept
        (s.laneFor (laneIdentity (s.jobAt p)).1 (laneIdentity (s.jobAt p)).2.1 (s.keyOf p)).1
        p).markReadyLocked (s.laneFor (laneIdentity (s.jobAt p)).1 (laneIdentity (s.jobAt p)).2.1
          (s.keyOf p)).1) := by
  have hlookup : s.tracked.lookup (s.jobAt p).data.id.string = none := hp
  simp only [LaneScheduler.enqueue, hlookup, LaneScheduler.keyOf]
  rcases laneFor_cases s (laneIdentity (s.jobAt p)).1 (laneIdentity (s.jobAt p)).2.1
    (laneIdentity (s.jobAt p)).2.2 with ⟨ptr, hk, heq⟩ | ⟨hk, heq⟩
  · simp only [heq]
    simp only [LaneScheduler.laneFor, hk]
    rfl
  · simp only [heq]
    simp only [LaneScheduler.laneFor, hk]
    rfl

/-- `enqueue` drops a tracked job, which may refresh its waiting copy, and accepts any other. -/
theorem enqueue_cases (s : LaneScheduler) (p : JobPtr) :
    (s.enqueue p).1 = false ∧ ((s.enqueue p).2 = s ∨ ∃ q, (s.enqueue p).2 =
      s.setJob q { s.jobAt q with data := (s.jobAt p).data }) ∨
    s.tracked.lookup (s.idOf p) = none ∧ ∃ ptr t, HasLane s t (s.keyOf p) ptr ∧
      s.enqueue p = (true, (t.accept ptr p).markReadyLocked ptr) := by
  cases hp : s.tracked.lookup (s.idOf p) with
  | some held =>
    have hlookup : s.tracked.lookup (s.jobAt p).data.id.string = some held := hp
    simp only [LaneScheduler.enqueue, hlookup]
    split
    · exact .inl ⟨rfl, .inr ⟨held.job, rfl⟩⟩
    · exact .inl ⟨rfl, .inl rfl⟩
  | none => exact .inr ⟨rfl, _, _, laneFor_hasLane .., enqueue_eq_accept hp⟩

def LaneScheduler.joined (s : LaneScheduler) (ptr : LanePtr) (p : JobPtr) : ConsumerLane :=
  { s.laneAt ptr with
    queue := (s.laneAt ptr).queue.enqueue
      (update s.jobAt p { s.jobAt p with seq := s.seq + 1 }) p }

theorem accept_jobAt (s : LaneScheduler) (ptr : LanePtr) (p : JobPtr) :
    (s.accept ptr p).jobAt = update s.jobAt p { s.jobAt p with seq := s.seq + 1 } := rfl

theorem accept_write (s : LaneScheduler) (ptr : LanePtr) (p : JobPtr) :
    LaneWrite s (s.accept ptr p) ptr (s.joined ptr p) := by
  have hdata : ∀ q, (update s.jobAt p { s.jobAt p with seq := s.seq + 1 } q).data =
      (s.jobAt q).data := by
    intro q
    by_cases hq : q = p
    · rw [hq, update_self]
    · rw [update_of_ne hq]
  refine ⟨rfl, rfl, rfl, fun q => ?_, fun q => ?_⟩
  · exact congrArg (fun d : DeliveryJob => d.id.string) (hdata q)
  · simp only [LaneScheduler.keyOf, laneIdentity, LaneScheduler.accept, LaneScheduler.enqueueIn,
      LaneScheduler.setLane, hdata]

theorem JobsInv.accept (h : JobsInv s out) (hp : s.tracked.lookup (s.idOf p) = none)
    (hk : s.lanes.lookup (s.keyOf p) = some ptr) :
    JobMove s (s.accept ptr p) out out ptr (s.joined ptr p) p := by
  have hlane := (h.lanes _ _ hk).2
  have hperm := PriorityQueue.enqueue_perm
    (update s.jobAt p { s.jobAt p with seq := s.seq + 1 }) (s.laneAt ptr).queue p
  have hnot : p ∉ (s.laneAt ptr).queue := fun hmem => by
    rw [(hlane.queued p hmem).2] at hp
    cases hp
  have hnew := AList.lookup_insert (a := s.idOf p) (b := HeldJob.mk p false) s.tracked
  refine ⟨accept_write s ptr p, hk, fun held hheld => ?_, fun held hheld => ?_,
    fun id hid => AList.lookup_insert_ne hid, ⟨fun _ => hnew, fun _ => ?_⟩,
    ⟨fun hout => ?_, fun hheld => ?_⟩, fun q hq => ?_, ?_, fun _ _ => Iff.rfl, h.out_nodup, rfl,
    hlane.inflight, hlane.limit⟩
  · rw [hp] at hheld
    cases hheld
  · cases hnew.symm.trans hheld
    rfl
  · exact hperm.mem_iff.2 mem_cons_self
  · rw [(h.out_held p hout).1] at hp
    cases hp
  · cases hnew.symm.trans hheld
  · exact hperm.mem_iff.trans (mem_cons.trans (or_iff_right hq))
  · exact hperm.nodup_iff.2 (nodup_cons.2 ⟨hnot, hlane.nodup⟩)

theorem canRun_enqueue {queue : PriorityQueue} (hlen : lane.queue.length ≤ queue.length)
    (h : lane.canRun = true) : ({ lane with queue } : ConsumerLane).canRun = true := by
  rw [ConsumerLane.canRun_iff] at h ⊢
  refine ⟨ne_nil_of_length_pos ((length_pos_iff.2 h.1).trans_le hlen), h.2⟩

theorem SchedInv.enqueue (h : SchedInv s out) (p : JobPtr) : SchedInv (s.enqueue p).2 out := by
  cases hp : s.tracked.lookup (s.idOf p) with
  | some held =>
    have hid : s.idOf p = s.idOf held.job := (h.jobs.idOf_held hp).symm
    have hlookup : s.tracked.lookup (s.jobAt p).data.id.string = some held := hp
    simp only [LaneScheduler.enqueue, hlookup]
    split
    · exact h.setJob hid
    · exact h
  | none =>
    rw [enqueue_eq_accept hp]
    have hl := laneFor_hasLane s (laneIdentity (s.jobAt p)).1 (laneIdentity (s.jobAt p)).2.1
      (s.keyOf p)
    obtain ⟨-, hj, hr, hc, hb⟩ := h.laneFor (laneIdentity (s.jobAt p)).1
      (laneIdentity (s.jobAt p)).2.1 (s.keyOf p)
    generalize (s.laneFor (laneIdentity (s.jobAt p)).1 (laneIdentity (s.jobAt p)).2.1
      (s.keyOf p)).1 = ptr at *
    generalize (s.laneFor (laneIdentity (s.jobAt p)).1 (laneIdentity (s.jobAt p)).2.1
      (s.keyOf p)).2 = t at *
    have hidOf : t.idOf p = s.idOf p := by rw [LaneScheduler.idOf, hl.jobAt]; rfl
    have hkeyOf : t.keyOf p = s.keyOf p := by rw [LaneScheduler.keyOf, hl.jobAt]; rfl
    have hm := hj.accept (by rwa [hl.tracked, hidOf]) (hkeyOf ▸ hl.lookup)
    refine ⟨(hj.move hm).markReady ptr, ?_, complete_markReady (hc.write hm.toLaneWrite), ?_⟩
    · refine (hr.write hm.toLaneWrite rfl rfl (canRun_enqueue ?_)).markReady hm.lookup
      exact (PriorityQueue.length_enqueue _ _ _).ge.trans' (Nat.le_succ _)
    · exact (busy_write hb hm.toLaneWrite (.inl (PriorityQueue.enqueue_ne_nil _ _ _))).markReady ptr

end

end WebhookBroker
