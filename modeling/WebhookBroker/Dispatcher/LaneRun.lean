import WebhookBroker.Dispatcher.LaneServe

/-!
# Runs of the lane scheduler

A run is a sequence of calls of the scheduler, with the jobs that `tryNext` handed out and for
which `done` was not called yet. `done` is called for such jobs only. The copies of one job share
one lane; nothing else is assumed of the jobs and of the limits. In every state of a run the
tracked jobs, the queues, the ready list and the counters of the lanes agree (`LanesConsistent`).
-/

namespace WebhookBroker

open Lib List

inductive LaneAction where
  | enqueue (p : JobPtr)
  | tryNext
  | isHeld (job : DeliveryJob)
  | done (p : JobPtr)
  | discardQueued
deriving DecidableEq, Inhabited

/-- The scheduler and the jobs that are handed out and not yet done. -/
structure LaneState where
  sched : LaneScheduler
  out : List JobPtr

/-- A new scheduler, in a memory where the copies of one job share one lane. -/
def LaneState.isInitial (σ : LaneState) : Prop :=
  (∃ limitFor jobAt metrics, σ.sched = newLaneScheduler limitFor jobAt metrics) ∧ σ.out = [] ∧
    ∀ p q, σ.sched.idOf p = σ.sched.idOf q → σ.sched.keyOf p = σ.sched.keyOf q

def LaneState.step (σ : LaneState) : LaneAction → Option LaneState
  | .enqueue p => some { σ with sched := (σ.sched.enqueue p).2 }
  | .tryNext => some { sched := σ.sched.tryNext.2, out := σ.sched.tryNext.1.toList ++ σ.out }
  | .isHeld _ => some σ
  | .done p => if p ∈ σ.out then some { sched := σ.sched.done p, out := σ.out.erase p } else none
  | .discardQueued => some { σ with sched := σ.sched.discardQueued }

abbrev LaneRun := Run LaneState.isInitial LaneState.step

theorem schedInv_newLaneScheduler (limitFor : String → String → Nat) (jobAt : JobPtr → Job)
    (metrics : Metrics)
    (hshare : ∀ p q, (newLaneScheduler limitFor jobAt metrics).idOf p =
      (newLaneScheduler limitFor jobAt metrics).idOf q →
      (newLaneScheduler limitFor jobAt metrics).keyOf p =
        (newLaneScheduler limitFor jobAt metrics).keyOf q) :
    SchedInv (newLaneScheduler limitFor jobAt metrics) [] := by
  have hlanes : ∀ {key ptr},
      (newLaneScheduler limitFor jobAt metrics).lanes.lookup key ≠ some ptr :=
    fun h => Option.some_ne_none _ h.symm
  have htracked : ∀ {id held}, (newLaneScheduler limitFor jobAt metrics).tracked.lookup id ≠
    some held := fun h => Option.some_ne_none _ h.symm
  refine ⟨⟨hshare, fun _ _ hk => absurd hk hlanes, fun _ _ hheld => absurd hheld htracked,
    fun _ _ hheld => absurd hheld htracked, fun _ hp => absurd hp not_mem_nil,
    nodup_nil⟩, ⟨nodup_nil, fun ptr => ?_, fun _ _ hk => absurd hk hlanes⟩,
    fun _ _ hk => absurd hk hlanes, fun _ _ hk => absurd hk hlanes⟩
  exact ⟨fun hmem => absurd hmem not_mem_nil, fun ⟨_, hk, _⟩ => absurd hk hlanes⟩

theorem LaneState.isInitial.schedInv {σ : LaneState} (h : σ.isInitial) :
    SchedInv σ.sched σ.out := by
  obtain ⟨⟨limitFor, jobAt, metrics, hs⟩, hout, hshare⟩ := h
  rw [hs] at hshare ⊢
  rw [hout]
  exact schedInv_newLaneScheduler limitFor jobAt metrics hshare

theorem LaneState.step_schedInv {σ σ' : LaneState} {a : LaneAction} (h : SchedInv σ.sched σ.out)
    (hstep : σ.step a = some σ') : SchedInv σ'.sched σ'.out := by
  cases a with
  | enqueue p =>
    cases hstep
    exact h.enqueue p
  | tryNext =>
    cases hstep
    exact h.tryNext
  | isHeld job =>
    cases hstep
    exact h
  | done p =>
    simp only [LaneState.step] at hstep
    split at hstep
    · rename_i hp
      cases hstep
      exact h.done hp
    · cases hstep
  | discardQueued =>
    cases hstep
    exact h.discardQueued

theorem LaneRun.schedInv (r : LaneRun) {n : Nat} (hn : n ≤ r.len) :
    SchedInv (r.state n).sched (r.state n).out :=
  r.invariant (P := fun σ => SchedInv σ.sched σ.out) (fun _ h => h.schedInv)
    (fun _ _ _ h hstep => LaneState.step_schedInv h hstep) n hn

/-- What a call can do to the scheduler, from a state in which `out` are the jobs handed out. -/
inductive LaneStep (s : LaneScheduler) (out : List JobPtr) : LaneAction → LaneScheduler → Prop
  | dropped {p : JobPtr} : (s.enqueue p).1 = false → LaneStep s out (.enqueue p) s
  | refreshed {p q : JobPtr} : (s.enqueue p).1 = false →
      LaneStep s out (.enqueue p) (s.setJob q { s.jobAt q with data := (s.jobAt p).data })
  | accepted {p : JobPtr} {ptr : LanePtr} {t : LaneScheduler} : (s.enqueue p).1 = true →
      s.tracked.lookup (s.idOf p) = none → HasLane s t (s.keyOf p) ptr →
      LaneStep s out (.enqueue p) ((t.accept ptr p).markReadyLocked ptr)
  | idle : s.tryNext.1 = none → s.ready = [] → LaneStep s out .tryNext s
  | served {ptr : LanePtr} {p : JobPtr} {queue : PriorityQueue} {t : LaneScheduler} :
      s.tryNext.1 = some p → IsServed s ptr → Serves s t ptr p queue →
      LaneStep s out .tryNext (t.markReadyLocked ptr)
  | held {job : DeliveryJob} : LaneStep s out (.isHeld job) s
  | released {p : JobPtr} {ptr : LanePtr} {t : LaneScheduler} : Releases s t out ptr p →
      LaneStep s out (.done p) (t.markReadyLocked ptr)
  | deleted {p : JobPtr} {ptr : LanePtr} {t : LaneScheduler} : Releases s t out ptr p →
      LaneStep s out (.done p) { t with lanes := t.lanes.erase (s.keyOf p) }
  | discarded : LaneStep s out .discardQueued s.discardQueued

theorem LaneState.step_laneStep {σ σ' : LaneState} {a : LaneAction} (h : SchedInv σ.sched σ.out)
    (hstep : σ.step a = some σ') : LaneStep σ.sched σ.out a σ'.sched := by
  cases a with
  | enqueue p =>
    cases hstep
    rcases enqueue_cases σ.sched p with ⟨hno, heq | ⟨q, heq⟩⟩ | ⟨hp, ptr, t, hl, heq⟩
    · rw [heq]
      exact .dropped hno
    · rw [heq]
      exact .refreshed hno
    · rw [heq]
      exact .accepted (by rw [heq]) hp hl
  | tryNext =>
    cases hstep
    rcases tryNext_cases h.ready with ⟨hready, heq⟩ | ⟨ptr, p, queue, t, hserved, hs, heq⟩
    · rw [heq]
      exact .idle (by rw [heq]) hready
    · rw [heq]
      exact .served (by rw [heq]) hserved hs
  | isHeld job =>
    cases hstep
    exact .held
  | done p =>
    simp only [LaneState.step] at hstep
    split at hstep
    · rename_i hp
      cases hstep
      obtain ⟨ptr, t, hm, ⟨-, -, -, heq⟩ | ⟨-, heq⟩⟩ := done_cases h.jobs hp
      · rw [heq]
        exact .deleted hm
      · rw [heq]
        exact .released hm
    · cases hstep
  | discardQueued =>
    cases hstep
    exact .discarded

theorem LaneRun.laneStep (r : LaneRun) {i : Nat} (hi : i < r.len) :
    LaneStep (r.state i).sched (r.state i).out (r.act i) (r.state (i + 1)).sched :=
  LaneState.step_laneStep (r.schedInv hi.le) (r.next i hi)

/-! ## The lanes and the tracked jobs agree -/

def LaneScheduler.waiting (s : LaneScheduler) : List JobPtr :=
  s.lanes.entries.flatMap fun e => (s.laneAt e.2).queue

section
variable {s : LaneScheduler} {out : List JobPtr}
variable {p : JobPtr}

theorem LaneScheduler.mem_waiting :
    p ∈ s.waiting ↔ ∃ key ptr, s.lanes.lookup key = some ptr ∧ p ∈ (s.laneAt ptr).queue := by
  rw [LaneScheduler.waiting, mem_flatMap]
  constructor
  · rintro ⟨⟨key, ptr⟩, he, hp⟩
    exact ⟨key, ptr, AList.mem_lookup_iff.2 he, hp⟩
  · rintro ⟨key, ptr, hk, hp⟩
    exact ⟨⟨key, ptr⟩, AList.mem_lookup_iff.1 hk, hp⟩

theorem JobsInv.mem_waiting (h : JobsInv s out) :
    p ∈ s.waiting ↔ s.tracked.lookup (s.idOf p) = some { job := p, running := false } := by
  rw [LaneScheduler.mem_waiting]
  constructor
  · rintro ⟨key, ptr, hk, hp⟩
    exact ((h.lanes key ptr hk).2.queued p hp).2
  · intro hheld
    obtain ⟨-, ptr, hk, hp⟩ := h.waiting _ _ hheld rfl
    exact ⟨_, ptr, hk, hp⟩

theorem JobsInv.mem_out (h : JobsInv s out) :
    p ∈ out ↔ s.tracked.lookup (s.idOf p) = some { job := p, running := true } :=
  ⟨fun hp => (h.out_held p hp).1, fun hheld => (h.running _ _ hheld rfl).2⟩

theorem JobsInv.waiting_nodup (h : JobsInv s out) : s.waiting.Nodup := by
  refine nodup_flatMap.2 ⟨fun e he => ?_, ?_⟩
  · exact (h.lanes e.1 e.2 (AList.mem_lookup_iff.2 he)).2.nodup
  · refine (pairwise_map.1 s.lanes.nodupKeys).imp_of_mem fun {e e'} he he' hne p hp hp' => ?_
    have hkey := ((h.lanes e.1 e.2 (AList.mem_lookup_iff.2 he)).2.queued p hp).1
    have hkey' := ((h.lanes e'.1 e'.2 (AList.mem_lookup_iff.2 he')).2.queued p hp').1
    exact hne (hkey.symm.trans hkey')

/-- In a list of jobs that are tracked with one value of `running`, a tracked job occurs once or
not at all. -/
theorem count_idOf {l : List JobPtr} (hnodup : l.Nodup) {b : Bool}
    (hmem : ∀ p, p ∈ l ↔ s.tracked.lookup (s.idOf p) = some { job := p, running := b })
    (hid : ∀ id held, s.tracked.lookup id = some held → s.idOf held.job = id) (id : String) :
    (l.map s.idOf).count id = if (s.tracked.lookup id).map (·.running) = some b then 1 else 0 := by
  have hinj : ∀ p ∈ l, ∀ q ∈ l, s.idOf p = s.idOf q → p = q := by
    intro p hp q hq heq
    have hpq := (heq ▸ (hmem p).1 hp).symm.trans ((hmem q).1 hq)
    exact congrArg HeldJob.job (Option.some.inj hpq)
  have hnodup' : (l.map s.idOf).Nodup := (nodup_map_iff_inj_on hnodup).2 hinj
  split
  · rename_i hheld
    obtain ⟨held, hlookup, rfl⟩ := Option.map_eq_some_iff.1 hheld
    refine count_eq_one_of_mem hnodup' (mem_map.2 ⟨held.job, ?_, hid id held hlookup⟩)
    rw [hmem, hid id held hlookup, hlookup]
  · rename_i hheld
    refine count_eq_zero.2 fun hin => hheld ?_
    obtain ⟨p, hp, rfl⟩ := mem_map.1 hin
    rw [(hmem p).1 hp]
    rfl

end

/-- What the scheduler keeps between its operations; `out` are the jobs that are handed out and not
yet done. -/
structure LanesConsistent (s : LaneScheduler) (out : List JobPtr) : Prop where
  /-- a tracked job id waits in one queue, once, and does not run, or it runs and is in no queue -/
  tracked : ∀ id held, s.tracked.lookup id = some held →
    held.running = false ∧ (s.waiting.map s.idOf).count id = 1 ∧ (out.map s.idOf).count id = 0 ∨
    held.running = true ∧ (s.waiting.map s.idOf).count id = 0 ∧ (out.map s.idOf).count id = 1
  /-- nothing else is in a queue -/
  untracked : ∀ id, s.tracked.lookup id = none → (s.waiting.map s.idOf).count id = 0
  ready : ∀ key ptr, s.lanes.lookup key = some ptr →
    ((s.laneAt ptr).ready = true ↔ (s.laneAt ptr).canRun = true) ∧
    ((s.laneAt ptr).ready = true ↔ ptr ∈ s.ready)
  ready_nodup : s.ready.Nodup
  /-- no lane outside the map is in the ready list -/
  ready_lanes : ∀ ptr ∈ s.ready, ∃ key, s.lanes.lookup key = some ptr
  inflight : ∀ key ptr, s.lanes.lookup key = some ptr →
    (s.laneAt ptr).inflight = out.countP fun p => s.keyOf p == key
  limit : ∀ key ptr, s.lanes.lookup key = some ptr → (s.laneAt ptr).limit ≠ 0 →
    (s.laneAt ptr).inflight ≤ (s.laneAt ptr).limit
  /-- a lane without jobs is deleted -/
  busy : ∀ key ptr, s.lanes.lookup key = some ptr →
    ¬ ((s.laneAt ptr).queue = [] ∧ (s.laneAt ptr).inflight = 0)

/-- In every state of every run, the tracked jobs, the queues, the ready list and the counters of
the lanes agree. -/
theorem lane_scheduler_consistent (r : LaneRun) {n : Nat} (hn : n ≤ r.len) :
    LanesConsistent (r.state n).sched (r.state n).out := by
  have h := r.schedInv hn
  generalize (r.state n).sched = s at *
  generalize (r.state n).out = out at *
  have hwaiting := count_idOf h.jobs.waiting_nodup (fun _ => h.jobs.mem_waiting)
    fun _ _ => h.jobs.idOf_held
  have hout := count_idOf h.jobs.out_nodup (fun _ => h.jobs.mem_out) fun _ _ => h.jobs.idOf_held
  refine ⟨fun id held hheld => ?_, fun id hnone => ?_, fun key ptr hk => ⟨?_, ?_⟩, h.ready.nodup,
    fun ptr hmem => ?_, fun key ptr hk => (h.jobs.lanes key ptr hk).2.inflight,
    fun key ptr hk => (h.jobs.lanes key ptr hk).2.limit,
    fun key ptr hk => not_and_or.2 (h.busy key ptr hk)⟩
  · rw [hwaiting, hout, hheld, Option.map_some]
    cases held.running with
    | false => exact .inl ⟨rfl, rfl, rfl⟩
    | true => exact .inr ⟨rfl, rfl, rfl⟩
  · rw [hwaiting, hnone]
    rfl
  · exact ⟨h.ready.sound key ptr hk, h.complete key ptr hk⟩
  · rw [h.ready.mem]
    refine ⟨fun hr => ⟨key, hk, hr⟩, ?_⟩
    rintro ⟨-, -, hr⟩
    exact hr
  · obtain ⟨key, hk, -⟩ := (h.ready.mem ptr).1 hmem
    exact ⟨key, hk⟩

/-! ## A run with two lanes -/

namespace Sample

def laneJob (id : Xid) (consumerID : String) : Job :=
  newJob { job .push second with
    id := id, listener := some { consumer .push with consumerID := consumerID } }

def laneJobs : JobPtr → Job
  | 0 => laneJob jobXid "d"
  | 1 => laneJob messageXid "d"
  | 2 => laneJob consumerXid "e"
  | _ => laneJob producerXid "e"

def laneMetrics : Metrics := ⟨0, fun _ => 0, fun _ => 0⟩

def lanes : LaneState :=
  { sched := newLaneScheduler (fun _ _ => 2) laneJobs laneMetrics, out := [] }

theorem lanes_isInitial : lanes.isInitial := by
  refine ⟨⟨_, _, _, rfl⟩, rfl, fun p q hid => ?_⟩
  have hfin : ∀ p, ∃ k : Fin 4, laneJobs p = laneJobs k
    | 0 => ⟨0, rfl⟩
    | 1 => ⟨1, rfl⟩
    | 2 => ⟨2, rfl⟩
    | _ + 3 => ⟨3, rfl⟩
  obtain ⟨a, ha⟩ := hfin p
  obtain ⟨b, hb⟩ := hfin q
  revert hid
  simp only [LaneScheduler.idOf, LaneScheduler.keyOf, lanes, newLaneScheduler, ha, hb]
  clear ha hb
  revert a b
  decide

/-- Both lanes are served in turn, and the jobs of `d` are done. -/
def serveInTurn : List LaneAction :=
  [.enqueue 0, .enqueue 1, .enqueue 2, .enqueue 3, .tryNext, .tryNext, .tryNext, .done 0, .done 1]

end Sample

theorem lane_scheduler_consistent_serve_in_turn :
    ∃ r : LaneRun, r.len = 9 ∧ (r.state 7).out = [1, 2, 0] ∧
      (r.state 9).sched.waiting = [3] ∧ (r.state 9).sched.lanes.keys = ["c/e"] ∧
      LanesConsistent (r.state 9).sched (r.state 9).out := by
  let r : LaneRun := Run.ofActs Sample.lanes Sample.serveInTurn Sample.lanes_isInitial
    (by decide +kernel)
  exact ⟨r, rfl, by decide +kernel, by decide +kernel, by decide +kernel,
    lane_scheduler_consistent r le_rfl⟩

end WebhookBroker
