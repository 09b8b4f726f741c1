import WebhookBroker.Dispatcher.StopProgress
import WebhookBroker.Lib.Holders

/-!
# What is left in the scheduler after `Stop` (`dispatcher/msgdispatcher.go`, `dispatcher/lanes.go`)

A job that `tryNext` handed out is with the assigner, in the channel of a worker, or with a worker,
and with one of them only (`heldJob`). `Stop` returns from `releaseUnreadJobs` after all workers and
the assigner have returned and after it has emptied the channels, so nobody has a job then. The
waiting jobs were discarded when the loop of the dispatcher, which alone adds jobs, had returned. So
the scheduler holds nothing any more.
-/

namespace WebhookBroker

open Lib List Function

/-! ## A scheduler without waiting jobs -/

def LaneScheduler.NoneWaiting (s : LaneScheduler) : Prop :=
  ∀ key ptr, s.lanes.lookup key = some ptr → (s.laneAt ptr).queue = []

section
variable {s : LaneScheduler} {out : List JobPtr} {p : JobPtr}

theorem JobsInv.noneWaiting_discardQueued (h : JobsInv s out) : s.discardQueued.NoneWaiting :=
  fun key ptr hk => ((discardQueued_spec h).2.2 key ptr hk).1

theorem LaneScheduler.NoneWaiting.tryNext (hnone : s.NoneWaiting) (h : SchedInv s out) :
    s.tryNext = (none, s) := by
  rcases tryNext_cases h.ready with ⟨-, heq⟩ | ⟨ptr, p, queue, t, hserved, -, -⟩
  · exact heq
  · obtain ⟨key, hk, hready⟩ := (h.ready.mem ptr).1 hserved.mem
    have hrun := h.ready.sound key ptr hk hready
    exact absurd (hnone key ptr hk) (ConsumerLane.canRun_iff.1 hrun).1

theorem LaneScheduler.NoneWaiting.done (hnone : s.NoneWaiting) (h : SchedInv s out) (hp : p ∈ out) :
    (s.done p).NoneWaiting := by
  obtain ⟨ptr, t, hm, hends⟩ := done_cases h.jobs hp
  have ht : t.NoneWaiting := by
    intro key q hk
    rw [hm.queue_eq]
    rw [hm.lanes] at hk
    exact hnone key q hk
  rcases hends with ⟨-, -, -, heq⟩ | ⟨-, heq⟩
  · rw [heq]
    intro key q hk
    exact ht key q (lookup_erase_eq_some.1 hk).2
  · rw [heq]
    intro key q hk
    rw [markReadyLocked_lanes] at hk
    rw [markReadyLocked_queue]
    exact ht key q hk

theorem eq_empty_of_lookup {β : Type*} {l : AList fun _ : String => β}
    (h : ∀ key, l.lookup key = none) : l = ∅ := by
  refine AList.ext (eq_nil_iff_forall_not_mem.2 fun e he => ?_)
  have hsome := AList.mem_lookup_iff.2 he
  rw [h] at hsome
  cases hsome

theorem LaneScheduler.NoneWaiting.eq_empty (hnone : s.NoneWaiting) (h : SchedInv s []) :
    s.tracked = ∅ ∧ s.lanes = ∅ := by
  constructor
  · refine eq_empty_of_lookup fun id => ?_
    cases hheld : s.tracked.lookup id with
    | none => rfl
    | some held =>
      cases hrunning : held.running with
      | false =>
        obtain ⟨-, ptr, hk, hmem⟩ := h.jobs.waiting id held hheld hrunning
        rw [hnone _ ptr hk] at hmem
        cases hmem
      | true => cases (h.jobs.running id held hheld hrunning).2
  · refine eq_empty_of_lookup fun key => ?_
    cases hk : s.lanes.lookup key with
    | none => rfl
    | some ptr =>
      rcases h.busy key ptr hk with hqueue | hinflight
      · exact absurd (hnone key ptr hk) hqueue
      · exact absurd ((h.jobs.lanes key ptr hk).2.inflight) hinflight

end

/-! ## Who has the jobs that were handed out -/

inductive Holder where
  | assigner
  | channel (i : Nat)
  | worker (i : Nat)
deriving DecidableEq

def AssignLoop.job : AssignLoop → Option JobPtr
  | .sending _ p => some p
  | _ => none

/-- The job of a worker that `done` has not been called for. -/
def WorkLoop.job : WorkLoop → Option JobPtr
  | .delivering p | .finishing p => some p
  | _ => none

def heldJob (assigner : AssignLoop) (jobChannel : Nat → Option JobPtr) (worker : Nat → WorkLoop) :
    Holder → Option JobPtr
  | .assigner => assigner.job
  | .channel i => jobChannel i
  | .worker i => (worker i).job

section
variable {assigner assigner' : AssignLoop} {jobChannel : Nat → Option JobPtr}
  {worker : Nat → WorkLoop} {i : Nat}

theorem heldJob_assigner (assigner : AssignLoop) :
    heldJob assigner' jobChannel worker =
      update (heldJob assigner jobChannel worker) .assigner assigner'.job := by
  funext h
  cases h with
  | assigner => rw [update_self, heldJob]
  | channel j | worker j => exact (update_of_ne (by simp) _ _).symm

theorem heldJob_channel {x : Option JobPtr} :
    heldJob assigner (update jobChannel i x) worker =
      update (heldJob assigner jobChannel worker) (.channel i) x := by
  funext h
  cases h with
  | assigner | worker j => exact (update_of_ne (by simp) _ _).symm
  | channel j =>
    by_cases hj : j = i
    · rw [hj, update_self, heldJob, update_self]
    · rw [update_of_ne fun heq => hj (Holder.channel.inj heq), heldJob, heldJob,
        update_of_ne hj]

theorem heldJob_worker {w : WorkLoop} :
    heldJob assigner jobChannel (update worker i w) =
      update (heldJob assigner jobChannel worker) (.worker i) w.job := by
  funext h
  cases h with
  | assigner | channel j => exact (update_of_ne (by simp) _ _).symm
  | worker j =>
    by_cases hj : j = i
    · rw [hj, update_self, heldJob, update_self]
    · rw [update_of_ne fun heq => hj (Holder.worker.inj heq), heldJob, heldJob,
        update_of_ne hj]

theorem heldJob_sameAssigner (hassigner : assigner'.job = assigner.job) :
    heldJob assigner' jobChannel worker = heldJob assigner jobChannel worker := by
  rw [heldJob_assigner assigner, hassigner]
  exact update_eq_self Holder.assigner _

theorem heldJob_sameWorker {w : WorkLoop} (hw : w.job = (worker i).job) :
    heldJob assigner jobChannel (update worker i w) =
      heldJob assigner jobChannel worker := by
  rw [heldJob_worker, hw]
  exact update_eq_self (Holder.worker i) _

end

variable {cfg : DispatcherConfig} {σ : DispatcherState} {a : DispatcherAction}

/-- The jobs that were handed out: each that is not done has one holder, and each that is done was
delivered by its worker or released by `Stop`. -/
structure HandOutInv (lanes : LaneState) (held : Holder → Option JobPtr)
    (taken delivered released : List JobPtr) : Prop where
  sched : SchedInv lanes.sched lanes.out
  holds : Holds held lanes.out
  count : ∀ p, taken.count p = delivered.count p + released.count p + lanes.out.count p

theorem HandOutInv.done {lanes : LaneState} {held : Holder → Option JobPtr}
    {taken delivered released : List JobPtr} (h : HandOutInv lanes held taken delivered released)
    {k : Holder} {p : JobPtr} (hk : held k = some p) :
    SchedInv (lanes.sched.done p) (lanes.out.erase p) ∧
      Holds (update held k none) (lanes.out.erase p) ∧
      ∀ q, [p].count q + (lanes.out.erase p).count q = lanes.out.count q := by
  have hp : p ∈ lanes.out := (h.holds.mem p).2 ⟨k, hk⟩
  refine ⟨h.sched.done hp, h.holds.lose hk h.sched.jobs.out_nodup, fun q => ?_⟩
  rw [← count_append]
  exact (perm_cons_erase hp).symm.count_eq q

namespace DispatcherState

def HandOutOk (σ : DispatcherState) : Prop :=
  HandOutInv σ.lanes (heldJob σ.assigner σ.jobChannel σ.worker) σ.taken σ.delivered σ.released

theorem isInitial.handOutOk (h : σ.isInitial cfg) : σ.HandOutOk := by
  obtain ⟨htaken, hdelivered, hreleased⟩ := h.logs
  have hout : σ.lanes.out = [] := h.lanes.2.1
  have hnone : ∀ k, heldJob σ.assigner σ.jobChannel σ.worker k = none := by
    intro k
    cases k with
    | assigner => rw [heldJob, h.assigner]; rfl
    | channel i => exact h.jobChannel i
    | worker i => rw [heldJob, h.worker]; rfl
  refine ⟨h.lanes.schedInv, ⟨fun p => ?_, fun k k' p hk => ?_⟩, fun p => ?_⟩
  · rw [hout]
    exact iff_of_false not_mem_nil fun ⟨k, hk⟩ => nomatch (hnone k).symm.trans hk
  · cases (hnone k).symm.trans hk
  · rw [htaken, hdelivered, hreleased, hout]
    rfl

theorem HandOutOk.step (h : σ.HandOutOk) (ha : σ.enabled cfg a) : (σ.apply cfg a).HandOutOk := by
  have hworker : ∀ {i w w'}, σ.worker i = w → w'.job = w.job →
      HandOutInv σ.lanes (heldJob σ.assigner σ.jobChannel (update σ.worker i w')) σ.taken
        σ.delivered σ.released := by
    rintro i w w' rfl hw
    rw [heldJob_sameWorker hw]
    exact h
  have hassigner : ∀ {pos pos'}, σ.assigner = pos → pos'.job = pos.job →
      HandOutInv σ.lanes (heldJob pos' σ.jobChannel σ.worker) σ.taken σ.delivered
        σ.released := by
    rintro pos pos' rfl hpos
    rw [heldJob_sameAssigner hpos]
    exact h
  cases a with
  | enqueue p => exact ⟨h.sched.enqueue p, h.holds, h.count⟩
  | discardQueued => exact ⟨h.sched.discardQueued, h.holds, h.count⟩
  | takeWorker i | stopSelecting | wakeUp i | stopWaiting i => exact hassigner ha.1 rfl
  | tryNext i =>
    have hpos : σ.assigner = .trying i := ha
    have hnodup := h.sched.tryNext.jobs.out_nodup
    refine ⟨h.sched.tryNext, ?_, fun p => ?_⟩
    · simp only [apply]
      cases hnext : σ.lanes.sched.tryNext.1 with
      | none => exact (hassigner hpos rfl).holds
      | some p =>
        rw [hnext] at hnodup
        rw [heldJob_assigner σ.assigner]
        refine h.holds.gain ?_ (nodup_cons.1 hnodup).1
        rw [heldJob, hpos]
        rfl
    · simp only [apply, count_append]
      have := h.count p
      omega
  | assign i p =>
    refine ⟨h.sched, ?_, h.count⟩
    simp only [apply]
    rw [heldJob_channel, heldJob_assigner σ.assigner]
    have hempty := ha.2
    have hjob : heldJob σ.assigner σ.jobChannel σ.worker .assigner = some p := by
      rw [heldJob, ha.1]
      rfl
    exact h.holds.pass hjob hempty h.sched.jobs.out_nodup
  | takeJob i p =>
    refine ⟨h.sched, ?_, h.count⟩
    simp only [apply]
    rw [heldJob_worker, heldJob_channel]
    have hjob := ha.2
    have hempty : heldJob σ.assigner σ.jobChannel σ.worker (.worker i) = none := by
      rw [heldJob, ha.1]
      rfl
    exact h.holds.pass hjob hempty h.sched.jobs.out_nodup
  | start i => exact hworker ha.2 rfl
  | register i | takeQuit i => exact hworker ha.1 rfl
  | deliver i p | signalDone i | leave i => exact hworker ha rfl
  | finish i p =>
    have hpos : σ.worker i = .finishing p := ha
    have hjob : heldJob σ.assigner σ.jobChannel σ.worker (.worker i) = some p := by
      rw [heldJob, hpos]
      rfl
    obtain ⟨hsched, hholds, hcount⟩ := HandOutInv.done h hjob
    refine ⟨hsched, ?_, fun q => ?_⟩
    · simp only [apply]
      rw [heldJob_worker]
      exact hholds
    · simp only [apply, DispatcherState.done, count_append]
      have := h.count q
      have := hcount q
      omega
  | release i p =>
    have hjob : heldJob σ.assigner σ.jobChannel σ.worker (.channel i) = some p := ha.2.2
    obtain ⟨hsched, hholds, hcount⟩ := HandOutInv.done h hjob
    refine ⟨hsched, ?_, fun q => ?_⟩
    · simp only [apply]
      rw [heldJob_channel]
      exact hholds
    · simp only [apply, DispatcherState.done, count_append]
      have := h.count q
      have := hcount q
      omega
  | _ => exact h

def DiscardedOk (σ : DispatcherState) : Prop :=
  Stopper.discarding.rank < σ.stopper.rank → σ.lanes.sched.NoneWaiting

theorem DiscardedOk.step (h : σ.DiscardedOk) (hstopper : σ.StopperOk cfg) (hout : σ.HandOutOk)
    (ha : σ.enabled cfg a) : (σ.apply cfg a).DiscardedOk := by
  have hmem : ∀ {k p}, heldJob σ.assigner σ.jobChannel σ.worker k = some p → p ∈ σ.lanes.out :=
    fun hk => (hout.holds.mem _).2 ⟨_, hk⟩
  cases a with
  | enqueue p =>
    intro hrank
    have hreturned : σ.dispatcher = .returned :=
      hstopper.dispatcher.2 (le_trans (by decide) (le_of_lt hrank))
    cases hreturned.symm.trans ha
  | tryNext i =>
    intro hrank
    simp only [apply]
    rw [(h hrank).tryNext hout.sched]
    exact h hrank
  | finish i p =>
    intro hrank
    have hpos : σ.worker i = .finishing p := ha
    refine (h hrank).done hout.sched (hmem (k := .worker i) ?_)
    rw [heldJob, hpos]
    rfl
  | release i p =>
    intro hrank
    have hjob : heldJob σ.assigner σ.jobChannel σ.worker (.channel i) = some p := ha.2.2
    exact (h hrank).done hout.sched (hmem hjob)
  | discardQueued => exact fun _ => hout.sched.jobs.noneWaiting_discardQueued
  | stoppedLoops =>
    intro _
    have hpos : σ.stopper = .finishing := ha
    exact h (by rw [hpos]; decide)
  | enter | stopDispatcher => exact fun hrank => absurd hrank (by simp [apply, Stopper.rank])
  | closeScheduler =>
    intro hrank
    simp only [apply] at hrank
    split at hrank <;> exact absurd hrank (by decide)
  | stopLoop l =>
    cases l <;>
      exact fun hrank => absurd hrank (by simp [apply, RecoveryLoop.afterStop, Stopper.rank])
  | _ => exact h

end DispatcherState

/-! ## `Stop` releases what was not read -/

/-- Has `Stop` seen all workers without `working`? -/
def StopPos.isPolled : StopPos → Bool
  | .waiting | .checking | .awaiting | .releasing _ | .signalling _ | .returned => true
  | _ => false

/-- Is `Stop` in the loop of `releaseUnreadJobs`, or past it? -/
def StopPos.isDraining : StopPos → Bool
  | .releasing _ | .signalling _ | .returned => true
  | _ => false

/-- How many channels that loop has emptied. -/
def StopPos.drained (maxWorkers : Nat) : StopPos → Nat
  | .releasing i => i
  | .signalling i => i + 1
  | .returned => maxWorkers
  | _ => 0

theorem StopPos.isDraining_of_lt_drained {maxWorkers i : Nat} {stop : StopPos}
    (h : i < stop.drained maxWorkers) : stop.isDraining = true := by
  cases stop <;> first | rfl | exact absurd h (Nat.not_lt_zero i)

/-- What `Stop` has seen and done, when all workers had started before it was called. -/
structure ReleaseInv (maxWorkers : Nat) (stop : StopPos) (assigner : AssignLoop)
    (worker : Nat → WorkLoop) (jobChannel : Nat → Option JobPtr) : Prop where
  started : stop ≠ .notCalled → ∀ i < maxWorkers, worker i ≠ .starting
  polling : ∀ j, stop = .polling j false → ∀ i < j, worker i = .returned
  polled : stop.isPolled = true → ∀ i < maxWorkers, worker i = .returned
  assigner : stop.isDraining = true → assigner = .returned
  drained : ∀ i < stop.drained maxWorkers, jobChannel i = none

section
variable {maxWorkers : Nat} {stop stop' : StopPos} {assigner assigner' : AssignLoop}
  {worker : Nat → WorkLoop} {jobChannel : Nat → Option JobPtr}

section
variable (h : ReleaseInv maxWorkers stop assigner worker jobChannel)
include h

theorem ReleaseInv.moveWorker {i : Nat} {w w' : WorkLoop} (hi : worker i = w) (hw : w ≠ .returned)
    (hw' : w' ≠ .starting) :
    ReleaseInv maxWorkers stop assigner (update worker i w') jobChannel := by
  have hreturned : ∀ j, worker j = .returned → update worker i w' j = .returned := by
    intro j hj
    rw [update_of_ne, hj]
    rintro rfl
    exact hw (hi.symm.trans hj)
  refine ⟨fun hstop j hj => ?_, fun j hj k hk => hreturned k (h.polling j hj k hk),
    fun hstop j hj => hreturned j (h.polled hstop j hj), h.assigner, h.drained⟩
  by_cases hji : j = i
  · rwa [hji, update_self]
  · rw [update_of_ne hji]
    exact h.started hstop j hj

theorem ReleaseInv.moveAssigner (hassigner : assigner ≠ .returned) :
    ReleaseInv maxWorkers stop assigner' worker jobChannel :=
  ⟨h.started, h.polling, h.polled, fun hstop => absurd (h.assigner hstop) hassigner, h.drained⟩

theorem ReleaseInv.read {i : Nat} :
    ReleaseInv maxWorkers stop assigner worker (update jobChannel i none) := by
  refine ⟨h.started, h.polling, h.polled, h.assigner, fun j hj => ?_⟩
  by_cases hji : j = i
  · rw [hji, update_self]
  · rw [update_of_ne hji]
    exact h.drained j hj

theorem ReleaseInv.moveStop (hstop : stop ≠ .notCalled)
    (hpolling : ∀ j, stop' = .polling j false → ∀ i < j, worker i = .returned)
    (hpolled : stop'.isPolled = true → ∀ i < maxWorkers, worker i = .returned)
    (hassigner : stop'.isDraining = true → assigner = .returned)
    (hdrained : ∀ i < stop'.drained maxWorkers, jobChannel i = none) :
    ReleaseInv maxWorkers stop' assigner worker jobChannel :=
  ⟨fun _ => h.started hstop, hpolling, hpolled, hassigner, hdrained⟩

theorem ReleaseInv.moveUndrained (hstop : stop ≠ .notCalled)
    (hpolling : ∀ j, stop' = .polling j false → ∀ i < j, worker i = .returned)
    (hpolled : stop'.isPolled = true → ∀ i < maxWorkers, worker i = .returned)
    (hdraining : stop'.isDraining = false) :
    ReleaseInv maxWorkers stop' assigner worker jobChannel := by
  have hnot : stop'.isDraining ≠ true := by simp [hdraining]
  exact h.moveStop hstop hpolling hpolled (fun hd => absurd hd hnot)
    fun i hi => absurd (StopPos.isDraining_of_lt_drained hi) hnot

theorem ReleaseInv.moveUnpolled (hstop : stop ≠ .notCalled)
    (hpolling : ∀ j, stop' = .polling j false → ∀ i < j, worker i = .returned)
    (hpolled : stop'.isPolled = false) :
    ReleaseInv maxWorkers stop' assigner worker jobChannel := by
  refine h.moveUndrained hstop hpolling (fun hp => ?_) ?_
  · rw [hpolled] at hp
    cases hp
  · cases stop' <;> first | rfl | cases hpolled

end

end

namespace DispatcherState

def ReleaseOk (cfg : DispatcherConfig) (σ : DispatcherState) : Prop :=
  ReleaseInv cfg.maxWorkers σ.stop σ.assigner σ.worker σ.jobChannel

theorem isInitial.releaseOk (h : σ.isInitial cfg) : σ.ReleaseOk cfg := by
  rw [ReleaseOk, h.stop]
  exact ⟨fun hne => absurd rfl hne, nofun, nofun, nofun, nofun⟩

theorem ReleaseOk.step (h : σ.ReleaseOk cfg) (hworking : σ.WorkingOk) (ha : σ.enabled cfg a)
    (hcall : a = .call → ∀ i < cfg.maxWorkers, σ.working i = true) :
    (σ.apply cfg a).ReleaseOk cfg := by
  cases a with
  | takeWorker i | stopSelecting | wakeUp i | stopWaiting i =>
    exact h.moveAssigner (by rw [ha.1]; simp)
  | tryNext i => exact h.moveAssigner (by rw [show σ.assigner = _ from ha]; simp)
  | assign i p =>
    have hpos : σ.assigner ≠ .returned := by
      rw [ha.1]
      simp
    refine ⟨h.started, h.polling, h.polled, fun hstop => absurd (h.assigner hstop) hpos,
      fun j hj => ?_⟩
    exact absurd (h.assigner (StopPos.isDraining_of_lt_drained hj)) hpos
  | start i => exact h.moveWorker ha.2 (by simp) (by simp)
  | register i | takeQuit i => exact h.moveWorker ha.1 (by simp) (by simp)
  | takeJob i p =>
    have hread := h.read (i := i)
    exact hread.moveWorker ha.1 (by simp) (by simp)
  | deliver i p | finish i p | signalDone i | leave i => exact h.moveWorker ha (by simp) (by simp)
  | call =>
    refine ⟨fun _ i hi (hstarting : σ.worker i = .starting) => ?_,
      (fun _ hj => by cases hj), (fun hp => by cases hp), (fun hd => by cases hd),
      fun i hi => absurd hi (Nat.not_lt_zero i)⟩
    have hi' := hcall rfl i hi
    rw [hworking i, hstarting] at hi'
    cases hi'
  | giveUp | enter | contextDone =>
    exact h.moveUnpolled (by rw [ha.1]; simp) (fun _ hj => by cases hj) rfl
  | spawn i => exact h.moveUnpolled (by rw [ha.1]; simp) (fun _ hj => by cases hj) rfl
  | spawned =>
    have hpos : σ.stop = .spawning cfg.maxWorkers := ha
    refine h.moveUnpolled (by rw [hpos]; simp) (fun j hj => ?_) rfl
    cases hj
    exact fun i hi => absurd hi (Nat.not_lt_zero i)
  | poll i localRun =>
    obtain ⟨hpos, hi⟩ := ha
    refine h.moveUnpolled (by rw [hpos]; simp) (fun j hj k hk => ?_) rfl
    obtain ⟨rfl, hidle⟩ := StopPos.polling.inj hj
    obtain ⟨rfl, hnot⟩ := Bool.or_eq_false_iff.1 hidle
    rcases Nat.lt_succ_iff_lt_or_eq.1 hk with hlt | rfl
    · exact h.polling i hpos k hlt
    · rw [hworking k] at hnot
      have hstarted := h.started (by rw [hpos]; simp) k hi
      cases hw : σ.worker k with
      | returned => rfl
      | starting => exact absurd hw hstarted
      | _ =>
        rw [hw] at hnot
        cases hnot
  | polled localRun =>
    have hpos : σ.stop = .polling cfg.maxWorkers localRun := ha
    cases localRun with
    | true =>
      refine h.moveUnpolled (by rw [hpos]; simp) (fun j hj => ?_) rfl
      cases hj
      exact fun i hi => absurd hi (Nat.not_lt_zero i)
    | false =>
      exact h.moveUndrained (by rw [hpos]; simp) (fun _ hj => by cases hj)
        (fun _ => h.polling _ hpos) rfl
  | wait =>
    exact h.moveUndrained (by rw [ha.1]; simp) (fun _ hj => by cases hj)
      (fun _ => h.polled (by rw [ha.1]; rfl)) rfl
  | check =>
    have hpos : σ.stop = .checking := ha
    have hreturned := h.polled (by rw [hpos]; rfl)
    simp only [ReleaseOk, apply]
    split
    · rename_i hassigner
      exact h.moveStop (by rw [hpos]; simp) (fun _ hj => by cases hj) (fun _ => hreturned)
        (fun _ => hassigner) fun i hi => absurd hi (Nat.not_lt_zero i)
    · exact h.moveUndrained (by rw [hpos]; simp) (fun _ hj => by cases hj) (fun _ => hreturned) rfl
  | assignerDone =>
    exact h.moveStop (by rw [ha.1]; simp) (fun _ hj => by cases hj)
      (fun _ => h.polled (by rw [ha.1]; rfl)) (fun _ => ha.2)
      fun i hi => absurd hi (Nat.not_lt_zero i)
  | release i p =>
    have hdrained := h.drained
    rw [ha.1] at hdrained
    have hread : ReleaseInv cfg.maxWorkers σ.stop σ.assigner σ.worker
      (update σ.jobChannel i none) := h.read
    refine hread.moveStop (by rw [ha.1]; simp) (fun _ hj => by cases hj)
      (fun _ => h.polled (by rw [ha.1]; rfl))
      (fun _ => h.assigner (by rw [ha.1]; rfl)) fun j hj => ?_
    rcases Nat.lt_succ_iff_lt_or_eq.1 hj with hlt | rfl
    · exact hread.drained j (by rw [ha.1]; exact hlt)
    · rw [update_self]
  | noJob i =>
    refine h.moveStop (by rw [ha.1]; simp) (fun _ hj => by cases hj)
      (fun _ => h.polled (by rw [ha.1]; rfl))
      (fun _ => h.assigner (by rw [ha.1]; rfl)) fun j hj => ?_
    rcases Nat.lt_succ_iff_lt_or_eq.1 hj with hlt | rfl
    · exact h.drained j (by rw [ha.1]; exact hlt)
    · exact ha.2.2
  | signalReleased i =>
    have hpos : σ.stop = .signalling i := ha
    exact h.moveStop (by rw [hpos]; simp) (fun _ hj => by cases hj)
      (fun _ => h.polled (by rw [hpos]; rfl))
      (fun _ => h.assigner (by rw [hpos]; rfl)) fun j hj => h.drained j (by rw [hpos]; exact hj)
  | stopped =>
    have hpos : σ.stop = .releasing cfg.maxWorkers := ha
    exact h.moveStop (by rw [hpos]; simp) (fun _ hj => by cases hj)
      (fun _ => h.polled (by rw [hpos]; rfl))
      (fun _ => h.assigner (by rw [hpos]; rfl)) fun j hj => h.drained j (by rw [hpos]; exact hj)
  | _ => exact h

end DispatcherState

/-- What holds in every state of a run in which all workers had started before `Stop`. -/
structure ReleasingInv (cfg : DispatcherConfig) (σ : DispatcherState) : Prop
    extends DispatcherInv cfg σ where
  handOut : σ.HandOutOk
  discarded : σ.DiscardedOk
  release : σ.ReleaseOk cfg

theorem DispatcherState.isInitial.releasingInv (h : σ.isInitial cfg) : ReleasingInv cfg σ := by
  refine ⟨h.inv, h.handOutOk, fun hrank => ?_, h.releaseOk⟩
  rw [h.stopper] at hrank
  exact absurd hrank (by decide)

theorem ReleasingInv.out_eq_nil (h : ReleasingInv cfg σ) (hstop : σ.stop = .returned) :
    σ.lanes.out = [] := by
  refine h.handOut.holds.eq_nil fun k => ?_
  cases k with
  | assigner =>
    rw [heldJob, h.release.assigner (by rw [hstop]; rfl)]
    rfl
  | channel i =>
    by_cases hi : i < cfg.maxWorkers
    · exact h.release.drained i (by rw [hstop]; exact hi)
    · cases hp : σ.jobChannel i with
      | none => exact hp
      | some p =>
        have hregistered := h.channels.unread i p hp
        refine absurd (h.channels.started i fun hstarting => ?_) hi
        rw [hstarting] at hregistered
        cases hregistered
  | worker i =>
    by_cases hi : i < cfg.maxWorkers
    · rw [heldJob, h.release.polled (by rw [hstop]; rfl) i hi]
      rfl
    · have hstarting : σ.worker i = .starting := by
        by_contra hne
        exact hi (h.channels.started i hne)
      rw [heldJob, hstarting]
      rfl

namespace Sample

/-- Two jobs are enqueued. The worker delivers the first and quits before it reads the second. -/
def stopBeforeRead : List DispatcherAction :=
  ([.start 0, .register 0, .begin (.caller 0) 0 [0, 2], .queue (.caller 0) 0 0 [2],
   .send (.caller 0) 0 0 [2], .receive 0, .enqueue 0, .signalEnqueued, .queue (.caller 0) 2 0 [],
   .send (.caller 0) 2 0 [], .receive 2, .enqueue 2, .signalEnqueued, .takeWorker 0, .tryNext 0,
   .assign 0 0, .takeJob 0 0, .deliver 0 0, .finish 0 0, .signalDone 0, .register 0, .takeWorker 0,
   .tryNext 0, .assign 0 2] : List DispatcherAction) ++ stopWorker ++
  ([.stopDispatcher, .closeScheduler, .stopLoop .message, .stopLoop .retry, .stopLoop .stale,
   .discardQueued, .stoppedLoops, .stopSelecting, .wait, .check, .release 0 2, .signalReleased 0,
   .stopped] : List DispatcherAction)

end Sample

open Sample

end WebhookBroker
