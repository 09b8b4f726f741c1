import WebhookBroker.Dispatcher.LaneRun

/-!
# The goroutines of a dispatcher (`dispatcher/msgdispatcher.go`, `dispatcher/worker.go`)

The state has the position of every goroutine and the content of every channel: the loop of the
dispatcher, the loop that assigns jobs to workers, the workers, the recovery loops, the callers of
`Dispatch` and `EnqueueJobs`, `Stop` and the goroutines that it starts. A step is a send or a
receive on a channel, a section under the mutex of the scheduler, a read or a write of `working`, or
a call of the database or of a consumer, which always returns. What such a call returns, which jobs
and messages are due and which case of a `select` is taken is free.

A job is named by the pointer that `NewJob` will give it, in a memory that holds all jobs, as in
`Dispatcher/LaneRun.lean`; the calls of the scheduler are those of `LaneState`. The fields `taken`,
`delivered` and `released` are not in the source: they record which jobs `tryNext` handed out and
for which of them `done` was called, and by whom.
-/

namespace WebhookBroker

open Lib Function

/-- What the constructor of the dispatcher reads from `BrokerConfig`. -/
structure DispatcherConfig where
  maxMessageQueueSize : Nat
  maxWorkers : Nat
  recoveryWorkersEnabled : Bool

/-- `startMessageDispatcher`. -/
inductive DispatchLoop where
  | selecting
  | dispatching (p : JobPtr)
  | signalling
  | returned
deriving DecidableEq

/-- `assignJobsToWorkers`, with the worker whose channel it took from the pool. It closes
`assignerDone` when it returns. -/
inductive AssignLoop where
  | selecting
  | trying (i : Nat)
  | waiting (i : Nat)
  | sending (i : Nat) (p : JobPtr)
  | returned
deriving DecidableEq

/-- The goroutine of `Worker.Start`. -/
inductive WorkLoop where
  | starting
  | registering
  | selecting
  | delivering (p : JobPtr)
  | finishing (p : JobPtr)
  | signalling
  | quitting
  | returned
deriving DecidableEq

/-- The goroutine of `Stop` that calls `Worker.Stop`. -/
inductive StopCall where
  | notStarted
  | calling
  | finishing
  | returned
deriving DecidableEq

/-- The goroutine of `Worker.Stop` that sends to `quit`. -/
inductive QuitCall where
  | notStarted
  | sending
  | returned
deriving DecidableEq

/-- `ensureMessageDispatched`, `retryJob` and `recoverStaleInflight`. -/
inductive RecoveryLoop where
  | message
  | retry
  | stale
deriving DecidableEq

/-- Who queues jobs: a recovery loop, or a caller of `Dispatch` or `EnqueueJobs`. -/
inductive Sender where
  | recovery (l : RecoveryLoop)
  | caller (u : Nat)
deriving DecidableEq

/-- Where a sender is: outside a pass or a call, before the next of its jobs, after which
`messages` due messages remain, or at `jobQueue <- NewJob(job)`. -/
inductive SenderPos where
  | selecting
  | visiting (messages : Nat) (jobs : List JobPtr)
  | sending (p : JobPtr) (messages : Nat) (jobs : List JobPtr)
  | returned
deriving DecidableEq

/-- The goroutine of `Stop` that stops the loops. -/
inductive Stopper where
  | notStarted
  | stoppingDispatcher
  | closing
  | stoppingLoop (l : RecoveryLoop)
  | discarding
  | finishing
  | returned
deriving DecidableEq

/-- `Stop` and `releaseUnreadJobs`. -/
inductive StopPos where
  | notCalled
  | called
  /-- before the goroutine that stops worker `i` -/
  | spawning (i : Nat)
  /-- before the read of `working` of worker `i` -/
  | polling (i : Nat) (localRun : Bool)
  | waiting
  /-- at the outer and at the inner `select` of `releaseUnreadJobs` -/
  | checking
  | awaiting
  /-- before worker `i` in the loop of `releaseUnreadJobs`, and before the signal of `done` -/
  | releasing (i : Nat)
  | signalling (i : Nat)
  | returned
  /-- returned since the context was done -/
  | timedOut
deriving DecidableEq

/-- The goroutines and channels of a dispatcher. -/
structure DispatcherState where
  lanes : LaneState
  /-- the slot of the channel `wake` of the scheduler -/
  wake : Bool
  jobQueue : List JobPtr
  /-- the workers whose channels are in the pool -/
  workerPool : List Nat
  dispatcher : DispatchLoop
  assigner : AssignLoop
  worker : Nat → WorkLoop
  working : Nat → Bool
  jobChannel : Nat → Option JobPtr
  quit : Nat → Bool
  stopCall : Nat → StopCall
  quitter : Nat → QuitCall
  sender : Sender → SenderPos
  schedulerStop : Bool
  stopper : Stopper
  stop : StopPos
  /-- the context of `Stop` is done -/
  timedOut : Bool
  taken : List JobPtr
  delivered : List JobPtr
  released : List JobPtr

inductive DispatcherAction where
  -- `startMessageDispatcher`
  | receive (p : JobPtr)
  | enqueue (p : JobPtr)
  | signalEnqueued
  -- `assignJobsToWorkers`
  | takeWorker (i : Nat)
  | stopSelecting
  | tryNext (i : Nat)
  | wakeUp (i : Nat)
  | stopWaiting (i : Nat)
  | assign (i : Nat) (p : JobPtr)
  -- `Worker.Start`
  | start (i : Nat)
  | register (i : Nat)
  | takeJob (i : Nat) (p : JobPtr)
  | deliver (i : Nat) (p : JobPtr)
  | finish (i : Nat) (p : JobPtr)
  | signalDone (i : Nat)
  | takeQuit (i : Nat)
  | leave (i : Nat)
  -- `Worker.Stop`
  | stopWorker (i : Nat)
  | stoppedWorker (i : Nat)
  | sendQuit (i : Nat)
  -- the recovery loops, `Dispatch` and `EnqueueJobs`
  | begin (s : Sender) (messages : Nat) (jobs : List JobPtr)
  | dispatch (s : Sender) (messages : Nat) (jobs : List JobPtr)
  | skip (s : Sender) (p : JobPtr) (messages : Nat) (jobs : List JobPtr)
  | queue (s : Sender) (p : JobPtr) (messages : Nat) (jobs : List JobPtr)
  | send (s : Sender) (p : JobPtr) (messages : Nat) (jobs : List JobPtr)
  | handOver (s : Sender) (p : JobPtr) (messages : Nat) (jobs : List JobPtr)
  | panics (l : RecoveryLoop) (p : JobPtr) (messages : Nat) (jobs : List JobPtr)
  | endPass (s : Sender)
  -- the goroutine of `Stop` that stops the loops
  | stopDispatcher
  | closeScheduler
  | stopLoop (l : RecoveryLoop)
  | discardQueued
  | stoppedLoops
  -- `Stop` and `releaseUnreadJobs`
  | call
  | giveUp
  | enter
  | spawn (i : Nat)
  | spawned
  | poll (i : Nat) (localRun : Bool)
  | polled (localRun : Bool)
  | wait
  | check
  | assignerDone
  | contextDone
  | release (i : Nat) (p : JobPtr)
  | noJob (i : Nat)
  | signalReleased (i : Nat)
  | stopped
  -- the time limit of `Stop` has passed
  | timeOut
deriving DecidableEq, Inhabited

def RecoveryLoop.afterStop : RecoveryLoop → Stopper
  | .message => .stoppingLoop .retry
  | .retry => .stoppingLoop .stale
  | .stale => .discarding

/-- The passes over messages begin with messages, all others and the calls with jobs. -/
def Sender.begins (messages : Nat) (jobs : List JobPtr) : Sender → Bool
  | .recovery .message => jobs.isEmpty
  | _ => messages == 0

/-- Can the sender queue the job? `queueJob` and `EnqueueJobs` do so for push consumers only, the
retry pass leaves out the jobs that the scheduler holds, and the stale pass queues nothing. -/
def Sender.canQueue (s : LaneScheduler) (p : JobPtr) : Sender → Bool
  | .recovery .stale => false
  | .recovery .retry => isPush && !s.isHeld (s.jobAt p).data
  | _ => isPush
where
  isPush : Bool := (s.jobAt p).data.listener.any fun consumer => consumer.type == .push

namespace DispatcherState

def enabled (cfg : DispatcherConfig) (σ : DispatcherState) : DispatcherAction → Prop
  | .receive p => σ.dispatcher = .selecting ∧ σ.jobQueue.head? = some p
  | .enqueue p => σ.dispatcher = .dispatching p
  | .signalEnqueued => σ.dispatcher = .signalling
  | .takeWorker i => σ.assigner = .selecting ∧ σ.workerPool.head? = some i
  | .stopSelecting => σ.assigner = .selecting ∧ σ.schedulerStop = true
  | .tryNext i => σ.assigner = .trying i
  | .wakeUp i => σ.assigner = .waiting i ∧ σ.wake = true
  | .stopWaiting i => σ.assigner = .waiting i ∧ σ.schedulerStop = true
  | .assign i p => σ.assigner = .sending i p ∧ σ.jobChannel i = none
  | .start i => i < cfg.maxWorkers ∧ σ.worker i = .starting
  | .register i => σ.worker i = .registering ∧ σ.workerPool.length < cfg.maxWorkers
  | .takeJob i p => σ.worker i = .selecting ∧ σ.jobChannel i = some p
  | .deliver i p => σ.worker i = .delivering p
  | .finish i p => σ.worker i = .finishing p
  | .signalDone i => σ.worker i = .signalling
  | .takeQuit i => σ.worker i = .selecting ∧ σ.quit i = true
  | .leave i => σ.worker i = .quitting
  | .stopWorker i => σ.stopCall i = .calling
  | .stoppedWorker i => σ.stopCall i = .finishing
  | .sendQuit i => σ.quitter i = .sending ∧ σ.quit i = false
  | .begin s messages jobs => σ.sender s = .selecting ∧ s.begins messages jobs = true
  | .dispatch s messages _ => σ.sender s = .visiting (messages + 1) []
  | .skip s p messages jobs => σ.sender s = .visiting messages (p :: jobs)
  | .queue s p messages jobs =>
    σ.sender s = .visiting messages (p :: jobs) ∧ s.canQueue σ.lanes.sched p = true
  | .send s p messages jobs =>
    σ.sender s = .sending p messages jobs ∧ σ.jobQueue.length < cfg.maxMessageQueueSize
  | .handOver s p messages jobs =>
    σ.sender s = .sending p messages jobs ∧ σ.jobQueue = [] ∧ σ.dispatcher = .selecting
  | .panics l p messages jobs =>
    σ.sender (.recovery l) = .visiting messages (p :: jobs) ∧
      (σ.lanes.sched.jobAt p).data.listener = none
  | .endPass s => σ.sender s = .visiting 0 []
  | .stopDispatcher => σ.stopper = .stoppingDispatcher ∧ σ.dispatcher = .selecting
  | .closeScheduler => σ.stopper = .closing
  | .stopLoop l => σ.stopper = .stoppingLoop l ∧ σ.sender (.recovery l) = .selecting
  | .discardQueued => σ.stopper = .discarding
  | .stoppedLoops => σ.stopper = .finishing
  | .call => σ.stop = .notCalled
  | .giveUp => σ.stop = .called ∧ σ.timedOut = true
  | .enter => σ.stop = .called ∧ σ.timedOut = false
  | .spawn i => σ.stop = .spawning i ∧ i < cfg.maxWorkers
  | .spawned => σ.stop = .spawning cfg.maxWorkers
  | .poll i localRun => σ.stop = .polling i localRun ∧ i < cfg.maxWorkers
  | .polled localRun => σ.stop = .polling cfg.maxWorkers localRun
  | .wait => σ.stop = .waiting ∧ σ.stopper = .returned ∧
    ∀ i < cfg.maxWorkers, σ.stopCall i = .returned
  | .check => σ.stop = .checking
  | .assignerDone => σ.stop = .awaiting ∧ σ.assigner = .returned
  | .contextDone => σ.stop = .awaiting ∧ σ.timedOut = true
  | .release i p => σ.stop = .releasing i ∧ i < cfg.maxWorkers ∧ σ.jobChannel i = some p
  | .noJob i => σ.stop = .releasing i ∧ i < cfg.maxWorkers ∧ σ.jobChannel i = none
  | .signalReleased i => σ.stop = .signalling i
  | .stopped => σ.stop = .releasing cfg.maxWorkers
  | .timeOut => σ.stop ≠ .notCalled

instance (cfg : DispatcherConfig) (σ : DispatcherState) (a : DispatcherAction) :
    Decidable (σ.enabled cfg a) := by
  cases a <;> (unfold enabled; infer_instance)

def done (σ : DispatcherState) (p : JobPtr) : LaneState where
  sched := σ.lanes.sched.done p
  out := σ.lanes.out.erase p

def apply (cfg : DispatcherConfig) (σ : DispatcherState) : DispatcherAction → DispatcherState
  | .receive p => { σ with dispatcher := .dispatching p, jobQueue := σ.jobQueue.tail }
  | .enqueue p =>
    { σ with
      lanes := { σ.lanes with sched := (σ.lanes.sched.enqueue p).2 }
      -- a job that is dropped sends no signal
      dispatcher := if (σ.lanes.sched.enqueue p).1 then .signalling else .selecting }
  | .signalEnqueued => { σ with wake := true, dispatcher := .selecting }
  | .takeWorker i => { σ with assigner := .trying i, workerPool := σ.workerPool.tail }
  | .stopSelecting => { σ with assigner := .returned }
  | .tryNext i =>
    { σ with
      lanes :=
        { sched := σ.lanes.sched.tryNext.2
          out := σ.lanes.sched.tryNext.1.toList ++ σ.lanes.out }
      assigner := match σ.lanes.sched.tryNext.1 with
        | some p => .sending i p
        | none => .waiting i
      taken := σ.taken ++ σ.lanes.sched.tryNext.1.toList }
  | .wakeUp i => { σ with wake := false, assigner := .trying i }
  | .stopWaiting _ => { σ with assigner := .returned }
  | .assign i p =>
    { σ with
      assigner := .selecting
      jobChannel := update σ.jobChannel i (some p) }
  | .start i =>
    { σ with
      worker := update σ.worker i .registering
      working := update σ.working i true }
  | .register i =>
    { σ with
      worker := update σ.worker i .selecting
      workerPool := σ.workerPool ++ [i] }
  | .takeJob i p =>
    { σ with
      worker := update σ.worker i (.delivering p)
      jobChannel := update σ.jobChannel i none }
  | .deliver i p => { σ with worker := update σ.worker i (.finishing p) }
  | .finish i p =>
    { σ with
      lanes := σ.done p
      worker := update σ.worker i .signalling
      delivered := σ.delivered ++ [p] }
  | .signalDone i =>
    { σ with wake := true, worker := update σ.worker i .registering }
  | .takeQuit i =>
    { σ with
      worker := update σ.worker i .quitting
      quit := update σ.quit i false }
  | .leave i =>
    { σ with
      worker := update σ.worker i .returned
      working := update σ.working i false }
  | .stopWorker i =>
    { σ with
      stopCall := update σ.stopCall i .finishing
      quitter := update σ.quitter i .sending }
  | .stoppedWorker i => { σ with stopCall := update σ.stopCall i .returned }
  | .sendQuit i =>
    { σ with
      quit := update σ.quit i true
      quitter := update σ.quitter i .returned }
  | .begin s messages jobs | .dispatch s messages jobs | .skip s _ messages jobs =>
    { σ with sender := update σ.sender s (.visiting messages jobs) }
  | .queue s p messages jobs =>
    { σ with sender := update σ.sender s (.sending p messages jobs) }
  | .send s p messages jobs =>
    { σ with
      jobQueue := σ.jobQueue ++ [p]
      sender := update σ.sender s (.visiting messages jobs) }
  | .handOver s p messages jobs =>
    { σ with
      dispatcher := .dispatching p
      sender := update σ.sender s (.visiting messages jobs) }
  | .panics l _ _ _ => { σ with sender := update σ.sender (.recovery l) .selecting }
  | .endPass s => { σ with sender := update σ.sender s .selecting }
  | .stopDispatcher => { σ with dispatcher := .returned, stopper := .closing }
  | .closeScheduler =>
    { σ with
      schedulerStop := true
      stopper := if cfg.recoveryWorkersEnabled then .stoppingLoop .message else .discarding }
  | .stopLoop l =>
    { σ with
      sender := update σ.sender (.recovery l) .returned
      stopper := l.afterStop }
  | .discardQueued =>
    { σ with
      lanes := { σ.lanes with sched := σ.lanes.sched.discardQueued }
      stopper := .finishing }
  | .stoppedLoops => { σ with stopper := .returned }
  | .call => { σ with stop := .called }
  | .giveUp => { σ with stop := .timedOut }
  | .enter => { σ with stop := .spawning 0, stopper := .stoppingDispatcher }
  | .spawn i =>
    { σ with
      stop := .spawning (i + 1)
      stopCall := update σ.stopCall i .calling }
  | .spawned => { σ with stop := .polling 0 false }
  | .poll i localRun => { σ with stop := .polling (i + 1) (localRun || σ.working i) }
  | .polled localRun => { σ with stop := if localRun then .polling 0 false else .waiting }
  | .wait => { σ with stop := .checking }
  | .check => { σ with stop := if σ.assigner = .returned then .releasing 0 else .awaiting }
  | .assignerDone => { σ with stop := .releasing 0 }
  | .contextDone => { σ with stop := .timedOut }
  | .release i p =>
    { σ with
      lanes := σ.done p
      jobChannel := update σ.jobChannel i none
      stop := .signalling i
      released := σ.released ++ [p] }
  | .noJob i => { σ with stop := .releasing (i + 1) }
  | .signalReleased i => { σ with wake := true, stop := .releasing (i + 1) }
  | .stopped => { σ with stop := .returned }
  | .timeOut => { σ with timedOut := true }

def step (cfg : DispatcherConfig) (σ : DispatcherState) (a : DispatcherAction) :
    Option DispatcherState :=
  if σ.enabled cfg a then some (σ.apply cfg a) else none

/-- `NewMessageDispatcher`: the goroutines are started, and `Stop` is not called yet. -/
structure isInitial (cfg : DispatcherConfig) (σ : DispatcherState) : Prop where
  lanes : σ.lanes.isInitial
  jobQueue : σ.jobQueue = []
  workerPool : σ.workerPool = []
  dispatcher : σ.dispatcher = .selecting
  assigner : σ.assigner = .selecting
  worker : ∀ i, σ.worker i = .starting
  working : ∀ i, σ.working i = false
  jobChannel : ∀ i, σ.jobChannel i = none
  quit : ∀ i, σ.quit i = false
  stopCall : ∀ i, σ.stopCall i = .notStarted
  quitter : ∀ i, σ.quitter i = .notStarted
  recovery : ∀ l, σ.sender (.recovery l) =
    if cfg.recoveryWorkersEnabled then .selecting else .returned
  caller : ∀ u, σ.sender (.caller u) = .selecting
  schedulerStop : σ.schedulerStop = false
  stopper : σ.stopper = .notStarted
  stop : σ.stop = .notCalled
  timedOut : σ.timedOut = false
  logs : σ.taken = [] ∧ σ.delivered = [] ∧ σ.released = []

theorem step_eq_some {cfg : DispatcherConfig} {σ σ' : DispatcherState} {a : DispatcherAction} :
    σ.step cfg a = some σ' ↔ σ.enabled cfg a ∧ σ' = σ.apply cfg a := by
  unfold step
  split
  · rename_i h
    rw [Option.some.injEq, eq_comm]
    exact (and_iff_right h).symm
  · rename_i h
    exact ⟨nofun, fun h' => absurd h'.1 h⟩

end DispatcherState

abbrev DispatcherRun (cfg : DispatcherConfig) :=
  Run (DispatcherState.isInitial cfg) (DispatcherState.step cfg)

/-- What holds at the start and is kept by every step that can be taken holds in every state of a
run. -/
theorem DispatcherRun.invariant {cfg : DispatcherConfig} (r : DispatcherRun cfg)
    {P : DispatcherState → Prop} (hinit : ∀ σ, σ.isInitial cfg → P σ)
    (hstep : ∀ σ a, P σ → σ.enabled cfg a → P (σ.apply cfg a)) {n : Nat} (hn : n ≤ r.len) :
    P (r.state n) := by
  refine Run.invariant r hinit (fun σ a σ' h hσ' => ?_) n hn
  obtain ⟨ha, rfl⟩ := DispatcherState.step_eq_some.1 hσ'
  exact hstep σ a h ha

end WebhookBroker
