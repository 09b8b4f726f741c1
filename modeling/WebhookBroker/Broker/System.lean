import WebhookBroker.Storage.JobStep
import WebhookBroker.Storage.Query

/-!
# The broker as a system of threads

Any number of nodes run any number of threads over one database: workers in `deliverJob`
(`dispatcher/worker.go`), the passes `recoverJobsFromLongInflight` and `retryQueuedJobs`, the
queueing of dispatched, drained and handed-over jobs (`dispatcher/msgdispatcher.go`), and requests
to `JobController.Post` (`controllers/job.go`). A thread works on copies of jobs that it read or was
given earlier. One step of a thread makes at most one call to the database, and steps of different
threads interleave in any order.

What a thread learns from outside the database is in `Env`: the answer of the consumer's callback,
of the node's pause registry or of its scheduler, and whether the database call fails. All nodes
read the same clock.
-/

namespace WebhookBroker

open Lib

structure Config where
  /-- `connectionTimeout + 250ms` -/
  stopTimeout : Duration
  rationalDelay : Duration
  maxRetry : Nat
  retryBackoffDelays : List Duration

/-- `computeEarliestDelta`, for the attempts from 1 on. -/
def computeEarliestDelta (cfg : Config) (retryAttempt : Nat) : Duration :=
  let backoffsCount := cfg.retryBackoffDelays.length
  if retryAttempt < backoffsCount then
    cfg.retryBackoffDelays.getD (retryAttempt - 1) 0
  else
    wrap64 ((retryAttempt - backoffsCount + 1 : Int) *
      cfg.retryBackoffDelays.getD (backoffsCount - 1) 0)

/-- The `totalDuration` of `shouldEnqueueLongInflightJob`, in 64-bit arithmetic. -/
def totalDuration (cfg : Config) (job : DeliveryJob) : Duration :=
  wrap64 (wrap64 (wrap64 (wrap64 job.incrementalTimeout * second) + cfg.rationalDelay) +
    cfg.stopTimeout)

/-- `shouldEnqueueLongInflightJob` for a job with the given `Listener.Type`. -/
def shouldEnqueueLongInflightJob (cfg : Config) (now : Time) (type : ConsumerType)
    (job : DeliveryJob) : Bool :=
  type == .push ||
    (type == .pull && decide (job.statusChangedAt < now + wrap64 (-totalDuration cfg job)))

/-- Where a thread is, with the copies of jobs it holds. -/
inductive Thread where
  | idle
  /-- `deliverJob`, before `MarkJobInflight` -/
  | deliver (job : DeliveryJob)
  /-- `deliverJob`, after the hand-out was refused -/
  | refused (job : DeliveryJob)
  /-- `deliverJob`, before the call of the consumer's callback -/
  | executing (job : DeliveryJob)
  /-- `deliverJob`, before the settle write -/
  | settling (job : DeliveryJob) (delivered : Bool)
  /-- `recoverJobsFromLongInflight`, before the next page of `GetJobsInflightSince` -/
  | recoverListing (page : Pagination) (jobs : List DeliveryJob)
  /-- `recoverJobsFromLongInflight`, with the jobs that are left -/
  | recovering (jobs : List DeliveryJob)
  | recoverLocked (job : DeliveryJob) (jobs : List DeliveryJob)
  | recoverUnlock (job : DeliveryJob) (jobs : List DeliveryJob)
  /-- `retryQueuedJobs`, before the next page of `GetJobsReadyForInflightSince` -/
  | retryListing (page : Pagination) (jobs : List DeliveryJob)
  /-- `retryQueuedJobs`, with the jobs that are left -/
  | retrying (jobs : List DeliveryJob)
  | retryLocked (job : DeliveryJob) (jobs : List DeliveryJob)
  | retryUnlock (job : DeliveryJob) (jobs : List DeliveryJob)
  /-- the loop of `Dispatch` or `EnqueueJobs` over the jobs to queue -/
  | enqueuing (jobs : List DeliveryJob)
  /-- `JobController.Post`, with the loaded job and the request's body -/
  | posting (job : DeliveryJob) (nextState : JobStatus) (incrementalTimeout : Nat)
deriving DecidableEq

/-- What a step of a thread depends on besides the database: whether its database call fails, and
the answer of the callback, the pause registry or the scheduler. -/
structure Env where
  fault : Bool := false
  answer : Bool := false
deriving DecidableEq

/-- The settle write of `deliverJob`. -/
def settleMark (cfg : Config) (job : DeliveryJob) (delivered : Bool) : Mark :=
  if delivered then .delivered
  else if job.retryAttemptCount ≥ cfg.maxRetry then .dead
  else .retry (computeEarliestDelta cfg (job.retryAttemptCount + 1))

/-- The update that `JobController.Post` makes, if any, and the job it passes. -/
def postMark (job : DeliveryJob) (nextState : JobStatus) (incrementalTimeout : Nat) :
    Option (Mark × DeliveryJob) :=
  if incrementalTimeout ≠ 0 ∧ (nextState ≠ .inflight ∨ job.status = .inflight) then none
  else
    let job := if incrementalTimeout ≠ 0 then { job with incrementalTimeout } else job
    if job.status = .parked then none
    else if job.status = nextState then none
    else match nextState with
      | .inflight => match job.status with
        | .queued => some (.inflight, job)
        | .dead => some (.deadAsInflight, job)
        | _ => none
      | .delivered => some (.delivered, job)
      | .dead => some (.dead, job)
      | _ => none

def DeliveryJob.isPush (job : DeliveryJob) : Bool := job.listener.any (·.type == .push)

/-- The lock that `inLockRun` takes for a job. -/
def DeliveryJob.lock (now : Time) (job : DeliveryJob) : Lock := ⟨job.getLockID, now⟩

section
variable (cfg : Config) (now : Time) (env : Env)

/-- The database operation of a thread's next step. -/
def Thread.op : Thread → Option DbOp
  | .deliver job => some (.mark .inflight now job)
  | .refused job => some (.reparkQueuedJob now job)
  | .settling job delivered => some (.mark (settleMark cfg job delivered) now job)
  | .recovering (job :: _) =>
    if job.listener.any fun l => shouldEnqueueLongInflightJob cfg now l.type job then
      some (.tryLock (job.lock now)) else none
  | .recoverLocked job _ =>
    some (.mark (.retry (computeEarliestDelta cfg (job.retryAttemptCount + 1))) now job)
  | .recoverUnlock job _ => some (.releaseLock job.getLockID)
  | .retrying (job :: _) =>
    if job.listener.any fun l =>
        if l.type = .pull then decide (job.retryAttemptCount ≥ cfg.maxRetry)
        -- the answer is that of `isHeld`
        else !env.answer then
      some (.tryLock (job.lock now)) else none
  | .retryLocked job _ =>
    if !job.isPush then some (.mark .queuedAsDead now job)
    -- the answer is that of the pause registry, here and below
    else if env.answer then some (.reparkQueuedJob now job) else none
  | .retryUnlock job _ => some (.releaseLock job.getLockID)
  | .enqueuing (job :: _) =>
    if job.isPush && env.answer then some (.reparkQueuedJob now job) else none
  | .posting job nextState incrementalTimeout =>
    (postMark job nextState incrementalTimeout).map fun p => .mark p.1 now p.2
  | _ => none

/-- The next page of a listing: the position after the page and the jobs so far, or `none` when
the listing ends, with the jobs so far. -/
def nextPage (db : Db) (p : JobRow → Bool) (page : Pagination) (jobs : List DeliveryJob) :
    Option (Pagination × List DeliveryJob) :=
  let pageJobs := jobPage db p page
  if env.fault || pageJobs.isEmpty then none
  else some ({ page with next := pageJobs.getLast?.map (·.getCursor) }, jobs ++ pageJobs)

/-- Where a thread is after its step, and the jobs it put in its node's queue; `ok` says that the
database operation succeeded (for a repark: that it moved the job). -/
def Thread.next (db : Db) (ok : Bool) : Thread → Thread × List DeliveryJob
  | .idle => (.idle, [])
  | .deliver job => (if ok then .executing (markJobInflight now job).copy else .refused job, [])
  | .refused _ => (.idle, [])
  | .executing job => (.settling job env.answer, [])
  | .settling _ _ => (.idle, [])
  | .recoverListing page jobs =>
    match nextPage env db (isInflightSince now (wrap64 (cfg.stopTimeout + cfg.rationalDelay)))
        page jobs with
    | some (page, jobs) => (.recoverListing page jobs, [])
    | none => (.recovering jobs, [])
  | .recovering [] => (.idle, [])
  | .recovering (job :: jobs) =>
    -- a job without listener panics, which ends the pass
    if job.listener.isNone then (.idle, [])
    else if ok then (.recoverLocked job jobs, []) else (.recovering jobs, [])
  | .recoverLocked job jobs => (.recoverUnlock job jobs, [])
  | .recoverUnlock _ jobs => (.recovering jobs, [])
  | .retryListing page jobs =>
    match nextPage env db (isReadyForInflightSince db now cfg.rationalDelay cfg.maxRetry)
        page jobs with
    | some (page, jobs) => (.retryListing page jobs, [])
    | none => (.retrying jobs, [])
  | .retrying [] => (.idle, [])
  | .retrying (job :: jobs) =>
    if job.listener.isNone then (.idle, [])
    else if ok then (.retryLocked job jobs, []) else (.retrying jobs, [])
  | .retryLocked job jobs => (.retryUnlock job jobs, if job.isPush && !ok then [job] else [])
  | .retryUnlock _ jobs => (.retrying jobs, [])
  | .enqueuing [] => (.idle, [])
  | .enqueuing (job :: jobs) => (.enqueuing jobs, if job.isPush && !ok then [job] else [])
  | .posting _ _ _ => (.idle, [])

end

structure Sys where
  db : Db
  clock : Time
  /-- the copies of jobs in the schedulers of the nodes -/
  held : List DeliveryJob
  threads : Nat → Thread

/-- What happens in a step; the number is that of the thread. -/
inductive Action where
  | tick (d : Nat)
  /-- a worker is given one of the jobs in its node's scheduler -/
  | receive (t : Nat) (index : Nat)
  | recover (t : Nat)
  | retry (t : Nat)
  /-- `JobController.Post` loads its job -/
  | post (t : Nat) (id : String) (nextState : JobStatus) (incrementalTimeout : Nat)
  /-- `Dispatch` stores the jobs it created -/
  | dispatch (t : Nat) (message : Message) (deliveryJobs parkedJobs : List DeliveryJob)
  /-- `DrainPage` moves a page, whose jobs are then queued -/
  | drain (t : Nat) (consumerInternalID : String) (pageSize : Int) (earliestNextAttemptAt : Time)
  /-- a node loads the jobs that another one handed over -/
  | handOver (t : Nat) (ids : List String)
  | run (t : Nat) (env : Env)
  | crash (t : Nat)
  /-- a call of one of the other operations -/
  | request (op : DbOp)

instance : Inhabited Action := ⟨.tick 0⟩

/-- The operations of requests: requeues and deletes of dead jobs, the removal of messages, pauses
and resumes, and the timeout of locks. -/
def DbOp.isRequest (now : Time) : DbOp → Bool
  | .requeueDeadJob t _ | .requeueDeadJobsForConsumer t _ | .pause t _ | .timeoutLocks t _ =>
    decide (t = now)
  | .deleteDeadJob .. | .deleteDeadJobsForConsumer .. | .deleteMessagesAndJobs .. | .resume .. =>
    true
  | _ => false

section
variable [NetUrl] (cfg : Config)

def Sys.opOf (s : Sys) : Action → Option DbOp
  | .run t env => if env.fault then none else (s.threads t).op cfg s.clock env
  | .dispatch _ message deliveryJobs parkedJobs =>
    some (.dispatchMessageWithParking s.clock message deliveryJobs parkedJobs)
  | .drain _ consumerInternalID pageSize earliestNextAttemptAt =>
    some (.drainPage s.clock consumerInternalID pageSize earliestNextAttemptAt)
  | .request op => some op
  | _ => none

/-- A thread starts something new only when it is idle. -/
def Sys.enabled (s : Sys) : Action → Bool
  | .tick _ | .crash _ => true
  | .receive t index => decide (s.threads t = .idle) && decide (index < s.held.length)
  | .recover t | .retry t | .post t _ _ _ | .dispatch t _ _ _ | .drain t _ _ _ | .handOver t _ =>
    decide (s.threads t = .idle)
  | .run t _ => decide (s.threads t ≠ .idle)
  | .request op => op.isRequest s.clock

def Sys.setThread (s : Sys) (t : Nat) (th : Thread) : Sys :=
  { s with threads := fun u => if u = t then th else s.threads u }

/-- The state after an action, without the effect on the database; `ok` says that the database
operation succeeded. -/
def Sys.advance (s : Sys) (ok : Bool) : Action → Sys
  | .tick d => { s with clock := s.clock + d }
  | .receive t index =>
    match s.held[index]? with
    | some job => { s with held := s.held.eraseIdx index }.setThread t (.deliver job)
    | none => s
  | .recover t => s.setThread t (.recoverListing {} [])
  | .retry t => s.setThread t (.retryListing {} [])
  | .post t id nextState incrementalTimeout =>
    match getJobByID s.db id with
    | .ok job => s.setThread t (.posting job nextState incrementalTimeout)
    | .error _ => s
  | .dispatch t _ deliveryJobs _ => if ok then s.setThread t (.enqueuing deliveryJobs) else s
  | .drain t consumerInternalID pageSize earliestNextAttemptAt =>
    match (WebhookBroker.drainPage s.clock consumerInternalID pageSize earliestNextAttemptAt
        s.db).1 with
    | .ok rows => s.setThread t (.enqueuing (rows.map (·.toDeliveryJob s.db)))
    | .error _ => s
  | .handOver t ids => s.setThread t (.enqueuing (getQueuedJobsByIDs s.db ids))
  | .run t env =>
    let next := (s.threads t).next cfg s.clock env s.db ok
    { s with held := s.held ++ next.2 }.setThread t next.1
  | .crash t => s.setThread t .idle
  | .request _ => s

def Sys.step (s : Sys) (a : Action) : Option Sys :=
  if s.enabled a then
    match s.opOf cfg a with
    | none => some (s.advance cfg false a)
    | some op =>
      (DbOp.step s.db op).map fun db => { s.advance cfg (op.succeeds s.db) a with db := db }
  else none

/-- No job is stored and no thread is active; the schedulers may hold any copies. -/
def Sys.isInitial (s : Sys) : Prop := s.db.isInitial ∧ ∀ t, s.threads t = .idle

abbrev SysRun := Run Sys.isInitial (Sys.step cfg)

end

/-! ## A small broker -/

/-- Settings for the concrete runs: time-outs of ten and twenty seconds, two retries. -/
def Sample.config : Config where
  stopTimeout := 10 * second
  rationalDelay := 20 * second
  maxRetry := 2
  retryBackoffDelays := [second]

/-- The system before anything happened, one second after the zero time. -/
def Sample.sys (type : ConsumerType) : Sys where
  db := db type
  clock := second
  held := []
  threads _ := .idle

end WebhookBroker
