import WebhookBroker.Dispatcher.Queue

/-!
# The lane scheduler (`dispatcher/lanes.go`)

Every consumer has a lane: a queue of waiting jobs, the number of its running deliveries and a
limit on them. The scheduler reaches a lane from the map `lanes` and from the list `ready`, so
lanes are kept in a memory `laneAt` and a lane that is deleted and created again is another one.
Each function is the section that its source runs under the mutex. The wake-up signal that
`enqueue` and `done` send afterwards is in `Dispatcher/LaneWake.lean`. The counter `seq` is taken
as unbounded.
-/

namespace WebhookBroker

open Lib Function

structure ConsumerLane where
  key : String
  channelID : String
  consumerID : String
  queue : PriorityQueue
  inflight : Nat
  limit : Nat
  ready : Bool
deriving DecidableEq

def ConsumerLane.hasRoom (lane : ConsumerLane) : Bool :=
  lane.limit == 0 || decide (lane.inflight < lane.limit)

def ConsumerLane.canRun (lane : ConsumerLane) : Bool :=
  decide (lane.queue.length > 0) && lane.hasRoom

theorem ConsumerLane.canRun_iff {lane : ConsumerLane} :
    lane.canRun = true ↔ lane.queue ≠ [] ∧ (lane.limit ≠ 0 → lane.inflight < lane.limit) := by
  simp only [canRun, hasRoom, Bool.and_eq_true, Bool.or_eq_true, beq_iff_eq, decide_eq_true_eq,
    gt_iff_lt, List.length_pos_iff, or_iff_not_imp_left, ne_eq]

abbrev LanePtr := Nat

structure HeldJob where
  job : JobPtr
  running : Bool
deriving DecidableEq

/-- The gauges that the scheduler keeps, those of a consumer by channel id and consumer id. -/
structure Metrics where
  queuedJobCount : Int
  consumerQueuedJobCount : String × String → Int
  consumerInflightJobCount : String × String → Int

/-- `Add` to the gauge of a vector that the labels choose, as the package `prometheus` documents. -/
def addGauge (gauge : String × String → Int) (channelID consumerID : String) (n : Int) :
    String × String → Int :=
  update gauge (channelID, consumerID) (gauge (channelID, consumerID) + n)

/-- `laneScheduler`, with the memory of its lanes and jobs. -/
structure LaneScheduler where
  lanes : AList fun _ : String => LanePtr
  ready : List LanePtr
  tracked : AList fun _ : String => HeldJob
  seq : Nat
  limitFor : String → String → Nat
  metrics : Metrics
  laneAt : LanePtr → ConsumerLane
  nextLane : LanePtr
  jobAt : JobPtr → Job

/-- `laneIdentity`: the channel id, the consumer id and the key. A job without listener panics. -/
def laneIdentity (job : Job) : String × String × String :=
  let consumerID := (job.data.listener.map (·.consumerID)).getD ""
  let channelID :=
    match job.data.listener.bind (·.consumingFrom) with
    | some channel => channel.channelID
    | none => ((job.data.message.bind (·.broadcastedTo)).map (·.channelID)).getD ""
  (channelID, consumerID, channelID ++ "/" ++ consumerID)

namespace LaneScheduler

variable (s : LaneScheduler)

def idOf (p : JobPtr) : String := (s.jobAt p).data.id.string

def keyOf (p : JobPtr) : String := (laneIdentity (s.jobAt p)).2.2

def setLane (ptr : LanePtr) (lane : ConsumerLane) : LaneScheduler :=
  { s with laneAt := update s.laneAt ptr lane }

def setJob (p : JobPtr) (job : Job) : LaneScheduler :=
  { s with jobAt := update s.jobAt p job }

def markReadyLocked (ptr : LanePtr) : LaneScheduler :=
  let lane := s.laneAt ptr
  if !lane.ready && lane.canRun then
    { s.setLane ptr { lane with ready := true } with ready := s.ready ++ [ptr] }
  else s

/-- The lane of a key, which is created if there is none. -/
def laneFor (channelID consumerID key : String) : LanePtr × LaneScheduler :=
  match s.lanes.lookup key with
  | some ptr => (ptr, s)
  | none =>
    let lane := { key, channelID, consumerID, queue := [], inflight := 0
                  limit := s.limitFor channelID consumerID, ready := false }
    (s.nextLane, { s.setLane s.nextLane lane with
      lanes := s.lanes.insert key s.nextLane, nextLane := s.nextLane + 1 })

/-- Put a job in the queue of a lane. The gauge is the one of the job's own consumer. -/
def enqueueIn (ptr : LanePtr) (channelID consumerID : String) (p : JobPtr) : LaneScheduler :=
  let lane := s.laneAt ptr
  { s.setLane ptr { lane with queue := lane.queue.enqueue s.jobAt p } with
    metrics := { s.metrics with
      queuedJobCount := s.metrics.queuedJobCount + 1
      consumerQueuedJobCount :=
        addGauge s.metrics.consumerQueuedJobCount channelID consumerID 1 } }

/-- `enqueue`, up to its unlock. -/
def enqueue (p : JobPtr) : Bool × LaneScheduler :=
  let job := s.jobAt p
  let jobID := job.data.id.string
  match s.tracked.lookup jobID with
  | some held =>
    let heldCopy := s.jobAt held.job
    if !held.running && decide (job.data.retryAttemptCount > heldCopy.data.retryAttemptCount) then
      (false, s.setJob held.job { heldCopy with data := job.data })
    else (false, s)
  | none =>
    let (channelID, consumerID, key) := laneIdentity job
    let s := { s with tracked := s.tracked.insert jobID { job := p, running := false } }
    let (ptr, s) := s.laneFor channelID consumerID key
    let s := { s with seq := s.seq + 1 }
    let s := s.setJob p { job with seq := s.seq }
    (true, (s.enqueueIn ptr channelID consumerID p).markReadyLocked ptr)

def isHeld (job : DeliveryJob) : Bool :=
  match s.tracked.lookup job.id.string with
  | some held =>
    held.running || decide ((s.jobAt held.job).data.retryAttemptCount ≥ job.retryAttemptCount)
  | none => false

def queuedLen : Nat := (s.lanes.entries.map fun e => (s.laneAt e.2).queue.length).sum

end LaneScheduler

/-! ## Serving a lane -/

/-- What the loop of `tryNext` over the ready lanes has so far: the lanes that can run, the best of
them with its priority, and the lanes. -/
structure ReadyScan where
  runnable : List LanePtr
  best : Option (Nat × Nat)
  laneAt : LanePtr → ConsumerLane

def peekPriority (jobAt : JobPtr → Job) (lane : ConsumerLane) : Nat :=
  (lane.queue.peek.map fun p => (jobAt p).priority).getD 0

/-- One round of the loop of `tryNext` over the ready lanes. -/
def ReadyScan.visit (jobAt : JobPtr → Job) (scan : ReadyScan) (ptr : LanePtr) : ReadyScan :=
  let lane := scan.laneAt ptr
  if !lane.canRun then
    { scan with laneAt := update scan.laneAt ptr { lane with ready := false } }
  else
    let runnable := scan.runnable ++ [ptr]
    let priority := peekPriority jobAt lane
    let best :=
      if scan.best.all fun b => decide (priority > b.2) then some (runnable.length - 1, priority)
      else scan.best
    { scan with runnable, best }

namespace LaneScheduler

variable (s : LaneScheduler)

/-- Take a job out of the queue of a lane to run it. -/
def dequeueFrom (ptr : LanePtr) : Option (JobPtr × LaneScheduler) :=
  let lane := s.laneAt ptr
  (lane.queue.dequeue s.jobAt).map fun (p, queue) =>
    let jobID := s.idOf p
    (p, { s.setLane ptr { lane with queue, ready := false, inflight := lane.inflight + 1 } with
      tracked := match s.tracked.lookup jobID with
        | some held => s.tracked.insert jobID { held with running := true }
        | none => s.tracked
      metrics := { s.metrics with
        queuedJobCount := s.metrics.queuedJobCount - 1
        consumerQueuedJobCount :=
          addGauge s.metrics.consumerQueuedJobCount lane.channelID lane.consumerID (-1)
        consumerInflightJobCount :=
          addGauge s.metrics.consumerInflightJobCount lane.channelID lane.consumerID 1 } })

def tryNext : Option JobPtr × LaneScheduler :=
  let scan := s.ready.foldl (ReadyScan.visit s.jobAt)
    { runnable := [], best := none, laneAt := s.laneAt }
  let s := { s with ready := scan.runnable, laneAt := scan.laneAt }
  match scan.best.bind fun b => (s.ready[b.1]?).map fun ptr => (b.1, ptr) with
  | none => (none, s)
  | some (best, ptr) =>
    let s := { s with ready := s.ready.eraseIdx best }
    match s.dequeueFrom ptr with
    -- not reached, since a lane that can run has a waiting job
    | none => (none, s)
    | some (p, s) => (some p, s.markReadyLocked ptr)

/-- `done`, up to its unlock. -/
def done (p : JobPtr) : LaneScheduler :=
  let key := s.keyOf p
  let s := { s with tracked := s.tracked.erase (s.idOf p) }
  match s.lanes.lookup key with
  | none => s
  | some ptr =>
    let lane := s.laneAt ptr
    let s :=
      if lane.inflight > 0 then
        { s.setLane ptr { lane with inflight := lane.inflight - 1 } with
          metrics := { s.metrics with
            consumerInflightJobCount :=
              addGauge s.metrics.consumerInflightJobCount lane.channelID lane.consumerID (-1) } }
      else s
    let lane := s.laneAt ptr
    if lane.queue.length == 0 && lane.inflight == 0 && !lane.ready then
      { s with lanes := s.lanes.erase key }
    else s.markReadyLocked ptr

/-- Drop a job that was taken out of the queue of a lane. -/
def discardJob (ptr : LanePtr) (p : JobPtr) (queue : PriorityQueue) : LaneScheduler :=
  let lane := s.laneAt ptr
  { s.setLane ptr { lane with queue } with
    tracked := s.tracked.erase (s.idOf p)
    metrics := { s.metrics with
      queuedJobCount := s.metrics.queuedJobCount - 1
      consumerQueuedJobCount :=
        addGauge s.metrics.consumerQueuedJobCount lane.channelID lane.consumerID (-1) } }

/-- The loop of `discardQueued` over the queue of a lane, for at most `n` rounds. -/
def discardJobs (ptr : LanePtr) : Nat → LaneScheduler → LaneScheduler
  | 0, s => s
  | n + 1, s =>
    match (s.laneAt ptr).queue.dequeue s.jobAt with
    | none => s
    | some (p, queue) => discardJobs ptr n (s.discardJob ptr p queue)

/-- One round of the loop of `discardQueued` over the lanes. -/
def discardLane (key : String) (ptr : LanePtr) : LaneScheduler :=
  let s := discardJobs ptr (s.laneAt ptr).queue.length s
  let s := s.setLane ptr { s.laneAt ptr with ready := false }
  if (s.laneAt ptr).inflight == 0 then { s with lanes := s.lanes.erase key } else s

def discardQueued : LaneScheduler :=
  { s.lanes.entries.foldl (fun s e => s.discardLane e.1 e.2) s with ready := [] }

end LaneScheduler

/-- `newLaneScheduler`, in a memory that holds the given jobs. -/
def newLaneScheduler (limitFor : String → String → Nat) (jobAt : JobPtr → Job) (metrics : Metrics) :
    LaneScheduler where
  lanes := ∅
  ready := []
  tracked := ∅
  seq := 0
  limitFor := limitFor
  metrics := metrics
  laneAt _ := { key := "", channelID := "", consumerID := "", queue := [], inflight := 0
                limit := 0, ready := false }
  nextLane := 0
  jobAt := jobAt

end WebhookBroker
