import WebhookBroker.Data.Common

/-!
# The records of the broker (`storage/data`)

Channels, producers, consumers, messages, delivery jobs and dispatch pauses, with the constructors
and the validity checks the storage layer calls before it writes. Go pointers that may be `nil` are
options. `url.Parse` is not part of the repository: `NetUrl` stands for its answer.
-/

namespace WebhookBroker

open List

/-- `url.Parse` of the standard library, reduced to what the repository asks of it: does the text
parse, and is the URL absolute (`IsAbs`)? -/
class NetUrl where
  isAbs : String → Bool

/-- `BasePaginateable.QuickFix`, with the clock reading and the id that it would generate. -/
def BasePaginateable.quickFix (now : Time) (newID : Xid) (p : BasePaginateable) :
    BasePaginateable where
  id := if p.id = Xid.nil then newID else p.id
  createdAt := if p.createdAt = 0 then now else p.createdAt
  updatedAt := if p.updatedAt = 0 then now else p.updatedAt

/-- `setValIfBothNotEmpty`: the fallback replaces an empty text. -/
def setValIfBothNotEmpty (src fallback : String) : String := if src.isEmpty then fallback else src

structure MessageStakeholder extends BasePaginateable where
  name : String
  token : String
deriving DecidableEq

structure Channel extends MessageStakeholder where
  channelID : String
deriving DecidableEq

def Channel.isInValidState (channel : Channel) : Bool :=
  !(channel.channelID.isEmpty || channel.name.isEmpty || channel.token.isEmpty)

def Channel.quickFix (now : Time) (newID : Xid) (channel : Channel) : Channel :=
  { channel with
    toBasePaginateable := channel.toBasePaginateable.quickFix now newID
    name := setValIfBothNotEmpty channel.name channel.channelID }

structure Producer extends MessageStakeholder where
  producerID : String
deriving DecidableEq

def Producer.isInValidState (prod : Producer) : Bool :=
  !(prod.producerID.isEmpty || prod.name.isEmpty || prod.token.isEmpty)

def Producer.quickFix (now : Time) (newID : Xid) (prod : Producer) : Producer :=
  { prod with
    toBasePaginateable := prod.toBasePaginateable.quickFix now newID
    name := setValIfBothNotEmpty prod.name prod.producerID }

inductive ConsumerType where
  | pull
  | push
deriving DecidableEq

def getConsumerTypeFromString : String → Option ConsumerType
  | "pull" => some .pull
  | "push" => some .push
  | "" => some .push
  | _ => none

structure Consumer extends MessageStakeholder where
  consumerID : String
  callbackURL : String
  consumingFrom : Option Channel
  type : ConsumerType
deriving DecidableEq

def Consumer.isInValidState [NetUrl] (consumer : Consumer) : Bool :=
  if consumer.consumerID.isEmpty || consumer.name.isEmpty || consumer.token.isEmpty ||
      !consumer.consumingFrom.any (·.isInValidState) then
    false
  else
    NetUrl.isAbs consumer.callbackURL

def Consumer.quickFix (now : Time) (newID : Xid) (consumer : Consumer) : Consumer :=
  { consumer with
    toBasePaginateable := consumer.toBasePaginateable.quickFix now newID
    name := setValIfBothNotEmpty consumer.name consumer.consumerID }

def Consumer.getChannelIDSafely (consumer : Consumer) : String :=
  (consumer.consumingFrom.map (·.channelID)).getD ""

/-- `MsgStatus`; `other` is any integer that is not one of the two constants. -/
inductive MsgStatus where
  | acknowledged
  | dispatched
  | other (value : Int)
deriving DecidableEq

/-- `HeadersMap`, as its entries in the order of their keys. -/
abbrev HeadersMap := List (String × String)

structure Message extends BasePaginateable where
  messageID : String
  payload : String
  contentType : String
  priority : Nat
  status : MsgStatus
  broadcastedTo : Option Channel
  producedBy : Option Producer
  receivedAt : Time
  outboxedAt : Time
  headers : HeadersMap := []
deriving DecidableEq

/-- `Message.QuickFix`, with the clock reading and the ids that it would generate. -/
def Message.quickFix (now : Time) (newID newMessageID : Xid) (message : Message) : Message :=
  let base := message.toBasePaginateable.quickFix now newID
  let receivedAt := if message.receivedAt = 0 then now else message.receivedAt
  { message with
    toBasePaginateable := { base with
      createdAt := if receivedAt < base.createdAt then receivedAt else base.createdAt }
    receivedAt
    outboxedAt := if message.outboxedAt = 0 then now else message.outboxedAt
    status := match message.status with
      | .other _ => .acknowledged
      | status => status
    messageID := if message.messageID.isEmpty then newMessageID.string else message.messageID }

def Message.isInValidState (message : Message) : Bool :=
  if message.messageID.isEmpty || message.payload.isEmpty || message.contentType.isEmpty then false
  else if !message.broadcastedTo.any (·.isInValidState) ||
      !message.producedBy.any (·.isInValidState) then false
  else match message.status with
    | .acknowledged => message.receivedAt != 0
    | .dispatched => message.outboxedAt != 0
    | .other _ => false

/-- `NewMessage`: the message and whether it is valid (else
`ErrInsufficientInformationForCreating`). -/
def newMessage (now : Time) (newID newMessageID : Xid) (channel : Option Channel)
    (producedBy : Option Producer) (payload contentType : String) (headers : HeadersMap) :
    Message × Bool :=
  let message : Message := {
    id := Xid.nil, createdAt := 0, updatedAt := 0, messageID := "", payload, contentType,
    priority := 0, status := .other 0, broadcastedTo := channel, producedBy, receivedAt := 0,
    outboxedAt := 0, headers }
  let message := message.quickFix now newID newMessageID
  (message, message.isInValidState)

/-- `ScheduledMsgStatus`; `other` is any integer that is not one of the two constants. -/
inductive ScheduledMsgStatus where
  | scheduled
  | dispatched
  | other (value : Int)
deriving DecidableEq

structure ScheduledMessage extends BasePaginateable where
  messageID : String
  payload : String
  contentType : String
  priority : Nat
  status : ScheduledMsgStatus
  broadcastedTo : Option Channel
  producedBy : Option Producer
  dispatchSchedule : Time
  dispatchedAt : Time
  headers : HeadersMap
deriving DecidableEq

/-- `ScheduledMessage.QuickFix`, with the clock reading and the ids that it would generate. -/
def ScheduledMessage.quickFix (now : Time) (newID newMessageID : Xid) (message : ScheduledMessage) :
    ScheduledMessage :=
  { message with
    toBasePaginateable := message.toBasePaginateable.quickFix now newID
    dispatchSchedule :=
      if message.dispatchSchedule = 0 then now + 120 * second else message.dispatchSchedule
    status := match message.status with
      | .other _ => .scheduled
      | status => status
    messageID := if message.messageID.isEmpty then newMessageID.string else message.messageID }

def ScheduledMessage.isInValidState (message : ScheduledMessage) : Bool :=
  if message.messageID.isEmpty || message.payload.isEmpty || message.contentType.isEmpty then false
  else if !message.broadcastedTo.any (·.isInValidState) ||
      !message.producedBy.any (·.isInValidState) then false
  else match message.status with
    | .scheduled => message.dispatchSchedule != 0
    | .dispatched => message.dispatchedAt != 0
    | .other _ => false

/-- `NewScheduledMessage`: the message and whether it is valid (else
`ErrInsufficientInformationForCreating`). -/
def newScheduledMessage (now : Time) (newID newMessageID : Xid) (channel : Option Channel)
    (producedBy : Option Producer) (payload contentType : String) (dispatchSchedule : Time)
    (headers : HeadersMap) : ScheduledMessage × Bool :=
  let message : ScheduledMessage := {
    id := Xid.nil, createdAt := 0, updatedAt := 0, messageID := "", payload, contentType,
    priority := 0, status := .other 0, broadcastedTo := channel, producedBy, dispatchSchedule,
    dispatchedAt := 0, headers }
  let message := message.quickFix now newID newMessageID
  (message, message.isInValidState)

/-- `JobStatus`. `parked` is virtual: it marks a job that was loaded from `job_parking` and is
never stored. `other` is any integer that is not one of the constants, such as the zero of a new
record. -/
inductive JobStatus where
  | queued
  | inflight
  | delivered
  | dead
  | parked
  | other (value : Int)
deriving DecidableEq

def JobStatus.string : JobStatus → String
  | .queued => "QUEUED"
  | .inflight => "INFLIGHT"
  | .delivered => "DELIVERED"
  | .dead => "DEAD"
  | .parked => "PARKED"
  | .other value => toString value

/-- `DeliveryJob`: a node's in-memory copy of a job. -/
structure DeliveryJob extends BasePaginateable where
  message : Option Message
  listener : Option Consumer
  status : JobStatus
  statusChangedAt : Time
  dispatchReceivedAt : Time
  earliestNextAttemptAt : Time
  retryAttemptCount : Nat
  priority : Nat
  incrementalTimeout : Nat
deriving DecidableEq

/-- `DeliveryJob.QuickFix`, with the clock reading and the id that it would generate. -/
def DeliveryJob.quickFix (now : Time) (newID : Xid) (job : DeliveryJob) : DeliveryJob :=
  { job with
    id := if job.id = Xid.nil then newID else job.id
    createdAt := if job.createdAt = 0 then now else job.createdAt
    updatedAt := if job.updatedAt = 0 then now else job.updatedAt
    dispatchReceivedAt := if job.dispatchReceivedAt = 0 then now else job.dispatchReceivedAt
    statusChangedAt := if job.statusChangedAt = 0 then now else job.statusChangedAt
    earliestNextAttemptAt :=
      if job.dispatchReceivedAt = 0 then now
      else if job.earliestNextAttemptAt = 0 then job.dispatchReceivedAt
      else job.earliestNextAttemptAt
    status := match job.status with
      | .other _ => .queued
      | status => status }

def DeliveryJob.isInValidState [NetUrl] (job : DeliveryJob) : Bool :=
  if !job.message.any (·.isInValidState) || !job.listener.any (·.isInValidState) then false
  else match job.status with
    | .queued | .inflight | .delivered | .dead =>
      job.dispatchReceivedAt != 0 && job.statusChangedAt != 0 && job.earliestNextAttemptAt != 0
    | .parked | .other _ => false

/-- `NewDeliveryJob`: the job and whether it is valid (else
`ErrInsufficientInformationForCreating`). -/
def newDeliveryJob [NetUrl] (now : Time) (newID : Xid) (msg : Message) (consumer : Consumer) :
    DeliveryJob × Bool :=
  let job : DeliveryJob := {
    id := Xid.nil, createdAt := 0, updatedAt := 0, message := some msg, listener := some consumer,
    status := .other 0, statusChangedAt := 0, dispatchReceivedAt := 0, earliestNextAttemptAt := 0,
    retryAttemptCount := 0, priority := msg.priority, incrementalTimeout := 0 }
  let job := job.quickFix now newID
  (job, job.isInValidState)

def globalDispatchPauseScope : String := "__global__"

structure DispatchPause where
  scope : String
  consumerID : String
  reason : String
  pausedAt : Time
deriving DecidableEq

def maxDispatchPauseReasonLength : Nat := 1024

def DispatchPause.isGlobal (pause : DispatchPause) : Bool := pause.scope == globalDispatchPauseScope

def DispatchPause.quickFix (now : Time) (pause : DispatchPause) : DispatchPause :=
  let pause := if pause.pausedAt = 0 then { pause with pausedAt := now } else pause
  if pause.reason.length > maxDispatchPauseReasonLength then
    { pause with reason := String.ofList (pause.reason.toList.take maxDispatchPauseReasonLength) }
  else pause

def DispatchPause.isInValidState (pause : DispatchPause) : Bool :=
  if pause.scope.isEmpty || pause.pausedAt == 0 ||
      pause.reason.length > maxDispatchPauseReasonLength then false
  else if pause.isGlobal then pause.consumerID.isEmpty
  else pause.consumerID == pause.scope

structure Lock where
  lockID : String
  attainedAt : Time
deriving DecidableEq

def DeliveryJob.getLockID (job : DeliveryJob) : String := "dj-" ++ job.id.string

def ScheduledMessage.getLockID (message : ScheduledMessage) : String :=
  "sch-msg-" ++ message.id.string

/-! ## Sample records

A channel with a consumer, a message and its job, for the concrete runs. -/

namespace Sample

@[reducible] def netUrl : NetUrl := ⟨fun _ => true⟩

def xidDigit (i : Fin 32) : Char := Char.ofNat (if i.val < 10 then 48 + i.val else 87 + i.val)

theorem isXidChar_xidDigit : ∀ i, isXidChar (xidDigit i) = true := by decide +kernel

theorem xidDigit_inj : ∀ i j, xidDigit i = xidDigit j → i = j := by decide +kernel

def channelXid : Xid := ⟨"0000000000000000000c", by decide, all_eq_true.1 (by decide)⟩
def consumerXid : Xid := ⟨"0000000000000000000d", by decide, all_eq_true.1 (by decide)⟩
def producerXid : Xid := ⟨"0000000000000000000p", by decide, all_eq_true.1 (by decide)⟩
def messageXid : Xid := ⟨"0000000000000000000m", by decide, all_eq_true.1 (by decide)⟩
def jobXid : Xid := ⟨"0000000000000000000j", by decide, all_eq_true.1 (by decide)⟩

def channel : Channel :=
  { id := channelXid, createdAt := 1, updatedAt := 1, name := "c", token := "t", channelID := "c" }

def producer : Producer :=
  { id := producerXid, createdAt := 1, updatedAt := 1, name := "p", token := "t",
    producerID := "p" }

def consumer (type : ConsumerType) : Consumer :=
  { id := consumerXid, createdAt := 1, updatedAt := 1, name := "d", token := "t", consumerID := "d"
    callbackURL := "u", consumingFrom := some channel, type := type }

def message : Message :=
  { id := messageXid, createdAt := 1, updatedAt := 1, messageID := "m", payload := "x"
    contentType := "y", priority := 0, status := .acknowledged, broadcastedTo := some channel
    producedBy := some producer, receivedAt := 1, outboxedAt := 1 }

def job (type : ConsumerType) (now : Time) : DeliveryJob :=
  (@newDeliveryJob netUrl now jobXid message (consumer type)).1

end Sample

end WebhookBroker
