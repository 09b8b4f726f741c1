import WebhookBroker.Controllers.Job
import WebhookBroker.Lib.Header
import WebhookBroker.Storage.ScheduledMessageRepo
import WebhookBroker.Storage.Writes

/-!
# Broadcasting a message (`controllers/broadcast.go`)

A POST to a channel checks the tokens of the channel and the producer and creates a message, or a
scheduled message if the request names a time. The two kinds have tables of their own: the ids of
one are not compared with the ids of the other.

`Dispatch` of a new message runs in the background and is not part of the request.
-/

namespace WebhookBroker

open Lib

/-- The header `X-Broker-Scheduled-For`. -/
inductive ScheduledFor where
  | absent
  /-- not in the format of RFC 3339 -/
  | malformed
  | at (time : Time)
deriving DecidableEq

/-- What `Post` reads of a request. -/
structure BroadcastRequest where
  channelID : String
  channelToken : String
  producerID : String
  producerToken : String
  messageID : String
  contentType : String
  /-- of `getPriority`, below 2^53: the absolute value is taken through `float64` -/
  priority : Int
  /-- the headers that `X-Broker-Metadata-Headers` names and that are not empty -/
  headers : HeadersMap
  /-- `none` if it cannot be read -/
  body : Option String
  scheduledFor : ScheduledFor

/-- The header `X-Broker-Metadata-Headers`, of broadcasts and of deliveries. -/
def headerMetadataHeaders : String := "X-Broker-Metadata-Headers"

def getMetadataHeaders (h : Header) : List String :=
  let value := h.get headerMetadataHeaders
  if value.isEmpty then [] else (value.toList.splitOn ',').map String.ofList

/-- The map that `Post` makes of the headers of a request. -/
def metadataHeaders (h : Header) : HeadersMap :=
  let keys := (getMetadataHeaders h).dedup.filter fun key => !(h.get key).isEmpty
  (keys.mergeSort fun a b => decide (a ≤ b)).map fun key => (key, h.get key)

def getChannelAndProducerWithValidation (db : Db) (r : BroadcastRequest) :
    Except Status (Channel × Producer) :=
  match getChannel db r.channelID with
  | .error _ => .error writeNotFound
  | .ok channel =>
    if channel.token ≠ r.channelToken then .error ⟨403, "channel token does not match"⟩
    else match getProducer db r.producerID with
      | .error _ => .error ⟨401, "producer could not be found"⟩
      | .ok producer =>
        if producer.token ≠ r.producerToken then .error ⟨403, "producer token does not match"⟩
        else .ok (channel, producer)

def getContentType (r : BroadcastRequest) : String :=
  if r.contentType.isEmpty then "application/octet-stream" else r.contentType

/-- `parseAndValidateScheduledTime`; `none` if the request names no time. -/
def parseAndValidateScheduledTime (now : Time) (r : BroadcastRequest) :
    Except Status (Option Time) :=
  match r.scheduledFor with
  | .absent => .ok none
  | .malformed => .error ⟨400, "invalid date format for X-Broker-Scheduled-For, " ++
      "expected ISO-8601/RFC3339 format"⟩
  | .at time =>
    if time < now + 120 * second then
      .error ⟨412, "scheduled time must be at least 2 minutes in the future"⟩
    else .ok (some time)

def BroadcastRequest.scheduledMessage (now : Time) (newID newMessageID : Xid)
    (r : BroadcastRequest) (channel : Channel) (producer : Producer) (body : String)
    (scheduledTime : Time) : ScheduledMessage :=
  let message := (newScheduledMessage now newID newMessageID (some channel) (some producer) body
    (getContentType r) scheduledTime r.headers).1
  { message with
    messageID := if r.messageID.isEmpty then message.messageID else r.messageID
    priority := r.priority.natAbs }

def BroadcastRequest.message (now : Time) (newID newMessageID : Xid) (r : BroadcastRequest)
    (channel : Channel) (producer : Producer) (body : String) : Message :=
  let message := (newMessage now newID newMessageID (some channel) (some producer) body
    (getContentType r) r.headers).1
  { message with
    messageID := if r.messageID.isEmpty then message.messageID else r.messageID
    priority := r.priority.natAbs }

/-- The status for the result of a `Create`; a 201 has the header `Location` as its text. -/
def createdStatus (location : String) (duplicate : StorageErr) (text : String) :
    Except StorageErr Unit → Status
  | .ok _ => ⟨201, location⟩
  | .error e => if e = duplicate then ⟨409, text⟩ else writeErr

/-- `BroadcastController.Post`. -/
def broadcastPost (now : Time) (newID newMessageID : Xid) (r : BroadcastRequest) (db : Db) :
    Status × Db :=
  match getChannelAndProducerWithValidation db r with
  | .error status => (status, db)
  | .ok (channel, producer) =>
    match r.body with
    | none => (⟨500, "body could not be read"⟩, db)
    | some body =>
      match parseAndValidateScheduledTime now r with
      | .error status => (status, db)
      | .ok (some scheduledTime) =>
        let message := r.scheduledMessage now newID newMessageID channel producer body scheduledTime
        let result := createScheduledMessage message db
        (createdStatus
          ("/channel/" ++ channel.channelID ++ "/scheduled-message/" ++ message.messageID)
          .duplicateScheduledMessageIDForChannel "duplicate scheduled message id for channel"
          result.1, result.2)
      | .ok none =>
        let message := r.message now newID newMessageID channel producer body
        let result := createMessage message db
        (createdStatus ("/channel/" ++ channel.channelID ++ "/message/" ++ message.messageID)
          .duplicateMessageIDForChannel "duplicate message id for channel" result.1, result.2)

/-- A request creates a scheduled message that is `SCHEDULED`, or does what `Create` of a message
does. -/
theorem broadcastPost_cases [NetUrl] (now : Time) (newID newMessageID : Xid)
    (r : BroadcastRequest) (db : Db) :
    ((∃ op, StorageEffect db op (broadcastPost now newID newMessageID r db).2) ∧
      (db.Sound → (broadcastPost now newID newMessageID r db).2.Sound)) ∨
    ∃ message : ScheduledMessage, message.isInValidState = true ∧ message.status = .scheduled ∧
      insertScheduledMessage message.toRow db =
        .ok (1, (broadcastPost now newID newMessageID r db).2) := by
  have hsame : (∃ op, StorageEffect db op db) ∧ (db.Sound → db.Sound) :=
    ⟨⟨default, .unchanged⟩, id⟩
  unfold broadcastPost
  split
  · exact .inl hsame
  · rename_i channel producer _
    split
    · exact .inl hsame
    · rename_i body _
      split
      · exact .inl hsame
      · rename_i scheduledTime _
        dsimp only
        rcases createScheduledMessage_cases (r.scheduledMessage now newID newMessageID channel
          producer body scheduledTime) db with heq | ⟨hvalid, db', hq, heq⟩
        · rw [heq]
          exact .inl hsame
        · rw [heq]
          exact .inr ⟨_, hvalid, rfl, hq⟩
      · exact .inl ⟨⟨_, createMessage_effect _⟩, fun h => h.createMessage _⟩

/-! ## What a request stores -/

theorem createMessage_cases (message : Message) (db : Db) :
    createMessage message db = (.ok (), { db with message := db.message ++ [message.toRow] }) ∨
    ∃ e, createMessage message db = (.error e, db) := by
  unfold createMessage
  split
  · exact .inr ⟨_, rfl⟩
  · split
    · exact .inr ⟨_, rfl⟩
    · dsimp only
      rcases transactionalSingleRowWriteExec_cases (insertMessage message.toRow) db with
        ⟨db', hq, hr⟩ | ⟨e, hr⟩ <;> rw [hr]
      · cases (insertMessage_eq_ok.1 hq).2.2
        exact .inl rfl
      · exact .inr ⟨_, rfl⟩

theorem createScheduledMessage_outcome (message : ScheduledMessage) (db : Db) :
    createScheduledMessage message db =
      (.ok (), { db with scheduledMessage := db.scheduledMessage ++ [message.toRow] }) ∨
    ∃ e, createScheduledMessage message db = (.error e, db) := by
  unfold createScheduledMessage
  split
  · exact .inr ⟨_, rfl⟩
  · split
    · exact .inr ⟨_, rfl⟩
    · dsimp only
      rcases transactionalSingleRowWriteExec_cases (insertScheduledMessage message.toRow) db with
        ⟨db', hq, hr⟩ | ⟨e, hr⟩ <;> rw [hr]
      · cases (insertScheduledMessage_eq_ok.1 hq).2.2
        exact .inl rfl
      · exact .inr ⟨_, rfl⟩

theorem createdStatus_error {location text : String} {duplicate e : StorageErr} :
    (createdStatus location duplicate text (.error e)).code ≠ 201 := by
  by_cases h : e = duplicate <;> simp [createdStatus, h, writeErr]

/-- The channel and the producer of a request have its tokens. -/
theorem getChannelAndProducerWithValidation_spec (db : Db) (r : BroadcastRequest) :
    match getChannelAndProducerWithValidation db r with
    | .error status => status.code ≠ 201
    | .ok (channel, producer) =>
      getChannel db r.channelID = .ok channel ∧ channel.token = r.channelToken ∧
      getProducer db r.producerID = .ok producer ∧ producer.token = r.producerToken := by
  unfold getChannelAndProducerWithValidation
  cases hchannel : getChannel db r.channelID with
  | error e => simp [writeNotFound]
  | ok channel =>
    cases hproducer : getProducer db r.producerID with
    | error e => by_cases htoken : channel.token = r.channelToken <;> simp [htoken]
    | ok producer =>
      by_cases htoken : channel.token = r.channelToken
      · by_cases htoken' : producer.token = r.producerToken <;> simp [htoken, htoken']
      · simp [htoken]

/-- A request that is answered with 201 has the tokens of its channel and its producer, and has
added one row: its message or, if it names a time that is two minutes ahead, its scheduled message.
Any other request has changed nothing. -/
theorem broadcast_outcome (now : Time) (newID newMessageID : Xid) (r : BroadcastRequest)
    (db : Db) :
    let result := broadcastPost now newID newMessageID r db
    result.1.code ≠ 201 ∧ result.2 = db ∨
    result.1.code = 201 ∧ ∃ channel producer body,
      getChannel db r.channelID = .ok channel ∧ channel.token = r.channelToken ∧
      getProducer db r.producerID = .ok producer ∧ producer.token = r.producerToken ∧
      r.body = some body ∧
      ((r.scheduledFor = .absent ∧ result.2 = { db with message := db.message ++
          [(r.message now newID newMessageID channel producer body).toRow] }) ∨
        ∃ time, r.scheduledFor = .at time ∧ now + 120 * second ≤ time ∧
          result.2 = { db with scheduledMessage := db.scheduledMessage ++
            [(r.scheduledMessage now newID newMessageID channel producer body time).toRow] }) := by
  have hspec := getChannelAndProducerWithValidation_spec db r
  unfold broadcastPost
  split at hspec
  · exact .inl ⟨hspec, rfl⟩
  · rename_i channel producer _
    dsimp only
    cases hbody : r.body with
    | none => exact .inl ⟨by simp, rfl⟩
    | some body =>
      unfold parseAndValidateScheduledTime
      cases htime : r.scheduledFor with
      | malformed => exact .inl ⟨by simp, rfl⟩
      | absent =>
        dsimp only
        rcases createMessage_cases (r.message now newID newMessageID channel producer body) db with
          hcreate | ⟨e, hcreate⟩ <;> rw [hcreate]
        · exact .inr ⟨rfl, channel, producer, body, hspec.1, hspec.2.1, hspec.2.2.1, hspec.2.2.2,
            rfl, .inl ⟨rfl, rfl⟩⟩
        · exact .inl ⟨createdStatus_error, rfl⟩
      | «at» time =>
        dsimp only
        by_cases hsoon : time < now + 120 * second
        · rw [if_pos hsoon]
          exact .inl ⟨by simp, rfl⟩
        · rw [if_neg hsoon]
          dsimp only
          rcases createScheduledMessage_outcome (r.scheduledMessage now newID newMessageID channel
            producer body time) db with hcreate | ⟨e, hcreate⟩ <;> rw [hcreate]
          · exact .inr ⟨rfl, channel, producer, body, hspec.1, hspec.2.1, hspec.2.2.1,
              hspec.2.2.2, rfl, .inr ⟨time, rfl, not_lt.1 hsoon, rfl⟩⟩
          · exact .inl ⟨createdStatus_error, rfl⟩

end WebhookBroker
