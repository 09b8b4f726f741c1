import WebhookBroker.Storage.Query

/-!
# Creating a message (`storage/messagerepo.go`)

`Create` first looks for a message with the channel id and the message id, both as `LIKE` patterns,
and returns `ErrDuplicateMessageIDForChannel` if there is one. Otherwise it inserts the message, and
the unique key of the table compares the exact ids. So an id with `%` or `_` is refused as a
duplicate when it only matches the ids of another message.
-/

namespace WebhookBroker

open Lib

def Message.getChannelIDSafely (message : Message) : String :=
  (message.broadcastedTo.map (·.channelID)).getD ""

def Message.toRow (message : Message) : MessageRow where
  id := message.id
  messageId := message.messageID
  payload := message.payload
  contentType := message.contentType
  priority := message.priority
  status := message.status
  channelId := message.getChannelIDSafely
  producerId := (message.producedBy.map (·.producerID)).getD ""
  receivedAt := message.receivedAt
  outboxedAt := message.outboxedAt
  createdAt := message.createdAt
  updatedAt := message.updatedAt
  headers := message.headers

/-- The condition of `Get`: `channelId like ? and messageId like ?`. -/
def isLikeMessage (channelID messageID : String) (row : MessageRow) : Bool :=
  sqlLike channelID row.channelId && sqlLike messageID row.messageId

/-- `Get` of the message repository. -/
def getMessage (db : Db) (channelID messageID : String) : Except StorageErr Message := do
  let channel ← getChannel db channelID
  match db.message.find? (isLikeMessage channelID messageID) with
  | some row =>
    let producer ← getProducer db row.producerId
    return { row.toMessage with broadcastedTo := some channel, producedBy := some producer }
  | none => throw .noRows

/-- `INSERT INTO message …`, with the primary key `id`, the unique key `(messageId, channelId)` and
the foreign keys `channelMessageRef` and `producerMessageRef`. -/
def insertMessage (row : MessageRow) : Tx Nat := fun db =>
  if row.id ∈ db.message.map (·.id) ∨
      (row.messageId, row.channelId) ∈ db.message.map (fun r => (r.messageId, r.channelId)) then
    .error .duplicateKey
  else if row.channelId ∉ db.channel.map (·.channelId) ∨
      row.producerId ∉ db.producer.map (·.producerId) then
    .error .foreignKey
  else .ok (1, { db with message := db.message ++ [row] })

/-- `normalizeDBError` with `mysqlErrorMap`: a duplicate key is a duplicate message id. -/
def normalizeDBError : StorageErr → StorageErr
  | .duplicateKey => .duplicateMessageIDForChannel
  | e => e

/-- `MessageDBRepository.Create`. -/
def createMessage (message : Message) (db : Db) : Except StorageErr Unit × Db :=
  if !message.isInValidState then (.error .insufficientInformationForCreating, db)
  else match getMessage db message.getChannelIDSafely message.messageID with
    | .ok _ => (.error .duplicateMessageIDForChannel, db)
    | .error _ =>
      let (err, db) := transactionalSingleRowWriteExec (insertMessage message.toRow) db
      (err.mapError normalizeDBError, db)

/-- The message's channel id and message id, exactly, are stored. -/
def Db.hasMessageID (db : Db) (message : Message) : Prop :=
  ∃ row ∈ db.message, row.channelId = message.getChannelIDSafely ∧ row.messageId = message.messageID

/-- `Create` stores the message if its ids are new, and otherwise returns
`ErrDuplicateMessageIDForChannel` and changes nothing. -/
def CreatesOnce (message : Message) (db : Db) : Prop :=
  (¬ db.hasMessageID message →
    createMessage message db = (.ok (), { db with message := db.message ++ [message.toRow] })) ∧
  (db.hasMessageID message →
    createMessage message db = (.error .duplicateMessageIDForChannel, db))

section
variable {db : Db} {message : Message}

/-- Where the references of the tables hold, `Get` finds a message exactly if one is like the
ids. -/
theorem getMessage_isOk (hchannel : message.getChannelIDSafely ∈ db.channel.map (·.channelId))
    (hrefs : ∀ row ∈ db.message, row.producerId ∈ db.producer.map (·.producerId)) :
    (∃ m, getMessage db message.getChannelIDSafely message.messageID = .ok m) ↔
      ∃ row ∈ db.message,
        isLikeMessage message.getChannelIDSafely message.messageID row = true := by
  obtain ⟨channel, -, hget⟩ := getChannel_of_mem hchannel
  simp only [getMessage, hget, bind, Except.bind]
  cases hfind : db.message.find? (isLikeMessage message.getChannelIDSafely message.messageID) with
  | none =>
    have hno := List.find?_eq_none.1 hfind
    constructor
    · rintro ⟨m, hm⟩
      cases hm
    · rintro ⟨row, hrow, hlike⟩
      exact absurd hlike (hno row hrow)
  | some row =>
    have hrow := List.mem_of_find?_eq_some hfind
    obtain ⟨producer, -, hproducer⟩ := getProducer_of_mem (hrefs row hrow)
    simp only [hproducer]
    exact ⟨fun _ => ⟨row, hrow, List.find?_some hfind⟩, fun _ => ⟨_, rfl⟩⟩

theorem insertMessage_eq_ok {row : MessageRow} {r : Nat × Db} :
    insertMessage row db = .ok r ↔
      (row.id ∉ db.message.map (·.id) ∧
        (row.messageId, row.channelId) ∉ db.message.map fun r => (r.messageId, r.channelId)) ∧
      (row.channelId ∈ db.channel.map (·.channelId) ∧
        row.producerId ∈ db.producer.map (·.producerId)) ∧
      r = (1, { db with message := db.message ++ [row] }) := by
  rw [insertMessage]
  split
  · rename_i hdup
    refine ⟨nofun, fun h => absurd hdup (not_or.2 h.1)⟩
  · rename_i hnew
    split
    · rename_i hmissing
      refine ⟨nofun, fun h => ?_⟩
      rcases hmissing with hmissing | hmissing
      · exact absurd h.2.1.1 hmissing
      · exact absurd h.2.1.2 hmissing
    · rename_i hrefs
      rw [not_or, not_not, not_not] at hrefs
      rw [Except.ok.injEq]
      exact ⟨fun h => ⟨not_or.1 hnew, hrefs, h.symm⟩, fun h => h.2.2.symm⟩

theorem insertMessage_of_new (hid : message.toRow.id ∉ db.message.map (·.id))
    (hchannel : message.toRow.channelId ∈ db.channel.map (·.channelId))
    (hproducer : message.toRow.producerId ∈ db.producer.map (·.producerId))
    (hnew : ¬ db.hasMessageID message) :
    transactionalSingleRowWriteExec (insertMessage message.toRow) db =
      (.ok (), { db with message := db.message ++ [message.toRow] }) := by
  have hkey : (message.toRow.messageId, message.toRow.channelId) ∉
      db.message.map fun r => (r.messageId, r.channelId) := by
    intro hmem
    obtain ⟨row, hrow, heq⟩ := List.mem_map.1 hmem
    exact hnew ⟨row, hrow, (Prod.mk.inj heq).2, (Prod.mk.inj heq).1⟩
  exact transactionalSingleRowWriteExec_of_ok
    (insertMessage_eq_ok.2 ⟨⟨hid, hkey⟩, ⟨hchannel, hproducer⟩, rfl⟩)

/-- With its references and a new record id, a valid message is created once, exactly if its ids are
stored already or no stored message is like them. -/
theorem create_message_iff (message : Message) (db : Db) (hvalid : message.isInValidState = true)
    (hid : message.id ∉ db.message.map (·.id))
    (hchannel : message.toRow.channelId ∈ db.channel.map (·.channelId))
    (hproducer : message.toRow.producerId ∈ db.producer.map (·.producerId))
    (hrefs : ∀ row ∈ db.message, row.producerId ∈ db.producer.map (·.producerId)) :
    CreatesOnce message db ↔
      (db.hasMessageID message ∨ ∀ row ∈ db.message,
        isLikeMessage message.getChannelIDSafely message.messageID row = false) := by
  have hget := getMessage_isOk hchannel hrefs
  have hcreate : createMessage message db =
      match getMessage db message.getChannelIDSafely message.messageID with
      | .ok _ => (.error .duplicateMessageIDForChannel, db)
      | .error _ =>
        let (err, db) := transactionalSingleRowWriteExec (insertMessage message.toRow) db
        (err.mapError normalizeDBError, db) := by
    rw [createMessage, hvalid]
    rfl
  cases hm : getMessage db message.getChannelIDSafely message.messageID with
  | ok m =>
    obtain ⟨row, hrow, hlike⟩ := hget.1 ⟨m, hm⟩
    have hdup : createMessage message db = (.error .duplicateMessageIDForChannel, db) := by
      rw [hcreate, hm]
    constructor
    · intro h
      refine .inl (Classical.byContradiction fun hnew => ?_)
      have hok := h.1 hnew
      rw [hdup] at hok
      cases (Prod.mk.inj hok).1
    · rintro (hhas | hno)
      · exact ⟨fun hnew => absurd hhas hnew, fun _ => hdup⟩
      · rw [hno row hrow] at hlike
        cases hlike
  | error e =>
    have hno : ∀ row ∈ db.message,
        isLikeMessage message.getChannelIDSafely message.messageID row = false := by
      intro row hrow
      rw [Bool.eq_false_iff]
      intro hlike
      obtain ⟨m, hm'⟩ := hget.2 ⟨row, hrow, hlike⟩
      rw [hm] at hm'
      cases hm'
    have hnew : ¬ db.hasMessageID message := by
      rintro ⟨row, hrow, hch, hmid⟩
      have hlike := hno row hrow
      rw [isLikeMessage, hch, hmid, sqlLike_self, sqlLike_self] at hlike
      cases hlike
    refine ⟨fun _ => .inr hno, fun _ => ⟨fun _ => ?_, fun hhas => absurd hhas hnew⟩⟩
    rw [hcreate, hm, insertMessage_of_new hid hchannel hproducer hnew]
    rfl

end

namespace Sample

def messageDb (messageID : String) : Db where
  channel := [⟨channelXid, "c", "c", "t", 1, 1⟩]
  producer := [⟨producerXid, "p", "p", "t", 1, 1⟩]
  message := [{ message with messageID := messageID }.toRow]

def otherMessage (messageID : String) : Message :=
  { message with id := jobXid, messageID := messageID }

end Sample

open Sample

theorem create_message_iff_new :
    CreatesOnce (otherMessage "m2") (messageDb "m1") :=
  (create_message_iff _ _ (by decide) (by decide) (by decide) (by decide) (by decide)).2
    (.inr (by decide))

/-- The message id `m_` is refused in a channel that has the message `m1` only. -/
theorem create_refuses_new_message_id :
    (otherMessage "m_").isInValidState = true ∧
    ¬ (messageDb "m1").hasMessageID (otherMessage "m_") ∧
    createMessage (otherMessage "m_") (messageDb "m1") =
      (.error .duplicateMessageIDForChannel, messageDb "m1") ∧
    ¬ CreatesOnce (otherMessage "m_") (messageDb "m1") := by
  have hnew : ¬ (messageDb "m1").hasMessageID (otherMessage "m_") := by
    rintro ⟨row, hrow, -, hid⟩
    rw [List.mem_singleton.1 hrow] at hid
    exact absurd hid (by decide)
  have hdup : createMessage (otherMessage "m_") (messageDb "m1") =
      (.error .duplicateMessageIDForChannel, messageDb "m1") := by
    decide
  refine ⟨by decide, hnew, hdup, fun h => ?_⟩
  have hok := h.1 hnew
  rw [hdup] at hok
  cases (Prod.mk.inj hok).1

end WebhookBroker
