import WebhookBroker.Storage.CreateMessage

/-!
# Scheduled messages (`storage/scheduledmessagerepo.go`)

`Create` of a scheduled message has the same shape as that of a message: a lookup with `LIKE`
patterns, then an insert under a unique key. After that only `MarkDispatched` writes to the row, and
changes its status and two times.
-/

namespace WebhookBroker

open Lib

def ScheduledMessage.getChannelIDSafely (message : ScheduledMessage) : String :=
  (message.broadcastedTo.map (·.channelID)).getD ""

def ScheduledMessage.toRow (message : ScheduledMessage) : ScheduledMessageRow where
  id := message.id
  messageId := message.messageID
  payload := message.payload
  contentType := message.contentType
  priority := message.priority
  channelId := message.getChannelIDSafely
  producerId := (message.producedBy.map (·.producerID)).getD ""
  headers := message.headers
  dispatchSchedule := message.dispatchSchedule
  dispatchedAt := if message.dispatchedAt = 0 then none else some message.dispatchedAt
  status := message.status
  createdAt := message.createdAt
  updatedAt := message.updatedAt

/-- The scheduled message of a row, with the channel and the producer that were loaded. -/
def ScheduledMessageRow.toScheduledMessage (channel : Channel) (producer : Producer)
    (row : ScheduledMessageRow) : ScheduledMessage where
  id := row.id
  createdAt := row.createdAt
  updatedAt := row.updatedAt
  messageID := row.messageId
  payload := row.payload
  contentType := row.contentType
  priority := row.priority
  status := row.status
  broadcastedTo := some channel
  producedBy := some producer
  dispatchSchedule := row.dispatchSchedule
  dispatchedAt := row.dispatchedAt.getD 0
  headers := row.headers

/-- The condition of `Get`: `channelId like ? and messageId like ?`. -/
def isLikeScheduledMessage (channelID messageID : String) (row : ScheduledMessageRow) : Bool :=
  sqlLike channelID row.channelId && sqlLike messageID row.messageId

/-- `Get` of the scheduled message repository. -/
def getScheduledMessage (db : Db) (channelID messageID : String) :
    Except StorageErr ScheduledMessage := do
  let channel ← getChannel db channelID
  match db.scheduledMessage.find? (isLikeScheduledMessage channelID messageID) with
  | some row =>
    let producer ← getProducer db row.producerId
    return row.toScheduledMessage channel producer
  | none => throw .noRows

/-- The scheduled message of a row, with its producer and its channel. -/
def ScheduledMessageRow.load (db : Db) (row : ScheduledMessageRow) :
    Except StorageErr ScheduledMessage := do
  let producer ← getProducer db row.producerId
  let channel ← getChannel db row.channelId
  return row.toScheduledMessage channel producer

/-- `status = ? AND dispatchSchedule <= ?`. -/
def isReadyForDispatch (now : Time) (row : ScheduledMessageRow) : Bool :=
  row.status == .scheduled && decide (row.dispatchSchedule ≤ now)

/-- The rows that are ready, in an order that `ORDER BY dispatchSchedule ASC` allows: it leaves open
in which order rows with the same time are returned. -/
def Db.IsReadyOrder (db : Db) (now : Time) (rows : List ScheduledMessageRow) : Prop :=
  rows.Perm (db.scheduledMessage.filter (isReadyForDispatch now)) ∧
    rows.Pairwise fun a b => a.dispatchSchedule ≤ b.dispatchSchedule

instance (db : Db) (now : Time) (rows : List ScheduledMessageRow) :
    Decidable (db.IsReadyOrder now rows) :=
  inferInstanceAs (Decidable (_ ∧ _))

/-- `GetMessagesReadyForDispatch`, where the database returns the rows that are ready in the given
order. A row whose producer or channel cannot be loaded is left out. -/
def getMessagesReadyForDispatch (db : Db) (rows : List ScheduledMessageRow) (limit : Nat) :
    List ScheduledMessage :=
  (rows.take limit).filterMap fun row => (row.load db).toOption

/-- `INSERT INTO scheduled_message …`, with the primary key `id`, the unique key
`(messageId, channelId)` and the foreign keys to `channel` and `producer`. -/
def insertScheduledMessage (row : ScheduledMessageRow) : Tx Nat := fun db =>
  if row.id ∈ db.scheduledMessage.map (·.id) ∨
      (row.messageId, row.channelId) ∈
        db.scheduledMessage.map (fun r => (r.messageId, r.channelId)) then
    .error .duplicateKey
  else if row.channelId ∉ db.channel.map (·.channelId) ∨
      row.producerId ∉ db.producer.map (·.producerId) then
    .error .foreignKey
  else .ok (1, { db with scheduledMessage := db.scheduledMessage ++ [row] })

/-- `normalizeDBError` with `scheduledMessageMysqlErrorMap`. -/
def normalizeScheduledDBError : StorageErr → StorageErr
  | .duplicateKey => .duplicateScheduledMessageIDForChannel
  | e => e

/-- `ScheduledMessageDBRepository.Create`. -/
def createScheduledMessage (message : ScheduledMessage) (db : Db) :
    Except StorageErr Unit × Db :=
  if !message.isInValidState then (.error .insufficientInformationForCreating, db)
  else match getScheduledMessage db message.getChannelIDSafely message.messageID with
    | .ok _ => (.error .duplicateScheduledMessageIDForChannel, db)
    | .error _ =>
      let (err, db) := transactionalSingleRowWriteExec (insertScheduledMessage message.toRow) db
      (err.mapError normalizeScheduledDBError, db)

/-- `UPDATE scheduled_message SET … WHERE …`. -/
def updateScheduledMessage (p : ScheduledMessageRow → Bool)
    (f : ScheduledMessageRow → ScheduledMessageRow) : Tx Nat := fun db =>
  .ok (db.scheduledMessage.countP p, { db with
    scheduledMessage := updateWhere p f db.scheduledMessage })

/-- The columns that `MarkDispatched` sets. -/
def ScheduledMessageRow.mark (now : Time) (message : ScheduledMessage)
    (row : ScheduledMessageRow) : ScheduledMessageRow :=
  { row with status := message.status, dispatchedAt := some message.dispatchedAt, updatedAt := now }

def markDispatched (now : Time) (message : ScheduledMessage) (db : Db) :
    Except StorageErr Unit × Db :=
  if message.status ≠ .dispatched then (.error (.notMarkedDispatched message.status), db)
  else transactionalSingleRowWriteExec
    (updateScheduledMessage (fun row => row.id == message.id) (·.mark now message)) db

/-- What stays as it is in a row of `scheduled_message`. -/
structure ScheduledMessageRow.SameContent (row row' : ScheduledMessageRow) : Prop where
  id : row'.id = row.id
  messageId : row'.messageId = row.messageId
  payload : row'.payload = row.payload
  contentType : row'.contentType = row.contentType
  priority : row'.priority = row.priority
  channelId : row'.channelId = row.channelId
  producerId : row'.producerId = row.producerId
  headers : row'.headers = row.headers
  dispatchSchedule : row'.dispatchSchedule = row.dispatchSchedule

theorem ScheduledMessageRow.SameContent.refl (row : ScheduledMessageRow) : row.SameContent row :=
  ⟨rfl, rfl, rfl, rfl, rfl, rfl, rfl, rfl, rfl⟩

theorem ScheduledMessageRow.SameContent.trans {row row' row'' : ScheduledMessageRow}
    (h : row.SameContent row') (h' : row'.SameContent row'') : row.SameContent row'' where
  id := h'.id.trans h.id
  messageId := h'.messageId.trans h.messageId
  payload := h'.payload.trans h.payload
  contentType := h'.contentType.trans h.contentType
  priority := h'.priority.trans h.priority
  channelId := h'.channelId.trans h.channelId
  producerId := h'.producerId.trans h.producerId
  headers := h'.headers.trans h.headers
  dispatchSchedule := h'.dispatchSchedule.trans h.dispatchSchedule

theorem ScheduledMessageRow.sameContent_mark (now : Time) (message : ScheduledMessage)
    (row : ScheduledMessageRow) : row.SameContent (row.mark now message) :=
  ⟨rfl, rfl, rfl, rfl, rfl, rfl, rfl, rfl, rfl⟩

section
variable {db db' : Db} {message : ScheduledMessage} {row : ScheduledMessageRow}

theorem insertScheduledMessage_eq_ok {r : Nat × Db} :
    insertScheduledMessage row db = .ok r ↔
      (row.id ∉ db.scheduledMessage.map (·.id) ∧
        (row.messageId, row.channelId) ∉
          db.scheduledMessage.map fun r => (r.messageId, r.channelId)) ∧
      (row.channelId ∈ db.channel.map (·.channelId) ∧
        row.producerId ∈ db.producer.map (·.producerId)) ∧
      r = (1, { db with scheduledMessage := db.scheduledMessage ++ [row] }) := by
  rw [insertScheduledMessage]
  split
  · rename_i hdup
    exact ⟨nofun, fun h => absurd hdup (not_or.2 h.1)⟩
  · rename_i hnew
    split
    · rename_i hmissing
      refine ⟨nofun, fun h => ?_⟩
      rcases hmissing with hmissing | hmissing
      · exact absurd h.2.1.1 hmissing
      · exact absurd h.2.1.2 hmissing
    · rename_i hrefs
      rw [not_or, not_not, not_not] at hrefs
      rw [Except.ok.injEq]
      exact ⟨fun h => ⟨not_or.1 hnew, hrefs, h.symm⟩, fun h => h.2.2.symm⟩

theorem createScheduledMessage_cases (message : ScheduledMessage) (db : Db) :
    (createScheduledMessage message db).2 = db ∨
    message.isInValidState = true ∧ ∃ db', insertScheduledMessage message.toRow db = .ok (1, db') ∧
      (createScheduledMessage message db).2 = db' := by
  unfold createScheduledMessage
  split
  · exact .inl rfl
  · rename_i hvalid
    split
    · exact .inl rfl
    · dsimp only
      rcases transactionalSingleRowWriteExec_cases (insertScheduledMessage message.toRow) db with
        ⟨db', hq, hr⟩ | ⟨e, hr⟩ <;> rw [hr]
      · exact .inr ⟨by simpa using hvalid, db', hq, rfl⟩
      · exact .inl rfl

theorem markDispatched_cases (now : Time) (message : ScheduledMessage) (db : Db) :
    (∃ e, markDispatched now message db = (.error e, db)) ∨
    message.status = .dispatched ∧ markDispatched now message db = (.ok (), { db with
      scheduledMessage :=
        updateWhere (fun row => row.id == message.id) (·.mark now message)
          db.scheduledMessage }) := by
  unfold markDispatched
  split
  · exact .inl ⟨_, rfl⟩
  · rename_i hstatus
    rw [not_not] at hstatus
    rcases transactionalSingleRowWriteExec_cases
      (updateScheduledMessage (fun row => row.id == message.id) (·.mark now message)) db with
      ⟨db', hq, hr⟩ | ⟨e, hr⟩ <;> rw [hr]
    · simp only [updateScheduledMessage, Except.ok.injEq, Prod.mk.injEq] at hq
      obtain ⟨-, rfl⟩ := hq
      exact .inr ⟨hstatus, rfl⟩
    · exact .inl ⟨e, rfl⟩

theorem markDispatched_of_mem (hids : (db.scheduledMessage.map (·.id)).Nodup)
    (hrow : row ∈ db.scheduledMessage) (hid : row.id = message.id)
    (hstatus : message.status = .dispatched) (now : Time) :
    markDispatched now message db = (.ok (), { db with
      scheduledMessage :=
        updateWhere (fun row => row.id == message.id) (·.mark now message)
          db.scheduledMessage }) := by
  have hcount : db.scheduledMessage.countP (fun row => row.id == message.id) = 1 := by
    refine countP_of_rowAt hids (k := message.id) (fun r _ hr => eq_of_beq hr) (r := row) ?_ ?_
    · rw [← hid]
      exact rowAt_of_mem hids hrow
    · rw [hid]
      exact beq_self_eq_true _
  rw [markDispatched, if_neg (not_not.2 hstatus)]
  refine transactionalSingleRowWriteExec_of_ok ?_
  rw [updateScheduledMessage, hcount]

/-- A row is loaded with a channel and a producer whose ids its own match. -/
theorem ScheduledMessageRow.load_eq_ok {db : Db} {row : ScheduledMessageRow}
    {message : ScheduledMessage} (h : row.load db = .ok message) :
    ∃ channel ∈ db.channel, ∃ producer ∈ db.producer,
      sqlLike row.channelId channel.channelId = true ∧
      sqlLike row.producerId producer.producerId = true ∧
      message = row.toScheduledMessage channel.toChannel producer.toProducer := by
  unfold ScheduledMessageRow.load at h
  cases hproducer : getProducer db row.producerId with
  | error e =>
    rw [hproducer] at h
    cases h
  | ok producer =>
    cases hchannel : getChannel db row.channelId with
    | error e =>
      rw [hproducer, hchannel] at h
      cases h
    | ok channel =>
      rw [hproducer, hchannel] at h
      obtain ⟨channelRow, hmem, hlike, rfl⟩ := getChannel_eq_ok hchannel
      obtain ⟨producerRow, hmem', hlike', rfl⟩ := getProducer_eq_ok hproducer
      exact ⟨channelRow, hmem, producerRow, hmem', hlike, hlike', (Except.ok.inj h).symm⟩

theorem mem_getMessagesReadyForDispatch {rows : List ScheduledMessageRow} {limit : Nat} :
    message ∈ getMessagesReadyForDispatch db rows limit ↔
      ∃ row ∈ rows.take limit, row.load db = .ok message := by
  unfold getMessagesReadyForDispatch
  rw [List.mem_filterMap]
  refine exists_congr fun row => and_congr_right fun _ => ?_
  cases row.load db with
  | error e => exact ⟨nofun, nofun⟩
  | ok m => rw [Except.toOption, Option.some.injEq, Except.ok.injEq]

theorem Db.IsReadyOrder.mem_take {now : Time} {rows : List ScheduledMessageRow}
    (h : db.IsReadyOrder now rows) {limit : Nat} (hrow : row ∈ rows.take limit) :
    row ∈ db.scheduledMessage ∧ isReadyForDispatch now row = true :=
  List.mem_filter.1 (h.1.mem_iff.1 (List.mem_of_mem_take hrow))

end

end WebhookBroker
