import WebhookBroker.Storage.CreateMessage
import WebhookBroker.Storage.Integrity
import WebhookBroker.Storage.Stakeholders

/-!
# All writes of the broker

`StorageOp` adds to the operations on jobs the ones that store producers, channels and consumers,
delete consumers and create messages. `StorageOp.step` reaches every database that any number of
nodes can produce from the empty one. `Db.Sound` says what then holds beyond `Db.Integrity`: every
reference has its row, and every stored record is valid, because the repositories check a record
before they store it and the tables refuse to drop a row that another one needs.
-/

namespace WebhookBroker

open Lib List

/-- `DELETE from consumer WHERE channelId = ? and consumerId = ?`. The tables `job` and
`job_parking` refer to `consumer` with `ON DELETE RESTRICT`, the table `dispatch_pause` with
`ON DELETE CASCADE`. -/
def deleteConsumerRow (channelID consumerID : String) : Tx Nat := fun db =>
  let p := fun row : ConsumerRow => row.channelId == channelID && row.consumerId == consumerID
  if ∃ row ∈ db.consumer, p row = true ∧ row.id ∈ db.stored.map (·.consumerId) then
    .error .foreignKey
  else
    let ids := (db.consumer.filter p).map (·.id.string)
    .ok (db.consumer.countP p, { db with
      consumer := deleteWhere p db.consumer
      dispatchPause := deleteWhere (fun d => d.consumerId.any ids.contains) db.dispatchPause })

/-- `ConsumerDBRepository.Delete`. -/
def deleteConsumer (consumer : Consumer) (db : Db) : Except StorageErr Unit × Db :=
  transactionalSingleRowWriteExec
    (deleteConsumerRow consumer.getChannelIDSafely consumer.consumerID) db

inductive StorageOp where
  | job (op : DbOp)
  | storeProducer (now : Time) (newID : Xid) (producer : Producer)
  | storeChannel (now : Time) (newID : Xid) (channel : Channel)
  | storeConsumer (now : Time) (newID : Xid) (consumer : Consumer)
  | deleteConsumer (consumer : Consumer)
  | createMessage (message : Message)

instance : Inhabited StorageOp := ⟨.job default⟩

def StorageOp.step [NetUrl] (db : Db) : StorageOp → Option Db
  | .job op => DbOp.step db op
  | .storeProducer now newID producer =>
    some (WebhookBroker.storeProducer now newID producer db).2
  | .storeChannel now newID channel => some (WebhookBroker.storeChannel now newID channel db).2
  | .storeConsumer now newID consumer => some (WebhookBroker.storeConsumer now newID consumer db).2
  | .deleteConsumer consumer => some (WebhookBroker.deleteConsumer consumer db).2
  | .createMessage message => some (WebhookBroker.createMessage message db).2

abbrev StorageRun [NetUrl] := Run (fun db : Db => db = {}) StorageOp.step

/-! ## What holds of every database -/

/-- The message of a row, with its channel and its producer. -/
def MessageRow.withReferences (channel : Channel) (producer : Producer) (row : MessageRow) :
    Message :=
  { row.toMessage with broadcastedTo := some channel, producedBy := some producer }

/-- Every reference has its row and every record is valid. -/
structure Db.Sound [NetUrl] (db : Db) : Prop where
  integrity : db.Integrity
  channels : ∀ row ∈ db.channel, row.toChannel.isInValidState = true
  producers : ∀ row ∈ db.producer, row.toProducer.isInValidState = true
  consumer_ids : (db.consumer.map (·.id)).Nodup
  consumer_channel : ∀ row ∈ db.consumer, row.channelId ∈ db.channel.map (·.channelId)
  consumers : ∀ row ∈ db.consumer, ∀ channel : Channel, channel.isInValidState = true →
    (row.toConsumer channel).isInValidState = true
  message_channel : ∀ row ∈ db.message, row.channelId ∈ db.channel.map (·.channelId)
  message_producer : ∀ row ∈ db.message, row.producerId ∈ db.producer.map (·.producerId)
  messages : ∀ row ∈ db.message, row.status = .acknowledged → ∀ (channel : Channel)
    (producer : Producer), channel.isInValidState = true → producer.isInValidState = true →
    (row.withReferences channel producer).isInValidState = true
  jobs : ∀ r ∈ db.stored, r.consumerId ∈ db.consumer.map (·.id)

section
variable [NetUrl] {db db' : Db}

theorem Db.sound_empty : ({} : Db).Sound where
  integrity := Db.isInitial.integrity ⟨rfl, rfl, nodup_nil⟩
  channels := nofun
  producers := nofun
  consumer_ids := nodup_nil
  consumer_channel := nofun
  consumers := nofun
  message_channel := nofun
  message_producer := nofun
  messages := nofun
  jobs := nofun

/-! ## Operations on jobs -/

theorem DbEffect.frame {op : DbOp} (he : DbEffect db op db') :
    db'.channel = db.channel ∧ db'.producer = db.producer ∧ db'.consumer = db.consumer := by
  cases he with
  | unchanged | dispatched | reparked | drained | marked | requeued | requeuedForConsumer | deleted
  | deletedForConsumer | deletedMessages | paused | resumed | locked => exact ⟨rfl, rfl, rfl⟩

theorem DbEffect.mem_message {op : DbOp} (he : DbEffect db op db') {row : MessageRow}
    (hrow : row ∈ db'.message) :
    row ∈ db.message ∨ ∃ row₀ ∈ db.message, ∃ now, row = row₀.setDispatched now := by
  cases he with
  | @dispatched now =>
    obtain ⟨row₀, hrow₀, rfl⟩ := mem_updateWhere.1 hrow
    split
    · exact .inr ⟨row₀, hrow₀, now, rfl⟩
    · exact .inl hrow₀
  | deletedMessages => exact .inl (mem_deleteWhere.1 hrow).1
  | unchanged | reparked | drained | marked | requeued | requeuedForConsumer | deleted
  | deletedForConsumer | paused | resumed | locked => exact .inl hrow

/-- The job that an operation stores is for an existing consumer. -/
theorem DbEffect.mem_stored {op : DbOp} (he : DbEffect db op db') (h : db.Integrity) {r : JobRef}
    (hr : r ∈ db'.stored) : r ∈ db.stored ∨ r.consumerId ∈ db.consumer.map (·.id) := by
  cases he with
  | unchanged | paused | resumed | locked => exact .inl hr
  | @dispatched now message deliveryJobs parkedJobs _ _ _ haccepts =>
    rcases mem_append.1 ((stored_dispatched ..).mem_iff.1 hr) with hr | hr
    · exact .inl hr
    · obtain ⟨job, hjob, rfl⟩ := mem_map.1 hr
      refine .inr ?_
      rcases mem_append.1 hjob with hjob | hjob
      · exact ((haccepts.1 (ne_nil_of_mem hjob)).2 _ (mem_map_of_mem hjob)).2
      · exact ((haccepts.2.1 (ne_nil_of_mem hjob)).2 _ (mem_map_of_mem hjob)).2
  | reparked hrow => exact .inl ((stored_repark hrow rfl).mem_iff.1 hr)
  | @drained _ c pageSize _ rows hrows hcount =>
    obtain ⟨hmem, hnodup⟩ := drainPageQuery_mem_nodup h.seqs c pageSize.toNat
    rw [← hrows] at hmem hnodup
    exact .inl ((stored_drain (filter_seq_perm h.seqs hmem hnodup) fun _ => rfl).mem_iff.1 hr)
  | marked => exact .inl (stored_updateWhere (Mark.ref_set _ _ _) ▸ hr)
  | requeued => exact .inl (stored_updateWhere (JobRow.ref_requeue _) ▸ hr)
  | requeuedForConsumer => exact .inl (stored_updateWhere (JobRow.ref_requeue _) ▸ hr)
  | deleted | deletedForConsumer | deletedMessages =>
    refine .inl ?_
    rcases mem_append.1 hr with hr | hr
    · obtain ⟨row, hrow, rfl⟩ := mem_map.1 hr
      exact mem_append_left _ (mem_map_of_mem (mem_deleteWhere.1 hrow).1)
    · exact mem_append_right _ hr

theorem Db.Sound.effect {op : DbOp} (h : db.Sound) (he : DbEffect db op db') : db'.Sound := by
  obtain ⟨hchannel, hproducer, hconsumer⟩ := he.frame
  have hmessage : ∀ row ∈ db'.message, ∃ row₀ ∈ db.message, row.channelId = row₀.channelId ∧
      row.producerId = row₀.producerId ∧ (row.status = .acknowledged → row = row₀) := by
    intro row hrow
    rcases he.mem_message hrow with hrow | ⟨row₀, hrow₀, now, rfl⟩
    · exact ⟨row, hrow, rfl, rfl, fun _ => rfl⟩
    · exact ⟨row₀, hrow₀, rfl, rfl, nofun⟩
  refine ⟨h.integrity.effect he, hchannel ▸ h.channels, hproducer ▸ h.producers,
    hconsumer ▸ h.consumer_ids, hchannel ▸ hconsumer ▸ h.consumer_channel,
    hconsumer ▸ h.consumers, ?_, ?_, ?_, ?_⟩
  · intro row hrow
    obtain ⟨row₀, hrow₀, hid, -⟩ := hmessage row hrow
    rw [hchannel, hid]
    exact h.message_channel row₀ hrow₀
  · intro row hrow
    obtain ⟨row₀, hrow₀, -, hid, -⟩ := hmessage row hrow
    rw [hproducer, hid]
    exact h.message_producer row₀ hrow₀
  · intro row hrow hack
    obtain ⟨row₀, hrow₀, -, -, heq⟩ := hmessage row hrow
    obtain rfl := heq hack
    exact h.messages row hrow₀ hack
  · intro r hr
    rw [hconsumer]
    rcases he.mem_stored h.integrity hr with hr | hr
    · exact h.jobs r hr
    · exact hr

/-! ## Operations on the other tables -/

omit [NetUrl] in
theorem Db.Integrity.withStakeholders (h : db.Integrity) {channels producers consumers pauses} :
    ({ db with
      channel := channels, producer := producers, consumer := consumers
      dispatchPause := pauses } : Db).Integrity :=
  h.transport (List.Subperm.refl _) (fun _ hm _ => hm) h.messages h.seqs h.seqs_lt

theorem Db.Sound.withProducers (h : db.Sound) {rows : List ProducerRow}
    (hvalid : ∀ row ∈ rows, row.toProducer.isInValidState = true)
    (hkeys : db.producer.map (·.producerId) ⊆ rows.map (·.producerId)) :
    ({ db with producer := rows } : Db).Sound where
  integrity := h.integrity.withStakeholders
  channels := h.channels
  producers := hvalid
  consumer_ids := h.consumer_ids
  consumer_channel := h.consumer_channel
  consumers := h.consumers
  message_channel := h.message_channel
  message_producer row hrow := hkeys (h.message_producer row hrow)
  messages := h.messages
  jobs := h.jobs

theorem Db.Sound.withChannels (h : db.Sound) {rows : List ChannelRow}
    (hvalid : ∀ row ∈ rows, row.toChannel.isInValidState = true)
    (hkeys : db.channel.map (·.channelId) ⊆ rows.map (·.channelId)) :
    ({ db with channel := rows } : Db).Sound where
  integrity := h.integrity.withStakeholders
  channels := hvalid
  producers := h.producers
  consumer_ids := h.consumer_ids
  consumer_channel row hrow := hkeys (h.consumer_channel row hrow)
  consumers := h.consumers
  message_channel row hrow := hkeys (h.message_channel row hrow)
  message_producer := h.message_producer
  messages := h.messages
  jobs := h.jobs

theorem Db.Sound.withConsumers (h : db.Sound) {rows : List ConsumerRow}
    {pauses : List DispatchPauseRow} (hids : (rows.map (·.id)).Nodup)
    (hchannel : ∀ row ∈ rows, row.channelId ∈ db.channel.map (·.channelId))
    (hvalid : ∀ row ∈ rows, ∀ channel : Channel, channel.isInValidState = true →
      (row.toConsumer channel).isInValidState = true)
    (hjobs : ∀ r ∈ db.stored, r.consumerId ∈ rows.map (·.id)) :
    ({ db with consumer := rows, dispatchPause := pauses } : Db).Sound where
  integrity := h.integrity.withStakeholders
  channels := h.channels
  producers := h.producers
  consumer_ids := hids
  consumer_channel := hchannel
  consumers := hvalid
  message_channel := h.message_channel
  message_producer := h.message_producer
  messages := h.messages
  jobs := hjobs

theorem Db.Sound.storeProducer (h : db.Sound) (now : Time) (newID : Xid) (producer : Producer) :
    (WebhookBroker.storeProducer now newID producer db).2.Sound := by
  rcases producerTable.store_db_cases now newID (getProducer db producer.producerID) producer db
    with hr | ⟨hvalid, -, -, hr⟩ | ⟨hvalid, p, hr⟩ <;> rw [WebhookBroker.storeProducer, hr]
  · exact h
  · refine h.withProducers (fun row hrow => ?_) (map_subset _ (subset_append_left _ _))
    rcases mem_append.1 hrow with hrow | hrow
    · exact h.producers row hrow
    · obtain rfl := mem_singleton.1 hrow
      exact hvalid
  · refine h.withProducers (fun row hrow => ?_) (map_subset_updateWhere fun _ _ => rfl)
    obtain ⟨row, hmem, rfl⟩ := mem_updateWhere.1 hrow
    have hold := h.producers row hmem
    split
    · simp only [producerTable, Producer.isInValidState, ProducerRow.toProducer,
        Bool.not_eq_true', Bool.or_eq_false_iff] at hvalid hold ⊢
      exact ⟨⟨hold.1.1, hvalid.1.2⟩, hvalid.2⟩
    · exact hold

theorem Db.Sound.storeChannel (h : db.Sound) (now : Time) (newID : Xid) (channel : Channel) :
    (WebhookBroker.storeChannel now newID channel db).2.Sound := by
  rcases channelTable.store_db_cases now newID (getChannel db channel.channelID) channel db
    with hr | ⟨hvalid, -, -, hr⟩ | ⟨hvalid, p, hr⟩ <;> rw [WebhookBroker.storeChannel, hr]
  · exact h
  · refine h.withChannels (fun row hrow => ?_) (map_subset _ (subset_append_left _ _))
    rcases mem_append.1 hrow with hrow | hrow
    · exact h.channels row hrow
    · obtain rfl := mem_singleton.1 hrow
      exact hvalid
  · refine h.withChannels (fun row hrow => ?_) (map_subset_updateWhere fun _ _ => rfl)
    obtain ⟨row, hmem, rfl⟩ := mem_updateWhere.1 hrow
    have hold := h.channels row hmem
    split
    · simp only [channelTable, Channel.isInValidState, ChannelRow.toChannel,
        Bool.not_eq_true', Bool.or_eq_false_iff] at hvalid hold ⊢
      exact ⟨⟨hold.1.1, hvalid.1.2⟩, hvalid.2⟩
    · exact hold

theorem Consumer.isInValidState_iff {consumer : Consumer} :
    consumer.isInValidState = true ↔
      (consumer.consumerID.isEmpty = false ∧ consumer.name.isEmpty = false ∧
        consumer.token.isEmpty = false ∧ NetUrl.isAbs consumer.callbackURL = true) ∧
      consumer.consumingFrom.any (·.isInValidState) = true := by
  unfold Consumer.isInValidState
  split
  · rename_i h
    refine ⟨nofun, fun hvalid => ?_⟩
    simp [hvalid] at h
  · rename_i h
    simp only [Bool.not_eq_true, Bool.or_eq_false_iff, Bool.not_eq_false'] at h
    exact ⟨fun habs => ⟨⟨h.1.1.1, h.1.1.2, h.1.2, habs⟩, h.2⟩, fun hvalid => hvalid.1.2.2.2⟩

theorem ConsumerRow.isInValidState_toConsumer {row : ConsumerRow} {channel : Channel}
    (hchannel : channel.isInValidState = true) :
    (row.toConsumer channel).isInValidState = true ↔
      row.consumerId.isEmpty = false ∧ row.name.isEmpty = false ∧ row.token.isEmpty = false ∧
        NetUrl.isAbs row.callbackUrl = true := by
  rw [Consumer.isInValidState_iff]
  exact and_iff_left hchannel

theorem Db.Sound.storeConsumer (h : db.Sound) (now : Time) (newID : Xid) (consumer : Consumer) :
    (WebhookBroker.storeConsumer now newID consumer db).2.Sound := by
  unfold WebhookBroker.storeConsumer
  split
  · exact h
  · rename_i inChannel _
    rcases consumerTable.store_db_cases now newID
      (getConsumer db inChannel.channelID consumer.consumerID) consumer db
      with hr | ⟨hvalid, hids, hrefs, hr⟩ | ⟨hvalid, p, hr⟩ <;> rw [hr]
    · exact h
    · refine h.withConsumers hids (fun row hrow => ?_) (fun row hrow channel hchannel => ?_)
        fun r hr => map_subset _ (subset_append_left _ _) (h.jobs r hr)
      · rcases mem_append.1 hrow with hrow | hrow
        · exact h.consumer_channel row hrow
        · obtain rfl := mem_singleton.1 hrow
          exact contains_iff_mem.1 hrefs
      · rcases mem_append.1 hrow with hrow | hrow
        · exact h.consumers row hrow channel hchannel
        · obtain rfl := mem_singleton.1 hrow
          rw [ConsumerRow.isInValidState_toConsumer hchannel]
          exact (Consumer.isInValidState_iff.1 hvalid).1
    · have hkeys : ∀ {κ : Type} (key : ConsumerRow → κ),
          (∀ v now row, key (consumerTable.setRow v now row) = key row) →
          (updateWhere p (consumerTable.setRow (consumerTable.values consumer) now)
            db.consumer).map key = db.consumer.map key :=
        fun key hkey => map_updateWhere fun _ _ => hkey _ _ _
      refine h.withConsumers ?_ (fun row hrow => ?_) (fun row hrow channel hchannel => ?_)
        fun r hr => ?_
      · exact (hkeys (·.id) fun _ _ _ => rfl) ▸ h.consumer_ids
      · obtain ⟨row, hmem, rfl⟩ := mem_updateWhere.1 hrow
        have hold := h.consumer_channel row hmem
        split <;> exact hold
      · obtain ⟨row, hmem, rfl⟩ := mem_updateWhere.1 hrow
        have hold := h.consumers row hmem channel hchannel
        split
        · rw [ConsumerRow.isInValidState_toConsumer hchannel] at hold ⊢
          exact ⟨hold.1, (Consumer.isInValidState_iff.1 hvalid).1.2⟩
        · exact hold
      · exact (hkeys (·.id) fun _ _ _ => rfl) ▸ h.jobs r hr

theorem Db.Sound.deleteConsumer (h : db.Sound) (consumer : Consumer) :
    (WebhookBroker.deleteConsumer consumer db).2.Sound := by
  rcases transactionalSingleRowWriteExec_cases
    (deleteConsumerRow consumer.getChannelIDSafely consumer.consumerID) db with
    ⟨db₁, hq, hr⟩ | ⟨e, hr⟩ <;> rw [WebhookBroker.deleteConsumer, hr]
  · unfold deleteConsumerRow at hq
    dsimp only at hq
    split at hq
    · cases hq
    · rename_i hfree
      simp only [Except.ok.injEq, Prod.mk.injEq] at hq
      obtain ⟨-, rfl⟩ := hq
      refine h.withConsumers ?_ (fun row hrow => ?_) (fun row hrow => ?_) fun r hr => ?_
      · exact h.consumer_ids.sublist ((deleteWhere_sublist _ _).map _)
      · exact h.consumer_channel row (mem_deleteWhere.1 hrow).1
      · exact h.consumers row (mem_deleteWhere.1 hrow).1
      · obtain ⟨row, hrow, hid⟩ := mem_map.1 (h.jobs r hr)
        refine mem_map.2 ⟨row, mem_deleteWhere.2 ⟨hrow, ?_⟩, hid⟩
        refine Bool.eq_false_of_not_eq_true fun hp => hfree ⟨row, hrow, hp, ?_⟩
        rw [hid]
        exact mem_map_of_mem hr
  · exact h

omit [NetUrl] in
/-- A message that is valid when it is stored is valid with any valid channel and producer. -/
theorem Message.isInValidState_withReferences {message : Message} {channel : Channel}
    {producer : Producer} (h : message.isInValidState = true)
    (hchannel : channel.isInValidState = true) (hproducer : producer.isInValidState = true) :
    (message.toRow.withReferences channel producer).isInValidState = true := by
  unfold Message.isInValidState at h ⊢
  simp only [MessageRow.withReferences, MessageRow.toMessage, Message.toRow, Option.any_some,
    hchannel, hproducer, Bool.not_true, Bool.or_self, Bool.false_eq_true, if_false]
  split at h
  · cases h
  · split at h
    · cases h
    · rename_i htexts _
      rw [if_neg htexts]
      exact h

theorem Db.Sound.insertMessage (h : db.Sound) {message : Message}
    (hvalid : message.isInValidState = true) {n : Nat}
    (hq : WebhookBroker.insertMessage message.toRow db = .ok (n, db')) : db'.Sound := by
  obtain ⟨⟨hid, -⟩, hrefs, heq⟩ := insertMessage_eq_ok.1 hq
  cases heq
  have hlast : ∀ {P : MessageRow → Prop}, (∀ row ∈ db.message, P row) → P message.toRow →
      ∀ row ∈ db.message ++ [message.toRow], P row := by
    intro P hold hnew row hrow
    rcases mem_append.1 hrow with hrow | hrow
    · exact hold row hrow
    · exact mem_singleton.1 hrow ▸ hnew
  refine ⟨?_, h.channels, h.producers, h.consumer_ids, h.consumer_channel, h.consumers,
    hlast h.message_channel hrefs.1, hlast h.message_producer hrefs.2,
    hlast h.messages fun _ channel producer => Message.isInValidState_withReferences hvalid,
    h.jobs⟩
  refine h.integrity.transport (List.Subperm.refl _)
    (fun m hm _ => mem_append_left _ hm) ?_ h.integrity.seqs h.integrity.seqs_lt
  rw [map_append, map_singleton, nodup_append]
  refine ⟨h.integrity.messages, nodup_singleton _, ?_⟩
  intro a ha b hb heq
  rw [mem_singleton.1 hb] at heq
  exact hid (heq ▸ ha)

/-- A message is stored with the rows that it refers to, and only if it is valid. -/
theorem Db.Sound.createMessage (h : db.Sound) (message : Message) :
    (WebhookBroker.createMessage message db).2.Sound := by
  unfold WebhookBroker.createMessage
  split
  · exact h
  rename_i hvalid
  have hvalid : message.isInValidState = true := by simpa using hvalid
  split
  · exact h
  dsimp only
  rcases transactionalSingleRowWriteExec_cases
    (WebhookBroker.insertMessage message.toRow) db with ⟨db₁, hq, hr⟩ | ⟨e, hr⟩ <;> rw [hr]
  · exact h.insertMessage hvalid hq
  · exact h

variable {op : StorageOp}

theorem StorageOp.step_sound (h : db.Sound) (hs : StorageOp.step db op = some db') : db'.Sound := by
  cases op with
  | job op => exact h.effect (DbOp.step_effect hs)
  | storeProducer now newID producer =>
    cases hs
    exact h.storeProducer now newID producer
  | storeChannel now newID channel =>
    cases hs
    exact h.storeChannel now newID channel
  | storeConsumer now newID consumer =>
    cases hs
    exact h.storeConsumer now newID consumer
  | deleteConsumer consumer =>
    cases hs
    exact h.deleteConsumer consumer
  | createMessage message =>
    cases hs
    exact h.createMessage message

theorem StorageRun.sound (r : StorageRun) {n : Nat} (hn : n ≤ r.len) : (r.state n).Sound :=
  r.invariant (fun _ h => h ▸ Db.sound_empty) (fun _ _ _ h hs => StorageOp.step_sound h hs) n hn

/-! ## What a write can do -/

/-- The effects of the writes: a stored or deleted record leaves messages and jobs alone and keeps
the keys of channels and producers, and a created message has the checks of its insert behind it. -/
inductive StorageEffect (db : Db) : StorageOp → Db → Prop
  | job {op : DbOp} {db' : Db} (he : DbEffect db op db') : StorageEffect db (.job op) db'
  | records {op : StorageOp} (channels : List ChannelRow) (producers : List ProducerRow)
      (consumers : List ConsumerRow) (pauses : List DispatchPauseRow)
      (hchannels : db.channel.map (·.channelId) ⊆ channels.map (·.channelId))
      (hproducers : db.producer.map (·.producerId) ⊆ producers.map (·.producerId)) :
      StorageEffect db op { db with
        channel := channels, producer := producers, consumer := consumers, dispatchPause := pauses }
  | created {message : Message} (hvalid : message.isInValidState = true)
      (hid : message.id ∉ db.message.map (·.id))
      (hkey : (message.messageID, message.getChannelIDSafely) ∉
        db.message.map fun r => (r.messageId, r.channelId)) :
      StorageEffect db (.createMessage message)
        { db with message := db.message ++ [message.toRow] }

theorem StorageEffect.unchanged : StorageEffect db op db :=
  .records db.channel db.producer db.consumer db.dispatchPause (List.Subset.refl _)
    (List.Subset.refl _)

theorem createMessage_effect (message : Message) :
    StorageEffect db (.createMessage message) (WebhookBroker.createMessage message db).2 := by
  unfold WebhookBroker.createMessage
  split
  · exact .unchanged
  rename_i hvalid
  split
  · exact .unchanged
  dsimp only
  rcases transactionalSingleRowWriteExec_cases (insertMessage message.toRow) db with
    ⟨db₁, hq, hr⟩ | ⟨e, hr⟩ <;> rw [hr]
  · obtain ⟨⟨hid, hkey⟩, -, heq⟩ := insertMessage_eq_ok.1 hq
    cases heq
    exact .created (by simpa using hvalid) hid hkey
  · exact .unchanged

theorem deleteConsumer_effect (consumer : Consumer) :
    StorageEffect db (.deleteConsumer consumer) (WebhookBroker.deleteConsumer consumer db).2 := by
  rcases transactionalSingleRowWriteExec_cases
    (deleteConsumerRow consumer.getChannelIDSafely consumer.consumerID) db with
    ⟨db₁, hq, hr⟩ | ⟨e, hr⟩ <;> rw [WebhookBroker.deleteConsumer, hr]
  · unfold deleteConsumerRow at hq
    dsimp only at hq
    split at hq
    · cases hq
    · simp only [Except.ok.injEq, Prod.mk.injEq] at hq
      obtain ⟨-, rfl⟩ := hq
      exact .records db.channel db.producer _ _ (List.Subset.refl _) (List.Subset.refl _)
  · exact .unchanged

theorem storeConsumer_effect (now : Time) (newID : Xid) (consumer : Consumer) :
    StorageEffect db (.storeConsumer now newID consumer)
      (WebhookBroker.storeConsumer now newID consumer db).2 := by
  unfold WebhookBroker.storeConsumer
  split
  · exact .unchanged
  · rename_i inChannel _
    rcases consumerTable.store_db_cases now newID
      (getConsumer db inChannel.channelID consumer.consumerID) consumer db
      with hr | ⟨-, -, -, hr⟩ | ⟨-, p, hr⟩ <;> rw [hr]
    · exact .unchanged
    · exact .records db.channel db.producer _ db.dispatchPause (List.Subset.refl _)
        (List.Subset.refl _)
    · exact .records db.channel db.producer _ db.dispatchPause (List.Subset.refl _)
        (List.Subset.refl _)

theorem StorageOp.step_effect {op : StorageOp} (hs : StorageOp.step db op = some db') :
    StorageEffect db op db' := by
  cases op with
  | job op => exact .job (DbOp.step_effect hs)
  | storeProducer now newID producer =>
    cases hs
    rcases producerTable.store_db_cases now newID (getProducer db producer.producerID) producer db
      with hr | ⟨-, -, -, hr⟩ | ⟨-, p, hr⟩ <;> rw [WebhookBroker.storeProducer, hr]
    · exact .unchanged
    · exact .records db.channel _ db.consumer db.dispatchPause (List.Subset.refl _)
        (map_subset _ (subset_append_left _ _))
    · exact .records db.channel _ db.consumer db.dispatchPause (List.Subset.refl _)
        (map_subset_updateWhere fun _ _ => rfl)
  | storeChannel now newID channel =>
    cases hs
    rcases channelTable.store_db_cases now newID (getChannel db channel.channelID) channel db
      with hr | ⟨-, -, -, hr⟩ | ⟨-, p, hr⟩ <;> rw [WebhookBroker.storeChannel, hr]
    · exact .unchanged
    · exact .records _ db.producer db.consumer db.dispatchPause
        (map_subset _ (subset_append_left _ _)) (List.Subset.refl _)
    · exact .records _ db.producer db.consumer db.dispatchPause
        (map_subset_updateWhere fun _ _ => rfl) (List.Subset.refl _)
  | storeConsumer now newID consumer =>
    cases hs
    exact storeConsumer_effect now newID consumer
  | deleteConsumer consumer =>
    cases hs
    exact deleteConsumer_effect consumer
  | createMessage message =>
    cases hs
    exact createMessage_effect message

theorem StorageEffect.keys_subset (he : StorageEffect db op db') :
    db.channel.map (·.channelId) ⊆ db'.channel.map (·.channelId) ∧
      db.producer.map (·.producerId) ⊆ db'.producer.map (·.producerId) := by
  cases he with
  | job he =>
    obtain ⟨hchannel, hproducer, -⟩ := he.frame
    rw [hchannel, hproducer]
    exact ⟨List.Subset.refl _, List.Subset.refl _⟩
  | records channels producers consumers pauses hchannels hproducers =>
    exact ⟨hchannels, hproducers⟩
  | created => exact ⟨List.Subset.refl _, List.Subset.refl _⟩

end

end WebhookBroker
