import WebhookBroker.Scheduler.System

/-!
# Progress of the scheduler (`scheduler/scheduler.go`)

A call of `processScheduledMessages` is meant to bring down the number of messages that are due.
Only the goroutine that inserts the message marks the scheduled message, though, and `Create`
refuses a message whose ids are stored already. So a scheduled message whose goroutine failed
between the two statements stays `SCHEDULED` whatever later calls do, and since the oldest messages
are read first, a batch of such messages hides all others.
-/

namespace WebhookBroker

open Lib List

/-- The number of messages that are due and `SCHEDULED`. -/
def Db.dueCount (now : Time) (db : Db) : Nat :=
  db.scheduledMessage.countP (isReadyForDispatch now)

/-- `Get` of the message repository finds a message for the ids of the scheduled message. -/
def ScheduledMessage.isStored (db : Db) (msg : ScheduledMessage) : Bool :=
  db.message.any (isLikeMessage msg.getChannelIDSafely msg.messageID)

/-- The statement of the step does not fail, the clock runs, and a new id is not stored. -/
structure SchedulerEnv.Clean (env : SchedulerEnv) (db : Db) : Prop where
  fault : env.fault = false
  now : env.now ≠ 0
  newID : env.newID ∉ db.message.map (·.id)

/-- A call of `processScheduledMessages`: its goroutines, and no others, make steps until all of
them are done. No statement of theirs fails, and the locks they ask for are free. -/
structure ProcessRun [NetUrl] (limit : Nat) (s : SchedulerSys) (now : Time)
    (rows : List ScheduledMessageRow) where
  started : SchedulerSys
  acts : List SchedulerAction
  final : SchedulerSys
  start : SchedulerSys.step limit s (.tick now rows) = some started
  runs : exec (SchedulerSys.step limit) started acts = some final
  own : ∀ a ∈ acts, ∃ u env, a = .run (s.threads.length + u) env ∧ env.Clean s.db
  unlocked : ∀ msg ∈ getMessagesReadyForDispatch s.db rows limit,
    msg.getLockID ∉ s.db.lock.map (·.lockID)
  finished : ∀ u th, final.threads[s.threads.length + u]? = some th → th.position = .done

/-! ## The messages of a batch -/

/-- The message was loaded from a row that is due, with a channel and a producer of the tables. -/
structure Db.IsDue (db : Db) (now : Time) (msg : ScheduledMessage) : Prop where
  row : ∃ row ∈ db.scheduledMessage, isReadyForDispatch now row = true ∧ row.id = msg.id
  texts : msg.messageID.isEmpty = false ∧ msg.payload.isEmpty = false ∧
    msg.contentType.isEmpty = false
  channel : ∃ row ∈ db.channel, msg.broadcastedTo = some row.toChannel
  producer : ∃ row ∈ db.producer, msg.producedBy = some row.toProducer

section
variable {db db' : Db} {now : Time} {msg : ScheduledMessage} {rows : List ScheduledMessageRow}
  {limit : Nat}

theorem Db.IsReadyOrder.isDue (hrows : db.IsReadyOrder now rows) (hs : db.ScheduledSound)
    (hmsg : msg ∈ getMessagesReadyForDispatch db rows limit) : db.IsDue now msg := by
  obtain ⟨row, htake, hload⟩ := mem_getMessagesReadyForDispatch.1 hmsg
  obtain ⟨hrow, hready⟩ := hrows.mem_take htake
  obtain ⟨channel, hchannel, producer, hproducer, -, -, rfl⟩ := ScheduledMessageRow.load_eq_ok hload
  exact ⟨⟨row, hrow, hready, rfl⟩, hs.texts row hrow, ⟨channel, hchannel, rfl⟩,
    ⟨producer, hproducer, rfl⟩⟩

theorem Db.IsDue.withLock (h : db.IsDue now msg) {locks : List Lock} :
    ({ db with lock := locks } : Db).IsDue now msg :=
  ⟨h.row, h.texts, h.channel, h.producer⟩

theorem getMessagesReadyForDispatch_ids (db : Db) (rows : List ScheduledMessageRow) (limit : Nat) :
    ((getMessagesReadyForDispatch db rows limit).map (·.id)).Sublist (rows.map (·.id)) := by
  refine List.Sublist.trans ?_ ((take_sublist limit rows).map _)
  unfold getMessagesReadyForDispatch
  induction rows.take limit with
  | nil => exact List.Sublist.refl _
  | cons row rows ih =>
    rw [filterMap_cons]
    cases hload : row.load db with
    | error e => exact ih.cons _
    | ok message =>
      obtain ⟨channel, -, producer, -, -, -, rfl⟩ := ScheduledMessageRow.load_eq_ok hload
      exact ih.cons_cons _

theorem Db.IsReadyOrder.getLockID_ne (hrows : db.IsReadyOrder now rows) (hs : db.ScheduledSound)
    {u v : Nat} {msg' : ScheduledMessage} (huv : u ≠ v)
    (hu : (getMessagesReadyForDispatch db rows limit)[u]? = some msg)
    (hv : (getMessagesReadyForDispatch db rows limit)[v]? = some msg') :
    msg.getLockID ≠ msg'.getLockID := by
  have hids : ((getMessagesReadyForDispatch db rows limit).map (·.id)).Nodup := by
    refine List.Nodup.sublist (getMessagesReadyForDispatch_ids db rows limit) ?_
    refine (hrows.1.map _).nodup_iff.2 ?_
    exact hs.ids.sublist (filter_sublist.map _)
  intro heq
  have hid : msg.id = msg'.id := Xid.string_injective (String.append_right_inj _ |>.1 heq)
  have hlen : u < ((getMessagesReadyForDispatch db rows limit).map (·.id)).length := by
    rw [length_map]
    exact (List.getElem?_eq_some_iff.1 hu).1
  refine huv ((List.getElem?_inj hlen hids).1 ?_)
  rw [List.getElem?_map, List.getElem?_map, hu, hv, Option.map_some, Option.map_some, hid]

/-- The channel of the message is in its table, and the producer is. -/
theorem Db.IsDue.refs (h : db.IsDue now msg) {message : Message} (hmade : message.MadeFrom msg) :
    message.toRow.channelId ∈ db.channel.map (·.channelId) ∧
      message.toRow.producerId ∈ db.producer.map (·.producerId) := by
  obtain ⟨channel, hchannel, hbroadcastedTo⟩ := h.channel
  obtain ⟨producer, hproducer, hproducedBy⟩ := h.producer
  constructor
  · refine mem_map.2 ⟨channel, hchannel, ?_⟩
    simp [Message.toRow, Message.getChannelIDSafely, hmade.broadcastedTo, hbroadcastedTo,
      ChannelRow.toChannel]
  · refine mem_map.2 ⟨producer, hproducer, ?_⟩
    simp [Message.toRow, hmade.producedBy, hproducedBy, ProducerRow.toProducer]

variable [NetUrl] {env : SchedulerEnv}

theorem Db.IsDue.newMessage_valid (h : db.IsDue now msg) (hsound : db.Sound)
    (hnow : env.now ≠ 0) :
    (msg.newMessage env).2 = true ∧ (msg.newMessage env).1.isInValidState = true := by
  obtain ⟨hmessageID, hpayload, hcontentType⟩ := h.texts
  obtain ⟨channel, hchannel, hbroadcastedTo⟩ := h.channel
  obtain ⟨producer, hproducer, hproducedBy⟩ := h.producer
  have hchannel := hsound.channels channel hchannel
  have hproducer := hsound.producers producer hproducer
  have hxid : env.newMessageID.string.isEmpty = false := by
    rw [← Bool.not_eq_true, String.isEmpty_iff]
    intro hempty
    have hlength := env.newMessageID.length
    rw [hempty] at hlength
    cases hlength
  constructor <;>
    simp [ScheduledMessage.newMessage, newMessage, Message.quickFix, Message.isInValidState,
      hmessageID, hpayload, hcontentType, hbroadcastedTo, hproducedBy, hchannel, hproducer, hxid,
      hnow]

end

/-! ## Steps without faults -/

section
variable {db db' : Db} {now : Time} {env : SchedulerEnv} {th : ScheduledDispatch}
  {message : Message}

theorem ScheduledDispatch.check_eq [NetUrl] (hdue : db.IsDue now th.scheduledMsg)
    (hsound : db.Sound) (hfault : env.fault = false) (hnow : env.now ≠ 0) :
    th.check env db = if th.scheduledMsg.isStored db then .refreshing
      else .inserting (th.scheduledMsg.newMessage env).1 := by
  obtain ⟨hvalid, hstate⟩ := hdue.newMessage_valid hsound hnow
  have hchannel : (th.scheduledMsg.newMessage env).1.getChannelIDSafely ∈
      db.channel.map (·.channelId) := (hdue.refs (th.scheduledMsg.newMessage_madeFrom env)).1
  have hget := getMessage_isOk hchannel hsound.message_producer
  rw [ScheduledDispatch.check]
  dsimp only
  rw [hvalid, hstate, hfault, if_neg (by simp), if_neg (by simp)]
  cases hstored : th.scheduledMsg.isStored db with
  | true =>
    obtain ⟨m, hm⟩ := hget.2 (any_eq_true.1 hstored)
    rw [hm]
    rfl
  | false =>
    cases hm : getMessage db (th.scheduledMsg.newMessage env).1.getChannelIDSafely
        (th.scheduledMsg.newMessage env).1.messageID with
    | ok m =>
      have hlike := any_eq_true.2 (hget.1 ⟨m, hm⟩)
      exact absurd (hstored.symm.trans hlike) Bool.false_ne_true
    | error e => rfl

theorem ScheduledDispatch.insert_eq (hdue : db.IsDue now th.scheduledMsg)
    (hmade : message.MadeFrom th.scheduledMsg) (hid : message.id ∉ db.message.map (·.id))
    (hnew : th.scheduledMsg.isStored db = false) :
    insert message db = ({ db with message := db.message ++ [message.toRow] },
      .marking message) := by
  have hkey : (message.toRow.messageId, message.toRow.channelId) ∉
      db.message.map fun r => (r.messageId, r.channelId) := by
    intro hmem
    obtain ⟨row, hrow, heq⟩ := mem_map.1 hmem
    obtain ⟨hmessageId, hchannelId⟩ := Prod.mk.inj heq
    have hlike : isLikeMessage th.scheduledMsg.getChannelIDSafely th.scheduledMsg.messageID row =
        true := by
      rw [isLikeMessage, hmessageId, hchannelId, Message.toRow, Message.getChannelIDSafely,
        hmade.broadcastedTo, hmade.messageID, ScheduledMessage.getChannelIDSafely, sqlLike_self,
        sqlLike_self]
      rfl
    exact absurd (hnew.symm.trans (any_eq_true.2 ⟨row, hrow, hlike⟩)) Bool.false_ne_true
  have hq : insertMessage message.toRow db = .ok (1, { db with
      message := db.message ++ [message.toRow] }) :=
    insertMessage_eq_ok.2 ⟨⟨hid, hkey⟩, hdue.refs hmade, rfl⟩
  rw [ScheduledDispatch.insert, transactionalSingleRowWriteExec_of_ok hq]

theorem Db.dueCount_mark (db : Db) (now markedAt : Time) (msg : ScheduledMessage)
    (hstatus : msg.status = .dispatched) :
    db.dueCount now =
      (updateWhere (fun row => row.id == msg.id) (·.mark markedAt msg)
        db.scheduledMessage).countP (isReadyForDispatch now) +
      db.scheduledMessage.countP fun row => isReadyForDispatch now row && row.id == msg.id :=
  countP_updateWhere fun row _ => by simp [isReadyForDispatch, ScheduledMessageRow.mark, hstatus]

/-- `MarkDispatched` of a message that is due succeeds, and fewer messages are due then. -/
theorem ScheduledDispatch.mark_lt (hs : db.ScheduledSound)
    (hdue : ∃ row ∈ db.scheduledMessage,
      isReadyForDispatch now row = true ∧ row.id = th.scheduledMsg.id) :
    (th.mark env message db).1.dueCount now < db.dueCount now := by
  obtain ⟨row, hrow, hready, hid⟩ := hdue
  have hpos : 0 < db.scheduledMessage.countP
      fun row => isReadyForDispatch now row && row.id == th.scheduledMsg.id := by
    refine countP_pos_iff.2 ⟨row, hrow, ?_⟩
    rw [hready, hid, beq_self_eq_true]
    rfl
  have hcount := db.dueCount_mark now env.now
    { th.scheduledMsg with status := .dispatched, dispatchedAt := env.now } rfl
  have hid' : row.id = ({ th.scheduledMsg with
      status := .dispatched, dispatchedAt := env.now } : ScheduledMessage).id := hid
  rw [ScheduledDispatch.mark, markDispatched_of_mem hs.ids hrow hid' rfl env.now, hcount]
  exact Nat.lt_add_of_pos_right hpos

end

/-! ## The steps of a goroutine -/

/-- The goroutine has not inserted its message, and nothing is in its way. -/
inductive ScheduledDispatch.Pending (db : Db) (th : ScheduledDispatch) : Prop
  | locking (hpos : th.position = .locking)
      (hfree : th.scheduledMsg.getLockID ∉ db.lock.map (·.lockID))
  | creating (hpos : th.position = .creating)
  | inserting {message : Message} (hpos : th.position = .inserting message)
      (hid : message.id ∉ db.message.map (·.id))

def Db.Inserts (db db' : Db) (p : SchedulerPosition) : Prop :=
  (∃ message, p = .marking message) ∧ db'.scheduledMessage = db.scheduledMessage

section
variable [NetUrl] {db db' : Db} {now : Time} {env : SchedulerEnv} {th : ScheduledDispatch}
  {p : SchedulerPosition}

omit [NetUrl] in
theorem SchedulerPosition.isCreated_of_message? (hp : p.message? = none) : p.isCreated = false := by
  cases p with
  | inserting | marking | dispatching => cases hp
  | locking | creating | refreshing | releasing | done => rfl

omit [NetUrl] in
theorem ScheduledDispatch.Pending.withLock (h : th.Pending db) {locks : List Lock}
    (hlocks : ∀ l ∈ locks, l ∈ db.lock ∨ l.lockID ≠ th.scheduledMsg.getLockID) :
    th.Pending { db with lock := locks } := by
  cases h with
  | locking hpos hfree =>
    refine .locking hpos fun hmem => ?_
    obtain ⟨l, hl, heq⟩ := mem_map.1 hmem
    rcases hlocks l hl with hold | hne
    · exact hfree (mem_map.2 ⟨l, hold, heq⟩)
    · exact hne heq
  | creating hpos => exact .creating hpos
  | inserting hpos hid => exact .inserting hpos hid

/-- A goroutine that nothing is in the way of goes on until it has inserted its message. -/
theorem ScheduledDispatch.Pending.run (h : th.Pending db) (hdue : db.IsDue now th.scheduledMsg)
    (hsound : db.Sound) (hnew : th.scheduledMsg.isStored db = false)
    (hmade : ∀ message, th.position.message? = some message → message.MadeFrom th.scheduledMsg)
    (hclean : env.Clean db) (hrun : th.run env db = some (db', p)) :
    db.Inserts db' p ∨ p.isCreated = false ∧ ∃ locks, db' = { db with lock := locks } ∧
      ({ th with position := p } : ScheduledDispatch).Pending db' := by
  cases h with
  | locking hpos hfree =>
    rcases tryLock_cases ⟨th.scheduledMsg.getLockID, env.now⟩ db with ⟨-, hr⟩ | ⟨e, hheld, -⟩
    · simp only [ScheduledDispatch.run, hpos, hclean.fault, hr] at hrun
      cases hrun
      exact .inr ⟨rfl, _, rfl, .creating rfl⟩
    · exact absurd hheld hfree
  | creating hpos =>
    simp only [ScheduledDispatch.run, hpos] at hrun
    rw [check_eq hdue hsound hclean.fault hclean.now, hnew] at hrun
    cases hrun
    exact .inr ⟨rfl, db.lock, rfl, .inserting rfl hclean.newID⟩
  | @inserting message hpos hid =>
    simp only [ScheduledDispatch.run, hpos, hclean.fault] at hrun
    rw [insert_eq hdue (hmade message (by rw [hpos]; rfl)) hid hnew] at hrun
    cases hrun
    exact .inl ⟨⟨message, rfl⟩, rfl⟩

theorem ThreadEffect.idle (he : ThreadEffect env th db db' p)
    (hcreated : th.position.isCreated = false) :
    db.Inserts db' p ∨ p.isCreated = false ∧ ∃ locks, db' = { db with lock := locks } ∧
      ∀ l ∈ locks, l ∈ db.lock ∨ l.lockID = th.scheduledMsg.getLockID := by
  cases he with
  | quiet hp hlocks => exact .inr ⟨SchedulerPosition.isCreated_of_message? hp, _, rfl, hlocks⟩
  | checked => exact .inr ⟨rfl, db.lock, rfl, fun _ => .inl⟩
  | inserted _ hq =>
    obtain ⟨-, -, heq⟩ := insertMessage_eq_ok.1 hq
    cases heq
    exact .inl ⟨⟨_, rfl⟩, rfl⟩
  | marked hpos | dispatched hpos =>
    rw [hpos] at hcreated
    cases hcreated

theorem ThreadEffect.scheduledMessage (he : ThreadEffect env th db db' p)
    (hpos : ∀ message, th.position ≠ .marking message) :
    db'.scheduledMessage = db.scheduledMessage := by
  cases he with
  | quiet | checked => rfl
  | inserted _ hq =>
    obtain ⟨-, -, heq⟩ := insertMessage_eq_ok.1 hq
    cases heq
    rfl
  | marked hmarking => exact absurd hmarking (hpos _)
  | dispatched _ he => exact he.scheduledMessage

theorem ThreadEffect.dueCount_le (he : ThreadEffect env th db db' p) (now : Time) :
    db'.dueCount now ≤ db.dueCount now := by
  cases he with
  | marked =>
    rw [db.dueCount_mark now env.now
      { th.scheduledMsg with status := .dispatched, dispatchedAt := env.now } rfl]
    exact Nat.le_add_right _ _
  | quiet | checked => exact Nat.le_refl _
  | inserted _ hq =>
    obtain ⟨-, -, heq⟩ := insertMessage_eq_ok.1 hq
    cases heq
    exact Nat.le_refl _
  | dispatched _ he => exact Nat.le_of_eq (by rw [Db.dueCount, he.scheduledMessage]; rfl)

end

/-! ## The states of a call -/

/-- The goroutines of the call belong to the messages of its batch. -/
structure SchedulerSys.InCall [NetUrl] (limit : Nat) (s : SchedulerSys)
    (rows : List ScheduledMessageRow) (x : SchedulerSys) : Prop where
  inv : x.Inv
  owns : ∀ u, (x.threads[s.threads.length + u]?).map (·.scheduledMsg) =
    (getMessagesReadyForDispatch s.db rows limit)[u]?

/-- Seen from one goroutine of a call: nothing is inserted and nothing is in its way, or a message
is inserted and about to be marked, or a message was marked. -/
inductive SchedulerSys.Phase (s : SchedulerSys) (now : Time) (b : Nat) (x : SchedulerSys) : Prop
  | idle {locks : List Lock} {th : ScheduledDispatch} (hdb : x.db = { s.db with lock := locks })
      (hcreated : ∀ u th, x.threads[s.threads.length + u]? = some th →
        th.position.isCreated = false)
      (hth : x.threads[s.threads.length + b]? = some th) (hpending : th.Pending x.db)
  | created {u : Nat} {th : ScheduledDispatch} {message : Message}
      (hsame : x.db.scheduledMessage = s.db.scheduledMessage)
      (hth : x.threads[s.threads.length + u]? = some th) (hpos : th.position = .marking message)
  | decreased (hlt : x.db.dueCount now < s.db.dueCount now)

/-- No goroutine of the call gets further than the lookup of `Create`. -/
structure SchedulerSys.Stuck (s x : SchedulerSys) : Prop where
  db : ∃ locks, x.db = { s.db with lock := locks }
  threads : ∀ u th, x.threads[s.threads.length + u]? = some th → th.position.message? = none

section
variable [NetUrl] {limit : Nat} {s x x' : SchedulerSys} {now : Time}
  {rows : List ScheduledMessageRow} {b u : Nat} {env : SchedulerEnv}

namespace SchedulerSys

omit [NetUrl] in
theorem setPosition_self {th : ScheduledDispatch} {t : Nat} (hth : x.threads[t]? = some th)
    (p : SchedulerPosition) :
    (x.setPosition t th p).threads[t]? = some { th with position := p } := by
  rw [setPosition, List.getElem?_set_self', hth]
  rfl

theorem InCall.start (hs : s.Inv) (hrows : s.db.IsReadyOrder now rows) :
    InCall limit s rows { s with threads := s.threads ++
      (getMessagesReadyForDispatch s.db rows limit).map (⟨·, .locking⟩) } := by
  refine ⟨(SchedulerGoes.ticked hrows).inv hs, fun u => ?_⟩
  rw [List.getElem?_append_right (Nat.le_add_right _ _), Nat.add_sub_cancel_left,
    List.getElem?_map, Option.map_map]
  exact Option.map_id'

theorem InCall.step (h : InCall limit s rows x) {a : SchedulerAction} {t : Nat}
    (ha : a = .run t env) (hstep : SchedulerSys.step limit x a = some x') :
    InCall limit s rows x' := by
  subst ha
  refine ⟨(step_goes hstep).inv h.inv, fun u => ?_⟩
  obtain ⟨th, db, p, hth, -, rfl⟩ := step_run hstep
  rw [← h.owns u]
  rcases eq_or_ne t (s.threads.length + u) with rfl | hne
  · rw [setPosition_self hth, hth]
    rfl
  · exact congrArg _ (List.getElem?_set_ne hne)

theorem InCall.getElem? (h : InCall limit s rows x) {th : ScheduledDispatch}
    (hth : x.threads[s.threads.length + u]? = some th) :
    (getMessagesReadyForDispatch s.db rows limit)[u]? = some th.scheduledMsg := by
  rw [← h.owns u, hth]
  rfl

theorem Phase.step_idle (hs : s.Inv) (hrows : s.db.IsReadyOrder now rows)
    (hx : InCall limit s rows x) (hclean : env.Clean s.db) {locks : List Lock}
    (hdb : x.db = { s.db with lock := locks }) {th thb : ScheduledDispatch}
    (hth : x.threads[s.threads.length + u]? = some th)
    (hcreated : th.position.isCreated = false)
    (hthb : x.threads[s.threads.length + b]? = some thb) (hpending : thb.Pending x.db)
    (hnew : thb.scheduledMsg.isStored s.db = false) {db : Db} {p : SchedulerPosition}
    (hrun : th.run env x.db = some (db, p)) :
    x.db.Inserts db p ∨ p.isCreated = false ∧ ∃ locks, db = { x.db with lock := locks } ∧
      ∃ thb, (x.setPosition (s.threads.length + u) th p).threads[s.threads.length + b]? =
        some thb ∧ thb.Pending db := by
  have hdue : x.db.IsDue now thb.scheduledMsg := by
    rw [hdb]
    exact (hrows.isDue hs.scheduled (mem_of_getElem? (hx.getElem? hthb))).withLock
  rcases eq_or_ne u b with rfl | hne
  · obtain rfl := Option.some.inj (hth.symm.trans hthb)
    have hmade := hx.inv.made th (mem_of_getElem? hth)
    rcases hpending.run hdue hx.inv.sound (by rw [hdb]; exact hnew) (fun m hm => (hmade m hm).1)
      (by rw [hdb]; exact ⟨hclean.fault, hclean.now, hclean.newID⟩) hrun with
      hinserts | ⟨hp, locks', hdb', hpending'⟩
    · exact .inl hinserts
    · exact .inr ⟨hp, locks', hdb', _, setPosition_self hth p, hpending'⟩
  · rcases (ScheduledDispatch.run_effect hrun).idle hcreated with
      hinserts | ⟨hp, locks', rfl, hlocks⟩
    · exact .inl hinserts
    · refine .inr ⟨hp, locks', rfl, thb, ?_, hpending.withLock fun l hl => ?_⟩
      · rw [setPosition, List.getElem?_set_ne (by omega)]
        exact hthb
      · refine (hlocks l hl).imp_right fun hl => ?_
        rw [hl]
        exact hrows.getLockID_ne hs.scheduled hne (hx.getElem? hth) (hx.getElem? hthb)

theorem Phase.step_created (hs : s.Inv) (hrows : s.db.IsReadyOrder now rows)
    (hx : InCall limit s rows x) (hclean : env.Clean s.db)
    (hsame : x.db.scheduledMessage = s.db.scheduledMessage) {th : ScheduledDispatch}
    (hth : x.threads[s.threads.length + u]? = some th) {db : Db} {p : SchedulerPosition}
    (hrun : th.run env x.db = some (db, p)) :
    db.dueCount now < s.db.dueCount now ∨
      (∀ message, th.position ≠ .marking message) ∧
        db.scheduledMessage = s.db.scheduledMessage := by
  by_cases hmarking : ∃ message, th.position = .marking message
  · obtain ⟨message, hpos⟩ := hmarking
    have hdue := (hrows.isDue hs.scheduled (mem_of_getElem? (hx.getElem? hth))).row
    rw [← hsame] at hdue
    simp only [ScheduledDispatch.run, hpos, hclean.fault] at hrun
    have hmark : (th.mark env message x.db).1.dueCount now < x.db.dueCount now :=
      ScheduledDispatch.mark_lt hx.inv.scheduled hdue
    rw [Option.some.inj hrun] at hmark
    rw [Db.dueCount, Db.dueCount, ← hsame]
    exact .inl hmark
  · have hpos := not_exists.1 hmarking
    exact .inr ⟨hpos, ((ScheduledDispatch.run_effect hrun).scheduledMessage hpos).trans hsame⟩

/-- A step of a call, where the ids of the message of one of its goroutines are not stored. -/
theorem Phase.step (hs : s.Inv) (hrows : s.db.IsReadyOrder now rows)
    (hx : InCall limit s rows x) (hclean : env.Clean s.db) {msg : ScheduledMessage}
    (hb : (getMessagesReadyForDispatch s.db rows limit)[b]? = some msg)
    (hnew : msg.isStored s.db = false) (h : Phase s now b x)
    (hstep : SchedulerSys.step limit x (.run (s.threads.length + u) env) = some x') :
    Phase s now b x' := by
  obtain ⟨th, db, p, hth, hrun, rfl⟩ := step_run hstep
  cases h with
  | idle hdb hcreated hthb hpending =>
    obtain rfl := Option.some.inj (hb.symm.trans (hx.getElem? hthb))
    rcases Phase.step_idle hs hrows hx hclean hdb hth (hcreated u th hth) hthb hpending hnew hrun
      with ⟨⟨message, rfl⟩, hsame⟩ | ⟨hp, locks, hdb', thb, hthb', hpending'⟩
    · refine .created (hsame.trans ?_) (setPosition_self hth _) rfl
      rw [hdb]
    · rw [hdb] at hdb'
      refine .idle hdb' (fun v th' hth' => ?_) hthb' hpending'
      rcases getElem?_set_cases hth' with ⟨-, rfl⟩ | ⟨-, hth'⟩
      · exact hp
      · exact hcreated v th' hth'
  | @created v thv message hsame hthv hpos =>
    rcases Phase.step_created hs hrows hx hclean hsame hth hrun with hlt | ⟨hne, hsame'⟩
    · exact .decreased hlt
    · have huv : s.threads.length + u ≠ s.threads.length + v := by
        intro heq
        rw [heq, hthv] at hth
        cases hth
        exact hne message hpos
      rw [← List.getElem?_set_ne huv] at hthv
      exact .created hsame' hthv hpos
  | decreased hlt =>
    exact .decreased (((ScheduledDispatch.run_effect hrun).dueCount_le now).trans_lt hlt)

/-- A step of a call, where the ids of all messages of the batch are stored. -/
theorem Stuck.step (hs : s.Inv) (hrows : s.db.IsReadyOrder now rows)
    (hx : InCall limit s rows x) (hclean : env.Clean s.db)
    (hstored : ∀ msg ∈ getMessagesReadyForDispatch s.db rows limit, msg.isStored s.db = true)
    (h : Stuck s x)
    (hstep : SchedulerSys.step limit x (.run (s.threads.length + u) env) = some x') :
    Stuck s x' := by
  obtain ⟨th, db, p, hth, hrun, rfl⟩ := step_run hstep
  obtain ⟨locks, hdb⟩ := h.db
  have hmem := mem_of_getElem? (hx.getElem? hth)
  have hpos := h.threads u th hth
  have hnext : (∃ locks, db = { x.db with lock := locks }) ∧ p.message? = none := by
    cases ScheduledDispatch.run_effect hrun with
    | quiet hp => exact ⟨⟨_, rfl⟩, hp⟩
    | checked hcreating =>
      have hdue : x.db.IsDue now th.scheduledMsg := by
        rw [hdb]
        exact (hrows.isDue hs.scheduled hmem).withLock
      have hlike : th.scheduledMsg.isStored x.db = true := by
        rw [hdb]
        exact hstored _ hmem
      simp only [ScheduledDispatch.run, hcreating] at hrun
      rw [ScheduledDispatch.check_eq hdue hx.inv.sound hclean.fault hclean.now, hlike] at hrun
      cases hrun
    | inserted h | marked h | dispatched h =>
      rw [h] at hpos
      cases hpos
  obtain ⟨⟨locks', hdb'⟩, hp⟩ := hnext
  refine ⟨⟨locks', hdb'.trans (by rw [hdb])⟩, fun v th' hth' => ?_⟩
  rcases getElem?_set_cases hth' with ⟨-, rfl⟩ | ⟨-, hth'⟩
  · exact hp
  · exact h.threads v th' hth'

end SchedulerSys

/-! ## A whole call -/

variable (c : ProcessRun limit s now rows)

theorem ProcessRun.isReadyOrder : s.db.IsReadyOrder now rows ∧
    c.started = { s with threads := s.threads ++
      (getMessagesReadyForDispatch s.db rows limit).map (⟨·, .locking⟩) } := by
  have hstart := c.start
  rw [SchedulerSys.step, Option.ite_none_right_eq_some] at hstart
  exact ⟨hstart.1, (Option.some.inj hstart.2).symm⟩

theorem ProcessRun.started_locking {th : ScheduledDispatch}
    (hth : c.started.threads[s.threads.length + u]? = some th) : th.position = .locking := by
  rw [c.isReadyOrder.2, List.getElem?_append_right (Nat.le_add_right _ _)] at hth
  obtain ⟨msg, -, rfl⟩ := mem_map.1 (mem_of_getElem? hth)
  rfl

theorem ProcessRun.invariant (hs : s.Inv) {P : SchedulerSys → Prop} (hstart : P c.started)
    (hstep : ∀ x u env x', SchedulerSys.InCall limit s rows x → env.Clean s.db → P x →
      SchedulerSys.step limit x (.run (s.threads.length + u) env) = some x' → P x') :
    P c.final := by
  obtain ⟨hrows, hstarted⟩ := c.isReadyOrder
  have hcall : SchedulerSys.InCall limit s rows c.started := by
    rw [hstarted]
    exact .start hs hrows
  refine (exec_invariant (P := fun x => SchedulerSys.InCall limit s rows x ∧ P x) c.runs
    ⟨hcall, hstart⟩ ?_).2
  rintro x a x' ha ⟨hx, hP⟩ hgo
  obtain ⟨u, env, rfl, hclean⟩ := c.own a ha
  exact ⟨hx.step rfl hgo, hstep x u env x' hx hclean hP hgo⟩

theorem ProcessRun.dueCount_lt (hs : s.Inv) {msg : ScheduledMessage}
    (hmsg : msg ∈ getMessagesReadyForDispatch s.db rows limit)
    (hnew : msg.isStored s.db = false) : c.final.db.dueCount now < s.db.dueCount now := by
  obtain ⟨hrows, hstarted⟩ := c.isReadyOrder
  obtain ⟨b, hb⟩ := List.getElem?_of_mem hmsg
  have hphase : SchedulerSys.Phase s now b c.final := by
    refine c.invariant hs ?_ fun x u env x' hx hclean hP hgo =>
      hP.step hs hrows hx hclean hb hnew hgo
    have hth : c.started.threads[s.threads.length + b]? = some ⟨msg, .locking⟩ := by
      rw [hstarted, List.getElem?_append_right (Nat.le_add_right _ _), Nat.add_sub_cancel_left,
        List.getElem?_map, hb]
      rfl
    have hdb : c.started.db = s.db := by rw [hstarted]
    refine .idle hdb (fun u th hth => ?_) hth (.locking rfl ?_)
    · rw [c.started_locking hth]
      rfl
    · rw [hdb]
      exact c.unlocked msg hmsg
  cases hphase with
  | idle _ _ hth hpending =>
    have hdone := c.finished _ _ hth
    cases hpending with
    | locking hpos | creating hpos | inserting hpos =>
      exact SchedulerPosition.noConfusion (hpos.symm.trans hdone)
  | created _ hth hpos =>
    exact SchedulerPosition.noConfusion (hpos.symm.trans (c.finished _ _ hth))
  | decreased hlt => exact hlt

theorem ProcessRun.dueCount_eq (hs : s.Inv)
    (hstored : ∀ msg ∈ getMessagesReadyForDispatch s.db rows limit, msg.isStored s.db = true) :
    c.final.db.dueCount now = s.db.dueCount now := by
  obtain ⟨hrows, hstarted⟩ := c.isReadyOrder
  have hstuck : SchedulerSys.Stuck s c.final := by
    refine c.invariant hs ⟨⟨s.db.lock, by rw [hstarted]⟩, fun u th hth => ?_⟩
      fun x u env x' hx hclean hP hgo => hP.step hs hrows hx hclean hstored hgo
    rw [c.started_locking hth]
    rfl
  obtain ⟨locks, hdb⟩ := hstuck.db
  rw [hdb]
  rfl

end

/-- In every reachable state, a call whose statements succeed brings the number of due messages down
exactly if the ids of one of the messages that it reads are not stored as those of a message. -/
theorem due_messages_decrease_iff [NetUrl] {limit : Nat} (r : SchedulerRun limit) {n : Nat}
    (hn : n ≤ r.len) {now : Time} {rows : List ScheduledMessageRow}
    (c : ProcessRun limit (r.state n) now rows) :
    c.final.db.dueCount now < (r.state n).db.dueCount now ↔
      ∃ msg ∈ getMessagesReadyForDispatch (r.state n).db rows limit,
        msg.isStored (r.state n).db = false := by
  constructor
  · intro hlt
    by_contra hnone
    refine Nat.ne_of_lt hlt (c.dueCount_eq (r.inv hn) fun msg hmsg => ?_)
    rw [← Bool.not_eq_false]
    exact fun hnew => hnone ⟨msg, hmsg, hnew⟩
  · rintro ⟨msg, hmsg, hnew⟩
    exact c.dueCount_lt (r.inv hn) hmsg hnew

/-! ## A message that is marked, and one that never is -/

namespace Sample

def scheduledMsg : ScheduledMessage := scheduledRow.toScheduledMessage channel producer

def createdRow (status : MsgStatus) : MessageRow where
  id := messageXid
  messageId := "m"
  payload := "x"
  contentType := "y"
  priority := 3
  status := status
  channelId := "c"
  producerId := "p"
  receivedAt := 1 + 121 * second
  outboxedAt := 1 + 121 * second
  createdAt := 1 + 121 * second
  updatedAt := 1 + 121 * second
  headers := [("h", "v")]

def postedSys : SchedulerSys := ⟨{ schedulerDb with scheduledMessage := [scheduledRow] }, []⟩

def postedRun : @SchedulerRun netUrl 1 :=
  Run.ofActs ⟨schedulerDb, []⟩ [.post 1 jobXid jobXid scheduleRequest]
    schedulerDb_isInitial (by decide +kernel)

theorem postedRun_state : postedRun.state 1 = postedSys := Run.state_ofActs (by decide +kernel)

/-- Its goroutine inserts the message, marks it and dispatches it. -/
def dispatchCall : @ProcessRun netUrl 1 postedSys (1 + 120 * second) [scheduledRow] :=
  letI := netUrl
  { started := ⟨postedSys.db, [⟨scheduledMsg, .locking⟩]⟩
    acts := List.replicate 6 (.run 0 schedulerEnv)
    final := ⟨{ schedulerDb with
        message := [createdRow .dispatched]
        scheduledMessage := [{ scheduledRow with
          status := .dispatched
          dispatchedAt := some (1 + 121 * second)
          updatedAt := 1 + 121 * second }] }, [⟨scheduledMsg, .done⟩]⟩
    start := by decide +kernel
    runs := by decide +kernel
    own a ha := ⟨0, schedulerEnv, eq_of_mem_replicate ha, rfl, by decide, by decide⟩
    unlocked := by decide +kernel
    finished u th hth := by
      rw [mem_singleton.1 (mem_of_getElem? hth)] }

def failedMark : List SchedulerAction :=
  scheduleAndTick ++ List.replicate 3 (.run 0 schedulerEnv) ++
    ([.run 0 { schedulerEnv with fault := true }, .run 0 schedulerEnv] : List SchedulerAction)

def failedMarkSys : SchedulerSys where
  db := { schedulerDb with
    message := [createdRow .acknowledged]
    scheduledMessage := [scheduledRow] }
  threads := [⟨scheduledMsg, .done⟩]

def failedMarkRun : @SchedulerRun netUrl 1 :=
  Run.ofActs ⟨schedulerDb, []⟩ failedMark schedulerDb_isInitial (by decide +kernel)

theorem failedMarkRun_state : failedMarkRun.state 7 = failedMarkSys :=
  Run.state_ofActs (by decide +kernel)

def duplicateCall : @ProcessRun netUrl 1 failedMarkSys (1 + 120 * second) [scheduledRow] :=
  letI := netUrl
  { started := ⟨failedMarkSys.db, [⟨scheduledMsg, .done⟩, ⟨scheduledMsg, .locking⟩]⟩
    acts := List.replicate 4 (.run 1 { schedulerEnv with newID := jobXid })
    final := ⟨failedMarkSys.db, [⟨scheduledMsg, .done⟩, ⟨scheduledMsg, .done⟩]⟩
    start := by decide +kernel
    runs := by decide +kernel
    own a ha := ⟨0, _, eq_of_mem_replicate ha, rfl, by decide, by decide⟩
    unlocked := by decide +kernel
    finished u th hth := by
      rw [eq_of_mem_replicate (mem_of_getElem? hth : th ∈ List.replicate 2 _)] }

end Sample

open Sample

theorem due_messages_decrease_iff_one : ∃ c : @ProcessRun netUrl 1 (postedRun.state 1)
      (1 + 120 * second) [scheduledRow],
    (@ProcessRun.final netUrl 1 _ _ _ c).db.dueCount (1 + 120 * second) <
      (postedRun.state 1).db.dueCount (1 + 120 * second) := by
  obtain ⟨c⟩ : Nonempty (@ProcessRun netUrl 1 (postedRun.state 1)
      (1 + 120 * second) [scheduledRow]) := by
    rw [postedRun_state]
    exact ⟨dispatchCall⟩
  refine ⟨c, (@due_messages_decrease_iff netUrl 1 postedRun 1 (Nat.le_refl 1) _ _ c).2
    ⟨scheduledMsg, ?_, ?_⟩⟩
  · rw [postedRun_state]
    decide +kernel
  · rw [postedRun_state]
    decide +kernel

/-- After a failed `MarkDispatched`, a call whose statements all succeed leaves the number as it is:
the message is due and stays `SCHEDULED`. -/
theorem due_message_stays_scheduled : ∃ (r : @SchedulerRun netUrl 1) (n : Nat)
      (now : Time) (rows : List ScheduledMessageRow)
      (c : @ProcessRun netUrl 1 (r.state n) now rows),
    n ≤ r.len ∧ (r.state n).db.dueCount now = 1 ∧
      (@ProcessRun.final netUrl 1 _ _ _ c).db.dueCount now = 1 := by
  refine ⟨failedMarkRun, 7, 1 + 120 * second, [scheduledRow], ?_⟩
  rw [failedMarkRun_state]
  exact ⟨duplicateCall, Nat.le_refl 7, by decide +kernel, by decide +kernel⟩

end WebhookBroker
