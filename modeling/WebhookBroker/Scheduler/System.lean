import WebhookBroker.Controllers.Broadcast

/-!
# The scheduler (`scheduler/scheduler.go`)

On every tick `processScheduledMessages` reads the scheduled messages that are due and starts one
goroutine for each, which makes a message of it under a lock: `dispatchMessage`. `SchedulerSys.step`
interleaves the goroutines of any number of nodes and ticks, statement by statement, with the
requests that schedule or broadcast messages and with every other write of the broker. A goroutine
may disappear at any point, every statement may fail, and the locks may time out while they are
held.

`Create` of the message is a query and an insert here, as in the code, so that other writes can come
in between.
-/

namespace WebhookBroker

open Lib List

/-- What a step of a goroutine meets: the clock, new ids, whether its statement fails, and the jobs
that `createJobs` builds for the consumers it lists. -/
structure SchedulerEnv where
  now : Time
  newID : Xid
  newMessageID : Xid
  fault : Bool := false
  deliveryJobs : List DeliveryJob := []
  parkedJobs : List DeliveryJob := []

inductive SchedulerPosition where
  | locking
  /-- before `NewMessage` and the lookup of `Create` -/
  | creating
  /-- before the insert of `Create` -/
  | inserting (message : Message)
  | marking (message : Message)
  | dispatching (message : Message)
  /-- after a duplicate: it reads the scheduled message again, and writes to the log only -/
  | refreshing
  | releasing
  | done
deriving DecidableEq

def SchedulerPosition.message? : SchedulerPosition → Option Message
  | .inserting message | .marking message | .dispatching message => some message
  | .locking | .creating | .refreshing | .releasing | .done => none

/-- The message was inserted, and its scheduled message may not be marked yet. -/
def SchedulerPosition.isCreated : SchedulerPosition → Bool
  | .marking _ | .dispatching _ => true
  | .locking | .creating | .inserting _ | .refreshing | .releasing | .done => false

structure ScheduledDispatch where
  scheduledMsg : ScheduledMessage
  position : SchedulerPosition
deriving DecidableEq

/-- The message that `dispatchMessage` makes of a scheduled message, and whether `NewMessage`
returned no error. -/
def ScheduledMessage.newMessage (env : SchedulerEnv) (scheduledMsg : ScheduledMessage) :
    Message × Bool :=
  let (message, valid) := WebhookBroker.newMessage env.now env.newID env.newMessageID
    scheduledMsg.broadcastedTo scheduledMsg.producedBy scheduledMsg.payload
    scheduledMsg.contentType scheduledMsg.headers
  ({ message with messageID := scheduledMsg.messageID, priority := scheduledMsg.priority }, valid)

namespace ScheduledDispatch

/-- The lookup of `Create`, after the checks; an error of the query is taken for an absent row. -/
def check (env : SchedulerEnv) (th : ScheduledDispatch) (db : Db) : SchedulerPosition :=
  let (message, valid) := th.scheduledMsg.newMessage env
  if !valid || !message.isInValidState then .releasing
  else if env.fault then .inserting message
  else match getMessage db message.getChannelIDSafely message.messageID with
    | .ok _ => .refreshing
    | .error _ => .inserting message

def insert (message : Message) (db : Db) : Db × SchedulerPosition :=
  match transactionalSingleRowWriteExec (insertMessage message.toRow) db with
  | (.ok _, db) => (db, .marking message)
  | (.error e, db) =>
    (db, if normalizeDBError e = .duplicateMessageIDForChannel then .refreshing else .releasing)

/-- `MarkDispatched` of the scheduled message, whose status and time of dispatch are set before. -/
def mark (env : SchedulerEnv) (th : ScheduledDispatch) (message : Message) (db : Db) :
    Db × SchedulerPosition :=
  match markDispatched env.now
    { th.scheduledMsg with status := .dispatched, dispatchedAt := env.now } db with
  | (.ok _, db) => (db, .dispatching message)
  | (.error _, db) => (db, .releasing)

/-- The next step of `dispatchMessage`: the database and where the goroutine is then. -/
def run [NetUrl] (env : SchedulerEnv) (th : ScheduledDispatch) (db : Db) :
    Option (Db × SchedulerPosition) :=
  match th.position with
  | .locking =>
    if env.fault then some (db, .done)
    else match tryLock ⟨th.scheduledMsg.getLockID, env.now⟩ db with
      | (.ok _, db) => some (db, .creating)
      | (.error _, db) => some (db, .done)
  | .creating => some (db, th.check env db)
  | .inserting message => if env.fault then some (db, .releasing) else some (insert message db)
  | .marking message => if env.fault then some (db, .releasing) else some (th.mark env message db)
  | .dispatching message =>
    if env.fault then some (db, .releasing)
    else (DbOp.step db (.dispatchMessageWithParking env.now message env.deliveryJobs
      env.parkedJobs)).map (·, .releasing)
  | .refreshing => some (db, .releasing)
  | .releasing =>
    if env.fault then some (db, .done)
    else some ((releaseLock th.scheduledMsg.getLockID db).2, .done)
  | .done => none

end ScheduledDispatch

/-- The database and the goroutines of all nodes, in the order in which they were started. -/
structure SchedulerSys where
  db : Db
  threads : List ScheduledDispatch
deriving DecidableEq

inductive SchedulerAction where
  /-- a request to broadcast a message -/
  | post (now : Time) (newID newMessageID : Xid) (request : BroadcastRequest)
  /-- `processScheduledMessages`, where the rows that are ready are returned in the order given -/
  | tick (now : Time) (rows : List ScheduledMessageRow)
  | run (t : Nat) (env : SchedulerEnv)
  | crash (t : Nat)
  /-- another write of the broker -/
  | write (op : StorageOp)

instance : Inhabited SchedulerAction := ⟨.crash 0⟩

namespace SchedulerSys

def setPosition (s : SchedulerSys) (t : Nat) (th : ScheduledDispatch) (p : SchedulerPosition) :
    SchedulerSys :=
  { s with threads := s.threads.set t { th with position := p } }

variable [NetUrl]

def step (limit : Nat) (s : SchedulerSys) : SchedulerAction → Option SchedulerSys
  | .post now newID newMessageID request =>
    some { s with db := (broadcastPost now newID newMessageID request s.db).2 }
  | .tick now rows =>
    if s.db.IsReadyOrder now rows then
      some { s with threads := s.threads ++
        (getMessagesReadyForDispatch s.db rows limit).map (⟨·, .locking⟩) }
    else none
  | .run t env =>
    match s.threads[t]? with
    | some th => (th.run env s.db).map fun (db, p) => { s.setPosition t th p with db }
    | none => none
  | .crash t => (s.threads[t]?).map fun th => s.setPosition t th .done
  | .write op => (op.step s.db).map fun db => { s with db }

def isInitial (s : SchedulerSys) : Prop :=
  s.db.Sound ∧ s.db.scheduledMessage = [] ∧ s.threads = []

end SchedulerSys

abbrev SchedulerRun [NetUrl] (limit : Nat) := Run SchedulerSys.isInitial (SchedulerSys.step limit)

/-- The message carries what the scheduled message does. -/
structure Message.MadeFrom (message : Message) (scheduledMsg : ScheduledMessage) : Prop where
  messageID : message.messageID = scheduledMsg.messageID
  payload : message.payload = scheduledMsg.payload
  contentType : message.contentType = scheduledMsg.contentType
  priority : message.priority = scheduledMsg.priority
  headers : message.headers = scheduledMsg.headers
  broadcastedTo : message.broadcastedTo = scheduledMsg.broadcastedTo
  producedBy : message.producedBy = scheduledMsg.producedBy

theorem ScheduledMessage.newMessage_madeFrom (env : SchedulerEnv)
    (scheduledMsg : ScheduledMessage) : (scheduledMsg.newMessage env).1.MadeFrom scheduledMsg :=
  ⟨rfl, rfl, rfl, rfl, rfl, rfl, rfl⟩

/-- The effects of a step of a goroutine: its locks and the end of its part change nothing else, and
a message is inserted and marked one after the other. -/
inductive ThreadEffect [NetUrl] (env : SchedulerEnv) (th : ScheduledDispatch) (db : Db) :
    Db → SchedulerPosition → Prop
  | quiet {locks p} (hp : p.message? = none)
      (hlocks : ∀ l ∈ locks, l ∈ db.lock ∨ l.lockID = th.scheduledMsg.getLockID) :
      ThreadEffect env th db { db with lock := locks } p
  | checked {message} (hpos : th.position = .creating)
      (hmade : message.MadeFrom th.scheduledMsg) (hvalid : message.isInValidState = true) :
      ThreadEffect env th db db (.inserting message)
  | inserted {message db'} (hpos : th.position = .inserting message)
      (hq : insertMessage message.toRow db = .ok (1, db')) :
      ThreadEffect env th db db' (.marking message)
  | marked {message} (hpos : th.position = .marking message) :
      ThreadEffect env th db { db with
        scheduledMessage := updateWhere (fun row => row.id == th.scheduledMsg.id)
          (·.mark env.now { th.scheduledMsg with status := .dispatched, dispatchedAt := env.now })
          db.scheduledMessage } (.dispatching message)
  | dispatched {message db'} (hpos : th.position = .dispatching message)
      (he : DbEffect db (.dispatchMessageWithParking env.now message env.deliveryJobs
        env.parkedJobs) db') :
      ThreadEffect env th db db' .releasing

section
variable [NetUrl] {env : SchedulerEnv} {th : ScheduledDispatch} {db db' : Db}
  {p : SchedulerPosition}

theorem ThreadEffect.unchanged (hp : p.message? = none) : ThreadEffect env th db db p :=
  (ThreadEffect.quiet hp fun _ => .inl : ThreadEffect env th db { db with lock := db.lock } p)

theorem ScheduledDispatch.insert_effect {message : Message}
    (hpos : th.position = .inserting message) :
    ThreadEffect env th db (insert message db).1 (insert message db).2 := by
  unfold ScheduledDispatch.insert
  rcases transactionalSingleRowWriteExec_cases (insertMessage message.toRow) db with
    ⟨db', hq, hr⟩ | ⟨e, hr⟩ <;> rw [hr]
  · exact .inserted hpos hq
  · dsimp only
    split <;> exact .unchanged rfl

theorem ScheduledDispatch.mark_effect {message : Message}
    (hpos : th.position = .marking message) :
    ThreadEffect env th db (th.mark env message db).1 (th.mark env message db).2 := by
  unfold ScheduledDispatch.mark
  rcases markDispatched_cases env.now
    { th.scheduledMsg with status := .dispatched, dispatchedAt := env.now } db with
    ⟨e, hr⟩ | ⟨-, hr⟩ <;> rw [hr]
  · exact .unchanged rfl
  · exact .marked hpos

theorem ScheduledDispatch.check_effect (hpos : th.position = .creating) :
    ThreadEffect env th db db (th.check env db) := by
  unfold ScheduledDispatch.check
  dsimp only
  split
  · exact .unchanged rfl
  · rename_i hvalid
    have hvalid : (th.scheduledMsg.newMessage env).1.isInValidState = true := by
      rw [Bool.not_eq_true, Bool.or_eq_false_iff] at hvalid
      simpa using hvalid.2
    have hmade := th.scheduledMsg.newMessage_madeFrom env
    split
    · exact .checked hpos hmade hvalid
    · split
      · exact .unchanged rfl
      · exact .checked hpos hmade hvalid

theorem ScheduledDispatch.run_effect (h : th.run env db = some (db', p)) :
    ThreadEffect env th db db' p := by
  unfold ScheduledDispatch.run at h
  split at h
  · split at h
    · cases h
      exact .unchanged rfl
    · rcases tryLock_cases ⟨th.scheduledMsg.getLockID, env.now⟩ db with ⟨-, hr⟩ | ⟨e, -, hr⟩
      · rw [hr] at h
        cases h
        refine .quiet rfl fun l hl => ?_
        rcases mem_append.1 hl with hl | hl
        · exact .inl hl
        · exact .inr (by rw [mem_singleton.1 hl])
      · rw [hr] at h
        cases h
        exact .unchanged rfl
  · rename_i hpos
    cases h
    exact check_effect hpos
  · rename_i message hpos
    split at h
    · cases h
      exact .unchanged rfl
    · have heffect : ThreadEffect env th db (insert message db).1 (insert message db).2 :=
        insert_effect hpos
      rwa [Option.some.inj h] at heffect
  · rename_i message hpos
    split at h
    · cases h
      exact .unchanged rfl
    · have heffect : ThreadEffect env th db (th.mark env message db).1 (th.mark env message db).2 :=
        mark_effect hpos
      rwa [Option.some.inj h] at heffect
  · rename_i hpos
    split at h
    · cases h
      exact .unchanged rfl
    · obtain ⟨db₁, hstep, heq⟩ := Option.map_eq_some_iff.1 h
      cases heq
      exact .dispatched hpos (DbOp.step_effect hstep)
  · cases h
    exact .unchanged rfl
  · split at h
    · cases h
      exact .unchanged rfl
    · obtain ⟨locks, hlocks, hr⟩ := releaseLock_subset th.scheduledMsg.getLockID db
      cases h
      rw [hr]
      exact .quiet rfl fun l hl => .inl (hlocks hl)
  · cases h

end

inductive SchedulerGoes [NetUrl] (limit : Nat) (s : SchedulerSys) :
    SchedulerAction → SchedulerSys → Prop
  | wrote {a op db} (ha : ∀ t env, a ≠ .run t env) (he : StorageEffect s.db op db)
      (hsound : s.db.Sound → db.Sound) :
      SchedulerGoes limit s a { s with db }
  | scheduled {a db} {message : ScheduledMessage} (ha : ∀ t env, a ≠ .run t env)
      (hvalid : message.isInValidState = true) (hstatus : message.status = .scheduled)
      (hq : insertScheduledMessage message.toRow s.db = .ok (1, db)) :
      SchedulerGoes limit s a { s with db }
  | ticked {now rows} (hrows : s.db.IsReadyOrder now rows) :
      SchedulerGoes limit s (.tick now rows) { s with threads := s.threads ++
        (getMessagesReadyForDispatch s.db rows limit).map (⟨·, .locking⟩) }
  | ran {t env th db p} (hth : s.threads[t]? = some th) (he : ThreadEffect env th s.db db p) :
      SchedulerGoes limit s (.run t env) { s.setPosition t th p with db }
  | crashed {t th} (hth : s.threads[t]? = some th) :
      SchedulerGoes limit s (.crash t) (s.setPosition t th .done)

variable {env : SchedulerEnv}

theorem SchedulerSys.step_run [NetUrl] {limit : Nat} {s s' : SchedulerSys} {t : Nat}
    (h : SchedulerSys.step limit s (.run t env) = some s') :
    ∃ th db p, s.threads[t]? = some th ∧ th.run env s.db = some (db, p) ∧
      s' = { s.setPosition t th p with db } := by
  rw [SchedulerSys.step] at h
  split at h
  · rename_i th hth
    obtain ⟨⟨db, p⟩, hrun, rfl⟩ := Option.map_eq_some_iff.1 h
    exact ⟨th, db, p, hth, hrun, rfl⟩
  · cases h

theorem SchedulerSys.step_goes [NetUrl] {limit : Nat} {s s' : SchedulerSys} {a : SchedulerAction}
    (h : SchedulerSys.step limit s a = some s') : SchedulerGoes limit s a s' := by
  cases a with
  | post now newID newMessageID request =>
    cases h
    rcases broadcastPost_cases now newID newMessageID request s.db with
      ⟨⟨op, he⟩, hsound⟩ | ⟨message, hvalid, hstatus, hq⟩
    · exact .wrote nofun he hsound
    · exact .scheduled nofun hvalid hstatus hq
  | tick now rows =>
    rw [SchedulerSys.step, Option.ite_none_right_eq_some] at h
    obtain ⟨hrows, h⟩ := h
    cases h
    exact .ticked hrows
  | run t env =>
    obtain ⟨th, db, p, hth, hrun, rfl⟩ := SchedulerSys.step_run h
    exact .ran hth (ScheduledDispatch.run_effect hrun)
  | crash t =>
    obtain ⟨th, hth, rfl⟩ := Option.map_eq_some_iff.1 h
    exact .crashed hth
  | write op =>
    obtain ⟨db, hop, rfl⟩ := Option.map_eq_some_iff.1 h
    exact .wrote nofun (StorageOp.step_effect hop) fun h => StorageOp.step_sound h hop

/-- The message was loaded from the row, or from the row as it was before it was marked. -/
def ScheduledMessageRow.LoadedAs (row : ScheduledMessageRow) (scheduledMsg : ScheduledMessage) :
    Prop :=
  ∃ row₀ : ScheduledMessageRow, row₀.SameContent row ∧ ∃ channel producer,
    sqlLike row.channelId channel.channelID = true ∧
    sqlLike row.producerId producer.producerID = true ∧
    scheduledMsg = row₀.toScheduledMessage channel producer

variable {scheduledMsg : ScheduledMessage}

theorem ScheduledMessageRow.LoadedAs.id {row : ScheduledMessageRow}
    (h : row.LoadedAs scheduledMsg) : scheduledMsg.id = row.id := by
  obtain ⟨row₀, hsame, channel, producer, -, -, rfl⟩ := h
  exact hsame.id.symm

theorem ScheduledMessageRow.LoadedAs.congr {row row' : ScheduledMessageRow}
    (h : row.LoadedAs scheduledMsg) (hsame : row.SameContent row') :
    row'.LoadedAs scheduledMsg := by
  obtain ⟨row₀, hsame₀, channel, producer, hchannel, hproducer, heq⟩ := h
  refine ⟨row₀, hsame₀.trans hsame, channel, producer, ?_, ?_, heq⟩
  · rw [hsame.channelId]
    exact hchannel
  · rw [hsame.producerId]
    exact hproducer

theorem ScheduledMessageRow.loadedAs_of_load {db : Db} {row : ScheduledMessageRow}
    (h : row.load db = .ok scheduledMsg) : row.LoadedAs scheduledMsg := by
  obtain ⟨channel, -, producer, -, hchannel, hproducer, heq⟩ := ScheduledMessageRow.load_eq_ok h
  exact ⟨row, .refl row, channel.toChannel, producer.toProducer, hchannel, hproducer, heq⟩

structure Db.ScheduledSound (db : Db) : Prop where
  ids : (db.scheduledMessage.map (·.id)).Nodup
  channel : ∀ row ∈ db.scheduledMessage, row.channelId ∈ db.channel.map (·.channelId)
  producer : ∀ row ∈ db.scheduledMessage, row.producerId ∈ db.producer.map (·.producerId)
  texts : ∀ row ∈ db.scheduledMessage, row.messageId.isEmpty = false ∧
    row.payload.isEmpty = false ∧ row.contentType.isEmpty = false

section
variable [NetUrl] {db db' : Db}

theorem DbEffect.scheduledMessage {op : DbOp} (he : DbEffect db op db') :
    db'.scheduledMessage = db.scheduledMessage := by
  cases he with
  | unchanged | dispatched | reparked | drained | marked | requeued | requeuedForConsumer | deleted
  | deletedForConsumer | deletedMessages | paused | resumed | locked => rfl

theorem StorageEffect.scheduledMessage {op : StorageOp} (he : StorageEffect db op db') :
    db'.scheduledMessage = db.scheduledMessage := by
  cases he with
  | job he => exact he.scheduledMessage
  | records | created => rfl

theorem Db.Sound.withScheduledMessages (h : db.Sound) {rows : List ScheduledMessageRow} :
    ({ db with scheduledMessage := rows } : Db).Sound where
  integrity := h.integrity.transport (List.Subperm.refl _) (fun _ hm _ => hm) h.integrity.messages
    h.integrity.seqs h.integrity.seqs_lt
  channels := h.channels
  producers := h.producers
  consumer_ids := h.consumer_ids
  consumer_channel := h.consumer_channel
  consumers := h.consumers
  message_channel := h.message_channel
  message_producer := h.message_producer
  messages := h.messages
  jobs := h.jobs

namespace Db.ScheduledSound

omit [NetUrl] in
theorem congr (h : db.ScheduledSound) (hsame : db'.scheduledMessage = db.scheduledMessage)
    (hchannel : db.channel.map (·.channelId) ⊆ db'.channel.map (·.channelId))
    (hproducer : db.producer.map (·.producerId) ⊆ db'.producer.map (·.producerId)) :
    db'.ScheduledSound where
  ids := hsame ▸ h.ids
  channel row hrow := hchannel (h.channel row (hsame ▸ hrow))
  producer row hrow := hproducer (h.producer row (hsame ▸ hrow))
  texts row hrow := h.texts row (hsame ▸ hrow)

omit [NetUrl] in
theorem texts_of_valid {message : ScheduledMessage} (hvalid : message.isInValidState = true) :
    message.messageID.isEmpty = false ∧ message.payload.isEmpty = false ∧
      message.contentType.isEmpty = false := by
  unfold ScheduledMessage.isInValidState at hvalid
  split at hvalid
  · cases hvalid
  · rename_i htexts
    simpa [Bool.or_eq_false_iff, and_assoc] using htexts

omit [NetUrl] in
theorem insert (h : db.ScheduledSound) {message : ScheduledMessage}
    (hvalid : message.isInValidState = true)
    (hq : insertScheduledMessage message.toRow db = .ok (1, db')) : db'.ScheduledSound := by
  obtain ⟨⟨hid, -⟩, ⟨hchannel, hproducer⟩, heq⟩ := insertScheduledMessage_eq_ok.1 hq
  cases heq
  have hlast : ∀ {P : ScheduledMessageRow → Prop}, (∀ row ∈ db.scheduledMessage, P row) →
      P message.toRow → ∀ row ∈ db.scheduledMessage ++ [message.toRow], P row := by
    intro P hold hnew row hrow
    rcases mem_append.1 hrow with hrow | hrow
    · exact hold row hrow
    · exact mem_singleton.1 hrow ▸ hnew
  refine ⟨?_, hlast h.channel hchannel, hlast h.producer hproducer,
    hlast h.texts (texts_of_valid hvalid)⟩
  rw [map_append, map_singleton]
  exact h.ids.append (nodup_singleton _) (disjoint_singleton.2 hid)

omit [NetUrl] in
theorem mark (h : db.ScheduledSound) {p : ScheduledMessageRow → Bool} {now : Time}
    {message : ScheduledMessage} :
    ({ db with scheduledMessage := updateWhere p (·.mark now message) db.scheduledMessage } :
      Db).ScheduledSound := by
  have hrow : ∀ {P : ScheduledMessageRow → Prop},
      (∀ row row' : ScheduledMessageRow, row.SameContent row' → P row → P row') →
      (∀ row ∈ db.scheduledMessage, P row) →
      ∀ row ∈ updateWhere p (·.mark now message) db.scheduledMessage, P row := by
    intro P hcongr hold row hrow
    obtain ⟨row, hmem, rfl⟩ := mem_updateWhere.1 hrow
    split
    · exact hcongr row _ (row.sameContent_mark now message) (hold row hmem)
    · exact hold row hmem
  refine ⟨?_, hrow (fun _ _ hsame hold => ?_) h.channel, hrow (fun _ _ hsame hold => ?_) h.producer,
    hrow (fun _ _ hsame hold => ?_) h.texts⟩
  · have hids : (updateWhere p (·.mark now message) db.scheduledMessage).map (·.id) =
        db.scheduledMessage.map (·.id) := map_updateWhere fun _ _ => rfl
    exact hids ▸ h.ids
  · rw [hsame.channelId]
    exact hold
  · rw [hsame.producerId]
    exact hold
  · rw [hsame.messageId, hsame.payload, hsame.contentType]
    exact hold

end Db.ScheduledSound

structure SchedulerSys.Inv (s : SchedulerSys) : Prop where
  sound : s.db.Sound
  scheduled : s.db.ScheduledSound
  loaded : ∀ th ∈ s.threads, ∃ row ∈ s.db.scheduledMessage, row.LoadedAs th.scheduledMsg
  made : ∀ th ∈ s.threads, ∀ message, th.position.message? = some message →
    message.MadeFrom th.scheduledMsg ∧ message.isInValidState = true

/-- Every row of the table is still there, with the same content. -/
def Db.KeepsScheduled (db db' : Db) : Prop :=
  ∀ row ∈ db.scheduledMessage, ∃ row' ∈ db'.scheduledMessage, row.SameContent row'

omit [NetUrl] in
theorem Db.keepsScheduled_of_eq (hsame : db'.scheduledMessage = db.scheduledMessage) :
    db.KeepsScheduled db' := by
  intro row hrow
  exact ⟨row, hsame ▸ hrow, .refl row⟩

section
variable {limit : Nat} {s s' : SchedulerSys} {a : SchedulerAction}
variable {th : ScheduledDispatch} {p : SchedulerPosition}

theorem ThreadEffect.keeps (he : ThreadEffect env th db db' p) : db.KeepsScheduled db' := by
  cases he with
  | quiet | checked => exact Db.keepsScheduled_of_eq rfl
  | inserted _ hq =>
    obtain ⟨-, -, heq⟩ := insertMessage_eq_ok.1 hq
    cases heq
    exact Db.keepsScheduled_of_eq rfl
  | marked =>
    intro row hrow
    refine ⟨_, mem_updateWhere.2 ⟨row, hrow, rfl⟩, ?_⟩
    split
    · exact row.sameContent_mark _ _
    · exact .refl row
  | dispatched _ he => exact Db.keepsScheduled_of_eq he.scheduledMessage

theorem SchedulerGoes.keeps (hg : SchedulerGoes limit s a s') : s.db.KeepsScheduled s'.db := by
  cases hg with
  | wrote _ he _ => exact Db.keepsScheduled_of_eq he.scheduledMessage
  | scheduled _ _ _ hq =>
    obtain ⟨-, -, heq⟩ := insertScheduledMessage_eq_ok.1 hq
    cases heq
    exact fun row hrow => ⟨row, mem_append_left _ hrow, .refl row⟩
  | ticked | crashed => exact Db.keepsScheduled_of_eq rfl
  | ran _ he => exact he.keeps

theorem ThreadEffect.sound (he : ThreadEffect env th db db' p) (h : db.Sound)
    (hs : db.ScheduledSound)
    (hmade : ∀ message, th.position.message? = some message → message.isInValidState = true) :
    db'.Sound ∧ db'.ScheduledSound := by
  cases he with
  | quiet =>
    exact ⟨h.effect (DbEffect.locked : DbEffect db default _),
      hs.congr rfl (List.Subset.refl _) (List.Subset.refl _)⟩
  | checked => exact ⟨h, hs⟩
  | @inserted message _ hpos hq =>
    refine ⟨h.insertMessage (hmade message (by rw [hpos]; rfl)) hq, ?_⟩
    obtain ⟨-, -, heq⟩ := insertMessage_eq_ok.1 hq
    cases heq
    exact hs.congr rfl (List.Subset.refl _) (List.Subset.refl _)
  | marked => exact ⟨h.withScheduledMessages, hs.mark⟩
  | dispatched _ he =>
    obtain ⟨hchannel, hproducer⟩ := (StorageEffect.job he).keys_subset
    exact ⟨h.effect he, hs.congr he.scheduledMessage hchannel hproducer⟩

/-- The message that a goroutine holds after a step is made of its scheduled message. -/
theorem ThreadEffect.made (he : ThreadEffect env th db db' p)
    (hmade : ∀ message, th.position.message? = some message → message.MadeFrom th.scheduledMsg ∧
      message.isInValidState = true) :
    ∀ message, p.message? = some message →
      message.MadeFrom th.scheduledMsg ∧ message.isInValidState = true := by
  intro message hmessage
  cases he with
  | quiet hp =>
    rw [hp] at hmessage
    cases hmessage
  | checked _ hmade hvalid =>
    cases hmessage
    exact ⟨hmade, hvalid⟩
  | inserted hpos =>
    cases hmessage
    exact hmade _ (by rw [hpos]; rfl)
  | marked hpos =>
    cases hmessage
    exact hmade _ (by rw [hpos]; rfl)
  | dispatched => cases hmessage

theorem SchedulerSys.Inv.setPosition (h : s.Inv) {t : Nat} (hth : s.threads[t]? = some th)
    {db : Db} (hsound : db.Sound) (hscheduled : db.ScheduledSound)
    (hkeeps : s.db.KeepsScheduled db)
    (hmade : ∀ message, p.message? = some message → message.MadeFrom th.scheduledMsg ∧
      message.isInValidState = true) : ({ s.setPosition t th p with db } : SchedulerSys).Inv := by
  have hmem := mem_of_getElem? hth
  refine ⟨hsound, hscheduled, fun th' hth' => ?_, fun th' hth' => ?_⟩
  · have hloaded : ∃ row ∈ s.db.scheduledMessage, row.LoadedAs th'.scheduledMsg := by
      rcases mem_or_eq_of_mem_set hth' with hth' | rfl
      · exact h.loaded th' hth'
      · exact h.loaded th hmem
    obtain ⟨row, hrow, hloaded⟩ := hloaded
    obtain ⟨row', hrow', hsame⟩ := hkeeps row hrow
    exact ⟨row', hrow', hloaded.congr hsame⟩
  · rcases mem_or_eq_of_mem_set hth' with hth' | rfl
    · exact h.made th' hth'
    · exact hmade

theorem SchedulerGoes.inv (hg : SchedulerGoes limit s a s') (h : s.Inv) : s'.Inv := by
  have hkeeps := hg.keeps
  have hdb : ∀ {db : Db}, s.db.KeepsScheduled db → db.Sound → db.ScheduledSound →
      ({ s with db } : SchedulerSys).Inv := by
    intro db hkeeps hsound hscheduled
    refine ⟨hsound, hscheduled, fun th hth => ?_, h.made⟩
    obtain ⟨row, hrow, hloaded⟩ := h.loaded th hth
    obtain ⟨row', hrow', hsame⟩ := hkeeps row hrow
    exact ⟨row', hrow', hloaded.congr hsame⟩
  cases hg with
  | wrote _ he hsound =>
    obtain ⟨hchannel, hproducer⟩ := he.keys_subset
    exact hdb hkeeps (hsound h.sound) (h.scheduled.congr he.scheduledMessage hchannel hproducer)
  | scheduled _ hvalid _ hq =>
    refine hdb hkeeps ?_ (h.scheduled.insert hvalid hq)
    obtain ⟨-, -, heq⟩ := insertScheduledMessage_eq_ok.1 hq
    cases heq
    exact h.sound.withScheduledMessages
  | @ticked now rows hrows =>
    have hnew : ∀ th ∈ (getMessagesReadyForDispatch s.db rows limit).map
        (fun m => (⟨m, .locking⟩ : ScheduledDispatch)), th.position = .locking ∧
        ∃ row ∈ s.db.scheduledMessage, row.LoadedAs th.scheduledMsg := by
      intro th hth
      obtain ⟨m, hm, rfl⟩ := mem_map.1 hth
      obtain ⟨row, hrow, hload⟩ := mem_getMessagesReadyForDispatch.1 hm
      exact ⟨rfl, row, (hrows.mem_take hrow).1, ScheduledMessageRow.loadedAs_of_load hload⟩
    refine ⟨h.sound, h.scheduled, fun th hth => ?_, fun th hth message hmessage => ?_⟩
    · rcases mem_append.1 hth with hth | hth
      · exact h.loaded th hth
      · exact (hnew th hth).2
    · rcases mem_append.1 hth with hth | hth
      · exact h.made th hth message hmessage
      · rw [(hnew th hth).1] at hmessage
        cases hmessage
  | ran hth he =>
    have hmade := h.made _ (mem_of_getElem? hth)
    obtain ⟨hsound, hscheduled⟩ := he.sound h.sound h.scheduled fun m hm => (hmade m hm).2
    exact h.setPosition hth hsound hscheduled hkeeps (he.made hmade)
  | crashed hth =>
    refine h.setPosition hth h.sound h.scheduled hkeeps fun message hmessage => ?_
    cases hmessage

theorem SchedulerSys.isInitial.inv (h : s.isInitial) : s.Inv := by
  obtain ⟨hsound, hscheduled, hthreads⟩ := h
  have hrow : ∀ row, row ∉ s.db.scheduledMessage := by
    rw [hscheduled]
    exact fun _ => not_mem_nil
  have hth : ∀ th, th ∉ s.threads := by
    rw [hthreads]
    exact fun _ => not_mem_nil
  refine ⟨hsound, ⟨?_, fun row hmem => absurd hmem (hrow row),
    fun row hmem => absurd hmem (hrow row), fun row hmem => absurd hmem (hrow row)⟩,
    fun th hmem => absurd hmem (hth th), fun th hmem => absurd hmem (hth th)⟩
  rw [hscheduled]
  exact nodup_nil

theorem SchedulerRun.inv (r : SchedulerRun limit) {n : Nat} (hn : n ≤ r.len) : (r.state n).Inv :=
  r.invariant (fun _ h => h.inv) (fun _ _ _ h hs => (SchedulerSys.step_goes hs).inv h) n hn

end

end

/-! ## A scheduled message

A channel and a producer, and a request that schedules a message. -/

namespace Sample

def schedulerDb : Db where
  channel := [⟨channelXid, "c", "c", "t", 1, 1⟩]
  producer := [⟨producerXid, "p", "p", "t", 1, 1⟩]

theorem schedulerDb_sound : @Db.Sound netUrl schedulerDb := by
  have hchannel : @Db.Sound netUrl { channel := schedulerDb.channel } :=
    @Db.Sound.withChannels netUrl _ (@Db.sound_empty netUrl) schedulerDb.channel (by decide)
      (nil_subset _)
  exact @Db.Sound.withProducers netUrl _ hchannel schedulerDb.producer (by decide)
    (nil_subset _)

theorem schedulerDb_isInitial : @SchedulerSys.isInitial netUrl ⟨schedulerDb, []⟩ :=
  ⟨schedulerDb_sound, rfl, rfl⟩

def scheduleRequest : BroadcastRequest where
  channelID := "c"
  channelToken := "t"
  producerID := "p"
  producerToken := "t"
  messageID := "m"
  contentType := "y"
  priority := 3
  headers := [("h", "v")]
  body := some "x"
  scheduledFor := .at (1 + 120 * second)

def scheduledRow : ScheduledMessageRow where
  id := jobXid
  messageId := "m"
  payload := "x"
  contentType := "y"
  priority := 3
  channelId := "c"
  producerId := "p"
  headers := [("h", "v")]
  dispatchSchedule := 1 + 120 * second
  dispatchedAt := none
  status := .scheduled
  createdAt := 1
  updatedAt := 1

def schedulerEnv : SchedulerEnv where
  now := 1 + 121 * second
  newID := messageXid
  newMessageID := messageXid

/-- The message is scheduled, and is due at the tick. -/
def scheduleAndTick : List SchedulerAction :=
  [.post 1 jobXid jobXid scheduleRequest, .tick (1 + 120 * second) [scheduledRow]]

end Sample

end WebhookBroker
