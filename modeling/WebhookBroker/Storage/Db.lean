import WebhookBroker.Lib.Table
import WebhookBroker.Data.Model

/-!
# The database and its transactions (`migration/sqls`, `storage/rdbms.go`)

The tables are lists of rows. A statement is a partial function on the database that returns the
number of rows it affected; it fails when it would break one of the constraints of the schema: the
primary and `UNIQUE` keys and the foreign keys with `ON DELETE RESTRICT`. A transaction commits the
effects of all its statements or, when one of them returns an error, none.
-/

namespace WebhookBroker

open Lib

instance lawfulBEq_key : LawfulBEq (String × String) := inferInstance

structure ChannelRow where
  id : Xid
  channelId : String
  name : String
  token : String
  createdAt : Time
  updatedAt : Time
deriving DecidableEq

structure ProducerRow where
  id : Xid
  producerId : String
  name : String
  token : String
  createdAt : Time
  updatedAt : Time
deriving DecidableEq

structure ConsumerRow where
  id : Xid
  consumerId : String
  name : String
  token : String
  callbackUrl : String
  channelId : String
  type : ConsumerType
  createdAt : Time
  updatedAt : Time
deriving DecidableEq

structure MessageRow where
  id : Xid
  messageId : String
  payload : String
  contentType : String
  priority : Nat
  status : MsgStatus
  channelId : String
  producerId : String
  receivedAt : Time
  outboxedAt : Time
  createdAt : Time
  updatedAt : Time
  headers : HeadersMap := []
deriving DecidableEq

structure ScheduledMessageRow where
  id : Xid
  messageId : String
  payload : String
  contentType : String
  priority : Nat
  channelId : String
  producerId : String
  headers : HeadersMap
  dispatchSchedule : Time
  dispatchedAt : Option Time
  status : ScheduledMsgStatus
  createdAt : Time
  updatedAt : Time
deriving DecidableEq

structure JobRow where
  id : Xid
  messageId : Xid
  consumerId : Xid
  status : JobStatus
  retryAttemptCount : Nat
  statusChangedAt : Time
  dispatchReceivedAt : Time
  earliestNextAttemptAt : Time
  createdAt : Time
  updatedAt : Time
  priority : Nat
  incrementalTimeout : Nat
deriving DecidableEq

structure ParkedJobRow where
  seq : Nat
  id : Xid
  messageId : Xid
  consumerId : Xid
  dispatchReceivedAt : Time
  retryAttemptCount : Nat
  earliestNextAttemptAt : Time
  priority : Nat
  incrementalTimeout : Nat
  createdAt : Time
  parkedAt : Time
deriving DecidableEq

structure DispatchPauseRow where
  scope : String
  consumerId : Option String
  reason : String
  pausedAt : Time
deriving DecidableEq

/-- The database. `nextSeq` is the `AUTO_INCREMENT` counter of `job_parking.seq`. -/
structure Db where
  channel : List ChannelRow := []
  producer : List ProducerRow := []
  consumer : List ConsumerRow := []
  message : List MessageRow := []
  job : List JobRow := []
  jobParking : List ParkedJobRow := []
  nextSeq : Nat := 1
  dispatchPause : List DispatchPauseRow := []
  lock : List Lock := []
  scheduledMessage : List ScheduledMessageRow := []
deriving DecidableEq

/-- The errors that the storage layer returns or passes on. -/
inductive StorageErr where
  | noRowsUpdated
  | invalidStateToSave
  | paginationDeadlock
  | insufficientInformationForCreating
  /-- `sql.ErrNoRows` -/
  | noRows
  | duplicateMessageIDForChannel
  | duplicateScheduledMessageIDForChannel
  /-- `can only mark scheduled messages with status DISPATCHED; current status - %v` -/
  | notMarkedDispatched (status : ScheduledMsgStatus)
  /-- a primary or unique key is violated -/
  | duplicateKey
  | foreignKey
deriving DecidableEq

/-- The part of a transaction that runs between `Begin` and `Commit`. -/
abbrev Tx (α : Type) := StateT Db (Except StorageErr) α

variable {db : Db}

theorem Tx.bind_eq_ok {α β : Type} {x : Tx α} {f : α → Tx β} {r : β × Db} :
    (x >>= f) db = .ok r ↔ ∃ a db', x db = .ok (a, db') ∧ f a db' = .ok r := by
  show (do let p ← x db; f p.1 p.2 : Except StorageErr (β × Db)) = .ok r ↔ _
  cases h : x db with
  | error e => simp [bind, Except.bind]
  | ok p =>
    obtain ⟨a, db'⟩ := p
    simp only [bind, Except.bind, Except.ok.injEq, Prod.mk.injEq]
    constructor
    · exact fun hf => ⟨a, db', ⟨rfl, rfl⟩, hf⟩
    · rintro ⟨_, _, ⟨rfl, rfl⟩, hf⟩
      exact hf

variable {r : Unit × Db}

/-- A list of operations succeeds if the first one does and the others do on what it left. -/
theorem Tx.forM_cons_eq_ok {op : Tx Unit} {ops : List (Tx Unit)} :
    ((op :: ops).forM id) db = .ok r ↔
      ∃ db', op db = .ok ((), db') ∧ (ops.forM id) db' = .ok r := by
  show (op >>= fun _ => ops.forM id) db = .ok r ↔ _
  rw [Tx.bind_eq_ok]
  constructor
  · rintro ⟨_, db', h, hr⟩
    exact ⟨db', h, hr⟩
  · rintro ⟨db', h, hr⟩
    exact ⟨(), db', h, hr⟩

theorem Tx.forM_nil_eq_ok : (([] : List (Tx Unit)).forM id) db = .ok r ↔ ((), db) = r := by
  show Except.ok ((), db) = .ok r ↔ _
  rw [Except.ok.injEq]

theorem Tx.forM_append_eq_ok {xs ys : List (Tx Unit)} :
    ((xs ++ ys).forM id) db = .ok r ↔
      ∃ db', (xs.forM id) db = .ok ((), db') ∧ (ys.forM id) db' = .ok r := by
  induction xs generalizing db with
  | nil =>
    constructor
    · exact fun h => ⟨db, rfl, h⟩
    · rintro ⟨_, h, hr⟩
      cases Tx.forM_nil_eq_ok.1 h
      exact hr
  | cons op xs ih =>
    rw [List.cons_append, Tx.forM_cons_eq_ok]
    constructor
    · rintro ⟨db₁, h₁, h₂⟩
      obtain ⟨db₂, h₂, h₃⟩ := ih.1 h₂
      exact ⟨db₂, Tx.forM_cons_eq_ok.2 ⟨db₁, h₁, h₂⟩, h₃⟩
    · rintro ⟨db₂, h₂, h₃⟩
      obtain ⟨db₁, h₁, h₂⟩ := Tx.forM_cons_eq_ok.1 h₂
      exact ⟨db₁, h₁, ih.2 ⟨db₂, h₂, h₃⟩⟩

/-- `inTransactionExec`: an expected number of affected rows above zero has to be met. -/
def inTransactionExec (query : Tx Nat) (expectedRowEffected : Nat) : Tx Unit := do
  let rowsAffected ← query
  if expectedRowEffected > 0 && rowsAffected != expectedRowEffected then
    throw .noRowsUpdated

/-- `transactionalOperations`: commit, or roll back and return the error. -/
def transactionalOperations {α : Type} (txOps : Tx α) (db : Db) : Except StorageErr α × Db :=
  match txOps db with
  | .ok (a, db') => (.ok a, db')
  | .error e => (.error e, db)

/-- `transactionalWrites`: run the operations in order up to the first error. -/
def transactionalWrites (ops : List (Tx Unit)) (db : Db) : Except StorageErr Unit × Db :=
  transactionalOperations (ops.forM id) db

def transactionalSingleRowWriteExec (query : Tx Nat) (db : Db) : Except StorageErr Unit × Db :=
  transactionalWrites [inTransactionExec query 1] db

/-- A transaction commits what its operations did, or fails and leaves the database as it was. -/
theorem transactionalOperations_cases {α : Type} (txOps : Tx α) (db : Db) :
    (∃ a db', txOps db = .ok (a, db') ∧ transactionalOperations txOps db = (.ok a, db')) ∨
    (∃ e, txOps db = .error e ∧ transactionalOperations txOps db = (.error e, db)) := by
  unfold transactionalOperations
  cases h : txOps db with
  | ok p => exact .inl ⟨p.1, p.2, rfl, rfl⟩
  | error e => exact .inr ⟨e, rfl, rfl⟩

theorem inTransactionExec_eq_ok {query : Tx Nat} {n : Nat} :
    inTransactionExec query n db = .ok r ↔
      ∃ rows, query db = .ok (rows, r.2) ∧ (0 < n → rows = n) := by
  rw [inTransactionExec, Tx.bind_eq_ok]
  constructor
  · rintro ⟨rows, db', hq, h⟩
    by_cases hn : 0 < n ∧ rows ≠ n
    · simp [hn.1, hn.2, throw, throwThe, MonadExceptOf.throw, StateT.lift] at h
    · have : (decide (n > 0) && rows != n) = false := by
        simp only [Bool.and_eq_false_iff, decide_eq_false_iff_not, bne_eq_false_iff_eq]
        omega
      rw [this] at h
      cases h
      exact ⟨rows, hq, by omega⟩
  · rintro ⟨rows, hq, hn⟩
    refine ⟨rows, r.2, hq, ?_⟩
    have : (decide (n > 0) && rows != n) = false := by
      simp only [Bool.and_eq_false_iff, decide_eq_false_iff_not, bne_eq_false_iff_eq]
      omega
    rw [this]
    rfl

/-- What a single statement that has to affect one row does: the row is there and the effect is
committed, or nothing changes. -/
theorem transactionalSingleRowWriteExec_cases (query : Tx Nat) (db : Db) :
    (∃ db', query db = .ok (1, db') ∧ transactionalSingleRowWriteExec query db = (.ok (), db')) ∨
    (∃ e, transactionalSingleRowWriteExec query db = (.error e, db)) := by
  unfold transactionalSingleRowWriteExec transactionalWrites
  rcases transactionalOperations_cases ([inTransactionExec query 1].forM id) db with
    ⟨_, db', h, hr⟩ | ⟨e, _, hr⟩
  · obtain ⟨db₁, h₁, h₂⟩ := Tx.forM_cons_eq_ok.1 h
    obtain ⟨rows, hq, hn⟩ := inTransactionExec_eq_ok.1 h₁
    cases Tx.forM_nil_eq_ok.1 h₂
    rw [hn Nat.one_pos] at hq
    exact .inl ⟨_, hq, hr⟩
  · exact .inr ⟨e, hr⟩

theorem transactionalSingleRowWriteExec_of_ok {query : Tx Nat} {db db' : Db}
    (h : query db = .ok (1, db')) :
    transactionalSingleRowWriteExec query db = (.ok (), db') := by
  have hexec : inTransactionExec query 1 db = .ok ((), db') :=
    inTransactionExec_eq_ok.2 ⟨1, h, fun _ => rfl⟩
  have hforM := Tx.forM_cons_eq_ok.2 ⟨db', hexec, Tx.forM_nil_eq_ok.2 rfl⟩
  rw [transactionalSingleRowWriteExec, transactionalWrites, transactionalOperations, hforM]

/-- `UPDATE message SET … WHERE …`. -/
def updateMessage (p : MessageRow → Bool) (f : MessageRow → MessageRow) : Tx Nat := fun db =>
  .ok (db.message.countP p, { db with message := updateWhere p f db.message })

/-- `UPDATE job SET … WHERE …`; the condition may read other tables. Every update of the
repository changes the row's status, so that matched and changed rows are the same number. -/
def updateJob (p : Db → JobRow → Bool) (f : JobRow → JobRow) : Tx Nat := fun db =>
  .ok (db.job.countP (p db), { db with job := updateWhere (p db) f db.job })

/-- `DELETE FROM job WHERE …`. -/
def deleteJob (p : JobRow → Bool) : Tx Nat := fun db =>
  .ok (db.job.countP p, { db with job := deleteWhere p db.job })

/-- `DELETE FROM job_parking WHERE …`. -/
def deleteParkedJob (p : ParkedJobRow → Bool) : Tx Nat := fun db =>
  .ok (db.jobParking.countP p, { db with jobParking := deleteWhere p db.jobParking })

/-- The foreign keys `messageJobRef`, `consumerJobRef`, `jobParkingMessageRef` and
`jobParkingConsumerRef`: message and consumer of a job exist. -/
def Db.hasMessageAndConsumer (db : Db) (messageId consumerId : Xid) : Prop :=
  messageId ∈ db.message.map (·.id) ∧ consumerId ∈ db.consumer.map (·.id)

instance (db : Db) (m c : Xid) : Decidable (db.hasMessageAndConsumer m c) :=
  inferInstanceAs (Decidable (_ ∧ _))

/-- `INSERT INTO job VALUES …`, with the primary key `id`, the unique key
`(messageId, consumerId)` and the foreign keys. -/
def insertJob (rows : List JobRow) : Tx Nat := fun db =>
  if ¬ (((db.job ++ rows).map (·.id)).Nodup ∧
      ((db.job ++ rows).map fun r => (r.messageId, r.consumerId)).Nodup) then
    .error .duplicateKey
  else if ¬ (∀ r ∈ rows, db.hasMessageAndConsumer r.messageId r.consumerId) then
    .error .foreignKey
  else
    .ok (rows.length, { db with job := db.job ++ rows })

/-- The keys and the foreign keys of `job` allow the rows. -/
def Db.acceptsJobs (db : Db) (rows : List JobRow) : Prop :=
  (((db.job ++ rows).map (·.id)).Nodup ∧
    ((db.job ++ rows).map fun r => (r.messageId, r.consumerId)).Nodup) ∧
  ∀ r ∈ rows, db.hasMessageAndConsumer r.messageId r.consumerId

/-- An insert appends the rows if the keys allow them, and fails otherwise. -/
theorem insertJob_eq_ok {rows : List JobRow} {r : Nat × Db} :
    insertJob rows db = .ok r ↔
      db.acceptsJobs rows ∧ r = (rows.length, { db with job := db.job ++ rows }) := by
  unfold insertJob Db.acceptsJobs
  split
  · rename_i hkeys
    exact ⟨nofun, fun h => absurd h.1.1 hkeys⟩
  · rename_i hkeys
    split
    · rename_i hfk
      exact ⟨nofun, fun h => absurd h.1.2 hfk⟩
    · rename_i hfk
      rw [Except.ok.injEq, eq_comm]
      exact ⟨fun h => ⟨⟨not_not.1 hkeys, not_not.1 hfk⟩, h⟩, And.right⟩

/-- The rows with the next values of the `seq` counter. -/
def numberFrom (seq : Nat) : List ParkedJobRow → List ParkedJobRow
  | [] => []
  | r :: rows => { r with seq := seq } :: numberFrom (seq + 1) rows

/-- `INSERT INTO job_parking …`, with the unique keys `id` and `(messageId, consumerId)` and the
foreign keys; the primary key `seq` is assigned here. -/
def insertParkedJob (rows : List ParkedJobRow) : Tx Nat := fun db =>
  if ¬ (((db.jobParking ++ rows).map (·.id)).Nodup ∧
      ((db.jobParking ++ rows).map fun r => (r.messageId, r.consumerId)).Nodup) then
    .error .duplicateKey
  else if ¬ (∀ r ∈ rows, db.hasMessageAndConsumer r.messageId r.consumerId) then
    .error .foreignKey
  else
    .ok (rows.length, { db with
      jobParking := db.jobParking ++ numberFrom db.nextSeq rows
      nextSeq := db.nextSeq + rows.length })

/-- The keys and the foreign keys of `job_parking` allow the rows. -/
def Db.acceptsParkedJobs (db : Db) (rows : List ParkedJobRow) : Prop :=
  (((db.jobParking ++ rows).map (·.id)).Nodup ∧
    ((db.jobParking ++ rows).map fun r => (r.messageId, r.consumerId)).Nodup) ∧
  ∀ r ∈ rows, db.hasMessageAndConsumer r.messageId r.consumerId

@[inherit_doc insertJob_eq_ok]
theorem insertParkedJob_eq_ok {rows : List ParkedJobRow} {r : Nat × Db} :
    insertParkedJob rows db = .ok r ↔
      db.acceptsParkedJobs rows ∧ r = (rows.length, { db with
        jobParking := db.jobParking ++ numberFrom db.nextSeq rows
        nextSeq := db.nextSeq + rows.length }) := by
  unfold insertParkedJob Db.acceptsParkedJobs
  split
  · rename_i hkeys
    exact ⟨nofun, fun h => absurd h.1.1 hkeys⟩
  · rename_i hkeys
    split
    · rename_i hfk
      exact ⟨nofun, fun h => absurd h.1.2 hfk⟩
    · rename_i hfk
      rw [Except.ok.injEq, eq_comm]
      exact ⟨fun h => ⟨⟨not_not.1 hkeys, not_not.1 hfk⟩, h⟩, And.right⟩

/-- `DELETE FROM message WHERE …`: `job` and `job_parking` refer to `message` with
`ON DELETE RESTRICT`. -/
def deleteMessage (p : MessageRow → Bool) : Tx Nat := fun db =>
  if ∃ m ∈ db.message, p m = true ∧
      (m.id ∈ db.job.map (·.messageId) ∨ m.id ∈ db.jobParking.map (·.messageId)) then
    .error .foreignKey
  else
    .ok (db.message.countP p, { db with message := deleteWhere p db.message })

/-- `EXISTS (SELECT 1 FROM dispatch_pause d WHERE d.scope IN (consumerId, '__global__'))`, the
predicate of `effectivelyPausedFmt` and, negated, of `notEffectivelyPausedFmt`. -/
def Db.effectivelyPaused (db : Db) (consumerId : String) : Bool :=
  db.dispatchPause.any fun d => d.scope == consumerId || d.scope == globalDispatchPauseScope

theorem Db.effectivelyPaused_eq_false {consumerId : String} :
    db.effectivelyPaused consumerId = false ↔
      ∀ d ∈ db.dispatchPause, d.scope ≠ consumerId ∧ d.scope ≠ globalDispatchPauseScope := by
  simp [Db.effectivelyPaused, List.any_eq_false, not_or]

end WebhookBroker
