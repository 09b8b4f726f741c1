import WebhookBroker.Storage.JobParkingRepo
import WebhookBroker.Storage.MessageRepo

/-!
# The writes on jobs (`storage/deliveryjobrepo.go`)

`DispatchMessageWithParking` creates the jobs of a message. Every later write on one job is a
conditional update of its row, a `JobUpdate`, that has to match one row: the members of the family
differ in the condition, in the columns they set and in what they change in the caller's copy. The
functions are modelled on arguments that are not `nil`, and one clock reading stands for the
readings of one call.
-/

namespace WebhookBroker

open Lib List

/-! ## Creating the jobs of a message -/

/-- The row that `DispatchMessageWithParking` inserts into `job`; `retryAttemptCount` is not among
the columns and takes its default. -/
def DeliveryJob.jobRow (job : DeliveryJob) : JobRow where
  id := job.id
  messageId := job.messageID
  consumerId := job.listenerID
  status := job.status
  retryAttemptCount := 0
  statusChangedAt := job.statusChangedAt
  dispatchReceivedAt := job.dispatchReceivedAt
  earliestNextAttemptAt := job.earliestNextAttemptAt
  createdAt := job.createdAt
  updatedAt := job.updatedAt
  priority := job.priority
  incrementalTimeout := job.incrementalTimeout

/-- The check of `DispatchMessageWithParking` on each job. -/
def DeliveryJob.isValidFor [NetUrl] (message : Message) (job : DeliveryJob) : Bool :=
  job.isInValidState && job.messageID == message.id

/-- The operations of the transaction: insert the jobs, park the others, mark the message. -/
def dispatchTxs (now : Time) (message : Message) (deliveryJobs parkedJobs : List DeliveryJob) :
    List (Tx Unit) :=
  (if deliveryJobs.length > 0 then
    [inTransactionExec (insertJob (deliveryJobs.map (·.jobRow))) deliveryJobs.length] else []) ++
  (if parkedJobs.length > 0 then [insertParkedJobsInTx parkedJobs now] else []) ++
  [setDispatched now message]

/-- `DispatchMessageWithParking`: on success the caller's message is dispatched and its parked jobs
have the status `PARKED`. -/
def dispatchMessageWithParking [NetUrl] (now : Time) (message : Message)
    (deliveryJobs parkedJobs : List DeliveryJob) (db : Db) :
    Except StorageErr (Message × List DeliveryJob) × Db :=
  if message.isInValidState && deliveryJobs.all (·.isValidFor message) &&
      parkedJobs.all (·.isValidFor message) then
    match transactionalWrites (dispatchTxs now message deliveryJobs parkedJobs) db with
    | (.ok (), db') =>
      (.ok (message.setDispatched now, parkedJobs.map ({ · with status := .parked })), db')
    | (.error e, db') => (.error e, db')
  else
    (.error .invalidStateToSave, db)

def Db.dispatched (now : Time) (message : Message) (deliveryJobs parkedJobs : List DeliveryJob)
    (db : Db) : Db :=
  { db with
    job := db.job ++ deliveryJobs.map (·.jobRow)
    jobParking := db.jobParking ++ numberFrom db.nextSeq (parkedJobs.map (·.parkedRow now))
    nextSeq := db.nextSeq + parkedJobs.length
    message := updateWhere (isAcknowledged message.id) (·.setDispatched now) db.message }

/-- The statements of a dispatch meet their conditions: the keys allow the new rows, and the message
is valid and still acknowledged. -/
def Db.acceptsDispatch (db : Db) (now : Time) (message : Message)
    (deliveryJobs parkedJobs : List DeliveryJob) : Prop :=
  (deliveryJobs ≠ [] → db.acceptsJobs (deliveryJobs.map (·.jobRow))) ∧
  (parkedJobs ≠ [] → db.acceptsParkedJobs (parkedJobs.map (·.parkedRow now))) ∧
  message.isInValidState = true ∧ db.message.countP (isAcknowledged message.id) = 1

variable {db : Db} {r : Unit × Db}

/-- The insert of a dispatch, which is left out when there is nothing to insert. -/
theorem insertJobs_eq_ok {jobs : List DeliveryJob} :
    ((if jobs.length > 0 then [inTransactionExec (insertJob (jobs.map (·.jobRow))) jobs.length]
      else []).forM id) db = .ok r ↔
    (jobs ≠ [] → db.acceptsJobs (jobs.map (·.jobRow))) ∧
      r.2 = { db with job := db.job ++ jobs.map (·.jobRow) } := by
  cases jobs with
  | nil =>
    rw [if_neg (show ¬ ([] : List DeliveryJob).length > 0 from Nat.not_lt_zero 0),
      Tx.forM_nil_eq_ok]
    simp only [ne_eq, not_true_eq_false, false_implies, true_and, map_nil, append_nil,
      Prod.ext_iff]
    exact eq_comm
  | cons job jobs =>
    rw [if_pos (show (job :: jobs).length > 0 from Nat.succ_pos _), Tx.forM_cons_eq_ok]
    simp only [Tx.forM_nil_eq_ok, inTransactionExec_eq_ok, insertJob_eq_ok, length_map]
    constructor
    · rintro ⟨db', ⟨rows, ⟨hacc, hrows⟩, -⟩, rfl⟩
      exact ⟨fun _ => hacc, (Prod.mk.inj hrows).2⟩
    · rintro ⟨hacc, hdb⟩
      exact ⟨_, ⟨_, ⟨hacc (cons_ne_nil _ _), rfl⟩, fun _ => rfl⟩, Prod.ext rfl hdb.symm⟩

variable {now : Time}

@[inherit_doc insertJobs_eq_ok]
theorem insertParkedJobs_eq_ok {jobs : List DeliveryJob} :
    ((if jobs.length > 0 then [insertParkedJobsInTx jobs now] else []).forM id) db = .ok r ↔
    (jobs ≠ [] → db.acceptsParkedJobs (jobs.map (·.parkedRow now))) ∧
      r.2 = { db with
        jobParking := db.jobParking ++ numberFrom db.nextSeq (jobs.map (·.parkedRow now))
        nextSeq := db.nextSeq + jobs.length } := by
  cases jobs with
  | nil =>
    rw [if_neg (show ¬ ([] : List DeliveryJob).length > 0 from Nat.not_lt_zero 0),
      Tx.forM_nil_eq_ok]
    simp only [ne_eq, not_true_eq_false, false_implies, true_and, map_nil, numberFrom,
      append_nil, length_nil, Nat.add_zero, Prod.ext_iff]
    exact eq_comm
  | cons job jobs =>
    rw [if_pos (show (job :: jobs).length > 0 from Nat.succ_pos _), Tx.forM_cons_eq_ok,
      insertParkedJobsInTx, if_neg (show ¬ (job :: jobs).length = 0 from Nat.succ_ne_zero _)]
    simp only [Tx.forM_nil_eq_ok, inTransactionExec_eq_ok, insertParkedJob_eq_ok, length_map]
    constructor
    · rintro ⟨db', ⟨rows, ⟨hacc, hrows⟩, -⟩, rfl⟩
      exact ⟨fun _ => hacc, (Prod.mk.inj hrows).2⟩
    · rintro ⟨hacc, hdb⟩
      exact ⟨_, ⟨_, ⟨hacc (cons_ne_nil _ _), rfl⟩, fun _ => rfl⟩, Prod.ext rfl hdb.symm⟩

/-- The operations of a dispatch succeed exactly if their conditions hold. -/
theorem dispatchTxs_eq_ok {message : Message} {deliveryJobs parkedJobs} :
    ((dispatchTxs now message deliveryJobs parkedJobs).forM id) db = .ok r ↔
      db.acceptsDispatch now message deliveryJobs parkedJobs ∧
      r.2 = db.dispatched now message deliveryJobs parkedJobs := by
  rw [dispatchTxs, Tx.forM_append_eq_ok]
  constructor
  · rintro ⟨db₂, h, hset⟩
    obtain ⟨db₁, hjobs, hparked⟩ := Tx.forM_append_eq_ok.1 h
    obtain ⟨haccJobs, hdb₁⟩ := insertJobs_eq_ok.1 hjobs
    obtain ⟨haccParked, hdb₂⟩ := insertParkedJobs_eq_ok.1 hparked
    obtain ⟨_, hset, hnil⟩ := Tx.forM_cons_eq_ok.1 hset
    obtain ⟨hack, hdb⟩ := setDispatched_eq_ok.1 hset
    cases Tx.forM_nil_eq_ok.1 hnil
    simp only at hdb₁ hdb₂ hdb
    subst hdb₁ hdb₂
    exact ⟨⟨haccJobs, haccParked, hack⟩, hdb⟩
  · rintro ⟨⟨hjobs, hparked, hset⟩, hdb⟩
    refine ⟨_, Tx.forM_append_eq_ok.2 ⟨_, insertJobs_eq_ok.2 ⟨hjobs, rfl⟩,
      insertParkedJobs_eq_ok.2 ⟨hparked, rfl⟩⟩, Tx.forM_cons_eq_ok.2 ⟨_,
      setDispatched_eq_ok.2 ⟨hset, rfl⟩, Tx.forM_nil_eq_ok.2 (Prod.ext rfl hdb.symm)⟩⟩

/-- A dispatch stores the valid jobs of a message that was still acknowledged, or it changes
nothing. -/
theorem dispatchMessageWithParking_cases [NetUrl] (now : Time) (message : Message)
    (deliveryJobs parkedJobs : List DeliveryJob) (db : Db) :
    ((∀ job ∈ deliveryJobs ++ parkedJobs, job.isValidFor message = true) ∧
      db.acceptsDispatch now message deliveryJobs parkedJobs ∧
      dispatchMessageWithParking now message deliveryJobs parkedJobs db =
        (.ok (message.setDispatched now, parkedJobs.map ({ · with status := .parked })),
          db.dispatched now message deliveryJobs parkedJobs)) ∨
    ∃ e, dispatchMessageWithParking now message deliveryJobs parkedJobs db = (.error e, db) := by
  unfold dispatchMessageWithParking
  split
  · rename_i hvalid
    unfold transactionalWrites
    rcases transactionalOperations_cases
      ((dispatchTxs now message deliveryJobs parkedJobs).forM id) db with
      ⟨_, db', h, hr⟩ | ⟨e, _, hr⟩
    · obtain ⟨haccepts, rfl⟩ := dispatchTxs_eq_ok.1 h
      simp only [Bool.and_eq_true, all_eq_true] at hvalid
      rw [hr]
      refine .inl ⟨?_, haccepts, rfl⟩
      intro job hjob
      rcases mem_append.1 hjob with hjob | hjob
      · exact hvalid.1.2 job hjob
      · exact hvalid.2 job hjob
    · rw [hr]
      exact .inr ⟨e, rfl⟩
  · exact .inr ⟨_, rfl⟩

theorem dispatchMessageWithParking_of_accepts [NetUrl] {message : Message}
    {deliveryJobs parkedJobs : List DeliveryJob}
    (hvalid : ∀ job ∈ deliveryJobs ++ parkedJobs, job.isValidFor message = true)
    (h : db.acceptsDispatch now message deliveryJobs parkedJobs) :
    dispatchMessageWithParking now message deliveryJobs parkedJobs db =
      (.ok (message.setDispatched now, parkedJobs.map ({ · with status := .parked })),
        db.dispatched now message deliveryJobs parkedJobs) := by
  have hchecks : (message.isInValidState && deliveryJobs.all (·.isValidFor message) &&
      parkedJobs.all (·.isValidFor message)) = true := by
    simp only [Bool.and_eq_true, all_eq_true]
    exact ⟨⟨h.2.2.1, fun job hjob => hvalid job (mem_append_left _ hjob)⟩,
      fun job hjob => hvalid job (mem_append_right _ hjob)⟩
  have hok : ((dispatchTxs now message deliveryJobs parkedJobs).forM id) db =
      .ok ((), db.dispatched now message deliveryJobs parkedJobs) :=
    dispatchTxs_eq_ok.2 ⟨h, rfl⟩
  rw [dispatchMessageWithParking, if_pos hchecks, transactionalWrites, transactionalOperations, hok]

/-! ## Updating one job -/

/-- A conditional update of one job: `UPDATE job SET set WHERE id like id and guard`, and the
caller's copy after a success. -/
structure JobUpdate where
  id : Xid
  guard : Db → JobRow → Bool
  set : JobRow → JobRow
  copy : DeliveryJob

def JobUpdate.matches (u : JobUpdate) (db : Db) (row : JobRow) : Bool :=
  sqlLike u.id.string row.id.string && u.guard db row

def JobUpdate.run (u : JobUpdate) (db : Db) : Except StorageErr DeliveryJob × Db :=
  match transactionalSingleRowWriteExec (updateJob u.matches u.set) db with
  | (.ok (), db') => (.ok u.copy, db')
  | (.error e, db') => (.error e, db')

def jobNotPausedClause (db : Db) (row : JobRow) : Bool :=
  !db.effectivelyPaused row.consumerId.string

def updateJobStatus (now : Time) (deliveryJob : DeliveryJob) (source target : JobStatus) :
    JobUpdate where
  id := deliveryJob.id
  guard _ r := r.status == source
  set r := { r with
    status := target, incrementalTimeout := deliveryJob.incrementalTimeout
    statusChangedAt := now, updatedAt := now }
  copy := { deliveryJob with status := target, statusChangedAt := now, updatedAt := now }

/-- `MarkJobInflight`: the stored retry count has to be the one of the caller's copy, and the
consumer must not be effectively paused. -/
def markJobInflight (now : Time) (deliveryJob : DeliveryJob) : JobUpdate where
  id := deliveryJob.id
  guard db r := r.status == .queued && r.retryAttemptCount == deliveryJob.retryAttemptCount &&
    jobNotPausedClause db r
  set r := { r with
    status := .inflight, incrementalTimeout := deliveryJob.incrementalTimeout
    statusChangedAt := now, updatedAt := now }
  copy := { deliveryJob with status := .inflight, statusChangedAt := now, updatedAt := now }

def markJobDelivered (now : Time) (deliveryJob : DeliveryJob) : JobUpdate :=
  updateJobStatus now deliveryJob .inflight .delivered

def markJobDead (now : Time) (deliveryJob : DeliveryJob) : JobUpdate :=
  updateJobStatus now deliveryJob .inflight .dead

def markQueuedJobAsDead (now : Time) (deliveryJob : DeliveryJob) : JobUpdate :=
  updateJobStatus now deliveryJob .queued .dead

/-- `MarkJobRetry`: the new count is the one of the caller's copy plus one, whatever is stored. -/
def markJobRetry (now : Time) (deliveryJob : DeliveryJob) (earliestDelta : Duration) :
    JobUpdate where
  id := deliveryJob.id
  guard _ r := r.status == .inflight
  set r := { r with
    status := .queued, statusChangedAt := now, updatedAt := now
    earliestNextAttemptAt := now + earliestDelta
    retryAttemptCount := deliveryJob.retryAttemptCount + 1 }
  copy := { deliveryJob with
    status := .queued, statusChangedAt := now, updatedAt := now
    earliestNextAttemptAt := now + earliestDelta
    retryAttemptCount := deliveryJob.retryAttemptCount + 1 }

def markDeadJobAsInflight (now : Time) (deliveryJob : DeliveryJob) : JobUpdate where
  id := deliveryJob.id
  guard db r := r.status == .dead && jobNotPausedClause db r
  set r := { r with
    status := .inflight, incrementalTimeout := deliveryJob.incrementalTimeout
    statusChangedAt := now, updatedAt := now, earliestNextAttemptAt := now
    retryAttemptCount := deliveryJob.retryAttemptCount + 1 }
  copy := { deliveryJob with
    status := .inflight, statusChangedAt := now, updatedAt := now, earliestNextAttemptAt := now
    retryAttemptCount := deliveryJob.retryAttemptCount + 1 }

theorem JobUpdate.run_cases (u : JobUpdate) (db : Db) :
    (db.job.countP (u.matches db) = 1 ∧
      u.run db = (.ok u.copy, { db with job := updateWhere (u.matches db) u.set db.job })) ∨
    ∃ e, u.run db = (.error e, db) := by
  unfold JobUpdate.run
  rcases transactionalSingleRowWriteExec_cases (updateJob u.matches u.set) db with
    ⟨db', hq, hr⟩ | ⟨e, hr⟩
  · simp only [updateJob, Except.ok.injEq, Prod.mk.injEq] at hq
    rw [hr, ← hq.2]
    exact .inl ⟨hq.1, rfl⟩
  · rw [hr]
    exact .inr ⟨e, rfl⟩

theorem JobUpdate.run_of_countP {u : JobUpdate} (h : db.job.countP (u.matches db) = 1) :
    u.run db = (.ok u.copy, { db with job := updateWhere (u.matches db) u.set db.job }) := by
  unfold JobUpdate.run
  rw [transactionalSingleRowWriteExec_of_ok (by rw [updateJob, h])]

inductive Mark where
  | inflight
  | delivered
  | dead
  | queuedAsDead
  | retry (earliestDelta : Duration)
  | deadAsInflight
deriving DecidableEq

def Mark.update (now : Time) (job : DeliveryJob) : Mark → JobUpdate
  | .inflight => markJobInflight now job
  | .delivered => markJobDelivered now job
  | .dead => markJobDead now job
  | .queuedAsDead => markQueuedJobAsDead now job
  | .retry earliestDelta => markJobRetry now job earliestDelta
  | .deadAsInflight => markDeadJobAsInflight now job

@[simp] theorem Mark.update_id (m : Mark) (now : Time) (job : DeliveryJob) :
    (m.update now job).id = job.id := by
  cases m <;> rfl

def Mark.source : Mark → JobStatus
  | .inflight | .queuedAsDead => .queued
  | .delivered | .dead | .retry _ => .inflight
  | .deadAsInflight => .dead

def Mark.target : Mark → JobStatus
  | .inflight | .deadAsInflight => .inflight
  | .delivered => .delivered
  | .dead | .queuedAsDead => .dead
  | .retry _ => .queued

theorem Mark.source_ne_target (m : Mark) : m.source ≠ m.target := by
  cases m <;> exact nofun

theorem Mark.status_of_guard {m : Mark} {job : DeliveryJob} {row : JobRow}
    (h : (m.update now job).guard db row = true) : row.status = m.source := by
  cases m with
  | inflight =>
    simp only [Mark.update, markJobInflight, Bool.and_eq_true, beq_iff_eq] at h
    exact h.1.1
  | deadAsInflight =>
    simp only [Mark.update, markDeadJobAsInflight, Bool.and_eq_true, beq_iff_eq] at h
    exact h.1
  | delivered | dead | queuedAsDead | retry => exact beq_iff_eq.1 h

@[simp] theorem Mark.status_set (m : Mark) (now : Time) (job : DeliveryJob) (row : JobRow) :
    ((m.update now job).set row).status = m.target := by
  cases m <;> rfl

/-! ## The dead letter queue -/

def JobRow.requeue (now : Time) (row : JobRow) : JobRow :=
  { row with status := .queued, statusChangedAt := now, updatedAt := now, retryAttemptCount := 0 }

/-- `RequeueDeadJobsForConsumer`: the number of rows affected. -/
def requeueDeadJobsForConsumer (now : Time) (consumer : Consumer) (db : Db) :
    Except StorageErr Nat × Db :=
  transactionalOperations (updateJob
    (fun _ r => sqlLike consumer.id.string r.consumerId.string && r.status == .dead)
    (·.requeue now)) db

/-- The operation `RequeueDeadJob` runs in its transaction. -/
def requeueDeadJobInTx (now : Time) (id : Xid) : Tx Nat := do
  let rowsAffected ← updateJob
    (fun _ r => sqlLike id.string r.id.string && r.status == .dead) (·.requeue now)
  if rowsAffected = 0 then
    throw .noRowsUpdated
  else
    return rowsAffected

/-- `RequeueDeadJob`: the number of rows affected. -/
def requeueDeadJob (now : Time) (job : DeliveryJob) (db : Db) : Except StorageErr Nat × Db :=
  transactionalOperations (requeueDeadJobInTx now job.id) db

/-- `DeleteDeadJobsForConsumer`: the number of rows affected. -/
def deleteDeadJobsForConsumer (consumer : Consumer) (maxRetryCount : Nat) (db : Db) :
    Except StorageErr Nat × Db :=
  transactionalOperations (deleteJob fun r => r.consumerId == consumer.id && r.status == .dead &&
    decide (r.retryAttemptCount ≥ maxRetryCount)) db

/-- `DeleteDeadJob`: the number of rows affected. -/
def deleteDeadJob (job : DeliveryJob) (maxRetryCount : Nat) (db : Db) :
    Except StorageErr Nat × Db :=
  transactionalOperations (deleteJob fun r => r.id == job.id && r.status == .dead &&
    decide (r.retryAttemptCount ≥ maxRetryCount)) db

theorem requeueDeadJob_cases (now : Time) (job : DeliveryJob) (db : Db) :
    (∃ n, requeueDeadJob now job db = (.ok n, { db with
      job := updateWhere (fun r => sqlLike job.id.string r.id.string && r.status == .dead)
        (·.requeue now) db.job })) ∨
    (db.job.countP (fun r => sqlLike job.id.string r.id.string && r.status == .dead) = 0 ∧
      ∃ e, requeueDeadJob now job db = (.error e, db)) := by
  unfold requeueDeadJob
  rcases transactionalOperations_cases (requeueDeadJobInTx now job.id) db with
    ⟨n, db', h, hr⟩ | ⟨e, h, hr⟩
  · obtain ⟨rows, db₁, h₁, h₂⟩ := Tx.bind_eq_ok.1 h
    simp only [updateJob, Except.ok.injEq, Prod.mk.injEq] at h₁
    split at h₂
    · cases h₂
    · cases h₂
      rw [hr, ← h₁.2]
      exact .inl ⟨_, rfl⟩
  · refine .inr ⟨?_, e, hr⟩
    by_contra h0
    have hok : requeueDeadJobInTx now job.id db = .ok (_, _) :=
      Tx.bind_eq_ok.2 ⟨_, _, rfl, by rw [if_neg h0]; rfl⟩
    rw [hok] at h
    cases h

theorem requeueDeadJob_db (now : Time) (job : DeliveryJob) (db : Db) :
    (requeueDeadJob now job db).2 = { db with
      job := updateWhere (fun r => sqlLike job.id.string r.id.string && r.status == .dead)
        (·.requeue now) db.job } := by
  rcases requeueDeadJob_cases now job db with ⟨n, hr⟩ | ⟨h0, e, hr⟩
  · rw [hr]
  · have hself := updateWhere_eq_self (f := (·.requeue now)) |>.2 fun r hr hmatch =>
      absurd hmatch (countP_eq_zero.1 h0 r hr)
    rw [hr, hself]

end WebhookBroker
