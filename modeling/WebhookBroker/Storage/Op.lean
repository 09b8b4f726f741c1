import WebhookBroker.Storage.DeliveryJobRepo
import WebhookBroker.Storage.DispatchPauseRepo
import WebhookBroker.Storage.LockRepo
import WebhookBroker.Lib.Run

/-!
# The atomic operations on jobs

`DbOp` lists the operations of the repositories that write `job`, `job_parking`, `message`,
`dispatch_pause` or `lock`, with the caller's arguments: the job copies in them are whatever the
caller holds. Each operation is one transaction. `DbOp.step` is the transition system of any number
of nodes that call them in any order. What an operation may not do is call
`DispatchMessageWithParking` with jobs that are not freshly created.
-/

namespace WebhookBroker

open Lib

/-- A job of either table: its id, message and consumer. -/
structure JobRef where
  id : Xid
  messageId : Xid
  consumerId : Xid
deriving DecidableEq

def JobRef.pair (r : JobRef) : Xid × Xid := (r.messageId, r.consumerId)

def JobRow.ref (row : JobRow) : JobRef := ⟨row.id, row.messageId, row.consumerId⟩

def ParkedJobRow.ref (row : ParkedJobRow) : JobRef := ⟨row.id, row.messageId, row.consumerId⟩

def Db.stored (db : Db) : List JobRef := db.job.map (·.ref) ++ db.jobParking.map (·.ref)

/-- The jobs are as `NewDeliveryJob` creates them, one per consumer: their ids are new, they are
`QUEUED` and were never tried. -/
def Db.freshJobs (db : Db) (jobs : List DeliveryJob) : Prop :=
  (jobs.map (·.id)).Nodup ∧ (jobs.map (·.listenerID)).Nodup ∧
    ∀ job ∈ jobs, job.id ∉ db.stored.map (·.id) ∧ job.status = .queued ∧ job.retryAttemptCount = 0

instance (db : Db) (jobs : List DeliveryJob) : Decidable (db.freshJobs jobs) :=
  inferInstanceAs (Decidable (_ ∧ _ ∧ _))

inductive DbOp where
  | dispatchMessageWithParking (now : Time) (message : Message)
      (deliveryJobs parkedJobs : List DeliveryJob)
  | reparkQueuedJob (now : Time) (job : DeliveryJob)
  | drainPage (now : Time) (consumerInternalID : String) (pageSize : Int)
      (earliestNextAttemptAt : Time)
  | mark (m : Mark) (now : Time) (job : DeliveryJob)
  | requeueDeadJob (now : Time) (job : DeliveryJob)
  | requeueDeadJobsForConsumer (now : Time) (consumer : Consumer)
  | deleteDeadJob (job : DeliveryJob) (maxRetryCount : Nat)
  | deleteDeadJobsForConsumer (consumer : Consumer) (maxRetryCount : Nat)
  | deleteMessagesAndJobs (messageIDs : List String)
  | pause (now : Time) (pause : DispatchPause)
  | resume (scope : String)
  | tryLock (lock : Lock)
  | releaseLock (lockID : String)
  | timeoutLocks (now : Time) (threshold : Duration)
deriving DecidableEq

instance : Inhabited DbOp := ⟨.resume ""⟩

def DbOp.exec [NetUrl] (db : Db) : DbOp → Db
  | .dispatchMessageWithParking now message deliveryJobs parkedJobs =>
    (WebhookBroker.dispatchMessageWithParking now message deliveryJobs parkedJobs db).2
  | .reparkQueuedJob now job => (WebhookBroker.reparkQueuedJob now job db).2
  | .drainPage now consumerInternalID pageSize earliestNextAttemptAt =>
    (WebhookBroker.drainPage now consumerInternalID pageSize earliestNextAttemptAt db).2
  | .mark m now job => ((m.update now job).run db).2
  | .requeueDeadJob now job => (WebhookBroker.requeueDeadJob now job db).2
  | .requeueDeadJobsForConsumer now consumer =>
    (WebhookBroker.requeueDeadJobsForConsumer now consumer db).2
  | .deleteDeadJob job maxRetryCount => (WebhookBroker.deleteDeadJob job maxRetryCount db).2
  | .deleteDeadJobsForConsumer consumer maxRetryCount =>
    (WebhookBroker.deleteDeadJobsForConsumer consumer maxRetryCount db).2
  | .deleteMessagesAndJobs messageIDs => (WebhookBroker.deleteMessagesAndJobs messageIDs db).2
  | .pause now p => (WebhookBroker.pause now p db).2
  | .resume scope => (WebhookBroker.resume scope db).2
  | .tryLock lock => (WebhookBroker.tryLock lock db).2
  | .releaseLock lockID => (WebhookBroker.releaseLock lockID db).2
  | .timeoutLocks now threshold => (WebhookBroker.timeoutLocks now threshold db).2

/-- Did the operation report success (for a repark: that it moved the job)? -/
def DbOp.succeeds [NetUrl] (db : Db) : DbOp → Bool
  | .mark m now job => ((m.update now job).run db).1.isOk
  | .reparkQueuedJob now job =>
    match (WebhookBroker.reparkQueuedJob now job db).1 with
    | .ok (moved, _) => moved
    | .error _ => false
  | .tryLock lock => (WebhookBroker.tryLock lock db).1.isOk
  | .dispatchMessageWithParking now message deliveryJobs parkedJobs =>
    (WebhookBroker.dispatchMessageWithParking now message deliveryJobs parkedJobs db).1.isOk
  | _ => true

def DbOp.fails [NetUrl] (db : Db) : DbOp → Bool
  | .dispatchMessageWithParking now message deliveryJobs parkedJobs =>
    !(WebhookBroker.dispatchMessageWithParking now message deliveryJobs parkedJobs db).1.isOk
  | .reparkQueuedJob now job => !(WebhookBroker.reparkQueuedJob now job db).1.isOk
  | .drainPage now consumerInternalID pageSize earliestNextAttemptAt =>
    !(WebhookBroker.drainPage now consumerInternalID pageSize earliestNextAttemptAt db).1.isOk
  | .mark m now job => !((m.update now job).run db).1.isOk
  | .requeueDeadJob now job => !(WebhookBroker.requeueDeadJob now job db).1.isOk
  | .requeueDeadJobsForConsumer now consumer =>
    !(WebhookBroker.requeueDeadJobsForConsumer now consumer db).1.isOk
  | .deleteDeadJob job maxRetryCount => !(WebhookBroker.deleteDeadJob job maxRetryCount db).1.isOk
  | .deleteDeadJobsForConsumer consumer maxRetryCount =>
    !(WebhookBroker.deleteDeadJobsForConsumer consumer maxRetryCount db).1.isOk
  | .deleteMessagesAndJobs messageIDs => !(WebhookBroker.deleteMessagesAndJobs messageIDs db).1.isOk
  | .pause now p => !(WebhookBroker.pause now p db).1.isOk
  | .resume scope => !(WebhookBroker.resume scope db).1.isOk
  | .tryLock lock => !(WebhookBroker.tryLock lock db).1.isOk
  | .releaseLock lockID => !(WebhookBroker.releaseLock lockID db).1.isOk
  | .timeoutLocks now threshold => !(WebhookBroker.timeoutLocks now threshold db).1.isOk

/-- Does the operation return an error, where the lookups after a drain may fail? -/
def DbOp.returnsErr [NetUrl] (faults : LoadFaults) (db : Db) : DbOp → Bool
  | .drainPage now consumerInternalID pageSize earliestNextAttemptAt =>
    (drainPageAndPopulate faults now consumerInternalID pageSize earliestNextAttemptAt
      db).2.1.isSome
  | op => op.fails db

/-- An operation that returns an error has failed, or it is a drain whose page is committed. -/
theorem DbOp.fails_of_returnsErr [NetUrl] {faults : LoadFaults} {db : Db} {op : DbOp}
    (h : op.returnsErr faults db = true) : op.fails db = true ∨
      ∃ now consumerInternalID pageSize earliestNextAttemptAt,
        op = .drainPage now consumerInternalID pageSize earliestNextAttemptAt ∧
          (WebhookBroker.drainPage now consumerInternalID pageSize earliestNextAttemptAt
            db).1.isOk = true := by
  cases op with
  | drainPage now consumerInternalID pageSize earliestNextAttemptAt =>
    cases hok : (WebhookBroker.drainPage now consumerInternalID pageSize earliestNextAttemptAt
      db).1.isOk with
    | false => exact .inl (by rw [DbOp.fails, hok]; rfl)
    | true => exact .inr ⟨now, consumerInternalID, pageSize, earliestNextAttemptAt, rfl, hok⟩
  | _ => exact .inl h

/-- Jobs that are dispatched are freshly created. -/
def DbOp.admissible (db : Db) : DbOp → Bool
  | .dispatchMessageWithParking _ _ deliveryJobs parkedJobs =>
    decide (db.freshJobs (deliveryJobs ++ parkedJobs))
  | _ => true

def DbOp.step [NetUrl] (db : Db) (op : DbOp) : Option Db :=
  if op.admissible db then some (op.exec db) else none

/-! ## What an operation can do -/

/-- The effects of the operations: a failed one changes nothing, and a committed one has the
conditions of its statements behind it. -/
inductive DbEffect [NetUrl] (db : Db) : DbOp → Db → Prop
  | unchanged {op : DbOp} : DbEffect db op db
  | dispatched {now message deliveryJobs parkedJobs}
      (hfresh : db.freshJobs (deliveryJobs ++ parkedJobs))
      (hvalid : ∀ job ∈ deliveryJobs ++ parkedJobs, job.isValidFor message = true)
      (hack : db.message.countP (isAcknowledged message.id) = 1)
      (haccepts : db.acceptsDispatch now message deliveryJobs parkedJobs) :
      DbEffect db (.dispatchMessageWithParking now message deliveryJobs parkedJobs)
        (db.dispatched now message deliveryJobs parkedJobs)
  | reparked {now job} {row : JobRow}
      (hrow : db.job.filter (fun j => j.id == job.id && j.status == .queued) = [row])
      (hpaused : db.effectivelyPaused row.consumerId.string = true) :
      DbEffect db (.reparkQueuedJob now job) { db with
        job := deleteWhere (fun j => j.id == job.id && j.status == .queued) db.job
        jobParking := db.jobParking ++ [{ row.park now with seq := db.nextSeq }]
        nextSeq := db.nextSeq + 1 }
  | drained {now consumerInternalID pageSize earliestNextAttemptAt} {rows : List ParkedJobRow}
      (hrows : rows = drainPageQuery db consumerInternalID pageSize.toNat)
      (hcount : db.jobParking.countP (fun p => (rows.map (·.seq)).contains p.seq) = rows.length) :
      DbEffect db (.drainPage now consumerInternalID pageSize earliestNextAttemptAt) { db with
        jobParking := deleteWhere (fun p => (rows.map (·.seq)).contains p.seq) db.jobParking
        job := db.job ++ rows.map (·.drain now earliestNextAttemptAt) }
  | marked {m : Mark} {now job} (hcount : db.job.countP ((m.update now job).matches db) = 1) :
      DbEffect db (.mark m now job) { db with
        job := updateWhere ((m.update now job).matches db) (m.update now job).set db.job }
  | requeued {now job} :
      DbEffect db (.requeueDeadJob now job) { db with
        job := updateWhere (fun r => sqlLike job.id.string r.id.string && r.status == .dead)
          (·.requeue now) db.job }
  | requeuedForConsumer {now consumer} :
      DbEffect db (.requeueDeadJobsForConsumer now consumer) { db with
        job := updateWhere
          (fun r => sqlLike consumer.id.string r.consumerId.string && r.status == .dead)
          (·.requeue now) db.job }
  | deleted {job maxRetryCount} :
      DbEffect db (.deleteDeadJob job maxRetryCount) { db with
        job := deleteWhere (fun r => r.id == job.id && r.status == .dead &&
          decide (r.retryAttemptCount ≥ maxRetryCount)) db.job }
  | deletedForConsumer {consumer maxRetryCount} :
      DbEffect db (.deleteDeadJobsForConsumer consumer maxRetryCount) { db with
        job := deleteWhere (fun r => r.consumerId == consumer.id && r.status == .dead &&
          decide (r.retryAttemptCount ≥ maxRetryCount)) db.job }
  | deletedMessages {ids}
      (hparked : ∀ m ∈ db.message, ids.contains m.id.string = true →
        m.id ∉ db.jobParking.map (·.messageId)) :
      DbEffect db (.deleteMessagesAndJobs ids) { db with
        job := deleteWhere (fun r => ids.contains r.messageId.string) db.job
        message := deleteWhere (fun m => ids.contains m.id.string) db.message }
  | paused {now p rows} : DbEffect db (.pause now p) { db with dispatchPause := rows }
  | resumed {scope} : DbEffect db (.resume scope) { db with
      dispatchPause := deleteWhere (·.scope == scope) db.dispatchPause }
  | locked {op : DbOp} {locks} : DbEffect db op { db with lock := locks }

theorem DbOp.step_effect [NetUrl] {db db' : Db} {op : DbOp} (h : DbOp.step db op = some db') :
    DbEffect db op db' := by
  unfold DbOp.step at h
  split at h
  · rename_i hadm
    cases h
    cases op with
    | dispatchMessageWithParking now message deliveryJobs parkedJobs =>
      rcases dispatchMessageWithParking_cases now message deliveryJobs parkedJobs db with
        ⟨hvalid, haccepts, hr⟩ | ⟨e, hr⟩
      · rw [DbOp.exec, hr]
        exact .dispatched (of_decide_eq_true hadm) hvalid haccepts.2.2.2 haccepts
      · rw [DbOp.exec, hr]
        exact .unchanged
    | reparkQueuedJob now job =>
      rcases reparkQueuedJob_cases now job db with ⟨row, hrow, hpaused, hr⟩ | ⟨r, hr, -⟩
      · rw [DbOp.exec, hr]
        exact .reparked hrow hpaused
      · rw [DbOp.exec, hr]
        exact .unchanged
    | drainPage now consumerInternalID pageSize earliestNextAttemptAt =>
      rcases drainPage_cases now consumerInternalID pageSize earliestNextAttemptAt db with
        ⟨rows, hrows, hcount, hr⟩ | hr
      · rw [DbOp.exec, hr]
        exact .drained hrows hcount
      · rw [DbOp.exec, hr]
        exact .unchanged
    | mark m now job =>
      rcases (m.update now job).run_cases db with ⟨hcount, hr⟩ | ⟨e, hr⟩
      · rw [DbOp.exec, hr]
        exact .marked hcount
      · rw [DbOp.exec, hr]
        exact .unchanged
    | requeueDeadJob now job =>
      rw [DbOp.exec, requeueDeadJob_db]
      exact .requeued
    | requeueDeadJobsForConsumer now consumer => exact .requeuedForConsumer
    | deleteDeadJob job maxRetryCount => exact .deleted
    | deleteDeadJobsForConsumer consumer maxRetryCount => exact .deletedForConsumer
    | deleteMessagesAndJobs ids =>
      rcases deleteMessagesAndJobs_cases ids db with ⟨hr, hparked⟩ | ⟨e, hr⟩
      · rw [DbOp.exec, hr]
        exact .deletedMessages hparked
      · rw [DbOp.exec, hr]
        exact .unchanged
    | pause now p =>
      obtain ⟨rows, hr⟩ := pause_frame now p db
      rw [DbOp.exec, hr]
      exact .paused
    | resume scope => exact .resumed
    | tryLock lock =>
      obtain ⟨locks, hr⟩ := tryLock_frame lock db
      rw [DbOp.exec, hr]
      exact .locked
    | releaseLock lockID =>
      obtain ⟨locks, hr⟩ := releaseLock_frame lockID db
      rw [DbOp.exec, hr]
      exact .locked
    | timeoutLocks now threshold =>
      obtain ⟨locks, hr⟩ := timeoutLocks_frame now threshold db
      rw [DbOp.exec, hr]
      exact .locked
  · cases h

/-! ## A small database

One channel with a consumer and one acknowledged message, for the concrete runs. -/

namespace Sample

def db (type : ConsumerType) : Db where
  channel := [⟨channelXid, "c", "c", "t", 1, 1⟩]
  consumer := [⟨consumerXid, "d", "d", "t", "u", "c", type, 1, 1⟩]
  message := [⟨messageXid, "m", "x", "y", 0, .acknowledged, "c", "p", 1, 1, 1, 1, []⟩]

end Sample

end WebhookBroker
