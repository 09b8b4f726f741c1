import WebhookBroker.Storage.Query

/-!
# Parked jobs (`storage/jobparkingrepo.go`)

A job of a paused consumer is moved to `job_parking` (`reparkQueuedJob`) and back (`drainPage`),
each in one transaction. The functions are modelled on jobs that are not `nil`; `ReparkQueuedJob`
refuses a `nil` job before it writes. One clock reading stands for the readings of one call.
-/

namespace WebhookBroker

open Lib List

/-- `job.Message.ID`. -/
def DeliveryJob.messageID (job : DeliveryJob) : Xid := (job.message.map (·.id)).getD Xid.nil

def DeliveryJob.listenerID (job : DeliveryJob) : Xid := (job.listener.map (·.id)).getD Xid.nil

/-- The row that `parkedJobInsertQuery` writes for a job. -/
def DeliveryJob.parkedRow (parkedAt : Time) (job : DeliveryJob) : ParkedJobRow where
  seq := 0
  id := job.id
  messageId := job.messageID
  consumerId := job.listenerID
  dispatchReceivedAt := job.dispatchReceivedAt
  retryAttemptCount := job.retryAttemptCount
  earliestNextAttemptAt := job.earliestNextAttemptAt
  priority := job.priority
  incrementalTimeout := job.incrementalTimeout
  createdAt := job.createdAt
  parkedAt := parkedAt

def insertParkedJobsInTx (jobs : List DeliveryJob) (parkedAt : Time) : Tx Unit :=
  if jobs.length = 0 then pure ()
  else inTransactionExec (insertParkedJob (jobs.map (·.parkedRow parkedAt))) jobs.length

/-- The row that `reparkInsertQuery` selects from a row of `job`. -/
def JobRow.park (parkedAt : Time) (row : JobRow) : ParkedJobRow where
  seq := 0
  id := row.id
  messageId := row.messageId
  consumerId := row.consumerId
  dispatchReceivedAt := row.dispatchReceivedAt
  retryAttemptCount := row.retryAttemptCount
  earliestNextAttemptAt := row.earliestNextAttemptAt
  priority := row.priority
  incrementalTimeout := row.incrementalTimeout
  createdAt := row.createdAt
  parkedAt := parkedAt

/-- `reparkQuery`: copy the job if it is `QUEUED` and its consumer is effectively paused. -/
def reparkQuery (now : Time) (id : Xid) : Tx Nat := fun db =>
  insertParkedJob ((db.job.filter fun j => j.id == id && j.status == .queued &&
    db.effectivelyPaused j.consumerId.string).map (·.park now)) db

/-- The operation `ReparkQueuedJob` runs in its transaction; the result is `moved`. -/
def reparkQueuedJobInTx (now : Time) (id : Xid) : Tx Bool := do
  let inserted ← reparkQuery now id
  if inserted = 0 then
    return false
  else
    inTransactionExec (deleteJob fun j => j.id == id && j.status == .queued) 1
    return true

/-- `ReparkQueuedJob`: was the job moved, and the caller's copy of it. -/
def reparkQueuedJob (now : Time) (job : DeliveryJob) (db : Db) :
    Except StorageErr (Bool × DeliveryJob) × Db :=
  match transactionalOperations (reparkQueuedJobInTx now job.id) db with
  | (.ok moved, db') => (.ok (moved, if moved then { job with status := .parked } else job), db')
  | (.error e, db') => (.error e, db')

/-- A repark moves the one `QUEUED` row of the job, whose consumer is effectively paused, or it
changes nothing and does not report a move. -/
theorem reparkQueuedJob_cases (now : Time) (job : DeliveryJob) (db : Db) :
    (∃ row, db.job.filter (fun j => j.id == job.id && j.status == .queued) = [row] ∧
      db.effectivelyPaused row.consumerId.string = true ∧
      reparkQueuedJob now job db = (.ok (true, { job with status := .parked }), { db with
        job := deleteWhere (fun j => j.id == job.id && j.status == .queued) db.job
        jobParking := db.jobParking ++ [{ row.park now with seq := db.nextSeq }]
        nextSeq := db.nextSeq + 1 })) ∨
    ∃ r, reparkQueuedJob now job db = (r, db) ∧ ∀ copy, r ≠ .ok (true, copy) := by
  unfold reparkQueuedJob
  rcases transactionalOperations_cases (reparkQueuedJobInTx now job.id) db with
    ⟨moved, db', h, hr⟩ | ⟨e, _, hr⟩
  · rw [hr]
    obtain ⟨inserted, db₁, hins, hrest⟩ := Tx.bind_eq_ok.1 h
    obtain ⟨-, hdb₁⟩ := insertParkedJob_eq_ok.1 hins
    split at hrest
    · rename_i h0
      cases hrest
      rw [Prod.mk.injEq, h0, eq_comm, length_eq_zero_iff] at hdb₁
      obtain ⟨hnil, rfl⟩ := hdb₁
      rw [hnil]
      refine .inr ⟨.ok (false, job), ?_, by simp⟩
      simp [numberFrom]
    · rename_i h0
      obtain ⟨_, db₂, hdel, hret⟩ := Tx.bind_eq_ok.1 hrest
      obtain ⟨deleted, hq, hone⟩ := inTransactionExec_eq_ok.1 hdel
      cases hret
      rw [Prod.mk.injEq] at hdb₁
      obtain ⟨hlen, rfl⟩ := hdb₁
      simp only [deleteJob, Except.ok.injEq, Prod.mk.injEq] at hq
      obtain ⟨hcount, rfl⟩ := hq
      rw [hone Nat.one_pos, countP_eq_length_filter, length_eq_one_iff] at hcount
      obtain ⟨row, hrow⟩ := hcount
      have hcopied : (db.job.filter fun j => j.id == job.id && j.status == .queued &&
          db.effectivelyPaused j.consumerId.string) =
          [row].filter fun j => db.effectivelyPaused j.consumerId.string := by
        rw [← hrow, filter_filter]
        exact filter_congr fun j _ => Bool.and_comm _ _
      rw [hcopied, length_map] at hlen
      have hpaused : db.effectivelyPaused row.consumerId.string = true := by
        by_contra hp
        simp only [filter_cons, hp] at hlen
        exact h0 hlen
      simp only [hcopied, filter_cons, hpaused]
      exact .inl ⟨row, hrow, hpaused, rfl⟩
  · rw [hr]
    exact .inr ⟨_, rfl, by simp⟩

def getDrainableConsumerIDs (db : Db) : List String :=
  let scopes := db.dispatchPause.map (·.scope)
  if scopes.contains globalDispatchPauseScope then []
  else (db.jobParking.map (·.consumerId.string)).dedup.filter fun consumerID =>
    !scopes.contains consumerID

theorem mem_getDrainableConsumerIDs {db : Db} {consumerID : String} :
    consumerID ∈ getDrainableConsumerIDs db ↔
      consumerID ∈ db.jobParking.map (·.consumerId.string) ∧
        db.effectivelyPaused consumerID = false := by
  rw [getDrainableConsumerIDs, Db.effectivelyPaused_eq_false]
  split
  · rename_i hglobal
    obtain ⟨d, hd, hscope⟩ := mem_map.1 (contains_iff_mem.1 hglobal)
    exact ⟨nofun, fun h => absurd hscope (h.2 d hd).2⟩
  · rename_i hglobal
    rw [mem_filter, mem_dedup, Bool.not_eq_true', Bool.eq_false_iff, ne_eq,
      contains_iff_mem]
    refine and_congr_right fun _ => ⟨fun h d hd => ⟨?_, ?_⟩, fun h hmem => ?_⟩
    · rintro rfl
      exact h (mem_map_of_mem hd)
    · intro hscope
      exact hglobal (contains_iff_mem.2 (hscope ▸ mem_map_of_mem hd))
    · obtain ⟨d, hd, rfl⟩ := mem_map.1 hmem
      exact (h d hd).1 rfl

/-- `ORDER BY p.createdAt, p.seq`. -/
def drainOrder (a b : ParkedJobRow) : Prop :=
  a.createdAt < b.createdAt ∨ (a.createdAt = b.createdAt ∧ a.seq ≤ b.seq)

instance : DecidableRel drainOrder := fun _ _ => inferInstanceAs (Decidable (_ ∨ _))

/-- `drainPageQuery`: the oldest parked jobs of a consumer that is not effectively paused. -/
def drainPageQuery (db : Db) (consumerInternalID : String) (limit : Nat) : List ParkedJobRow :=
  ((db.jobParking.filter fun p => p.consumerId.string == consumerInternalID &&
    !db.effectivelyPaused consumerInternalID).insertionSort drainOrder).take limit

/-- The row that `drainJobInsertQuery` writes for a parked row. -/
def ParkedJobRow.drain (now earliestNextAttemptAt : Time) (row : ParkedJobRow) : JobRow where
  id := row.id
  messageId := row.messageId
  consumerId := row.consumerId
  status := .queued
  retryAttemptCount := row.retryAttemptCount
  statusChangedAt := now
  dispatchReceivedAt := row.dispatchReceivedAt
  earliestNextAttemptAt := earliestNextAttemptAt
  createdAt := row.createdAt
  updatedAt := now
  priority := row.priority
  incrementalTimeout := row.incrementalTimeout

/-- The operation `DrainPage` runs in its transaction; the result is the page of parked rows. -/
def drainPageInTx (now : Time) (consumerInternalID : String) (limit : Nat)
    (earliestNextAttemptAt : Time) : Tx (List ParkedJobRow) := do
  let rows := drainPageQuery (← get) consumerInternalID limit
  if rows.length = 0 then
    return rows
  else
    inTransactionExec (deleteParkedJob fun p => (rows.map (·.seq)).contains p.seq) rows.length
    inTransactionExec (insertJob (rows.map (·.drain now earliestNextAttemptAt))) rows.length
    return rows

/-- `DrainPage` up to the commit: the rows it moved, as they are in `job` now. -/
def drainPage (now : Time) (consumerInternalID : String) (pageSize : Int)
    (earliestNextAttemptAt : Time) (db : Db) : Except StorageErr (List JobRow) × Db :=
  if pageSize ≤ 0 then
    (.ok [], db)
  else
    match transactionalOperations
        (drainPageInTx now consumerInternalID pageSize.toNat earliestNextAttemptAt) db with
    | (.ok rows, db') => (.ok (rows.map (·.drain now earliestNextAttemptAt)), db')
    | (.error e, db') => (.error e, db')

/-- The errors that the lookups of `populateJobs` return though what they look up is stored. -/
structure LoadFaults where
  getByIDs : Option StorageErr
  getByID : Xid → Option StorageErr

/-- `populateJobs`: its error. -/
def populateJobs (faults : LoadFaults) (db : Db) (jobs : List JobRow) : Option StorageErr :=
  if jobs.length = 0 then none
  else
    match faults.getByIDs with
    | some err => some err
    | none => jobs.findSome? fun job =>
      match faults.getByID job.consumerId with
      | some err => some err
      | none =>
        match getConsumerByID db job.consumerId.string with
        | .ok _ => none
        | .error err => some err

/-- `DrainPage`: what belongs to the jobs of the page is loaded after the commit, and the jobs are
returned beside the error of that. -/
def drainPageAndPopulate (faults : LoadFaults) (now : Time) (consumerInternalID : String)
    (pageSize : Int) (earliestNextAttemptAt : Time) (db : Db) :
    List JobRow × Option StorageErr × Db :=
  match drainPage now consumerInternalID pageSize earliestNextAttemptAt db with
  | (.error err, db) => ([], some err, db)
  | (.ok jobs, db) => (jobs, populateJobs faults db jobs, db)

/-- A drain moves a page of the consumer's parked rows, whose sequence numbers match as many rows
as the page has, or it changes nothing. -/
theorem drainPage_cases (now : Time) (consumerInternalID : String) (pageSize : Int)
    (earliestNextAttemptAt : Time) (db : Db) :
    (∃ rows, rows = drainPageQuery db consumerInternalID pageSize.toNat ∧
      db.jobParking.countP (fun p => (rows.map (·.seq)).contains p.seq) = rows.length ∧
      drainPage now consumerInternalID pageSize earliestNextAttemptAt db =
        (.ok (rows.map (·.drain now earliestNextAttemptAt)), { db with
          jobParking := deleteWhere (fun p => (rows.map (·.seq)).contains p.seq) db.jobParking
          job := db.job ++ rows.map (·.drain now earliestNextAttemptAt) })) ∨
    (drainPage now consumerInternalID pageSize earliestNextAttemptAt db).2 = db := by
  unfold drainPage
  split
  · exact .inr rfl
  rcases transactionalOperations_cases
    (drainPageInTx now consumerInternalID pageSize.toNat earliestNextAttemptAt) db with
    ⟨page, db', h, hr⟩ | ⟨e, _, hr⟩
  · rw [hr]
    obtain ⟨_, _, hget, hrest⟩ := Tx.bind_eq_ok.1 h
    cases hget
    split at hrest
    · cases hrest
      exact .inr rfl
    · rename_i h0
      obtain ⟨_, db₁, hdel, hrest⟩ := Tx.bind_eq_ok.1 hrest
      obtain ⟨_, db₂, hins, hret⟩ := Tx.bind_eq_ok.1 hrest
      cases hret
      obtain ⟨deleted, hdel, hdeleted⟩ := inTransactionExec_eq_ok.1 hdel
      obtain ⟨inserted, hins, -⟩ := inTransactionExec_eq_ok.1 hins
      simp only [deleteParkedJob, Except.ok.injEq, Prod.mk.injEq] at hdel
      obtain ⟨hcount, rfl⟩ := hdel
      obtain ⟨-, hins⟩ := insertJob_eq_ok.1 hins
      rw [Prod.mk.injEq] at hins
      obtain ⟨-, rfl⟩ := hins
      exact .inl ⟨_, rfl, hcount.trans (hdeleted (Nat.pos_of_ne_zero h0)), rfl⟩
  · rw [hr]
    exact .inr rfl

end WebhookBroker
