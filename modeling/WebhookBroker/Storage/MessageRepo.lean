import WebhookBroker.Storage.Db

/-!
# Messages (`storage/messagerepo.go`)

The writes of the message repository that the life of a job depends on: the step to `DISPATCHED`
inside the transaction that creates the jobs, and the removal of messages together with their jobs.
-/

namespace WebhookBroker

open Lib List

/-- The fields `SetDispatched` changes, in the row and in the caller's message. -/
def MessageRow.setDispatched (now : Time) (row : MessageRow) : MessageRow :=
  { row with status := .dispatched, outboxedAt := now, updatedAt := now }

@[inherit_doc MessageRow.setDispatched]
def Message.setDispatched (now : Time) (message : Message) : Message :=
  { message with status := .dispatched, outboxedAt := now, updatedAt := now }

/-- The condition of `SetDispatched`: `WHERE id like ? and status = ?`. -/
def isAcknowledged (id : Xid) (row : MessageRow) : Bool :=
  sqlLike id.string row.id.string && row.status == .acknowledged

/-- `SetDispatched` in the transaction of its caller. -/
def setDispatched (now : Time) (message : Message) : Tx Unit := do
  if !message.isInValidState then
    throw .invalidStateToSave
  inTransactionExec (updateMessage (isAcknowledged message.id) (·.setDispatched now)) 1

variable {r : Unit × Db}

theorem setDispatched_eq_ok {now : Time} {message : Message} {db : Db} :
    setDispatched now message db = .ok r ↔
      (message.isInValidState = true ∧ db.message.countP (isAcknowledged message.id) = 1) ∧
      r.2 = { db with
        message := updateWhere (isAcknowledged message.id) (·.setDispatched now) db.message } := by
  cases hv : message.isInValidState with
  | false =>
    rw [setDispatched, hv]
    exact ⟨nofun, fun h => absurd h.1.1 Bool.false_ne_true⟩
  | true =>
    rw [setDispatched, hv]
    refine inTransactionExec_eq_ok.trans ⟨?_, ?_⟩
    · rintro ⟨rows, hq, hn⟩
      simp only [updateMessage, Except.ok.injEq, Prod.mk.injEq] at hq
      exact ⟨⟨rfl, hq.1.trans (hn Nat.one_pos)⟩, hq.2.symm⟩
    · rintro ⟨⟨-, hcount⟩, hdb⟩
      exact ⟨1, by rw [updateMessage, hcount, hdb], fun _ => rfl⟩

/-- The batches of `batchSize` ids, in order; `fuel` bounds their number. -/
def batches (batchSize : Nat) : Nat → List String → List (List String)
  | 0, _ => []
  | _ + 1, [] => []
  | fuel + 1, id :: ids =>
    (id :: ids).take batchSize :: batches batchSize fuel ((id :: ids).drop batchSize)

theorem batches_flatten {batchSize : Nat} (hb : 0 < batchSize) {fuel : Nat} {ids : List String}
    (hf : ids.length ≤ fuel) : (batches batchSize fuel ids).flatten = ids := by
  induction fuel generalizing ids with
  | zero => simpa [batches, eq_comm] using hf
  | succ fuel ih =>
    cases ids with
    | nil => rfl
    | cons id ids =>
      rw [length_cons] at hf
      have hd : ((id :: ids).drop batchSize).length ≤ fuel := by
        rw [length_drop, length_cons]
        omega
      rw [batches, flatten_cons, ih hd, take_append_drop]

/-- The two deletes of a batch, jobs first. -/
def deleteMessagesAndJobsBatch (batch : List String) : Tx Unit := do
  let _ ← deleteJob fun r => batch.contains r.messageId.string
  let _ ← deleteMessage fun m => batch.contains m.id.string

/-- `DeleteMessagesAndJobs`: all batches in one transaction. -/
def deleteMessagesAndJobs (messageIDs : List String) (db : Db) : Except StorageErr Unit × Db :=
  if messageIDs.length = 0 then
    (.ok (), db)
  else
    transactionalWrites
      [(batches 100 messageIDs.length messageIDs).forM deleteMessagesAndJobsBatch] db

/-- A batch deletes the jobs and the messages with the ids, unless one of the messages is parked. -/
theorem deleteMessagesAndJobsBatch_eq_ok {batch : List String} {db : Db}
    (h : deleteMessagesAndJobsBatch batch db = .ok r) :
    r.2 = { db with
      job := deleteWhere (fun r => batch.contains r.messageId.string) db.job
      message := deleteWhere (fun m => batch.contains m.id.string) db.message } ∧
    ∀ m ∈ db.message, batch.contains m.id.string = true →
      m.id ∉ db.jobParking.map (·.messageId) := by
  obtain ⟨_, db₁, hjobs, hrest⟩ := Tx.bind_eq_ok.1 h
  obtain ⟨n, db₂, hmsgs, hr⟩ := Tx.bind_eq_ok.1 hrest
  cases hjobs
  cases hr
  unfold deleteMessage at hmsgs
  split at hmsgs
  · cases hmsgs
  · rename_i hfk
    cases hmsgs
    exact ⟨rfl, fun m hm hb hp => hfk ⟨m, hm, hb, .inr hp⟩⟩

/-- The batches together delete what one batch of all the ids would. -/
theorem forM_deleteMessagesAndJobsBatch_eq_ok {bs : List (List String)} {db : Db}
    (h : (bs.forM deleteMessagesAndJobsBatch) db = .ok r) :
    r.2 = { db with
      job := deleteWhere (fun r => bs.flatten.contains r.messageId.string) db.job
      message := deleteWhere (fun m => bs.flatten.contains m.id.string) db.message } ∧
    ∀ m ∈ db.message, bs.flatten.contains m.id.string = true →
      m.id ∉ db.jobParking.map (·.messageId) := by
  induction bs generalizing db with
  | nil =>
    cases h
    simp [deleteWhere]
  | cons b bs ih =>
    obtain ⟨_, db₁, h₁, h₂⟩ := Tx.bind_eq_ok.1 h
    obtain ⟨hb, hfk⟩ := deleteMessagesAndJobsBatch_eq_ok h₁
    obtain ⟨hbs, hfks⟩ := ih h₂
    simp only at hb
    subst hb
    refine ⟨?_, ?_⟩
    · rw [hbs]
      simp only [deleteWhere_deleteWhere, flatten_cons, contains_append]
    · intro m hm hc
      cases hmb : b.contains m.id.string with
      | true => exact hfk m hm hmb
      | false =>
        rw [flatten_cons, contains_append, hmb, Bool.false_or] at hc
        exact hfks m (mem_deleteWhere.2 ⟨hm, hmb⟩) hc

/-- `DeleteMessagesAndJobs` deletes the messages with the ids and their jobs, none of them parked,
or it changes nothing. -/
theorem deleteMessagesAndJobs_cases (ids : List String) (db : Db) :
    (deleteMessagesAndJobs ids db = (.ok (), { db with
      job := deleteWhere (fun r => ids.contains r.messageId.string) db.job
      message := deleteWhere (fun m => ids.contains m.id.string) db.message }) ∧
      ∀ m ∈ db.message, ids.contains m.id.string = true → m.id ∉ db.jobParking.map (·.messageId)) ∨
    ∃ e, deleteMessagesAndJobs ids db = (.error e, db) := by
  unfold deleteMessagesAndJobs
  split
  · rename_i h0
    obtain rfl := length_eq_zero_iff.1 h0
    exact .inl ⟨by simp [deleteWhere], by simp⟩
  · unfold transactionalWrites
    rcases transactionalOperations_cases
      ([(batches 100 ids.length ids).forM deleteMessagesAndJobsBatch].forM id) db with
      ⟨_, db', h, hr⟩ | ⟨e, _, hr⟩
    · obtain ⟨db₁, h₁, h₂⟩ := Tx.forM_cons_eq_ok.1 h
      cases Tx.forM_nil_eq_ok.1 h₂
      obtain ⟨hdb, hfk⟩ := forM_deleteMessagesAndJobsBatch_eq_ok h₁
      rw [batches_flatten (by decide) le_rfl] at hdb hfk
      rw [hr, ← hdb]
      exact .inl ⟨rfl, hfk⟩
    · exact .inr ⟨e, hr⟩

end WebhookBroker
