import WebhookBroker.Prune.ArchiveWriter
import WebhookBroker.Storage.CreateMessage
import WebhookBroker.Storage.Listing
import WebhookBroker.Storage.MessageRepo

/-!
# The loop of `PruneMessages` (`prune/service.go`)

`PruneMessages` takes one batch of messages after the other, archives the messages of the batch and
deletes the ones that were archived. A single variable `err` is set by every call that may fail and
returned at the end. `pruneMessages` is the loop with that variable, for every outcome of the calls.

The variable is assigned by the delete also when the loop over the messages has stopped with an
error: the error of an archive call is lost if messages were archived before it in the same batch.
-/

namespace WebhookBroker

open Lib List

namespace Prune

/-! ## The calls and their outcomes -/

inductive ArchiveErr where
  /-- `failed to marshal message and jobs to JSON` -/
  | marshal
  /-- `failed to write message and jobs to local archive` -/
  | localArchive (result : WriteResult)
  /-- `failed to write message and jobs to remote archive` -/
  | remoteArchive (result : WriteResult)
deriving DecidableEq

inductive PruneErr where
  | init
  | getJobs (err : StorageErr)
  /-- `failed to archive message %s` -/
  | archive (messageID : Xid) (err : ArchiveErr)
  | delete (err : StorageErr)
deriving DecidableEq

/-- A batch of messages and what its calls meet: the error of `getJobsForMessages`, the errors of
`archiveMessage` by position, and a failure of the delete that is not the delete's own. -/
structure Batch where
  messages : List Xid
  getJobs : Option StorageErr
  archive : Nat → Option ArchiveErr
  delete : Option StorageErr

structure BatchCalls where
  getJobs : Option StorageErr
  archive : List (Xid × Option ArchiveErr)
  /-- `none` if there was nothing to delete -/
  delete : Option (Option StorageErr)
deriving DecidableEq

/-- What `PruneMessages` returns, the database then, and the calls. -/
structure PruneResult where
  err : Option PruneErr
  db : Db
  calls : List BatchCalls

/-- The variables after the loop over the messages of a batch, and its calls. -/
structure ArchiveLoop where
  calls : List (Xid × Option ArchiveErr)
  err : Option PruneErr
  moreMessages : Bool
  messageIDsToDelete : List Xid

/-- The loop over the messages of a batch, from the `i`-th on. -/
def archiveLoop (archive : Nat → Option ArchiveErr) (err : Option PruneErr)
    (messageIDsToDelete : List Xid) : Nat → List Xid → ArchiveLoop
  | _, [] => { calls := [], err, moreMessages := true, messageIDsToDelete }
  | i, message :: messages =>
    match archive i with
    | some archiveErr =>
      { calls := [(message, some archiveErr)]
        err := some (.archive message archiveErr)
        moreMessages := false
        messageIDsToDelete }
    | none =>
      let rest := archiveLoop archive err (messageIDsToDelete ++ [message]) (i + 1) messages
      { rest with calls := (message, none) :: rest.calls }

/-- `DeleteMessagesAndJobs`, which may fail for reasons of its own or from outside. -/
def deleteBatch (failure : Option StorageErr) (ids : List Xid) (db : Db) :
    Except StorageErr Unit × Db :=
  match failure with
  | some e => (.error e, db)
  | none => deleteMessagesAndJobs (ids.map (·.string)) db

/-- The result with the calls of a batch before its own. -/
def PruneResult.after (calls : BatchCalls) (r : PruneResult) : PruneResult :=
  { r with calls := calls :: r.calls }

/-- The loop over the batches; after the last one the listing is empty. -/
def pruneLoop : List Batch → Option PruneErr → Db → PruneResult
  | [], err, db => { err, db, calls := [] }
  | batch :: batches, err, db =>
    if batch.messages.length = 0 then { err, db, calls := [] }
    else
      match batch.getJobs with
      | some jobErr =>
        { err := some (.getJobs jobErr), db, calls := [⟨some jobErr, [], none⟩] }
      | none =>
        let loop := archiveLoop batch.archive err [] 0 batch.messages
        if loop.messageIDsToDelete.length > 0 then
          match deleteBatch batch.delete loop.messageIDsToDelete db with
          | (.error e, db) =>
            { err := some (.delete e), db, calls := [⟨none, loop.calls, some (some e)⟩] }
          | (.ok _, db) =>
            -- `err` is nil here, whatever the loop over the messages has set
            if loop.moreMessages then
              (pruneLoop batches none db).after ⟨none, loop.calls, some none⟩
            else { err := none, db, calls := [⟨none, loop.calls, some none⟩] }
        else if loop.moreMessages then
          (pruneLoop batches loop.err db).after ⟨none, loop.calls, none⟩
        else { err := loop.err, db, calls := [⟨none, loop.calls, none⟩] }

/-- `PruneMessages`, for a sequence of batches. -/
def pruneMessages (isPruningEnabled initFails : Bool) (batches : List Batch) (db : Db) :
    PruneResult :=
  if !isPruningEnabled then { err := none, db, calls := [] }
  else if initFails then { err := some .init, db, calls := [] }
  else pruneLoop batches none db

/-! ## What the calls say -/

def BatchCalls.Succeed (c : BatchCalls) : Prop :=
  c.getJobs = none ∧ (∀ a ∈ c.archive, a.2 = none) ∧ ∀ e, c.delete = some e → e = none

/-- A message could not be archived, and the ones before it were deleted. -/
def BatchCalls.LosesError (c : BatchCalls) : Prop :=
  (∃ a ∈ c.archive, a.2 ≠ none) ∧ c.delete = some none

/-- The message was archived, and the delete of its batch succeeded. -/
def BatchCalls.Removes (c : BatchCalls) (id : Xid) : Prop :=
  (id, none) ∈ c.archive ∧ c.delete = some none

/-- What is said of a result: `err` is nil only if every call succeeded, unless the error of an
archive call was lost; and the messages that were archived and whose batch was deleted are gone. -/
structure PruneResult.Spec (db : Db) (r : PruneResult) : Prop where
  reports : (r.err = none → ∀ c ∈ r.calls, c.Succeed) ↔ ∀ c ∈ r.calls, ¬ c.LosesError
  removed : ∀ m, m ∈ r.db.message ↔ m ∈ db.message ∧ ¬ ∃ c ∈ r.calls, c.Removes m.id

theorem BatchCalls.Succeed.not_losesError {c : BatchCalls} (h : c.Succeed) : ¬ c.LosesError := by
  rintro ⟨⟨a, ha, hne⟩, -⟩
  exact hne (h.2.1 a ha)

/-! ## The loop over the messages -/

/-- The loop archives all messages, or it stops at one that fails, with the ones before it to be
deleted. -/
theorem archiveLoop_cases (archive : Nat → Option ArchiveErr) (err : Option PruneErr)
    (ids : List Xid) (i : Nat) (messages : List Xid) :
    archiveLoop archive err ids i messages =
        ⟨messages.map (·, none), err, true, ids ++ messages⟩ ∨
    ∃ done message archiveErr, done ++ [message] <+: messages ∧
      archiveLoop archive err ids i messages =
        ⟨done.map (·, none) ++ [(message, some archiveErr)], some (.archive message archiveErr),
          false, ids ++ done⟩ := by
  induction messages generalizing ids i with
  | nil =>
    rw [archiveLoop, append_nil]
    exact .inl rfl
  | cons message messages ih =>
    cases hfails : archive i with
    | some archiveErr =>
      refine .inr ⟨[], message, archiveErr, prefix_append [message] messages, ?_⟩
      rw [archiveLoop, hfails, append_nil]
      rfl
    | none =>
      rcases ih (ids ++ [message]) (i + 1) with hall | ⟨done, failed, archiveErr, hprefix, hstop⟩
      · left
        rw [archiveLoop, hfails]
        simp only [hall, append_assoc, singleton_append, map_cons]
      · refine .inr ⟨message :: done, failed, archiveErr, ?_, ?_⟩
        · exact prefix_cons_inj message |>.2 hprefix
        · rw [archiveLoop, hfails]
          simp only [hstop, append_assoc, map_cons, cons_append, nil_append]

theorem deleteBatch_cases (failure : Option StorageErr) (ids : List Xid) (db : Db) :
    (∃ db', deleteBatch failure ids db = (.ok (), db') ∧
      ∀ m, m ∈ db'.message ↔ m ∈ db.message ∧ m.id ∉ ids) ∨
    ∃ e, deleteBatch failure ids db = (.error e, db) := by
  cases failure with
  | some e => exact .inr ⟨e, rfl⟩
  | none =>
    rcases deleteMessagesAndJobs_cases (ids.map (·.string)) db with ⟨hok, -⟩ | ⟨e, herr⟩
    · refine .inl ⟨_, hok, fun m => ?_⟩
      have hid : (ids.map (·.string)).contains m.id.string = false ↔ m.id ∉ ids := by
        rw [Bool.eq_false_iff, ne_eq, contains_iff_mem,
          mem_map_of_injective Xid.string_injective]
      rw [mem_deleteWhere, hid]
    · exact .inr ⟨e, herr⟩

/-! ## The loop over the batches -/

section
variable {db db' : Db} {c : BatchCalls} {r : PruneResult} {err : Option PruneErr}

theorem PruneResult.spec_nil : PruneResult.Spec db ⟨err, db, []⟩ where
  reports := iff_of_true (fun _ => nofun) nofun
  removed m := by simp

/-- A batch whose delete did not succeed ends the loop with an error and removes nothing. -/
theorem PruneResult.spec_error (herr : err ≠ none) (hdelete : c.delete ≠ some none) :
    PruneResult.Spec db ⟨err, db, [c]⟩ where
  reports := by
    refine iff_of_true (fun h => absurd h herr) fun c' hc' hloses => ?_
    rw [mem_singleton.1 hc'] at hloses
    exact hdelete hloses.2
  removed m := by
    refine ⟨fun hm => ⟨hm, ?_⟩, And.left⟩
    rintro ⟨c', hc', hremoves⟩
    rw [mem_singleton.1 hc'] at hremoves
    exact hdelete hremoves.2

/-- A batch that stops after some messages and deletes them returns nil. -/
theorem PruneResult.spec_lost (hfailed : ∃ a ∈ c.archive, a.2 ≠ none)
    (hdelete : c.delete = some none)
    (hdb : ∀ m, m ∈ db'.message ↔ m ∈ db.message ∧ (m.id, none) ∉ c.archive) :
    PruneResult.Spec db ⟨none, db', [c]⟩ where
  reports := by
    refine iff_of_false (fun h => ?_) fun h => h c mem_cons_self ⟨hfailed, hdelete⟩
    exact (h rfl c mem_cons_self).not_losesError ⟨hfailed, hdelete⟩
  removed m := by
    rw [hdb]
    simp [BatchCalls.Removes, hdelete]

theorem PruneResult.Spec.after (h : r.Spec db') (hc : c.Succeed) (hdelete : c.delete = some none)
    (hdb : ∀ m, m ∈ db'.message ↔ m ∈ db.message ∧ (m.id, none) ∉ c.archive) :
    (r.after c).Spec db where
  reports := by
    have hleft : ((r.after c).err = none → ∀ d ∈ (r.after c).calls, d.Succeed) ↔
        (r.err = none → ∀ d ∈ r.calls, d.Succeed) := by
      simp [PruneResult.after, hc]
    rw [hleft, h.reports]
    simp [PruneResult.after, hc.not_losesError]
  removed m := by
    have hcalls : (∃ d ∈ (r.after c).calls, d.Removes m.id) ↔
        (m.id, none) ∈ c.archive ∨ ∃ d ∈ r.calls, d.Removes m.id := by
      simp [PruneResult.after, BatchCalls.Removes, hdelete]
    rw [hcalls, not_or, ← and_assoc, ← hdb]
    exact h.removed m

end

theorem pruneLoop_spec (batches : List Batch) (db : Db) : (pruneLoop batches none db).Spec db := by
  induction batches generalizing db with
  | nil => exact PruneResult.spec_nil
  | cons batch batches ih =>
    rw [pruneLoop]
    split
    · exact PruneResult.spec_nil
    · rename_i hne
      split
      · exact PruneResult.spec_error nofun nofun
      · dsimp only
        rcases archiveLoop_cases batch.archive none [] 0 batch.messages with
          hall | ⟨done, message, archiveErr, -, hstop⟩
        · rw [hall]
          have hpos : ([] ++ batch.messages).length > 0 := by
            rw [nil_append]
            omega
          rw [if_pos hpos]
          rcases deleteBatch_cases batch.delete ([] ++ batch.messages) db with
            ⟨db', hok, hdb⟩ | ⟨e, herr⟩
          · rw [hok]
            refine (ih db').after ⟨rfl, ?_, ?_⟩ rfl fun m => ?_
            · simp
            · simp
            · rw [hdb]
              simp
          · rw [herr]
            exact PruneResult.spec_error nofun nofun
        · rw [hstop, nil_append]
          split
          · rcases deleteBatch_cases batch.delete done db with ⟨db', hok, hdb⟩ | ⟨e, herr⟩
            · rw [hok]
              refine PruneResult.spec_lost ⟨(message, some archiveErr), ?_, nofun⟩ rfl fun m => ?_
              · simp
              · rw [hdb]
                simp
            · rw [herr]
              exact PruneResult.spec_error nofun nofun
          · exact PruneResult.spec_error nofun nofun

/-- `PruneMessages` reports every failed call exactly if no batch has lost the error of an archive
call, and always removes exactly the archived messages of the deleted batches. -/
theorem prune_messages_reports_iff (isPruningEnabled initFails : Bool) (batches : List Batch)
    (db : Db) :
    let r := pruneMessages isPruningEnabled initFails batches db
    ((r.err = none → ∀ c ∈ r.calls, c.Succeed) ↔ ∀ c ∈ r.calls, ¬ c.LosesError) ∧
    ∀ m, m ∈ r.db.message ↔ m ∈ db.message ∧ ¬ ∃ c ∈ r.calls, c.Removes m.id := by
  have hspec : (pruneMessages isPruningEnabled initFails batches db).Spec db := by
    unfold pruneMessages
    split
    · exact PruneResult.spec_nil
    split
    · exact PruneResult.spec_nil
    · exact pruneLoop_spec batches db
  exact ⟨hspec.reports, hspec.removed⟩

open WebhookBroker.Sample Prune.Sample

/-- Two messages, the second of which cannot be written to the local archive. -/
def Sample.secondFails : Batch where
  messages := [message.id, producerXid]
  getJobs := none
  archive i := if i = 1 then some (.localArchive .writeObject) else none
  delete := none

theorem prune_messages_returns_nil_after_failed_archive :
    let r := pruneMessages true false [secondFails] { message := [message.toRow] }
    r.err = none ∧ r.db.message = [] ∧
      ∃ c ∈ r.calls, (producerXid, some (.localArchive .writeObject)) ∈ c.archive := by
  refine ⟨by decide +kernel, by decide +kernel, ?_⟩
  exact ⟨⟨none, [(message.id, none),
    (producerXid, some (.localArchive .writeObject))], some none⟩, by decide +kernel,
    by decide +kernel⟩

end Prune

end WebhookBroker
