import WebhookBroker.Storage.Db

/-!
# Dispatch pauses (`storage/dispatchpauserepo.go`)

A row of `dispatch_pause` pauses one consumer, or the whole broker when its scope is
`globalDispatchPauseScope`. Deleting the row resumes the scope.
-/

namespace WebhookBroker

open Lib

def DispatchPauseRow.toDispatchPause (row : DispatchPauseRow) : DispatchPause where
  scope := row.scope
  consumerID := row.consumerId.getD ""
  reason := row.reason
  pausedAt := row.pausedAt

def DispatchPause.row (pause : DispatchPause) : DispatchPauseRow where
  scope := pause.scope
  consumerId := if pause.isGlobal then none else some pause.consumerID
  reason := pause.reason
  pausedAt := pause.pausedAt

/-- `INSERT INTO dispatch_pause …`, with the primary key `scope` and the foreign key
`dispatchPauseConsumerRef`. -/
def insertDispatchPause (row : DispatchPauseRow) : Tx Nat := fun db =>
  if row.scope ∈ db.dispatchPause.map (·.scope) then
    .error .duplicateKey
  else if ¬ (∀ id ∈ row.consumerId, id ∈ db.consumer.map (·.id.string)) then
    .error .foreignKey
  else
    .ok (1, { db with dispatchPause := db.dispatchPause ++ [row] })

/-- `Get` of the pause repository. -/
def getDispatchPause (scope : String) (db : Db) : Except StorageErr DispatchPause :=
  match rowAt (·.scope) db.dispatchPause scope with
  | some row => .ok row.toDispatchPause
  | none => .error .noRows

/-- `Pause`: a scope that is already paused keeps its pause, which is returned. -/
def pause (now : Time) (pause : DispatchPause) (db : Db) : Except StorageErr DispatchPause × Db :=
  let pause := pause.quickFix now
  if !pause.isInValidState then
    (.error .invalidStateToSave, db)
  else
    match transactionalSingleRowWriteExec (insertDispatchPause pause.row) db with
    | (.ok (), db') => (.ok pause, db')
    | (.error e, db') =>
      if e = .duplicateKey then
        match getDispatchPause pause.scope db' with
        | .ok existing => (.ok existing, db')
        | .error _ => (.error e, db')
      else
        (.error e, db')

/-- The operation `Resume` runs in its transaction. -/
def deleteDispatchPause (scope : String) : Tx Nat := fun db =>
  .ok (db.dispatchPause.countP (·.scope == scope),
    { db with dispatchPause := deleteWhere (·.scope == scope) db.dispatchPause })

/-- `Resume`: was the scope paused? -/
def resume (scope : String) (db : Db) : Except StorageErr Bool × Db :=
  match transactionalOperations (deleteDispatchPause scope) db with
  | (.ok rowsAffected, db') => (.ok (decide (rowsAffected > 0)), db')
  | (.error e, db') => (.error e, db')

theorem pause_frame (now : Time) (p : DispatchPause) (db : Db) :
    ∃ rows, (pause now p db).2 = { db with dispatchPause := rows } := by
  unfold pause
  simp only
  split
  · exact ⟨_, rfl⟩
  rcases transactionalSingleRowWriteExec_cases (insertDispatchPause (p.quickFix now).row) db with
    ⟨db', hq, hr⟩ | ⟨e, hr⟩
  · rw [hr]
    unfold insertDispatchPause at hq
    split at hq
    · cases hq
    · split at hq
      · cases hq
      · cases hq
        exact ⟨_, rfl⟩
  · rw [hr]
    refine ⟨db.dispatchPause, ?_⟩
    simp only
    split
    · split <;> rfl
    · rfl

end WebhookBroker
