import WebhookBroker.Storage.Db

/-!
# Locks (`storage/lockrepo.go`)

A lock is a row of `lock`, whose primary key is the lock id. The functions are modelled on locks
that are not `nil`.
-/

namespace WebhookBroker

open Lib

/-- `INSERT INTO lock …`, with the primary key `lockId`. -/
def insertLock (lock : Lock) : Tx Nat := fun db =>
  if lock.lockID ∈ db.lock.map (·.lockID) then .error .duplicateKey
  else .ok (1, { db with lock := db.lock ++ [lock] })

/-- `DELETE FROM lock WHERE …`. -/
def deleteLock (p : Lock → Bool) : Tx Nat := fun db =>
  .ok (db.lock.countP p, { db with lock := deleteWhere p db.lock })

/-- `TryLock`; `duplicateKey` stands for `ErrAlreadyLocked`. -/
def tryLock (lock : Lock) (db : Db) : Except StorageErr Unit × Db :=
  transactionalSingleRowWriteExec (insertLock lock) db

def releaseLock (lockID : String) (db : Db) : Except StorageErr Unit × Db :=
  transactionalSingleRowWriteExec (deleteLock fun l => sqlLike lockID l.lockID) db

def timeoutLocks (now : Time) (threshold : Duration) (db : Db) : Except StorageErr Unit × Db :=
  transactionalWrites
    [inTransactionExec (deleteLock fun l => decide (l.attainedAt < now - threshold)) 0] db

/-- `UPDATE lock SET … WHERE …`. -/
def updateLock (p : Lock → Bool) (f : Lock → Lock) : Tx Nat := fun db =>
  .ok (db.lock.countP p, { db with lock := updateWhere p f db.lock })

/-- `RenewLock`, which counts the rows with the lock id after its update. -/
def renewLock (renewedAt : Time) (lockID : String) (db : Db) : Except StorageErr Unit × Db :=
  transactionalWrites [do
    inTransactionExec
      (updateLock (fun l => sqlLike lockID l.lockID) ({ · with attainedAt := renewedAt })) 0
    let held := (← get).lock.countP fun l => sqlLike lockID l.lockID
    if held == 0 then
      throw .noRowsUpdated] db

theorem tryLock_cases (lock : Lock) (db : Db) :
    (lock.lockID ∉ db.lock.map (·.lockID) ∧
      tryLock lock db = (.ok (), { db with lock := db.lock ++ [lock] })) ∨
    ∃ e, lock.lockID ∈ db.lock.map (·.lockID) ∧ tryLock lock db = (.error e, db) := by
  unfold tryLock
  by_cases hheld : lock.lockID ∈ db.lock.map (·.lockID)
  · rcases transactionalSingleRowWriteExec_cases (insertLock lock) db with ⟨db', hq, -⟩ | ⟨e, hr⟩
    · rw [insertLock, if_pos hheld] at hq
      cases hq
    · exact .inr ⟨e, hheld, hr⟩
  · refine .inl ⟨hheld, transactionalSingleRowWriteExec_of_ok ?_⟩
    rw [insertLock, if_neg hheld]

theorem releaseLock_subset (lockID : String) (db : Db) :
    ∃ locks, locks ⊆ db.lock ∧ (releaseLock lockID db).2 = { db with lock := locks } := by
  unfold releaseLock
  rcases transactionalSingleRowWriteExec_cases (deleteLock fun l => sqlLike lockID l.lockID) db with
    ⟨db', hq, hr⟩ | ⟨e, hr⟩
  · rw [hr]
    simp only [deleteLock, Except.ok.injEq, Prod.mk.injEq] at hq
    exact ⟨_, List.filter_subset_self _, hq.2.symm⟩
  · rw [hr]
    exact ⟨db.lock, List.Subset.refl _, rfl⟩

theorem tryLock_frame (lock : Lock) (db : Db) :
    ∃ locks, (tryLock lock db).2 = { db with lock := locks } := by
  rcases tryLock_cases lock db with ⟨-, hr⟩ | ⟨e, -, hr⟩
  · exact ⟨_, congrArg Prod.snd hr⟩
  · exact ⟨db.lock, congrArg Prod.snd hr⟩

theorem releaseLock_frame (lockID : String) (db : Db) :
    ∃ locks, (releaseLock lockID db).2 = { db with lock := locks } := by
  obtain ⟨locks, -, hr⟩ := releaseLock_subset lockID db
  exact ⟨locks, hr⟩

theorem timeoutLocks_frame (now : Time) (threshold : Duration) (db : Db) :
    ∃ locks, (timeoutLocks now threshold db).2 = { db with lock := locks } :=
  ⟨_, rfl⟩

end WebhookBroker
