import WebhookBroker.Storage.LockRepo
import WebhookBroker.Lib.Run

/-!
# Who holds a lock

Callers of one lock id, as `inLockRun` (`dispatcher/msgdispatcher.go`) and the drainer
(`parking/drainer.go`) call the lock repository: a caller whose `TryLock` succeeded may renew the
lock and releases it in the end, unless its node dies. Any caller may time out old locks. The row of
a lock does not say who created it. So a caller whose row was timed out while it was still at work
renews or releases the row of the next one. As long as only the rows of dead callers are timed out,
each stored row is the one of the only holder.
-/

namespace WebhookBroker

open Lib

/-- The calls of the lock repository, and the death of a caller. -/
inductive LockAction where
  | tryLock (caller : Nat) (attainedAt : Time)
  | renewLock (caller : Nat) (now : Time)
  | releaseLock (caller : Nat)
  | timeoutLocks (now : Time) (threshold : Duration)
  | crash (caller : Nat)
deriving DecidableEq

instance : Inhabited LockAction := ⟨.crash 0⟩

/-- The database with the callers of one lock id. -/
structure LockState where
  db : Db
  /-- the caller whose `TryLock` created the row that is stored -/
  owner : Option Nat
  /-- the callers that are between a successful `TryLock` and their `ReleaseLock` -/
  holds : Nat → Bool

def LockState.setHolds (s : LockState) (caller : Nat) (b : Bool) : Nat → Bool :=
  fun c => if c = caller then b else s.holds c

/-- One call. A caller renews and releases only what it locked, and gives up when it cannot
renew. -/
def LockState.step (lockID : String) (s : LockState) : LockAction → Option LockState
  | .tryLock c attainedAt =>
    if s.holds c then none
    else match tryLock ⟨lockID, attainedAt⟩ s.db with
      | (.ok (), db) => some { db, owner := some c, holds := s.setHolds c true }
      | (.error _, db) => some { s with db }
  | .renewLock c now =>
    if !s.holds c then none
    else match renewLock now lockID s.db with
      | (.ok (), db) => some { s with db }
      | (.error _, db) => some { s with db, holds := s.setHolds c false }
  | .releaseLock c =>
    if !s.holds c then none
    else match releaseLock lockID s.db with
      | (.ok (), db) => some { db, owner := none, holds := s.setHolds c false }
      | (.error _, db) => some { s with db, holds := s.setHolds c false }
  | .timeoutLocks now threshold =>
    let db := (timeoutLocks now threshold s.db).2
    some { s with db, owner := if db.lock.isEmpty then none else s.owner }
  | .crash c => some { s with holds := s.setHolds c false }

def LockState.isInitial (s : LockState) : Prop :=
  s.db.lock = [] ∧ s.owner = none ∧ ∀ c, s.holds c = false

abbrev LockRun (lockID : String) := Run LockState.isInitial (LockState.step lockID)

/-- The call times out the row of a caller that still holds the lock. -/
def LockState.timesOutHeld (s : LockState) : LockAction → Bool
  | .timeoutLocks now threshold =>
    s.db.lock.any (fun l => decide (l.attainedAt < now - threshold)) && s.owner.any s.holds
  | _ => false

/-! ## The calls on one row -/

/-- At most one row, with the lock id. -/
def Db.HasLocks (db : Db) (lockID : String) (rows : Option Time) : Prop :=
  db.lock = (rows.map fun attainedAt => ⟨lockID, attainedAt⟩).toList

section
variable {db : Db} {lockID : String} {attainedAt now : Time}

theorem tryLock_free (h : db.HasLocks lockID none) :
    tryLock ⟨lockID, now⟩ db = (.ok (), { db with lock := [⟨lockID, now⟩] }) := by
  have hlock : db.lock = [] := h
  refine transactionalSingleRowWriteExec_of_ok ?_
  simp [insertLock, hlock]

theorem tryLock_taken (h : db.HasLocks lockID (some attainedAt)) :
    ∃ e, tryLock ⟨lockID, now⟩ db = (.error e, db) := by
  have hlock : db.lock = [⟨lockID, attainedAt⟩] := h
  rcases transactionalSingleRowWriteExec_cases (insertLock ⟨lockID, now⟩) db with
    ⟨db', hq, -⟩ | ⟨e, he⟩
  · simp [insertLock, hlock] at hq
  · exact ⟨e, he⟩

theorem releaseLock_taken (h : db.HasLocks lockID (some attainedAt)) :
    releaseLock lockID db = (.ok (), { db with lock := [] }) := by
  have hlock : db.lock = [⟨lockID, attainedAt⟩] := h
  refine transactionalSingleRowWriteExec_of_ok ?_
  simp [deleteLock, hlock, sqlLike_self, deleteWhere]

theorem renewLock_taken (h : db.HasLocks lockID (some attainedAt)) :
    renewLock now lockID db = (.ok (), { db with lock := [⟨lockID, now⟩] }) := by
  have hlock : db.lock = [⟨lockID, attainedAt⟩] := h
  have hupdate : inTransactionExec (updateLock (fun l => sqlLike lockID l.lockID)
      ({ · with attainedAt := now })) 0 db = .ok ((), { db with lock := [⟨lockID, now⟩] }) := by
    refine inTransactionExec_eq_ok.2 ⟨1, ?_, fun h => absurd h (Nat.lt_irrefl 0)⟩
    simp [updateLock, hlock, sqlLike_self, updateWhere]
  have hcheck : (do
      let held := (← get).lock.countP fun l => sqlLike lockID l.lockID
      if held == 0 then throw .noRowsUpdated : Tx Unit) { db with lock := [⟨lockID, now⟩] } =
        .ok ((), { db with lock := [⟨lockID, now⟩] }) := by
    refine Tx.bind_eq_ok.2 ⟨_, _, rfl, ?_⟩
    simp [sqlLike_self]
    rfl
  rw [renewLock, transactionalWrites, transactionalOperations,
    Tx.forM_cons_eq_ok.2 ⟨_, Tx.bind_eq_ok.2 ⟨(), _, hupdate, hcheck⟩, Tx.forM_nil_eq_ok.2 rfl⟩]

theorem timeoutLocks_taken (threshold : Duration) (h : db.HasLocks lockID (some attainedAt)) :
    (timeoutLocks now threshold db).2 =
      if attainedAt < now - threshold then { db with lock := [] } else db := by
  have hlock : db.lock = [⟨lockID, attainedAt⟩] := h
  have hdelete : (timeoutLocks now threshold db).2 =
      { db with lock := deleteWhere (fun l => decide (l.attainedAt < now - threshold)) db.lock } :=
    rfl
  rw [hdelete, hlock]
  split
  case isTrue hold => simp [deleteWhere, hold]
  case isFalse hold =>
    have hkeep : deleteWhere (fun l : Lock => decide (l.attainedAt < now - threshold))
        [⟨lockID, attainedAt⟩] = db.lock := by
      simp [deleteWhere, hlock, Int.not_lt.1 hold]
    rw [hkeep]

theorem timeoutLocks_free (threshold : Duration) (h : db.HasLocks lockID none) :
    (timeoutLocks now threshold db).2 = db := by
  obtain ⟨channel, producer, consumer, message, job, jobParking, nextSeq, dispatchPause, lock⟩ := db
  cases (h : lock = [])
  rfl

end

/-- A row is stored exactly while it has an owner, and only its owner holds the lock. -/
structure LockState.Owned (lockID : String) (s : LockState) : Prop where
  row : ∃ attainedAt : Option Time,
    s.db.HasLocks lockID attainedAt ∧ (attainedAt = none ↔ s.owner = none)
  holder : ∀ c, s.holds c = true → s.owner = some c

section
variable {lockID : String} {s s' : LockState} {a : LockAction}

theorem LockState.Owned.row_of_holds (h : s.Owned lockID) {c : Nat} (hc : s.holds c = true) :
    ∃ attainedAt, s.db.HasLocks lockID (some attainedAt) := by
  obtain ⟨attainedAt, hrow, hiff⟩ := h.row
  cases attainedAt with
  | none =>
    have howner := h.holder c hc
    rw [hiff.1 rfl] at howner
    cases howner
  | some attainedAt => exact ⟨attainedAt, hrow⟩

theorem LockState.holds_of_setHolds_false {c c' : Nat} (h : s.setHolds c false c' = true) :
    c' ≠ c ∧ s.holds c' = true := by
  unfold setHolds at h
  split at h
  · cases h
  · exact ⟨‹_›, h⟩

theorem LockState.holds_of_setHolds_true {c c' : Nat} (h : s.setHolds c true c' = true) :
    c' = c ∨ s.holds c' = true := by
  unfold setHolds at h
  split at h
  · exact .inl ‹_›
  · exact .inr h

theorem LockState.Owned.step (h : s.Owned lockID) (hstep : s.step lockID a = some s')
    (hlive : s.timesOutHeld a = false) : s'.Owned lockID := by
  cases a with
  | tryLock c attainedAt =>
    simp only [LockState.step] at hstep
    split at hstep
    · cases hstep
    · obtain ⟨row, hrow, hiff⟩ := h.row
      cases row with
      | none =>
        rw [tryLock_free hrow] at hstep
        cases hstep
        refine ⟨⟨some attainedAt, rfl, by simp⟩, fun c' hc' => ?_⟩
        rcases holds_of_setHolds_true hc' with rfl | hold
        · rfl
        · have howner := h.holder c' hold
          rw [hiff.1 rfl] at howner
          cases howner
      | some t =>
        obtain ⟨e, he⟩ := @tryLock_taken s.db lockID t attainedAt hrow
        rw [he] at hstep
        cases hstep
        exact h
  | renewLock c now =>
    simp only [LockState.step] at hstep
    split at hstep
    · cases hstep
    · rename_i hc
      obtain ⟨t, hrow⟩ := h.row_of_holds (by simpa using hc)
      rw [renewLock_taken hrow] at hstep
      cases hstep
      refine ⟨⟨some now, rfl, ?_⟩, h.holder⟩
      have howner := h.holder c (by simpa using hc)
      simp [howner]
  | releaseLock c =>
    simp only [LockState.step] at hstep
    split at hstep
    · cases hstep
    · rename_i hc
      have hc' : s.holds c = true := by simpa using hc
      obtain ⟨t, hrow⟩ := h.row_of_holds hc'
      rw [releaseLock_taken hrow] at hstep
      cases hstep
      refine ⟨⟨none, rfl, by simp⟩, fun c' hset => ?_⟩
      obtain ⟨hne, hold⟩ := holds_of_setHolds_false hset
      have heq := h.holder c' hold
      rw [h.holder c hc'] at heq
      exact absurd (Option.some.inj heq).symm hne
  | timeoutLocks now threshold =>
    simp only [LockState.step, Option.some.injEq] at hstep
    obtain ⟨row, hrow, hiff⟩ := h.row
    cases row with
    | none =>
      have hlock : s.db.lock = [] := hrow
      rw [timeoutLocks_free threshold hrow] at hstep
      subst hstep
      refine ⟨⟨none, hrow, by simp [hlock]⟩, fun c hc => ?_⟩
      have howner := h.holder c hc
      rw [hiff.1 rfl] at howner
      cases howner
    | some t =>
      have hlock : s.db.lock = [⟨lockID, t⟩] := hrow
      rw [timeoutLocks_taken threshold hrow] at hstep
      subst hstep
      split
      case isTrue hold =>
        refine ⟨⟨none, rfl, by simp⟩, fun c hc => ?_⟩
        have hdead : s.owner.any s.holds = false := by
          simpa [timesOutHeld, hlock, hold] using hlive
        rw [h.holder c hc, Option.any_some, hc] at hdead
        cases hdead
      case isFalse hold =>
        refine ⟨⟨some t, hrow, ?_⟩, ?_⟩
        · simpa [hlock] using hiff
        · simpa [hlock] using h.holder
  | crash c =>
    simp only [LockState.step, Option.some.injEq] at hstep
    subst hstep
    exact ⟨h.row, fun c' hset => h.holder c' (holds_of_setHolds_false hset).2⟩

theorem LockRun.owned (r : LockRun lockID)
    (hlive : ∀ i < r.len, (r.state i).timesOutHeld (r.act i) = false) {n : Nat} (hn : n ≤ r.len) :
    (r.state n).Owned lockID := by
  induction n with
  | zero =>
    obtain ⟨hlock, howner, hholds⟩ := r.start
    refine ⟨⟨none, hlock, by simp [howner]⟩, fun c hc => ?_⟩
    rw [hholds c] at hc
    cases hc
  | succ n ih => exact (ih (by omega)).step (r.next n (by omega)) (hlive n (by omega))

theorem LockState.holds_of_step {c : Nat} (h : s.step lockID a = some s')
    (ha : a = .releaseLock c ∨ ∃ now, a = .renewLock c now) : s.holds c = true := by
  cases hc : s.holds c with
  | true => rfl
  | false => rcases ha with rfl | ⟨now, rfl⟩ <;> simp [LockState.step, hc] at h

/-- In every run of callers of one lock id in which `TimeoutLocks` removes only rows of dead
creators, only the caller whose `TryLock` created the row renews or releases it, and no two callers
hold the lock. -/
theorem lock_row_of_holder (r : LockRun lockID)
    (hlive : ∀ i < r.len, (r.state i).timesOutHeld (r.act i) = false) :
    (∀ i < r.len, ∀ c now, r.act i = .renewLock c now →
      (renewLock now lockID (r.state i).db).1 = .ok () → (r.state i).owner = some c) ∧
    (∀ i < r.len, ∀ c, r.act i = .releaseLock c →
      (r.state (i + 1)).db.lock ≠ (r.state i).db.lock → (r.state i).owner = some c) ∧
    (∀ i ≤ r.len, ∀ c c', (r.state i).holds c = true → (r.state i).holds c' = true → c = c') := by
  refine ⟨?_, ?_, ?_⟩
  · intro i hi c now ha _
    exact (r.owned hlive hi.le).holder c (LockState.holds_of_step (r.next i hi) (.inr ⟨now, ha⟩))
  · intro i hi c ha _
    exact (r.owned hlive hi.le).holder c (LockState.holds_of_step (r.next i hi) (.inl ha))
  · intro i hi c c' hc hc'
    have howner := (r.owned hlive hi).holder c hc
    rw [(r.owned hlive hi).holder c' hc'] at howner
    exact (Option.some.inj howner).symm

end

/-! ## A lock that changes hands -/

namespace Sample

def lockFree : LockState := ⟨{}, none, fun _ => false⟩

theorem lockFree_isInitial : lockFree.isInitial := ⟨rfl, rfl, fun _ => rfl⟩

end Sample

open Sample

theorem lock_row_of_holder_renew :
    ∃ r : LockRun "l", (∀ i < r.len, (r.state i).timesOutHeld (r.act i) = false) ∧
      r.act 4 = .renewLock 1 12 ∧ (renewLock 12 "l" (r.state 4).db).1 = .ok () ∧
      (r.state 4).owner = some 1 := by
  let r : LockRun "l" := Run.ofActs lockFree
    [.tryLock 0 0, .crash 0, .timeoutLocks 10 5, .tryLock 1 10, .renewLock 1 12]
    lockFree_isInitial (by decide +kernel)
  have hlive : ∀ i < r.len, (r.state i).timesOutHeld (r.act i) = false := by decide +kernel
  have hrenew : (renewLock 12 "l" (r.state 4).db).1 = .ok () := by decide +kernel
  exact ⟨r, hlive, rfl, hrenew,
    (lock_row_of_holder r hlive).1 4 (by decide) 1 12 rfl hrenew⟩

/-- The row of caller 0 is timed out while it is at work. It renews and releases the row of caller
1, so that caller 2 locks while caller 1 still holds the lock. -/
theorem renews_and_releases_lock_of_other :
    ∃ r : LockRun "l",
      r.act 3 = .renewLock 0 11 ∧ (renewLock 11 "l" (r.state 3).db).1 = .ok () ∧
      (r.state 3).owner = some 1 ∧
      r.act 4 = .releaseLock 0 ∧ (r.state 4).owner = some 1 ∧ (r.state 5).db.lock = [] ∧
      (r.state 6).holds 1 = true ∧ (r.state 6).holds 2 = true := by
  let r : LockRun "l" := Run.ofActs lockFree
    [.tryLock 0 0, .timeoutLocks 10 5, .tryLock 1 10, .renewLock 0 11, .releaseLock 0,
     .tryLock 2 12] lockFree_isInitial (by decide +kernel)
  refine ⟨r, ?_⟩
  decide +kernel

end WebhookBroker
