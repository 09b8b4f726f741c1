import WebhookBroker.Broker.System
import WebhookBroker.Dispatcher.CreateJobs

/-!
# Concurrent calls of `Dispatch` (`dispatcher/msgdispatcher.go`)

The broadcast handler, the scheduler and `recoverMessagesNotYetDispatched` may all call `Dispatch`
for one message, on any nodes. `DispatchSys.step` interleaves the calls statement by statement: the
listing of the consumers, each statement of the transaction of `DispatchMessageWithParking`, the
commit, and each round of the loop that queues the jobs. The listing and the answers of the pause
registry are the caller's own, and every step may fail. Pauses come and go in between.

A statement of a transaction works on the committed database and on the statements of its own
transaction before it. `SetDispatched` locks the row of the message until its transaction ends, and
waits for another transaction that has locked it. An insert that would wait for a row that is not
committed yet goes on here and is checked again with the statements after it. Under these locks a
commit cannot fail by itself (`Undispatched.commits`).
-/

namespace WebhookBroker

open Lib List

/-- `splitPausedJobs`, with the answers of the pause registry. -/
def splitPausedJobs (isEffectivelyPaused : Xid → Bool) (jobs : List DeliveryJob) :
    List DeliveryJob × List DeliveryJob :=
  (jobs.filter fun job => !isEffectivelyPaused job.listenerID,
    jobs.filter fun job => isEffectivelyPaused job.listenerID)

/-- A transaction of `DispatchMessageWithParking` that is under way. -/
structure DispatchTx where
  now : Time
  message : Message
  deliveryJobs : List DeliveryJob
  parkedJobs : List DeliveryJob
  /-- the number of statements that were executed -/
  executed : Nat
deriving DecidableEq

def DispatchTx.ops (tx : DispatchTx) : List (Tx Unit) :=
  dispatchTxs tx.now tx.message tx.deliveryJobs tx.parkedJobs

/-- All statements were executed, the last of which is `SetDispatched`. -/
def DispatchTx.isComplete (tx : DispatchTx) : Bool := decide (tx.ops.length ≤ tx.executed)

/-- Where a call of `Dispatch` is. -/
inductive DispatchCall where
  /-- before `createJobs` -/
  | creating (message : Message)
  /-- in the transaction -/
  | writing (tx : DispatchTx)
  /-- in the loop over the jobs to queue -/
  | queueing (jobs : List DeliveryJob)
  | returned
deriving DecidableEq

def DispatchCall.locksMessage : DispatchCall → Bool
  | .writing tx => tx.isComplete
  | _ => false

/-- The committed database, the calls in the order in which they were made, and the jobs that the
calls put in the queues of their nodes. -/
structure DispatchSys where
  db : Db
  calls : List DispatchCall
  queued : List (Nat × DeliveryJob)

/-- What happens in a step; the number is that of the call. -/
inductive DispatchAction where
  | call (message : Message)
  /-- `createJobs` with the consumers it listed, `splitPausedJobs`, and the start of the
  transaction -/
  | create (t : Nat) (consumers : List Consumer) (err : Option StorageErr) (now : Nat → Time)
      (newID : Nat → Xid) (isEffectivelyPaused : Xid → Bool) (fault : Bool)
  /-- the next statement of the transaction, or its commit -/
  | exec (t : Nat) (fault : Bool)
  /-- `queueJob` for the next job -/
  | queue (t : Nat) (now : Time) (isEffectivelyPaused fault : Bool)
  | pause (now : Time) (pause : DispatchPause)
  | resume (scope : String)

instance : Inhabited DispatchAction := ⟨.resume ""⟩

def DispatchSys.caller (s : DispatchSys) : DispatchAction → Option Nat
  | .call _ => some s.calls.length
  | .create t .. | .exec t _ | .queue t .. => some t
  | .pause .. | .resume _ => none

def DispatchSys.setCall (s : DispatchSys) (t : Nat) (c : DispatchCall) : DispatchSys :=
  { s with calls := s.calls.set t c }

/-- Another call has locked the row of the message. -/
def DispatchSys.waits (s : DispatchSys) (t : Nat) : Prop :=
  ∃ u < s.calls.length, u ≠ t ∧ (s.calls[u]?.any (·.locksMessage)) = true

instance (s : DispatchSys) (t : Nat) : Decidable (s.waits t) :=
  inferInstanceAs (Decidable (∃ u < s.calls.length, _))

section
variable [NetUrl] (messageID : Xid)

/-- The part of `Dispatch` from `createJobs` to the start of the transaction; `none` stands for an
error on the way. -/
def startDispatch (message : Message) (consumers : List Consumer) (err : Option StorageErr)
    (now : Nat → Time) (newID : Nat → Xid) (isEffectivelyPaused : Xid → Bool) :
    Option DispatchTx :=
  let (jobs, err) := buildJobs now newID message 0 err consumers
  let (deliveryJobs, parkedJobs) := splitPausedJobs isEffectivelyPaused jobs.reduceOption
  if err.isNone && (message.isInValidState && deliveryJobs.all (·.isValidFor message) &&
      parkedJobs.all (·.isValidFor message)) then
    some { now := now consumers.length, message, deliveryJobs, parkedJobs, executed := 0 }
  else none

def DispatchSys.step (s : DispatchSys) : DispatchAction → Option DispatchSys
  | .call message =>
    if message.id = messageID then
      some { s with calls := s.calls ++
        [if message.isInValidState then .creating message else .returned] }
    else none
  | .create t consumers err now newID isEffectivelyPaused fault =>
    match s.calls[t]? with
    | some (.creating message) =>
      match startDispatch message consumers err now newID isEffectivelyPaused with
      | some tx =>
        if fault then some (s.setCall t .returned)
        -- the ids of new jobs are new
        else if s.db.freshJobs (tx.deliveryJobs ++ tx.parkedJobs) then
          some (s.setCall t (.writing tx))
        else none
      | none => some (s.setCall t .returned)
    | _ => none
  | .exec t fault =>
    match s.calls[t]? with
    | some (.writing tx) =>
      if fault then some (s.setCall t .returned)
      else if tx.isComplete then
        match (tx.ops.forM id) s.db with
        | .ok (_, db) => some { s.setCall t (.queueing tx.deliveryJobs) with db }
        | .error _ => some (s.setCall t .returned)
      else if tx.executed + 1 = tx.ops.length ∧ s.waits t then none
      else
        match ((tx.ops.take (tx.executed + 1)).forM id) s.db with
        | .ok _ => some (s.setCall t (.writing { tx with executed := tx.executed + 1 }))
        | .error _ => some (s.setCall t .returned)
    | _ => none
  | .queue t now isEffectivelyPaused fault =>
    match s.calls[t]? with
    | some (.queueing []) => some (s.setCall t .returned)
    | some (.queueing (job :: jobs)) =>
      if !job.isPush then some (s.setCall t (.queueing jobs))
      else if isEffectivelyPaused && !fault &&
          (DbOp.reparkQueuedJob now job).succeeds s.db then
        some { s.setCall t (.queueing jobs) with db := (DbOp.reparkQueuedJob now job).exec s.db }
      else some { s.setCall t (.queueing jobs) with queued := s.queued ++ [(t, job)] }
    | _ => none
  | .pause now p => some { s with db := (DbOp.pause now p).exec s.db }
  | .resume scope => some { s with db := (DbOp.resume scope).exec s.db }

def DispatchSys.isInitial (s : DispatchSys) : Prop :=
  s.db.Integrity ∧ s.db.message.countP (isAcknowledged messageID) = 1 ∧ s.calls = [] ∧ s.queued = []

abbrev DispatchRun := Run (DispatchSys.isInitial messageID) (DispatchSys.step messageID)

end

/-- The call that the step commits, and its transaction. -/
def DispatchSys.commits (s : DispatchSys) : DispatchAction → Option (Nat × DispatchTx)
  | .exec t false =>
    match s.calls[t]? with
    | some (.writing tx) => if tx.isComplete then some (t, tx) else none
    | _ => none
  | _ => none

section
variable [NetUrl] {messageID : Xid} {s s' : DispatchSys} {a : DispatchAction}

inductive DispatchGoes (messageID : Xid) (s : DispatchSys) : DispatchAction → DispatchSys → Prop
  | called {message c} (hid : message.id = messageID)
      (hc : c = .creating message ∨ c = .returned) :
      DispatchGoes messageID s (.call message) { s with calls := s.calls ++ [c] }
  | failed {a t} (hcaller : s.caller a = some t) (hcommits : s.commits a = none) :
      DispatchGoes messageID s a (s.setCall t .returned)
  | started {t consumers err now newID isEffectivelyPaused fault tx}
      (hc : s.calls[t]? = some (.creating tx.message)) (h0 : tx.executed = 0)
      (hvalid : ∀ job ∈ tx.deliveryJobs ++ tx.parkedJobs, job.isValidFor tx.message = true)
      (hfresh : s.db.freshJobs (tx.deliveryJobs ++ tx.parkedJobs)) :
      DispatchGoes messageID s (.create t consumers err now newID isEffectivelyPaused fault)
        (s.setCall t (.writing tx))
  | executed {t tx} (hc : s.calls[t]? = some (.writing tx)) (hlt : tx.executed < tx.ops.length)
      (hwaits : tx.executed + 1 = tx.ops.length → ¬ s.waits t)
      (hok : ∃ r, ((tx.ops.take (tx.executed + 1)).forM id) s.db = .ok r) :
      DispatchGoes messageID s (.exec t false)
        (s.setCall t (.writing { tx with executed := tx.executed + 1 }))
  | committed {t tx} (hc : s.calls[t]? = some (.writing tx)) (hcomplete : tx.isComplete = true)
      (haccepts : s.db.acceptsDispatch tx.now tx.message tx.deliveryJobs tx.parkedJobs) :
      DispatchGoes messageID s (.exec t false) { s.setCall t (.queueing tx.deliveryJobs) with
        db := s.db.dispatched tx.now tx.message tx.deliveryJobs tx.parkedJobs }
  | refused {t tx} (hc : s.calls[t]? = some (.writing tx)) (hcomplete : tx.isComplete = true)
      (hrefused : ¬ s.db.acceptsDispatch tx.now tx.message tx.deliveryJobs tx.parkedJobs) :
      DispatchGoes messageID s (.exec t false) (s.setCall t .returned)
  | skipped {t now isEffectivelyPaused fault job jobs}
      (hc : s.calls[t]? = some (.queueing (job :: jobs))) :
      DispatchGoes messageID s (.queue t now isEffectivelyPaused fault)
        (s.setCall t (.queueing jobs))
  | reparked {t now isEffectivelyPaused fault job jobs db}
      (hc : s.calls[t]? = some (.queueing (job :: jobs))) (hmessage : db.message = s.db.message) :
      DispatchGoes messageID s (.queue t now isEffectivelyPaused fault)
        { s.setCall t (.queueing jobs) with db }
  | queued {t now isEffectivelyPaused fault job jobs}
      (hc : s.calls[t]? = some (.queueing (job :: jobs))) :
      DispatchGoes messageID s (.queue t now isEffectivelyPaused fault)
        { s.setCall t (.queueing jobs) with queued := s.queued ++ [(t, job)] }
  | paused {a rows} (hcaller : s.caller a = none) (hcommits : s.commits a = none) :
      DispatchGoes messageID s a { s with db := { s.db with dispatchPause := rows } }

theorem startDispatch_eq_some {message : Message} {consumers : List Consumer}
    {err : Option StorageErr} {now : Nat → Time} {newID : Nat → Xid}
    {isEffectivelyPaused : Xid → Bool} {tx : DispatchTx}
    (h : startDispatch message consumers err now newID isEffectivelyPaused = some tx) :
    tx.message = message ∧ tx.executed = 0 ∧
      ∀ job ∈ tx.deliveryJobs ++ tx.parkedJobs, job.isValidFor message = true := by
  unfold startDispatch at h
  simp only [Option.ite_none_right_eq_some, Bool.and_eq_true, all_eq_true] at h
  obtain ⟨⟨-, ⟨-, hdelivery⟩, hparked⟩, htx⟩ := h
  cases htx
  refine ⟨rfl, rfl, ?_⟩
  intro job hjob
  rcases mem_append.1 hjob with hjob | hjob
  · exact hdelivery job hjob
  · exact hparked job hjob

theorem DispatchSys.step_goes (h : DispatchSys.step messageID s a = some s') :
    DispatchGoes messageID s a s' := by
  cases a with
  | call message =>
    rw [DispatchSys.step, Option.ite_none_right_eq_some] at h
    obtain ⟨hid, h⟩ := h
    cases h
    refine .called hid ?_
    split
    · exact .inl rfl
    · exact .inr rfl
  | create t consumers err now newID isEffectivelyPaused fault =>
    rw [DispatchSys.step] at h
    split at h
    · rename_i message hc
      split at h
      · rename_i tx htx
        obtain ⟨rfl, h0, hvalid⟩ := startDispatch_eq_some htx
        split at h
        · cases h
          exact .failed rfl rfl
        · rw [Option.ite_none_right_eq_some] at h
          obtain ⟨hfresh, h⟩ := h
          cases h
          exact .started hc h0 hvalid hfresh
      · cases h
        exact .failed rfl rfl
    · cases h
  | exec t fault =>
    rw [DispatchSys.step] at h
    split at h
    · rename_i tx hc
      split at h
      · rename_i hfault
        cases h
        exact .failed rfl (by rw [hfault, DispatchSys.commits]; exact nofun)
      · rename_i hfault
        obtain rfl := Bool.eq_false_of_not_eq_true hfault
        split at h
        · rename_i hcomplete
          split at h
          · rename_i db hok
            obtain ⟨haccepts, rfl⟩ := dispatchTxs_eq_ok.1 hok
            cases h
            exact .committed hc hcomplete haccepts
          · rename_i e herr
            cases h
            refine .refused hc hcomplete fun haccepts => ?_
            have hok := (dispatchTxs_eq_ok (r := ((), _))).2 ⟨haccepts, rfl⟩
            cases herr.symm.trans hok
        · rename_i hcomplete
          have hcommits : s.commits (.exec t false) = none := by
            simp [DispatchSys.commits, hc, hcomplete]
          rw [Option.ite_none_left_eq_some] at h
          obtain ⟨hwaits, h⟩ := h
          split at h
          · rename_i r hok
            cases h
            refine .executed hc ?_ (fun hlast hw => hwaits ⟨hlast, hw⟩) ⟨_, hok⟩
            simpa [DispatchTx.isComplete] using hcomplete
          · cases h
            exact .failed rfl hcommits
    · cases h
  | queue t now isEffectivelyPaused fault =>
    rw [DispatchSys.step] at h
    split at h
    · cases h
      exact .failed rfl rfl
    · rename_i job jobs hc
      split at h
      · cases h
        exact .skipped hc
      · split at h
        · cases h
          refine .reparked hc ?_
          rcases reparkQueuedJob_cases now job s.db with ⟨row, -, -, hr⟩ | ⟨r, hr, -⟩
          · rw [DbOp.exec, hr]
          · rw [DbOp.exec, hr]
        · cases h
          exact .queued hc
    · cases h
  | pause now p =>
    cases h
    obtain ⟨rows, hrows⟩ := pause_frame now p s.db
    rw [DbOp.exec, hrows]
    exact .paused rfl rfl
  | resume scope =>
    cases h
    exact .paused rfl rfl

theorem DispatchGoes.frame (h : DispatchGoes messageID s a s') {t : Nat}
    (ht : s.caller a = some t) (hcommits : s.commits a = none)
    (hqueueing : ∀ jobs, s.calls[t]? ≠ some (.queueing jobs)) :
    s'.db = s.db ∧ s'.queued = s.queued := by
  cases h with
  | called | failed | started | executed | refused | skipped => exact ⟨rfl, rfl⟩
  | committed hc hcomplete =>
    simp [DispatchSys.commits, hc, hcomplete] at hcommits
  | reparked hc | queued hc =>
    cases ht
    exact absurd hc (hqueueing _)
  | paused hcaller =>
    rw [hcaller] at ht
    cases ht

/-! ## Before and after the commit -/

/-- A call while the message is not dispatched. One that has locked the message's row can commit. -/
def DispatchCall.Pending (messageID : Xid) (db : Db) : DispatchCall → Prop
  | .creating message => message.id = messageID
  | .writing tx =>
    tx.message.id = messageID ∧
    (∀ job ∈ tx.deliveryJobs ++ tx.parkedJobs, job.isValidFor tx.message = true) ∧
    db.freshJobs (tx.deliveryJobs ++ tx.parkedJobs) ∧
    (tx.isComplete = true →
      db.acceptsDispatch tx.now tx.message tx.deliveryJobs tx.parkedJobs)
  | .queueing _ => False
  | .returned => True

/-- No call has committed. -/
structure DispatchSys.Undispatched (messageID : Xid) (s : DispatchSys) : Prop where
  integrity : s.db.Integrity
  acknowledged : s.db.message.countP (isAcknowledged messageID) = 1
  calls : ∀ (t : Nat) (c : DispatchCall), s.calls[t]? = some c → c.Pending messageID s.db
  /-- one call at most has locked the row of the message -/
  locked : ∀ (t u : Nat) (c d : DispatchCall), s.calls[t]? = some c → s.calls[u]? = some d →
    c.locksMessage = true → d.locksMessage = true → t = u
  queued : s.queued = []

/-- Call `u` once call `t` has committed `tx`: it cannot commit any more, and it queues nothing if
it is another one. -/
def DispatchCall.Late (messageID : Xid) (t : Nat) (tx : DispatchTx) (u : Nat) : DispatchCall → Prop
  | .creating message => message.id = messageID
  | .writing tx' => tx'.message.id = messageID ∧ tx'.isComplete = false
  | .queueing jobs => u = t ∧ jobs ⊆ tx.deliveryJobs
  | .returned => True

/-- Call `t` has committed `tx`. -/
structure DispatchSys.Dispatched (messageID : Xid) (t : Nat) (tx : DispatchTx) (s : DispatchSys) :
    Prop where
  acknowledged : s.db.message.countP (isAcknowledged messageID) = 0
  calls : ∀ (u : Nat) (c : DispatchCall), s.calls[u]? = some c → c.Late messageID t tx u
  queued : ∀ p ∈ s.queued, p.1 = t ∧ p.2 ∈ tx.deliveryJobs

theorem DispatchSys.isInitial.undispatched (h : s.isInitial messageID) :
    s.Undispatched messageID := by
  obtain ⟨hi, hack, hcalls, hqueued⟩ := h
  refine ⟨hi, hack, ?_, ?_, hqueued⟩
  · intro t c hc
    simp [hcalls] at hc
  · intro t u c d hc
    simp [hcalls] at hc

/-- A call that moves on with what it may, and without a lock unless no other call has it, keeps the
state undispatched. -/
theorem DispatchSys.Undispatched.setCall (h : s.Undispatched messageID) {t : Nat} {c : DispatchCall}
    (hc : c.Pending messageID s.db) (hlock : c.locksMessage = true → ¬ s.waits t) :
    (s.setCall t c).Undispatched messageID := by
  have hfree : c.locksMessage = true → ∀ u d, u ≠ t → s.calls[u]? = some d →
      d.locksMessage = false := by
    intro hlocks u d hne hd
    refine Bool.eq_false_of_not_eq_true fun hlocked => hlock hlocks ⟨u, ?_, hne, ?_⟩
    · exact (List.getElem?_eq_some_iff.1 hd).1
    · rw [hd, Option.any_some, hlocked]
  refine ⟨h.integrity, h.acknowledged, ?_, ?_, h.queued⟩
  · intro u d hd
    rcases getElem?_set_cases hd with ⟨-, rfl⟩ | ⟨-, hd⟩
    · exact hc
    · exact h.calls u d hd
  · intro u v d e hd he hdlock helock
    rcases getElem?_set_cases hd with ⟨rfl, rfl⟩ | ⟨hu, hd'⟩
    · rcases getElem?_set_cases he with ⟨rfl, -⟩ | ⟨hv, he'⟩
      · rfl
      · rw [hfree hdlock v e hv he'] at helock
        cases helock
    · rcases getElem?_set_cases he with ⟨rfl, rfl⟩ | ⟨-, he'⟩
      · rw [hfree helock u d hu hd'] at hdlock
        cases hdlock
      · exact h.locked u v d e hd' he' hdlock helock

theorem DispatchSys.Undispatched.call (h : s.Undispatched messageID) {c : DispatchCall}
    (hc : c.Pending messageID s.db) (hlock : c.locksMessage = false) :
    ({ s with calls := s.calls ++ [c] } : DispatchSys).Undispatched messageID := by
  have hcases : ∀ {u : Nat} {d}, (s.calls ++ [c])[u]? = some d → d = c ∨ s.calls[u]? = some d :=
    fun hd => (getElem?_concat_cases hd).imp_left (·.2)
  refine ⟨h.integrity, h.acknowledged, ?_, ?_, h.queued⟩
  · intro u d hd
    rcases hcases hd with rfl | hd
    · exact hc
    · exact h.calls u d hd
  · intro u v d e hd he hdlock helock
    rcases hcases hd with rfl | hd
    · rw [hlock] at hdlock
      cases hdlock
    · rcases hcases he with rfl | he
      · rw [hlock] at helock
        cases helock
      · exact h.locked u v d e hd he hdlock helock

omit [NetUrl] in
theorem DispatchTx.ops_length_pos (tx : DispatchTx) : 0 < tx.ops.length := by
  rw [DispatchTx.ops, dispatchTxs, length_append]
  exact Nat.succ_pos _

theorem DispatchSys.Undispatched.step (h : s.Undispatched messageID)
    (hg : DispatchGoes messageID s a s') (hcommits : s.commits a = none) :
    s'.Undispatched messageID := by
  cases hg with
  | called hid hc =>
    rcases hc with rfl | rfl
    · exact h.call hid rfl
    · exact h.call trivial rfl
  | failed => exact h.setCall trivial nofun
  | @started t _ _ _ _ _ _ tx hc h0 hvalid hfresh =>
    have hincomplete : tx.isComplete = false := by
      have hpos := tx.ops_length_pos
      rw [DispatchTx.isComplete, decide_eq_false_iff_not]
      omega
    refine h.setCall ⟨h.calls t _ hc, hvalid, hfresh, fun hcomplete => ?_⟩ fun hlocks => ?_
    · rw [hincomplete] at hcomplete
      cases hcomplete
    · rw [DispatchCall.locksMessage, hincomplete] at hlocks
      cases hlocks
  | @executed t tx hc hlt hwaits hok =>
    obtain ⟨hid, hvalid, hfresh, -⟩ := h.calls t _ hc
    have hlast : ({ tx with executed := tx.executed + 1 } : DispatchTx).isComplete = true →
        tx.executed + 1 = tx.ops.length :=
      fun hcomplete => Nat.le_antisymm hlt (of_decide_eq_true hcomplete)
    refine h.setCall ⟨hid, hvalid, hfresh, fun hcomplete => ?_⟩ fun hlocks => hwaits (hlast hlocks)
    obtain ⟨r, hok⟩ := hok
    rw [hlast hcomplete, take_length] at hok
    exact (dispatchTxs_eq_ok.1 hok).1
  | committed hc hcomplete | refused hc hcomplete =>
    simp [DispatchSys.commits, hc, hcomplete] at hcommits
  | skipped hc | reparked hc | queued hc => exact (h.calls _ _ hc).elim
  | @paused _ rows =>
    have hpending : ∀ {c : DispatchCall}, c.Pending messageID s.db →
        c.Pending messageID { s.db with dispatchPause := rows } := by
      intro c hc
      cases c with
      | creating | writing | queueing | returned => exact hc
    refine ⟨?_, h.acknowledged, fun t c hc => hpending (h.calls t c hc), h.locked, h.queued⟩
    exact h.integrity.transport (List.Subperm.refl _) (fun m hm _ => hm) h.integrity.messages
      h.integrity.seqs h.integrity.seqs_lt

omit [NetUrl] in
theorem DispatchSys.commits_eq_some {t : Nat} {tx : DispatchTx} (h : s.commits a = some (t, tx)) :
    a = .exec t false ∧ s.calls[t]? = some (.writing tx) ∧ tx.isComplete = true := by
  unfold DispatchSys.commits at h
  split at h
  · split at h
    · rename_i hc
      rw [Option.ite_none_right_eq_some] at h
      obtain ⟨hcomplete, h⟩ := h
      cases h
      exact ⟨rfl, hc, hcomplete⟩
    · cases h
  · cases h

omit [NetUrl] in
theorem countP_isAcknowledged_dispatched {now : Time} {message : Message} {deliveryJobs parkedJobs}
    {db : Db} : (db.dispatched now message deliveryJobs parkedJobs).message.countP
      (isAcknowledged message.id) = 0 := by
  rw [countP_eq_zero]
  intro row hrow
  obtain ⟨row, -, rfl⟩ := mem_updateWhere.1 hrow
  split
  · simp [isAcknowledged, MessageRow.setDispatched]
  · assumption

/-- A commit cannot fail by itself: it stores the jobs and marks the message, and no other call has
locked the message. -/
theorem DispatchSys.Undispatched.commits (h : s.Undispatched messageID)
    (hg : DispatchGoes messageID s a s') {t : Nat} {tx : DispatchTx}
    (hcommits : s.commits a = some (t, tx)) :
    s'.db = s.db.dispatched tx.now tx.message tx.deliveryJobs tx.parkedJobs ∧ s'.db.Integrity ∧
      s'.Dispatched messageID t tx := by
  obtain ⟨rfl, hc, hcomplete⟩ := DispatchSys.commits_eq_some hcommits
  obtain ⟨rfl, hvalid, hfresh, haccepts⟩ := h.calls t _ hc
  have haccepts := haccepts hcomplete
  cases hg with
  | failed _ hnone =>
    rw [hnone] at hcommits
    cases hcommits
  | executed hc' hlt =>
    cases hc.symm.trans hc'
    exact absurd (of_decide_eq_true hcomplete) (Nat.not_le_of_lt hlt)
  | refused hc' _ hrefused =>
    cases hc.symm.trans hc'
    exact absurd haccepts hrefused
  | paused hcaller => cases hcaller
  | committed hc' =>
    cases hc.symm.trans hc'
    refine ⟨rfl, h.integrity.dispatch hfresh hvalid haccepts.2.2.2,
      countP_isAcknowledged_dispatched, ?_, ?_⟩
    · intro u c hu
      rcases getElem?_set_cases hu with ⟨rfl, rfl⟩ | ⟨hne, hu⟩
      · exact ⟨rfl, List.Subset.refl _⟩
      · have hpending := h.calls u c hu
        cases c with
        | creating | returned => exact hpending
        | queueing => exact hpending.elim
        | writing tx' =>
          refine ⟨hpending.1, Bool.eq_false_of_not_eq_true fun hlocks => hne ?_⟩
          exact h.locked u t _ _ hu hc hlocks hcomplete
    · intro p hp
      have hp : p ∈ s.queued := hp
      rw [h.queued] at hp
      cases hp

omit [NetUrl] in
theorem DispatchSys.Dispatched.setCall {t : Nat} {tx : DispatchTx} (h : s.Dispatched messageID t tx)
    {u : Nat} {c : DispatchCall} (hc : c.Late messageID t tx u) :
    (s.setCall u c).Dispatched messageID t tx := by
  refine ⟨h.acknowledged, ?_, h.queued⟩
  intro v d hd
  rcases getElem?_set_cases hd with ⟨rfl, rfl⟩ | ⟨-, hd⟩
  · exact hc
  · exact h.calls v d hd

/-- After the commit of a call, no other call commits and only this one queues jobs. -/
theorem DispatchSys.Dispatched.step {t : Nat} {tx : DispatchTx} (h : s.Dispatched messageID t tx)
    (hg : DispatchGoes messageID s a s') :
    s.commits a = none ∧ s'.Dispatched messageID t tx := by
  have hlate : ∀ {u : Nat} {tx' : DispatchTx}, s.calls[u]? = some (.writing tx') →
      tx'.isComplete ≠ true := by
    intro u tx' hc hcomplete
    rw [(h.calls u _ hc).2] at hcomplete
    cases hcomplete
  have hnone : s.commits a = none := by
    cases hcommits : s.commits a with
    | none => rfl
    | some p =>
      obtain ⟨-, hc, hcomplete⟩ := DispatchSys.commits_eq_some hcommits
      exact absurd hcomplete (hlate hc)
  refine ⟨hnone, ?_⟩
  cases hg with
  | @called message c hid hc =>
    refine ⟨h.acknowledged, ?_, h.queued⟩
    intro u d hd
    rcases Nat.lt_or_ge u s.calls.length with hlt | hge
    · rw [List.getElem?_append_left hlt] at hd
      exact h.calls u d hd
    · rw [List.getElem?_append_right hge] at hd
      obtain rfl := mem_singleton.1 (mem_of_getElem? hd)
      rcases hc with rfl | rfl
      · exact hid
      · trivial
  | failed => exact h.setCall trivial
  | @started u _ _ _ _ _ _ tx' hc h0 =>
    refine h.setCall ⟨h.calls u _ hc, ?_⟩
    have hpos := tx'.ops_length_pos
    rw [DispatchTx.isComplete, decide_eq_false_iff_not]
    omega
  | @executed u tx' hc hlt _ hok =>
    refine h.setCall ⟨(h.calls u _ hc).1, Bool.eq_false_of_not_eq_true fun hcomplete => ?_⟩
    have hlast : tx'.executed + 1 = tx'.ops.length :=
      Nat.le_antisymm hlt (of_decide_eq_true hcomplete)
    obtain ⟨r, hok⟩ := hok
    rw [hlast, take_length] at hok
    have hack := (dispatchTxs_eq_ok.1 hok).1.2.2.2
    rw [(h.calls u _ hc).1, h.acknowledged] at hack
    cases hack
  | committed hc hcomplete | refused hc hcomplete => exact absurd hcomplete (hlate hc)
  | skipped hc =>
    obtain ⟨rfl, hsub⟩ := h.calls _ _ hc
    exact h.setCall ⟨rfl, fun job hjob => hsub (mem_cons_of_mem _ hjob)⟩
  | @reparked u _ _ _ job jobs db hc hmessage =>
    obtain ⟨rfl, hsub⟩ := h.calls u _ hc
    have hset := h.setCall (u := u) (c := .queueing jobs)
      ⟨rfl, fun job hjob => hsub (mem_cons_of_mem _ hjob)⟩
    exact ⟨hmessage ▸ h.acknowledged, hset.calls, h.queued⟩
  | @queued u _ _ _ job jobs hc =>
    obtain ⟨rfl, hsub⟩ := h.calls u _ hc
    have hset := h.setCall (u := u) (c := .queueing jobs)
      ⟨rfl, fun job hjob => hsub (mem_cons_of_mem _ hjob)⟩
    refine ⟨h.acknowledged, hset.calls, ?_⟩
    intro p hp
    rcases mem_append.1 hp with hp | hp
    · exact h.queued p hp
    · obtain rfl := mem_singleton.1 hp
      exact ⟨rfl, hsub mem_cons_self⟩
  | paused => exact ⟨h.acknowledged, h.calls, h.queued⟩

theorem DispatchRun.once (r : DispatchRun messageID) {n : Nat} (hn : n ≤ r.len) :
    ((∀ i < n, (r.state i).commits (r.act i) = none) ∧ (r.state n).Undispatched messageID) ∨
    ∃ i < n, ∃ t tx, (r.state i).commits (r.act i) = some (t, tx) ∧
      (r.state i).Undispatched messageID ∧
      (∀ k < n, k ≠ i → (r.state k).commits (r.act k) = none) ∧
      (r.state n).Dispatched messageID t tx := by
  induction n with
  | zero => exact .inl ⟨nofun, r.start.undispatched⟩
  | succ n ih =>
    have hg := DispatchSys.step_goes (r.next n hn)
    rcases ih (Nat.le_of_succ_le hn) with ⟨hnone, hu⟩ | ⟨i, hi, t, tx, hcommits, hu, hnone, hd⟩
    · cases hcommits : (r.state n).commits (r.act n) with
      | none =>
        refine .inl ⟨fun i hi => ?_, hu.step hg hcommits⟩
        rcases Nat.lt_succ_iff_lt_or_eq.1 hi with hi | rfl
        · exact hnone i hi
        · exact hcommits
      | some p =>
        refine .inr ⟨n, Nat.lt_succ_self n, p.1, p.2, hcommits, hu, fun k hk hne => ?_, ?_⟩
        · exact hnone k (by omega)
        · exact (hu.commits hg hcommits).2.2
    · obtain ⟨hlast, hd'⟩ := hd.step hg
      refine .inr ⟨i, Nat.lt_succ_of_lt hi, t, tx, hcommits, hu, fun k hk hne => ?_, hd'⟩
      rcases Nat.lt_succ_iff_lt_or_eq.1 hk with hk | rfl
      · exact hnone k hk hne
      · exact hlast

/-- In every run of calls of `Dispatch` for one acknowledged message, at most one step commits, and
it stores the jobs and marks the message. Only jobs that the commit stored in `job` get into a
queue, and nothing else changes the database. -/
theorem dispatch_commits_once (r : DispatchRun messageID) :
    (∀ i < r.len, ∀ t tx, (r.state i).commits (r.act i) = some (t, tx) →
      (r.state (i + 1)).db = (r.state i).db.dispatched tx.now tx.message tx.deliveryJobs
        tx.parkedJobs ∧
      ∀ k < r.len, k ≠ i → (r.state k).commits (r.act k) = none) ∧
    (∀ n ≤ r.len, ∀ t job, (t, job) ∈ (r.state n).queued →
      ∃ i < n, ∃ tx, (r.state i).commits (r.act i) = some (t, tx) ∧ job ∈ tx.deliveryJobs ∧
        job.jobRow ∈ (r.state (i + 1)).db.job ∧
        job.id ∉ (r.state (i + 1)).db.jobParking.map (·.id)) ∧
    (∀ i < r.len, ∀ t, (r.state i).caller (r.act i) = some t →
      (∀ k ≤ i, ∀ tx, (r.state k).commits (r.act k) ≠ some (t, tx)) →
      (r.state (i + 1)).db = (r.state i).db ∧ (r.state (i + 1)).queued = (r.state i).queued) ∧
    (∀ n ≤ r.len, (∀ i < n, (r.state i).commits (r.act i) = none) →
      (r.state n).db.message.countP (isAcknowledged messageID) = 1 ∧
      (∀ row ∈ (r.state n).db.job, row.messageId ≠ messageID) ∧
      ∀ row ∈ (r.state n).db.jobParking, row.messageId ≠ messageID) := by
  refine ⟨?_, ?_, ?_, ?_⟩
  · intro i hi t tx hcommits
    have hg := DispatchSys.step_goes (r.next i hi)
    rcases r.once (Nat.le_of_lt hi) with ⟨-, hu⟩ | ⟨_, -, _, _, -, -, -, hd⟩
    · refine ⟨(hu.commits hg hcommits).1, fun k hk hne => ?_⟩
      rcases r.once (Nat.le_refl r.len) with ⟨hnone, -⟩ | ⟨j, -, _, _, -, -, hnone, -⟩
      · exact hnone k hk
      · have hij : i = j := by
          by_contra hij
          rw [hnone i hi hij] at hcommits
          cases hcommits
        exact hnone k hk (hij ▸ hne)
    · rw [(hd.step hg).1] at hcommits
      cases hcommits
  · intro n hn t job hjob
    rcases r.once hn with ⟨-, hu⟩ | ⟨i, hi, t', tx, hcommits, hu, -, hd⟩
    · rw [hu.queued] at hjob
      cases hjob
    · obtain ⟨rfl, hmem⟩ := hd.queued _ hjob
      obtain ⟨hdb, hintegrity, -⟩ :=
        hu.commits (DispatchSys.step_goes (r.next i (by omega))) hcommits
      have hrow : job.jobRow ∈ (r.state (i + 1)).db.job := by
        rw [hdb]
        exact mem_append_right _ (mem_map_of_mem hmem)
      refine ⟨i, hi, tx, hcommits, hmem, hrow, fun hparked => ?_⟩
      obtain ⟨p, hp, hid⟩ := mem_map.1 hparked
      exact hintegrity.disjoint hrow hp hid.symm
  · intro i hi t ht hnot
    refine (DispatchSys.step_goes (r.next i hi)).frame ht ?_ ?_
    · cases hcommits : (r.state i).commits (r.act i) with
      | none => rfl
      | some p =>
        obtain ⟨hact, -⟩ := DispatchSys.commits_eq_some hcommits
        rw [hact] at ht
        cases ht
        exact absurd hcommits (hnot i (Nat.le_refl i) p.2)
    · intro jobs hc
      rcases r.once (Nat.le_of_lt hi) with ⟨-, hu⟩ | ⟨k, hk, u, tx, hcommits, -, -, hd⟩
      · exact hu.calls t _ hc
      · obtain ⟨rfl, -⟩ := hd.calls t _ hc
        exact hnot k (Nat.le_of_lt hk) tx hcommits
  · intro n hn hnone
    rcases r.once hn with ⟨-, hu⟩ | ⟨i, hi, t, tx, hcommits, -⟩
    · have hnot := hu.integrity.not_stored_of_acknowledged hu.acknowledged
      refine ⟨hu.acknowledged, fun row hrow hid => hnot ?_, fun row hrow hid => hnot ?_⟩
      · exact mem_map.2 ⟨row.ref, mem_append_left _ (mem_map_of_mem hrow), hid⟩
      · exact mem_map.2 ⟨row.ref, mem_append_right _ (mem_map_of_mem hrow), hid⟩
    · rw [hnone i hi] at hcommits
      cases hcommits

end

/-- Two calls for one message. The second takes the consumer for paused, and no key of `job` keeps
it from parking the job. The first commits; the second then finds no acknowledged message. -/
def Sample.race : List DispatchAction :=
  [.call message, .call message,
   .create 0 [consumer .push] none (fun _ => second) (fun _ => jobXid) (fun _ => false) false,
   .create 1 [consumer .push] none (fun _ => second) (fun _ => channelXid) (fun _ => true) false,
   .exec 0 false, .exec 1 false, .exec 0 false, .exec 0 false, .exec 1 false,
   .queue 0 second false false]

open Sample

theorem dispatch_commits_once_race :
    ∃ r : @DispatchRun netUrl messageXid,
      (r.state 10).queued.map (fun p => (p.1, p.2.id)) = [(0, jobXid)] ∧
      (r.state 10).db.message.map (·.status) = [.dispatched] ∧
      (r.state 10).db.jobParking = [] ∧
      ∃ i < r.len, (r.state i).commits (r.act i) ≠ none ∧
        ∀ k < r.len, k ≠ i → (r.state k).commits (r.act k) = none := by
  let r : @DispatchRun netUrl messageXid :=
    Run.ofActs ⟨db .push, [], []⟩ race
      ⟨Db.isInitial.integrity (by decide), by decide +kernel, rfl, rfl⟩ (by decide +kernel)
  have hlen : 7 < r.len := by decide
  have hcommits : ((r.state 7).commits (r.act 7)).isSome = true := by decide +kernel
  obtain ⟨p, hp⟩ := Option.isSome_iff_exists.1 hcommits
  have honce := ((@dispatch_commits_once netUrl _ r).1 7 hlen p.1 p.2 hp).2
  refine ⟨r, by decide +kernel, by decide +kernel, by decide +kernel, 7, hlen, ?_, honce⟩
  rw [hp]
  exact nofun

end WebhookBroker
