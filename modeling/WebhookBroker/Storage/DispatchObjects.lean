import WebhookBroker.Storage.Integrity
import WebhookBroker.Storage.Transaction

/-!
# The objects of a dispatch (`storage/deliveryjobrepo.go`, `storage/messagerepo.go`)

`DispatchMessageWithParking` gets pointers. `SetDispatched` changes the caller's message inside the
transaction, as soon as its statement succeeded, while the parked jobs get their status after the
transaction returned `nil`. If `Commit` fails, the message object says `DISPATCHED` and the stored
row is still `ACKNOWLEDGED`.

The function is modelled here on objects in memory, with every call to the database driver failing
or not; without faults its effect on the database is that of `dispatchMessageWithParking`
(`Fault.dispatchMessageWithParking_eq`).
-/

namespace WebhookBroker

open Lib List

/-- The state in which an operation leaves the transaction. -/
def OpResult.state {σ ε : Type} : OpResult σ ε → σ
  | .returned _ s => s
  | .panicked s => s

/-- What a transaction leaves in the memory, the second part of its state: a rollback takes back
what it did to the database only. -/
def Fault.memoryAfter {σ μ ε : Type} (faults : TxFaults ε)
    (ops : List (σ × μ → OpResult (σ × μ) ε)) (s : σ × μ) : μ :=
  match faults.begins with
  | some _ => s.2
  | none => (Fault.runOps ops s).state.2

/-- The objects that the caller of a dispatch has pointers to. -/
structure Objects where
  messages : Nat → Message
  jobs : Nat → DeliveryJob

namespace Objects

def setDispatched (now : Time) (message : Nat) (objects : Objects) : Objects :=
  { objects with
    messages := Function.update objects.messages message
      ((objects.messages message).setDispatched now) }

/-- The loop over the parked jobs after a successful dispatch. -/
def park (parkedJobs : List Nat) (objects : Objects) : Objects :=
  { objects with
    jobs := fun job =>
      if job ∈ parkedJobs then { objects.jobs job with status := .parked } else objects.jobs job }

section
variable {objects : Objects} {now : Time} {message job : Nat} {parkedJobs : List Nat}

@[simp] theorem setDispatched_messages_self : (objects.setDispatched now message).messages message =
    (objects.messages message).setDispatched now := Function.update_self ..
@[simp] theorem park_messages : (objects.park parkedJobs).messages = objects.messages := rfl

theorem park_jobs_of_mem (hjob : job ∈ parkedJobs) :
    (objects.park parkedJobs).jobs job = { objects.jobs job with status := .parked } := if_pos hjob

theorem park_jobs_of_notMem (hjob : job ∉ parkedJobs) :
    (objects.park parkedJobs).jobs job = objects.jobs job := if_neg hjob

end

/-- The checks of `DispatchMessageWithParking` on a message that is not `nil`. -/
def isDispatchable [NetUrl] (objects : Objects) (message : Nat)
    (deliveryJobs parkedJobs : List (Option Nat)) : Bool :=
  (objects.messages message).isInValidState &&
    (deliveryJobs ++ parkedJobs).all
      (·.any fun job => (objects.jobs job).isValidFor (objects.messages message))

end Objects

/-- The errors of the driver: of the transaction and of its three statements. -/
structure DispatchFaults extends TxFaults StorageErr where
  insertJobs : Option StorageErr := none
  insertParkedJobs : Option StorageErr := none
  setDispatched : Option StorageErr := none

/-- A statement whose execution fails, or does what it does to the database. -/
def Fault.statement (fault : Option StorageErr) (op : Tx Unit) (s : Db × Objects) :
    OpResult (Db × Objects) StorageErr :=
  match fault with
  | some err => .returned (some err) s
  | none =>
    match op s.1 with
    | .ok (_, db) => .returned none (db, s.2)
    | .error err => .returned (some err) s

/-- The statements of the transaction, with their faults: the operations of `dispatchTxs`. -/
def Fault.dispatchStatements (faults : DispatchFaults) (now : Time) (message : Message)
    (deliveryJobs parkedJobs : List DeliveryJob) : List (Option StorageErr × Tx Unit) :=
  (if deliveryJobs.length > 0 then
    [(faults.insertJobs,
      inTransactionExec (insertJob (deliveryJobs.map (·.jobRow))) deliveryJobs.length)] else []) ++
  (if parkedJobs.length > 0 then
    [(faults.insertParkedJobs, insertParkedJobsInTx parkedJobs now)] else []) ++
  [(faults.setDispatched, WebhookBroker.setDispatched now message)]

/-- The operations of the transaction; the last statement and the assignments after it are those of
`SetDispatched`. -/
def Fault.dispatchOps (faults : DispatchFaults) (now : Time) (message : Nat)
    (deliveryJobs parkedJobs : List Nat) (objects : Objects) :
    List (Db × Objects → OpResult (Db × Objects) StorageErr) :=
  (dispatchStatements faults now (objects.messages message) (deliveryJobs.map objects.jobs)
    (parkedJobs.map objects.jobs)).map (fun p => statement p.1 p.2) ++
  [fun s => .returned none (s.1, s.2.setDispatched now message)]

/-- `DispatchMessageWithParking` on pointers: the error that it returns, the database and the
objects. -/
def Fault.dispatchMessageWithParking [NetUrl] (faults : DispatchFaults) (now : Time)
    (message : Option Nat) (deliveryJobs parkedJobs : List (Option Nat)) (db : Db)
    (objects : Objects) : Option StorageErr × Db × Objects :=
  match message with
  | none => (some .invalidStateToSave, db, objects)
  | some message =>
    if objects.isDispatchable message deliveryJobs parkedJobs then
      let ops := dispatchOps faults now message deliveryJobs.reduceOption parkedJobs.reduceOption
        objects
      let result := transactionalWrites faults.toTxFaults ops (db, objects)
      let after := memoryAfter faults.toTxFaults ops (db, objects)
      (result.err, result.db.1,
        if result.err = none then after.park parkedJobs.reduceOption else after)
    else (some .invalidStateToSave, db, objects)

/-! ## How a dispatch can end -/

namespace Fault

/-- Statements without faults do to the database what they do in a row, and nothing to the objects;
if one fails, the objects are still as they were. -/
theorem runOps_statements (statements : List (Option StorageErr × Tx Unit)) (db : Db)
    (objects : Objects) :
    (∀ db', (∀ p ∈ statements, p.1 = none) →
      ((statements.map Prod.snd).forM id) db = .ok ((), db') →
      runOps (statements.map fun p => statement p.1 p.2) (db, objects) =
        .returned none (db', objects)) ∧
    (¬ ((∀ p ∈ statements, p.1 = none) ∧
        ∃ db', ((statements.map Prod.snd).forM id) db = .ok ((), db')) →
      ∃ err db', runOps (statements.map fun p => statement p.1 p.2) (db, objects) =
        .returned (some err) (db', objects)) := by
  induction statements generalizing db with
  | nil =>
    refine ⟨fun db' _ h => ?_, fun h => absurd ⟨nofun, db, rfl⟩ h⟩
    cases h
    rfl
  | cons p statements ih =>
    obtain ⟨fault, op⟩ := p
    have hforM : (((fault, op) :: statements).map Prod.snd).forM id db =
        (op db).bind fun r => ((statements.map Prod.snd).forM id) r.2 := rfl
    rw [hforM, map_cons, runOps]
    cases fault with
    | some err => exact ⟨fun _ h => by simp at h, fun _ => ⟨err, db, rfl⟩⟩
    | none =>
      cases hop : op db with
      | error err =>
        refine ⟨fun _ _ h => (by cases h), fun _ => ⟨err, db, ?_⟩⟩
        simp only [statement, hop]
      | ok r =>
        simp only [statement, hop, forall_mem_cons, true_and]
        exact ih r.2

theorem runOps_append {σ ε : Type} (ops ops' : List (σ → OpResult σ ε)) (s : σ) :
    runOps (ops ++ ops') s = match runOps ops s with
      | .returned none s' => runOps ops' s'
      | r => r := by
  induction ops generalizing s with
  | nil => rfl
  | cons op ops ih =>
    rw [cons_append, runOps, runOps]
    split
    · exact ih _
    · rfl
    · rfl

section
variable {σ μ ε : Type} {faults : TxFaults ε} {ops : List (σ × μ → OpResult (σ × μ) ε)}
  {s s' : σ × μ} {err : ε}

theorem transaction_of_begins (hbegins : faults.begins = some err) :
    (transactionalWrites faults ops s).err = some err ∧
      (transactionalWrites faults ops s).db = s ∧ memoryAfter faults ops s = s.2 := by
  simp only [transactionalWrites, transactionalOperations, memoryAfter, hbegins, and_self]

theorem transaction_of_error (hbegins : faults.begins = none)
    (hrun : runOps ops s = .returned (some err) s') :
    (transactionalWrites faults ops s).err = some err ∧
      (transactionalWrites faults ops s).db = s ∧ memoryAfter faults ops s = s'.2 := by
  simp only [transactionalWrites, transactionalOperations, memoryAfter, hbegins, hrun,
    OpResult.state, and_self]

theorem transaction_of_commits (hbegins : faults.begins = none)
    (hrun : runOps ops s = .returned none s') (hcommits : faults.commits = some err) :
    (transactionalWrites faults ops s).err = some err ∧
      (transactionalWrites faults ops s).db = s ∧ memoryAfter faults ops s = s'.2 := by
  simp only [transactionalWrites, transactionalOperations, memoryAfter, hbegins, hrun, hcommits,
    OpResult.state, and_self]

theorem transaction_of_ok (hbegins : faults.begins = none)
    (hrun : runOps ops s = .returned none s') (hcommits : faults.commits = none) :
    (transactionalWrites faults ops s).err = none ∧
      (transactionalWrites faults ops s).db = s' ∧ memoryAfter faults ops s = s'.2 := by
  simp only [transactionalWrites, transactionalOperations, memoryAfter, hbegins, hrun, hcommits,
    OpResult.state, and_self]

end

theorem map_snd_dispatchStatements (faults : DispatchFaults) (now : Time) (message : Message)
    (deliveryJobs parkedJobs : List DeliveryJob) :
    (dispatchStatements faults now message deliveryJobs parkedJobs).map Prod.snd =
      dispatchTxs now message deliveryJobs parkedJobs := by
  unfold dispatchStatements dispatchTxs
  split_ifs <;> rfl

end Fault

def DispatchFaults.LetThrough (faults : DispatchFaults) (deliveryJobs parkedJobs : List Nat) :
    Prop :=
  (deliveryJobs ≠ [] → faults.insertJobs = none) ∧
  (parkedJobs ≠ [] → faults.insertParkedJobs = none) ∧ faults.setDispatched = none

namespace Fault

theorem dispatchStatements_faults {faults : DispatchFaults} {now : Time} {message : Message}
    {objects : Objects} {deliveryJobs parkedJobs : List Nat} :
    (∀ p ∈ dispatchStatements faults now message (deliveryJobs.map objects.jobs)
        (parkedJobs.map objects.jobs), p.1 = none) ↔
      faults.LetThrough deliveryJobs parkedJobs := by
  unfold dispatchStatements DispatchFaults.LetThrough
  cases deliveryJobs <;> cases parkedJobs <;> simp

/-- The operations of a dispatch succeed if the driver executes the statements and their conditions
hold; if one fails, the objects are still as they were. -/
theorem runOps_dispatchOps (faults : DispatchFaults) (now : Time) (message : Nat)
    (deliveryJobs parkedJobs : List Nat) (db : Db) (objects : Objects) :
    (faults.LetThrough deliveryJobs parkedJobs ∧ db.acceptsDispatch now (objects.messages message)
        (deliveryJobs.map objects.jobs) (parkedJobs.map objects.jobs) →
      runOps (dispatchOps faults now message deliveryJobs parkedJobs objects) (db, objects) =
        .returned none (db.dispatched now (objects.messages message) (deliveryJobs.map objects.jobs)
          (parkedJobs.map objects.jobs), objects.setDispatched now message)) ∧
    (¬ (faults.LetThrough deliveryJobs parkedJobs ∧ db.acceptsDispatch now
        (objects.messages message) (deliveryJobs.map objects.jobs) (parkedJobs.map objects.jobs)) →
      ∃ err db', runOps (dispatchOps faults now message deliveryJobs parkedJobs objects)
        (db, objects) = .returned (some err) (db', objects)) := by
  obtain ⟨hok, hfail⟩ := runOps_statements (dispatchStatements faults now (objects.messages message)
    (deliveryJobs.map objects.jobs) (parkedJobs.map objects.jobs)) db objects
  rw [map_snd_dispatchStatements, dispatchStatements_faults] at hok hfail
  rw [dispatchOps, runOps_append]
  constructor
  · rintro ⟨hfaults, haccepts⟩
    rw [hok _ hfaults (dispatchTxs_eq_ok.2 ⟨haccepts, rfl⟩)]
    rfl
  · intro hnot
    obtain ⟨err, db', hrun⟩ := hfail fun h =>
      hnot ⟨h.1, (dispatchTxs_eq_ok.1 h.2.choose_spec).1⟩
    exact ⟨err, db', by rw [hrun]⟩

end Fault

/-- What is needed before the `Commit` of a dispatch: the checks pass, the transaction begins, and
its statements are executed and meet their conditions. -/
structure Dispatches [NetUrl] (faults : DispatchFaults) (now : Time) (message : Nat)
    (deliveryJobs parkedJobs : List (Option Nat)) (db : Db) (objects : Objects) : Prop where
  valid : objects.isDispatchable message deliveryJobs parkedJobs = true
  begins : faults.begins = none
  statements : faults.LetThrough deliveryJobs.reduceOption parkedJobs.reduceOption
  accepts : db.acceptsDispatch now (objects.messages message)
    (deliveryJobs.reduceOption.map objects.jobs) (parkedJobs.reduceOption.map objects.jobs)

variable {faults : DispatchFaults}
variable {now : Time}

theorem Dispatches.isValidFor [NetUrl] {message job : Nat}
    {deliveryJobs parkedJobs : List (Option Nat)} {db : Db} {objects : Objects}
    (hd : Dispatches faults now message deliveryJobs parkedJobs db objects)
    (hjob : some job ∈ deliveryJobs ++ parkedJobs) :
    (objects.jobs job).isValidFor (objects.messages message) = true := by
  have hvalid := hd.valid
  rw [Objects.isDispatchable, Bool.and_eq_true] at hvalid
  exact all_eq_true.1 hvalid.2 (some job) hjob

def Db.dispatchedObjects (now : Time) (message : Nat) (deliveryJobs parkedJobs : List (Option Nat))
    (db : Db) (objects : Objects) : Db :=
  db.dispatched now (objects.messages message) (deliveryJobs.reduceOption.map objects.jobs)
    (parkedJobs.reduceOption.map objects.jobs)

theorem Fault.dispatchMessageWithParking_of_valid [NetUrl] {message : Nat}
    {deliveryJobs parkedJobs : List (Option Nat)} {db : Db} {objects after : Objects}
    {err : Option StorageErr} {s : Db × Objects}
    (hvalid : objects.isDispatchable message deliveryJobs parkedJobs = true)
    (h : (transactionalWrites faults.toTxFaults (dispatchOps faults now message
      deliveryJobs.reduceOption parkedJobs.reduceOption objects) (db, objects)).err = err ∧
      (transactionalWrites faults.toTxFaults (dispatchOps faults now message
      deliveryJobs.reduceOption parkedJobs.reduceOption objects) (db, objects)).db = s ∧
      memoryAfter faults.toTxFaults (dispatchOps faults now message deliveryJobs.reduceOption
      parkedJobs.reduceOption objects) (db, objects) = after) :
    dispatchMessageWithParking faults now (some message) deliveryJobs parkedJobs db objects =
      (err, s.1, if err = none then after.park parkedJobs.reduceOption else after) := by
  obtain ⟨rfl, rfl, rfl⟩ := h
  simp only [dispatchMessageWithParking, hvalid, if_true]

/-- A dispatch commits, gets as far as a `Commit` that fails, or changes nothing. -/
theorem Fault.dispatchMessageWithParking_cases [NetUrl] (faults : DispatchFaults) (now : Time)
    (message : Option Nat) (deliveryJobs parkedJobs : List (Option Nat)) (db : Db)
    (objects : Objects) :
    (∃ m, message = some m ∧ Dispatches faults now m deliveryJobs parkedJobs db objects ∧
      faults.commits = none ∧
      dispatchMessageWithParking faults now message deliveryJobs parkedJobs db objects =
        (none, db.dispatchedObjects now m deliveryJobs parkedJobs objects,
          (objects.setDispatched now m).park parkedJobs.reduceOption)) ∨
    (∃ m err, message = some m ∧ Dispatches faults now m deliveryJobs parkedJobs db objects ∧
      faults.commits = some err ∧
      dispatchMessageWithParking faults now message deliveryJobs parkedJobs db objects =
        (some err, db, objects.setDispatched now m)) ∨
    ((∀ m, message = some m → ¬ Dispatches faults now m deliveryJobs parkedJobs db objects) ∧
      ∃ err, dispatchMessageWithParking faults now message deliveryJobs parkedJobs db objects =
        (some err, db, objects)) := by
  cases message with
  | none => exact .inr (.inr ⟨nofun, _, rfl⟩)
  | some m =>
    by_cases hvalid : objects.isDispatchable m deliveryJobs parkedJobs = true
    · obtain ⟨hok, hfail⟩ := runOps_dispatchOps faults now m deliveryJobs.reduceOption
        parkedJobs.reduceOption db objects
      cases hbegins : faults.toTxFaults.begins with
      | some err =>
        refine .inr (.inr ⟨fun m' _ hd => ?_, err,
          dispatchMessageWithParking_of_valid hvalid (transaction_of_begins hbegins)⟩)
        cases hd.begins.symm.trans hbegins
      | none =>
        by_cases hgo : faults.LetThrough deliveryJobs.reduceOption parkedJobs.reduceOption ∧
            db.acceptsDispatch now (objects.messages m) (deliveryJobs.reduceOption.map objects.jobs)
              (parkedJobs.reduceOption.map objects.jobs)
        · have hd : Dispatches faults now m deliveryJobs parkedJobs db objects :=
            ⟨hvalid, hbegins, hgo.1, hgo.2⟩
          cases hcommits : faults.toTxFaults.commits with
          | none =>
            exact .inl ⟨m, rfl, hd, rfl, dispatchMessageWithParking_of_valid hvalid
              (transaction_of_ok hbegins (hok hgo) hcommits)⟩
          | some err =>
            exact .inr (.inl ⟨m, err, rfl, hd, rfl, dispatchMessageWithParking_of_valid hvalid
              (transaction_of_commits hbegins (hok hgo) hcommits)⟩)
        · obtain ⟨err, db', hrun⟩ := hfail hgo
          refine .inr (.inr ⟨fun m' hm' hd => ?_, err,
            dispatchMessageWithParking_of_valid hvalid (transaction_of_error hbegins hrun)⟩)
          cases hm'
          exact hgo ⟨hd.statements, hd.accepts⟩
    · simp only [dispatchMessageWithParking, if_neg hvalid]
      refine .inr (.inr ⟨fun m' hm' hd => ?_, _, rfl⟩)
      cases hm'
      exact hvalid hd.valid

theorem Objects.isDispatchable_iff [NetUrl] {objects : Objects} {message : Nat}
    {deliveryJobs parkedJobs : List (Option Nat)} (hnil : none ∉ deliveryJobs ++ parkedJobs) :
    objects.isDispatchable message deliveryJobs parkedJobs = true ↔
      (objects.messages message).isInValidState = true ∧
      ∀ job ∈ deliveryJobs.reduceOption.map objects.jobs ++
          parkedJobs.reduceOption.map objects.jobs,
        job.isValidFor (objects.messages message) = true := by
  rw [isDispatchable, Bool.and_eq_true, ← map_append, ← reduceOption_append,
    forall_mem_map, all_eq_true]
  refine and_congr_right fun _ => ⟨fun h job hjob => ?_, fun h pointer hpointer => ?_⟩
  · exact h (some job) (reduceOption_mem_iff.1 hjob)
  · cases pointer with
    | none => exact absurd hpointer hnil
    | some job => exact h job (reduceOption_mem_iff.2 hpointer)

/-- Without faults, and on pointers that are not `nil`, a dispatch does to the database and to the
objects what `dispatchMessageWithParking` does. -/
theorem Fault.dispatchMessageWithParking_eq [NetUrl] (now : Time) (message : Nat)
    {deliveryJobs parkedJobs : List (Option Nat)} (hnil : none ∉ deliveryJobs ++ parkedJobs)
    (db : Db) (objects : Objects) :
    let result :=
      dispatchMessageWithParking {} now (some message) deliveryJobs parkedJobs db objects
    ∃ r, WebhookBroker.dispatchMessageWithParking now (objects.messages message)
        (deliveryJobs.reduceOption.map objects.jobs) (parkedJobs.reduceOption.map objects.jobs) db =
          (r, result.2.1) ∧
      (result.1 = none → r = .ok (result.2.2.messages message,
        parkedJobs.reduceOption.map result.2.2.jobs)) ∧
      (result.1 ≠ none → ∃ e, r = .error e) := by
  rcases dispatchMessageWithParking_cases {} now (some message) deliveryJobs parkedJobs db objects
    with ⟨m, hm, hd, -, hr⟩ | ⟨m, err, -, -, hcommits, -⟩ | ⟨hnot, err, hr⟩
  · cases hm
    have hresult := WebhookBroker.dispatchMessageWithParking_of_accepts
      ((Objects.isDispatchable_iff hnil).1 hd.valid).2 hd.accepts
    rw [hr]
    refine ⟨_, hresult, fun _ => ?_, fun h => absurd rfl h⟩
    simp only [Objects.park_messages, Objects.setDispatched_messages_self, map_map]
    congr 2
    refine map_congr_left fun job hjob => ?_
    rw [Objects.park_jobs_of_mem hjob]
    rfl
  · cases hcommits
  · rcases WebhookBroker.dispatchMessageWithParking_cases now (objects.messages message)
      (deliveryJobs.reduceOption.map objects.jobs) (parkedJobs.reduceOption.map objects.jobs) db
      with ⟨hvalid, haccepts, -⟩ | ⟨e, hresult⟩
    · exact absurd ⟨(Objects.isDispatchable_iff hnil).2 ⟨haccepts.2.2.1, hvalid⟩, rfl,
        ⟨fun _ => rfl, fun _ => rfl, rfl⟩, haccepts⟩ (hnot message rfl)
    · rw [hr]
      exact ⟨.error e, hresult, nofun, fun _ => ⟨e, rfl⟩⟩

/-! ## Objects and rows -/

/-- A row has the id, and every row that has it has the status. -/
def HasStatus {ρ τ : Type} (rowID : ρ → Xid) (rowStatus : ρ → τ) (rows : List ρ) (id : Xid)
    (status : τ) : Prop :=
  (∃ row ∈ rows, rowID row = id) ∧ ∀ row ∈ rows, rowID row = id → rowStatus row = status

/-- The objects of a dispatch have the statuses that are stored. A row of `job_parking` stands for
the status `PARKED`. -/
structure StatusesAgree (message : Option Nat) (deliveryJobs parkedJobs : List (Option Nat))
    (db : Db) (objects : Objects) : Prop where
  message_row : ∀ m, message = some m → HasStatus (·.id) (·.status) db.message
    (objects.messages m).id (objects.messages m).status
  job_rows : ∀ job, some job ∈ deliveryJobs → HasStatus (·.id) (·.status) db.job
    (objects.jobs job).id (objects.jobs job).status
  parked_rows : ∀ job, some job ∈ parkedJobs → HasStatus (·.id) (fun _ => .parked) db.jobParking
    (objects.jobs job).id (objects.jobs job).status

/-- A dispatch that returns an error left everything as it was, and after one that returns `nil` the
objects have the statuses that are stored. -/
def KeepsObjects [NetUrl] (faults : DispatchFaults) (now : Time) (message : Option Nat)
    (deliveryJobs parkedJobs : List (Option Nat)) (db : Db) (objects : Objects) : Prop :=
  let result :=
    Fault.dispatchMessageWithParking faults now message deliveryJobs parkedJobs db objects
  (result.1 ≠ none → result.2 = (db, objects)) ∧
  (result.1 = none → StatusesAgree message deliveryJobs parkedJobs result.2.1 result.2.2)

section
variable {now : Time} {message : Message} {deliveryJobs parkedJobs : List DeliveryJob} {db : Db}

theorem hasStatus_message_dispatched (hkey : (db.message.map (·.id)).Nodup)
    (hcount : db.message.countP (isAcknowledged message.id) = 1) :
    HasStatus (·.id) (·.status) (db.dispatched now message deliveryJobs parkedJobs).message
      message.id .dispatched := by
  obtain ⟨row, hrow, hack⟩ := countP_pos_iff.1 (by rw [hcount]; exact Nat.one_pos)
  have hid : row.id = message.id := by
    rw [isAcknowledged, Bool.and_eq_true, Xid.like_iff] at hack
    exact hack.1.symm
  refine ⟨⟨row.setDispatched now, mem_updateWhere.2 ⟨row, hrow, if_pos hack⟩, hid⟩, ?_⟩
  intro row' hrow' hid'
  obtain ⟨row₀, hrow₀, rfl⟩ := mem_updateWhere.1 hrow'
  have hid₀ : row₀.id = message.id := by
    rw [← hid']
    split <;> rfl
  obtain rfl : row₀ = row := inj_on_of_nodup_map hkey hrow₀ hrow (hid₀.trans hid.symm)
  rw [if_pos hack]
  rfl

theorem hasStatus_job_dispatched {job : DeliveryJob} (hjob : job ∈ deliveryJobs)
    (haccepts : db.acceptsJobs (deliveryJobs.map (·.jobRow))) :
    HasStatus (·.id) (·.status) (db.dispatched now message deliveryJobs parkedJobs).job job.id
      job.status := by
  have hmem : job.jobRow ∈ db.job ++ deliveryJobs.map (·.jobRow) :=
    mem_append_right _ (mem_map_of_mem hjob)
  refine ⟨⟨job.jobRow, hmem, rfl⟩, fun row hrow hid => ?_⟩
  rw [inj_on_of_nodup_map haccepts.1.1 hrow hmem hid]
  rfl

theorem hasStatus_parked_dispatched {job : DeliveryJob} (hjob : job ∈ parkedJobs) :
    HasStatus (·.id) (fun _ => JobStatus.parked)
      (db.dispatched now message deliveryJobs parkedJobs).jobParking job.id .parked := by
  have hids : job.id ∈ (numberFrom db.nextSeq (parkedJobs.map (·.parkedRow now))).map (·.id) := by
    have hrefs := congrArg (List.map JobRef.id)
      (map_ref_numberFrom db.nextSeq (parkedJobs.map (·.parkedRow now)))
    simp only [map_map] at hrefs
    exact hrefs ▸ mem_map_of_mem hjob
  obtain ⟨row, hrow, hid⟩ := mem_map.1 hids
  exact ⟨⟨row, mem_append_right _ hrow, hid⟩, fun _ _ _ => rfl⟩

end

theorem Objects.setDispatched_eq_self {message : Nat} {objects : Objects} :
    objects.setDispatched now message = objects ↔
      (objects.messages message).setDispatched now = objects.messages message := by
  constructor
  · intro h
    have hmessage := congrFun (congrArg Objects.messages h) message
    rwa [setDispatched_messages_self] at hmessage
  · intro h
    rw [setDispatched, h, Function.update_eq_self]

/-- After a dispatch that committed, the objects have the statuses that are stored, unless a job is
in both lists. -/
theorem Dispatches.statusesAgree_iff [NetUrl] {m : Nat}
    {deliveryJobs parkedJobs : List (Option Nat)} {db : Db} {objects : Objects}
    (hkey : (db.message.map (·.id)).Nodup)
    (hd : Dispatches faults now m deliveryJobs parkedJobs db objects) :
    StatusesAgree (some m) deliveryJobs parkedJobs
        (db.dispatchedObjects now m deliveryJobs parkedJobs objects)
        ((objects.setDispatched now m).park parkedJobs.reduceOption) ↔
      ∀ job, some job ∈ deliveryJobs → some job ∉ parkedJobs := by
  have hstored : ∀ job, some job ∈ deliveryJobs → HasStatus (·.id) (·.status)
      (db.dispatchedObjects now m deliveryJobs parkedJobs objects).job (objects.jobs job).id
        (objects.jobs job).status := by
    intro job hjob
    have hmem : objects.jobs job ∈ deliveryJobs.reduceOption.map objects.jobs :=
      mem_map_of_mem (reduceOption_mem_iff.2 hjob)
    exact hasStatus_job_dispatched hmem (hd.accepts.1 (ne_nil_of_mem hmem))
  constructor
  · intro hagree job hjob hparked
    have hobject := hagree.job_rows job hjob
    rw [Objects.park_jobs_of_mem (reduceOption_mem_iff.2 hparked)] at hobject
    obtain ⟨⟨row, hrow, hid⟩, hstatus⟩ := hstored job hjob
    have hstatus : (objects.jobs job).status = .parked :=
      (hstatus row hrow hid).symm.trans (hobject.2 row hrow hid)
    have hvalid := hd.isValidFor (mem_append_left _ hjob)
    simp only [DeliveryJob.isValidFor, DeliveryJob.isInValidState, hstatus] at hvalid
    split at hvalid <;> cases hvalid
  · intro hdisjoint
    refine ⟨fun m' hm' => ?_, fun job hjob => ?_, fun job hjob => ?_⟩
    · cases hm'
      rw [Objects.park_messages, Objects.setDispatched_messages_self]
      exact hasStatus_message_dispatched hkey hd.accepts.2.2.2
    · rw [Objects.park_jobs_of_notMem fun h => hdisjoint job hjob (reduceOption_mem_iff.1 h)]
      exact hstored job hjob
    · have hmem : job ∈ parkedJobs.reduceOption := reduceOption_mem_iff.2 hjob
      have hobject : objects.jobs job ∈ parkedJobs.reduceOption.map objects.jobs :=
        mem_map_of_mem hmem
      rw [Objects.park_jobs_of_mem hmem]
      show HasStatus ParkedJobRow.id (fun _ => JobStatus.parked) _ (objects.jobs job).id .parked
      exact hasStatus_parked_dispatched hobject

/-- A dispatch keeps the objects right if and only if no `Commit` fails that would have changed what
the message says, and if it commits, no job object is both delivered and parked. -/
theorem keeps_objects_iff [NetUrl] (faults : DispatchFaults) (now : Time) (message : Option Nat)
    (deliveryJobs parkedJobs : List (Option Nat)) (db : Db) (objects : Objects)
    (hkey : (db.message.map (·.id)).Nodup) :
    KeepsObjects faults now message deliveryJobs parkedJobs db objects ↔
      ∀ m, message = some m → Dispatches faults now m deliveryJobs parkedJobs db objects →
        (faults.commits ≠ none → (objects.messages m).setDispatched now = objects.messages m) ∧
        (faults.commits = none → ∀ job, some job ∈ deliveryJobs → some job ∉ parkedJobs) := by
  rw [KeepsObjects]
  rcases Fault.dispatchMessageWithParking_cases faults now message deliveryJobs parkedJobs db
    objects with ⟨m, rfl, hd, hcommits, hr⟩ | ⟨m, err, rfl, hd, hcommits, hr⟩ | ⟨hnot, err, hr⟩ <;>
    rw [hr]
  · simp only [ne_eq, not_true_eq_false, false_implies, true_and, true_implies,
      hd.statusesAgree_iff hkey]
    constructor
    · rintro hdisjoint m' hm' -
      exact ⟨fun h => absurd hcommits h, fun _ => hdisjoint⟩
    · intro h
      exact (h m rfl hd).2 hcommits
  · constructor
    · rintro ⟨hsame, -⟩ m' hm' -
      cases hm'
      have hobjects := congrArg Prod.snd (hsame nofun)
      exact ⟨fun _ => Objects.setDispatched_eq_self.1 hobjects,
        fun h => by rw [hcommits] at h; cases h⟩
    · intro h
      have hself := (h m rfl hd).1 (by rw [hcommits]; nofun)
      exact ⟨fun _ => Prod.ext rfl (Objects.setDispatched_eq_self.2 hself), nofun⟩
  · exact ⟨fun _ m hm hd => absurd hd (hnot m hm), fun _ => ⟨fun _ => rfl, nofun⟩⟩

namespace Sample

def objects : Objects where
  messages _ := message
  jobs _ := job .push 5

def dispatchObjects (faults : DispatchFaults) : Option StorageErr × Db × Objects :=
  @Fault.dispatchMessageWithParking netUrl faults 7 (some 0) [some 0] [] (db .push) objects

end Sample

open Sample

theorem dispatchMessageWithParking_eq_committed :
    ∃ r, @dispatchMessageWithParking netUrl 7 message [job .push 5] []
      (db .push) = (.ok r, (dispatchObjects {}).2.1) := by
  obtain ⟨r, hr, hok, -⟩ := @Fault.dispatchMessageWithParking_eq netUrl 7 0 [some 0] []
    (by decide) (db .push) objects
  exact ⟨_, hr.trans (Prod.ext (hok (by decide +kernel)) rfl)⟩

theorem keeps_objects_committed :
    (dispatchObjects {}).1 = none ∧
    @KeepsObjects netUrl {} 7 (some 0) [some 0] [] (db .push) objects :=
  ⟨by decide +kernel,
    (@keeps_objects_iff netUrl {} 7 (some 0) [some 0] [] (db .push) objects
      (by decide)).2 fun _ _ _ => ⟨fun h => absurd rfl h, fun _ _ _ => nofun⟩⟩

/-- `Commit` fails: an error is returned and nothing is stored, but the message object is
`DISPATCHED` now. -/
theorem commit_fails_after_set_dispatched :
    ((dispatchObjects { commits := some .noRows }).1 = some .noRows ∧
      (dispatchObjects { commits := some .noRows }).2.1 = db .push ∧
      (objects.messages 0).status = .acknowledged ∧
      ((dispatchObjects { commits := some .noRows }).2.2.messages 0).status = .dispatched) ∧
    ¬ @KeepsObjects netUrl { commits := some .noRows } 7 (some 0) [some 0] []
      (db .push) objects := by
  have hresult : (dispatchObjects { commits := some .noRows }).1 = some .noRows ∧
      (dispatchObjects { commits := some .noRows }).2.1 = db .push ∧
      (objects.messages 0).status = .acknowledged ∧
      ((dispatchObjects { commits := some .noRows }).2.2.messages 0).status =
        .dispatched := by decide +kernel
  refine ⟨hresult, fun hkeeps => ?_⟩
  have hsame : (dispatchObjects { commits := some .noRows }).2 =
      (db .push, objects) := by
    refine hkeeps.1 ?_
    rw [← dispatchObjects, hresult.1]
    nofun
  rw [hsame] at hresult
  exact absurd (hresult.2.2.1.symm.trans hresult.2.2.2) (by decide)

end WebhookBroker
