import WebhookBroker.Storage.CreateMessage
import WebhookBroker.Storage.MessageRepo

/-!
# Transactions that go wrong (`storage/rdbms.go`)

`transactionalOperations` is modelled here with everything that can go wrong: `Begin`, `Commit` and
`Rollback` may return errors, and an operation may return an error or panic. A `Commit` that returns
an error has not committed.

A panic is recovered by the deferred function, which rolls back but does not touch the named result
`err`. That still holds the `nil` of `Begin`, so the caller is told that its writes are committed.
`Fault.transactionalWrites_cases` lists how a transaction can end. Without faults and panics, these
functions are those of `Storage.Db` (`Fault.transactionalWrites_eq`).
-/

namespace WebhookBroker

/-- How an operation ends, and the state of the transaction then. -/
inductive OpResult (σ ε : Type) where
  /-- it returns `nil` or an error -/
  | returned (err : Option ε) (s : σ)
  | panicked (s : σ)
deriving DecidableEq

/-- The errors of `Begin`, `Commit` and `Rollback`. -/
structure TxFaults (ε : Type) where
  begins : Option ε := none
  commits : Option ε := none
  rollbacks : Option ε := none

/-- The result of a transaction: the error that is returned, the database, whether the transaction
committed, and what is logged. -/
structure TxResult (σ ε : Type) where
  err : Option ε
  db : σ
  committed : Bool
  log : List String
deriving DecidableEq

namespace Fault

variable {σ ε : Type}

/-- `rollback`: an error is logged only. -/
def rollback (faults : TxFaults ε) : List String :=
  match faults.rollbacks with
  | some _ => ["tx rollback error"]
  | none => []

def transactionalOperations (faults : TxFaults ε) (txOps : σ → OpResult σ ε) (db : σ) :
    TxResult σ ε :=
  match faults.begins with
  | some err => { err := some err, db := db, committed := false, log := [] }
  | none =>
    match txOps db with
    | .panicked _ =>
      -- the assignment `err = txOps(tx)` is not reached
      { err := none, db := db, committed := false
        log := "recovered from in-tx panic" :: rollback faults }
    | .returned (some err) _ =>
      { err := some err, db := db, committed := false, log := rollback faults }
    | .returned none db' =>
      match faults.commits with
      | some err => { err := some err, db := db, committed := false, log := ["tx commit error"] }
      | none => { err := none, db := db', committed := true, log := [] }

/-- The loop of `transactionalWrites` over its operations. -/
def runOps : List (σ → OpResult σ ε) → σ → OpResult σ ε
  | [], s => .returned none s
  | op :: ops, s =>
    match op s with
    | .returned none s' => runOps ops s'
    | .returned (some err) s' => .returned (some err) s'
    | .panicked s' => .panicked s'

def transactionalWrites (faults : TxFaults ε) (ops : List (σ → OpResult σ ε)) (db : σ) :
    TxResult σ ε :=
  transactionalOperations faults (runOps ops) db

inductive Applied : List (σ → OpResult σ ε) → σ → σ → Prop
  | nil {s} : Applied [] s s
  | cons {op ops s s₁ s'} (hop : op s = .returned none s₁) (hops : Applied ops s₁ s') :
      Applied (op :: ops) s s'

/-- The loop returns `nil` if all operations succeed, and only then. -/
theorem runOps_eq_returned_none {ops : List (σ → OpResult σ ε)} {s s' : σ} :
    runOps ops s = .returned none s' ↔ Applied ops s s' := by
  induction ops generalizing s with
  | nil =>
    constructor
    · intro h
      cases h
      exact .nil
    · intro h
      cases h
      rfl
  | cons op ops ih =>
    constructor
    · intro h
      rw [runOps] at h
      split at h
      · rename_i s₁ hop
        exact .cons hop (ih.1 h)
      · cases h
      · cases h
    · intro h
      cases h with
      | cons hop hops =>
        rw [runOps, hop]
        exact ih.2 hops

/-- `nil` is returned if and only if the transaction committed with the effects of all operations in
order, and after an error the database is as it was. -/
def IsAtomic (faults : TxFaults ε) (ops : List (σ → OpResult σ ε)) (db : σ) : Prop :=
  ((transactionalWrites faults ops db).err = none ↔
    (transactionalWrites faults ops db).committed = true ∧
      Applied ops db (transactionalWrites faults ops db).db) ∧
  ((transactionalWrites faults ops db).err ≠ none → (transactionalWrites faults ops db).db = db)

/-- What a transaction can do: fail and change nothing, commit all operations, or recover from a
panic and report a success. -/
theorem transactionalWrites_cases (faults : TxFaults ε) (ops : List (σ → OpResult σ ε)) (db : σ) :
    ((faults.begins = none → ∀ s, runOps ops db ≠ .panicked s) ∧ ∃ err log,
      transactionalWrites faults ops db = ⟨some err, db, false, log⟩) ∨
    ((∀ s, runOps ops db ≠ .panicked s) ∧ ∃ db', Applied ops db db' ∧
      transactionalWrites faults ops db = ⟨none, db', true, []⟩) ∨
    (faults.begins = none ∧ (∃ s, runOps ops db = .panicked s) ∧ ∃ log,
      transactionalWrites faults ops db = ⟨none, db, false, log⟩) := by
  unfold transactionalWrites transactionalOperations
  cases hbegin : faults.begins with
  | some err => exact .inl ⟨nofun, err, [], rfl⟩
  | none =>
    cases hrun : runOps ops db with
    | panicked s => exact .inr (.inr ⟨rfl, ⟨s, rfl⟩, _, rfl⟩)
    | returned err db' =>
      cases err with
      | some err => exact .inl ⟨fun _ => nofun, err, _, rfl⟩
      | none =>
        cases faults.commits with
        | some err => exact .inl ⟨fun _ => nofun, err, _, rfl⟩
        | none => exact .inr (.inl ⟨nofun, db', runOps_eq_returned_none.1 hrun, rfl⟩)

end Fault

/-- Whatever `Begin`, `Commit` and `Rollback` return, the writes are atomic and truthfully reported
if and only if no operation panics in a transaction that has begun. -/
theorem transactional_writes_atomic_iff {σ ε : Type} (faults : TxFaults ε)
    (ops : List (σ → OpResult σ ε)) (db : σ) :
    Fault.IsAtomic faults ops db ↔
      (faults.begins = none → ∀ s, Fault.runOps ops db ≠ .panicked s) := by
  unfold Fault.IsAtomic
  rcases Fault.transactionalWrites_cases faults ops db with
    ⟨hpanic, err, log, hr⟩ | ⟨hpanic, db', hops, hr⟩ | ⟨hbegin, ⟨s, hs⟩, log, hr⟩ <;> rw [hr]
  · exact ⟨fun _ => hpanic, fun _ => ⟨⟨nofun, nofun⟩, fun _ => rfl⟩⟩
  · exact ⟨fun _ _ => hpanic,
      fun _ => ⟨⟨fun _ => ⟨rfl, hops⟩, fun _ => rfl⟩, fun hne => absurd rfl hne⟩⟩
  · constructor
    · intro hatomic
      cases (hatomic.1.1 rfl).1
    · intro hpanic
      exact absurd hs (hpanic hbegin s)

/-! ## The operations of the repositories -/

/-- The operation of a repository, which panics in no case that the model of it covers. -/
def Fault.ofTx (op : Tx Unit) (db : Db) : OpResult Db StorageErr :=
  match op db with
  | .ok (_, db') => .returned none db'
  | .error err => .returned (some err) db

theorem Fault.runOps_ofTx (ops : List (Tx Unit)) (db : Db) :
    (∀ db', (ops.forM id) db = .ok ((), db') →
      Fault.runOps (ops.map Fault.ofTx) db = .returned none db') ∧
    ∀ err, (ops.forM id) db = .error err →
      ∃ db', Fault.runOps (ops.map Fault.ofTx) db = .returned (some err) db' := by
  induction ops generalizing db with
  | nil =>
    refine ⟨fun db' h => ?_, fun err h => ?_⟩
    · cases h
      rfl
    · cases h
  | cons op ops ih =>
    have hforM : ((op :: ops).forM id) db = (op db).bind fun p => (ops.forM id) p.2 := rfl
    rw [hforM, List.map_cons, Fault.runOps, Fault.ofTx]
    cases hop : op db with
    | error err =>
      refine ⟨nofun, fun err' h => ⟨db, ?_⟩⟩
      cases h
      rfl
    | ok p => exact ih p.2

theorem Fault.transactionalWrites_eq (ops : List (Tx Unit)) (db : Db) :
    (match (Fault.transactionalWrites {} (ops.map Fault.ofTx) db).err with
      | none => .ok ()
      | some err => .error err,
      (Fault.transactionalWrites {} (ops.map Fault.ofTx) db).db) =
    WebhookBroker.transactionalWrites ops db := by
  obtain ⟨hok, herror⟩ := Fault.runOps_ofTx ops db
  rw [Fault.transactionalWrites, Fault.transactionalOperations, WebhookBroker.transactionalWrites]
  rcases transactionalOperations_cases (ops.forM id) db with ⟨_, db', h, hr⟩ | ⟨err, h, hr⟩
  · rw [hr, hok db' h]
  · obtain ⟨db', hrun⟩ := herror err h
    rw [hr, hrun]

def Sample.panickingOps : List (Db → OpResult Db StorageErr) :=
  [Fault.ofTx (setDispatched 2 message), fun db => .panicked db]

open Sample

theorem panic_is_reported_as_success :
    (Fault.transactionalWrites {} panickingOps (messageDb "m")).err = none ∧
    (Fault.transactionalWrites {} panickingOps (messageDb "m")).db =
      messageDb "m" ∧
    ¬ Fault.IsAtomic {} panickingOps (messageDb "m") := by
  have hresult : Fault.transactionalWrites {} panickingOps (messageDb "m") =
      ⟨none, messageDb "m", false, ["recovered from in-tx panic"]⟩ := by
    decide +kernel
  rw [hresult]
  refine ⟨rfl, rfl, fun hatomic => ?_⟩
  rw [Fault.IsAtomic, hresult] at hatomic
  cases (hatomic.1.1 rfl).1

end WebhookBroker
