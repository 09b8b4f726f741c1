import WebhookBroker.Config.Broker
import WebhookBroker.Broker.Steps

/-!
# The number of attempts (`dispatcher/worker.go`, `config/config.go`)

`deliverJob` as one function on the database. A job whose consumer always fails goes from `QUEUED`
to `INFLIGHT` and back with a count that is one higher, until the count reaches `GetMaxRetry()` and
the job is `DEAD`. So it is tried once more than `GetMaxRetry()` says. The configuration accepts any
number of 64 bits for `max-retry`, but keeps it in eight: from 256 on, fewer attempts are made than
were asked for (`attempts_eq_iff`).
-/

namespace WebhookBroker

open Lib

/-- `deliverJob`: the database after it, and whether the consumer was called. The clock reads `now`
and, at the settle write, `later`. -/
def deliverJob (cfg : Config) (now later : Time) (delivered : Bool) (job : DeliveryJob) (db : Db) :
    Db × Bool :=
  match (markJobInflight now job).run db with
  | (.error _, db) => ((reparkQueuedJob now job db).2, false)
  | (.ok job, db) => ((((settleMark cfg job delivered).update later job).run db).2, true)

/-! ## The function is what a worker does -/

section
variable [NetUrl] {cfg : Config} {s : Sys} {t : Nat} {job : DeliveryJob}

/-- A worker that has a job takes the steps of `deliverJob`. -/
theorem deliverJob_steps (hth : s.threads t = .deliver job) (delivered : Bool) :
    ∃ acts, (∀ a ∈ acts, ∃ env, a = .run t env) ∧
      (exec (Sys.step cfg) s acts).map (fun s' => (s'.threads t, s'.db)) =
        some (.idle, (deliverJob cfg s.clock s.clock delivered job s.db).1) := by
  unfold deliverJob
  rcases hr : (markJobInflight s.clock job).run s.db with ⟨_ | job', db'⟩
  · have hmark : (Mark.inflight.update s.clock job).run s.db = (.error _, db') := hr
    refine ⟨[.run t {}, .run t {}], by simp, ?_⟩
    simp [exec, Sys.step, Sys.enabled, hth, Sys.opOf, DbOp.step, DbOp.admissible, Thread.op,
      DbOp.succeeds, DbOp.exec, hmark, Sys.advance, Thread.next, Except.isOk, Except.toBool,
      Sys.setThread]
  · have hmark : (Mark.inflight.update s.clock job).run s.db = (.ok job', db') := hr
    have hcopy : job' = (markJobInflight s.clock job).copy := by
      rcases (markJobInflight s.clock job).run_cases s.db with ⟨-, hr'⟩ | ⟨e, hr'⟩
      · rw [hr] at hr'
        cases hr'
        rfl
      · rw [hr] at hr'
        cases hr'
    refine ⟨[.run t {}, .run t { answer := delivered }, .run t {}], by simp, ?_⟩
    simp [exec, Sys.step, Sys.enabled, hth, Sys.opOf, DbOp.step, DbOp.admissible, Thread.op,
      DbOp.succeeds, DbOp.exec, hmark, Sys.advance, Thread.next, Except.isOk, Except.toBool,
      Sys.setThread, hcopy]

end

open Sample

theorem deliverJob_steps_delivered :
    let s := (sys .push).setThread 0 (.deliver (job .push 5))
    ∃ acts, (∀ a ∈ acts, ∃ env, a = .run 0 env) ∧
      (exec (@Sys.step netUrl config) s acts).map (fun s' => (s'.threads 0, s'.db)) =
        some (.idle, (deliverJob config s.clock s.clock true (job .push 5) s.db).1) :=
  @deliverJob_steps netUrl config _ 0 _ rfl true

/-! ## Repeated runs -/

/-- The database stores a job in `row`, and its consumer is not paused. -/
structure Db.Delivers (db : Db) (id : Xid) (row : JobRow) : Prop where
  ids : (db.job.map (·.id)).Nodup
  stored : rowAt (·.id) db.job id = some row
  unpaused : db.effectivelyPaused row.consumerId.string = false

section
variable {cfg : Config} {db : Db} {id : Xid} {row : JobRow} {job : DeliveryJob} {now later : Time}

theorem Db.Delivers.mark (h : db.Delivers id row) {m : Mark} (hid : job.id = id)
    (hguard : (m.update now job).guard db row = true) :
    ∃ db', (m.update now job).run db = (.ok (m.update now job).copy, db') ∧
      db'.Delivers id ((m.update now job).set row) := by
  obtain ⟨hmem, hrow⟩ := mem_of_rowAt h.stored
  have hmatch : (m.update now job).matches db row = true := by
    rw [JobUpdate.matches, hguard, Mark.update_id, Bool.and_true, Xid.like_iff]
    exact hid.trans hrow.symm
  have hset : ∀ r, ((m.update now job).set r).id = r.id := by
    intro r
    exact congrArg JobRef.id (m.ref_set now job r)
  refine ⟨_, JobUpdate.run_of_countP (JobUpdate.countP_matches h.ids hmem hmatch), ?_, ?_, ?_⟩
  · rw [map_updateWhere fun r _ => hset r]
    exact h.ids
  · rw [rowAt_updateWhere fun r _ => hset r, h.stored, Option.map_some, if_pos hmatch]
  · have hconsumer : ((m.update now job).set row).consumerId = row.consumerId := by
      cases m <;> rfl
    rw [hconsumer]
    exact h.unpaused

/-- A run for a `QUEUED` job whose consumer fails: the job is retried or, with its retries used up,
`DEAD`. -/
theorem Db.Delivers.deliverJob_fails (h : db.Delivers id row) (hqueued : row.status = .queued)
    (hid : job.id = id) (hcount : job.retryAttemptCount = row.retryAttemptCount) :
    ∃ row', (deliverJob cfg now later false job db).1.Delivers id row' ∧
      (deliverJob cfg now later false job db).2 = true ∧
      if cfg.maxRetry ≤ row.retryAttemptCount then
        row'.status = .dead ∧ row'.retryAttemptCount = row.retryAttemptCount
      else row'.status = .queued ∧ row'.retryAttemptCount = row.retryAttemptCount + 1 := by
  have hguard : (Mark.inflight.update now job).guard db row = true := by
    simp [Mark.update, markJobInflight, jobNotPausedClause, hqueued, hcount, h.unpaused]
  obtain ⟨db', hrun, h'⟩ := h.mark hid hguard
  have heq : deliverJob cfg now later false job db =
      ((((settleMark cfg (Mark.inflight.update now job).copy false).update later
        (Mark.inflight.update now job).copy).run db').2, true) := by
    unfold deliverJob
    rw [show markJobInflight now job = Mark.inflight.update now job from rfl, hrun]
  have hcopy : (Mark.inflight.update now job).copy.retryAttemptCount = row.retryAttemptCount :=
    hcount
  have hid' : (Mark.inflight.update now job).copy.id = id := hid
  rw [heq]
  unfold settleMark
  simp only [Bool.false_eq_true, if_false, hcopy, ge_iff_le]
  split
  · have hguard' : (Mark.dead.update later (Mark.inflight.update now job).copy).guard db'
        ((Mark.inflight.update now job).set row) = true := rfl
    obtain ⟨db'', hrun', h''⟩ := h'.mark hid' hguard'
    rw [hrun']
    exact ⟨_, h'', trivial, rfl, rfl⟩
  · have hguard' : ∀ delta, ((Mark.retry delta).update later
        (Mark.inflight.update now job).copy).guard db'
        ((Mark.inflight.update now job).set row) = true := fun _ => rfl
    obtain ⟨db'', hrun', h''⟩ := h'.mark hid' (hguard' _)
    rw [hrun']
    exact ⟨_, h'', trivial, rfl, by rw [← hcopy]; rfl⟩

/-- A run for a job that is not `QUEUED` changes nothing and does not call the consumer. -/
theorem Db.Delivers.deliverJob_refused (h : db.Delivers id row) (hqueued : row.status ≠ .queued)
    (hid : job.id = id) : deliverJob cfg now later false job db = (db, false) := by
  obtain ⟨hmem, hrow⟩ := mem_of_rowAt h.stored
  have hno : ¬ ((Mark.inflight.update now job).run db).1.isOk = true := by
    rw [Mark.isOk_run_eq h.ids hmem (hid.trans hrow.symm)]
    intro hguard
    exact hqueued (Mark.status_of_guard hguard)
  unfold deliverJob
  rcases (markJobInflight now job).run_cases db with ⟨-, hr⟩ | ⟨e, hr⟩
  · rw [show markJobInflight now job = Mark.inflight.update now job from rfl] at hr
    rw [hr] at hno
    exact absurd rfl hno
  · rw [hr]
    rcases reparkQueuedJob_cases now job db with ⟨row', hone, -, -⟩ | ⟨r, hrepark, -⟩
    · have hmem' : row' ∈ db.job.filter (fun j => j.id == job.id && j.status == .queued) := by
        rw [hone]
        exact List.mem_singleton.2 rfl
      obtain ⟨hin, hcond⟩ := List.mem_filter.1 hmem'
      simp only [Bool.and_eq_true, beq_iff_eq] at hcond
      have hsame : row' = row :=
        List.inj_on_of_nodup_map h.ids hin hmem ((hcond.1.trans hid).trans hrow.symm)
      exact absurd (hsame ▸ hcond.2) hqueued
    · dsimp only
      rw [hrepark]

end

section
variable (cfg : Config) (clock : Nat → Time × Time) (id : Xid) (db : Db)

/-- The database and the number of attempts after `n` runs of `deliverJob` on the stored job, whose
consumer always fails. -/
def deliverJobRuns : Nat → Db × Nat
  | 0 => (db, 0)
  | n + 1 =>
    let (db, attempts) := deliverJobRuns n
    match rowAt (·.id) db.job id with
    | none => (db, attempts)
    | some row =>
      let (db', attempted) := deliverJob cfg (clock n).1 (clock n).2 false (row.toDeliveryJob db) db
      (db', attempts + attempted.toNat)

end

/-- Where a job is after `n` runs: `QUEUED` with `n` attempts behind it or, once its retries are
used up, `DEAD`. -/
structure RunsInv (cfg : Config) (id : Xid) (n : Nat) (s : Db × Nat) (row : JobRow) : Prop where
  delivers : s.1.Delivers id row
  retried : n ≤ cfg.maxRetry →
    row.status = .queued ∧ row.retryAttemptCount = n ∧ s.2 = n
  dead : cfg.maxRetry < n →
    row.status = .dead ∧ row.retryAttemptCount = cfg.maxRetry ∧ s.2 = cfg.maxRetry + 1

section
variable {cfg : Config} {clock : Nat → Time × Time} {id : Xid} {db : Db} {row : JobRow}

theorem RunsInv.step {n : Nat} (h : RunsInv cfg id n (deliverJobRuns cfg clock id db n) row) :
    ∃ row', RunsInv cfg id (n + 1) (deliverJobRuns cfg clock id db (n + 1)) row' := by
  rw [deliverJobRuns]
  generalize deliverJobRuns cfg clock id db n = s at h
  obtain ⟨db₁, attempts⟩ := s
  dsimp only
  have hid : (row.toDeliveryJob db₁).id = id := (mem_of_rowAt h.delivers.stored).2
  rw [h.delivers.stored]
  dsimp only
  rcases Nat.lt_or_ge cfg.maxRetry n with hdead | hle
  · obtain ⟨hstatus, hcount, hattempts⟩ := h.dead hdead
    rw [h.delivers.deliverJob_refused (by rw [hstatus]; exact nofun) hid]
    exact ⟨row, h.delivers, fun hle => by omega, fun _ => ⟨hstatus, hcount, hattempts⟩⟩
  · obtain ⟨hstatus, hcount, hattempts⟩ := h.retried hle
    obtain ⟨row', hdelivers, htrue, hrow'⟩ := @Db.Delivers.deliverJob_fails cfg db₁ id row
      (row.toDeliveryJob db₁) (clock n).1 (clock n).2 h.delivers hstatus hid rfl
    refine ⟨row', hdelivers, ?_, ?_⟩
    · intro hle'
      rw [if_neg (by omega)] at hrow'
      refine ⟨hrow'.1, by omega, ?_⟩
      simp only [htrue, Bool.toNat_true]
      omega
    · intro hlt
      rw [if_pos (by omega)] at hrow'
      refine ⟨hrow'.1, by omega, ?_⟩
      simp only [htrue, Bool.toNat_true]
      omega

theorem runsInv (h : db.Delivers id row) (hqueued : row.status = .queued)
    (hcount : row.retryAttemptCount = 0) (n : Nat) :
    ∃ row', RunsInv cfg id n (deliverJobRuns cfg clock id db n) row' := by
  induction n with
  | zero => exact ⟨row, h, fun _ => ⟨hqueued, hcount, rfl⟩, fun hlt => by omega⟩
  | succ n ih =>
    obtain ⟨row', hinv⟩ := ih
    exact hinv.step

end

/-- With `max-retry` set to `n`, a job whose consumer always fails is tried exactly `n + 1` times
and then `DEAD` with the count `n` if and only if `n` is below 256. -/
theorem attempts_eq_iff (broker : BrokerSection) (n : Fin (2 ^ 64)) (hn : broker.maxRetry = some n)
    (cfg : Config) (clock : Nat → Time × Time) (id : Xid) (db : Db) (row : JobRow)
    (h : db.Delivers id row) (hqueued : row.status = .queued) (hcount : row.retryAttemptCount = 0) :
    (∀ runs, n.val + 1 ≤ runs →
      (deliverJobRuns (setupBrokerConfiguration broker cfg) clock id db runs).2 = n.val + 1 ∧
      ∃ row', rowAt (·.id)
          (deliverJobRuns (setupBrokerConfiguration broker cfg) clock id db runs).1.job id =
            some row' ∧ row'.status = .dead ∧ row'.retryAttemptCount = n) ↔
    n.val < 256 := by
  have hmax := setupBrokerConfiguration_maxRetry hn cfg
  generalize setupBrokerConfiguration broker cfg = cfg' at hmax ⊢
  have hle : n.val % 256 ≤ n.val := Nat.mod_le _ _
  constructor
  · intro hall
    obtain ⟨row', hinv⟩ := @runsInv cfg' clock id db row h hqueued hcount (n.val + 1)
    have hattempts := (hall (n.val + 1) (Nat.le_refl _)).1
    rw [(hinv.dead (by omega)).2.2] at hattempts
    omega
  · intro hlt runs hruns
    have heq : n.val % 256 = n.val := Nat.mod_eq_of_lt hlt
    obtain ⟨row', hinv⟩ := @runsInv cfg' clock id db row h hqueued hcount runs
    obtain ⟨hstatus, hretries, hattempts⟩ := hinv.dead (by omega)
    exact ⟨by omega, row', hinv.delivers.stored, hstatus, by omega⟩

/-- The section with `max-retry` only. -/
def Sample.retries (n : Fin (2 ^ 64)) : BrokerSection := ⟨some n, none, []⟩

/-- A database with one job that was never tried. -/
def Sample.queuedDb : Db := { db .push with job := [(job .push second).jobRow] }

theorem Sample.queuedDb_delivers :
    queuedDb.Delivers jobXid (job .push second).jobRow := ⟨by decide, by decide, by decide⟩

theorem attempts_eq_two_retries :
    (deliverJobRuns (setupBrokerConfiguration (retries 2) config) (fun n => (n, n))
      jobXid queuedDb 3).2 = 3 :=
  ((attempts_eq_iff (retries 2) 2 rfl config (fun n => (n, n)) jobXid
    queuedDb _ queuedDb_delivers rfl rfl).2 (by decide) 3 (Nat.le_refl 3)).1

/-- With `max-retry` set to 256, the job is tried once. -/
theorem attempts_of_256_retries :
    (deliverJobRuns (setupBrokerConfiguration (retries 256) config) (fun n => (n, n))
      jobXid queuedDb 257).2 = 1 ∧
    ∃ row, rowAt (·.id)
        (deliverJobRuns (setupBrokerConfiguration (retries 256) config)
          (fun n => (n, n)) jobXid queuedDb 257).1.job jobXid = some row ∧
      row.status = .dead ∧ row.retryAttemptCount = 0 := by
  have hmax : (setupBrokerConfiguration (retries 256) config).maxRetry = 0 := rfl
  obtain ⟨row, hinv⟩ := @runsInv (setupBrokerConfiguration (retries 256) config)
    (fun n => (n, n)) _ _ _ queuedDb_delivers rfl rfl 257
  obtain ⟨hstatus, hcount, hattempts⟩ := hinv.dead (by rw [hmax]; omega)
  rw [hmax] at hcount hattempts
  exact ⟨hattempts, row, hinv.delivers.stored, hstatus, hcount⟩

end WebhookBroker
