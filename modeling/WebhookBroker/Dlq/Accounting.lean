import WebhookBroker.Controllers.Job
import WebhookBroker.Dlq.Deaths
import WebhookBroker.Dlq.Updater

/-!
# The counts of the summary over a run

The cycles add the deaths to `dead_count`, and whoever takes a job out of `DEAD` has to take it from
`dead_count` again. The two delete endpoints do; a requeue, of one job or of all jobs of a consumer,
and the hand-out of a dead job do not. And a delete takes a job away that was perhaps never added.

Events follow each other here, at least two seconds apart, so that neither rounding nor a count in
progress matters. What is left is the balance of a consumer: `dead_count` is right after a cycle if
each job that has left `DEAD` before was a counted one exactly if it was taken from `dead_count`.
-/

namespace WebhookBroker

open Lib List

/-- The precision of the dialect, the update interval and `GetMaxRetry()`. -/
structure DlqConfig where
  prec : Precision
  interval : Duration
  maxRetry : Nat

/-- The database, the summary and the time of the last event. -/
structure DlqSys where
  db : Db
  table : List DlqSummary
  clock : Time

inductive DlqEvent where
  /-- an operation other than a delete of dead jobs -/
  | job (op : DbOp)
  /-- `DeadJobDeleteController.Delete` with the consumer and the job that it has loaded -/
  | deleteJob (consumer : Consumer) (job : DeliveryJob)
  /-- `DLQPurgeController.Delete` with the consumer that it has loaded -/
  | purge (consumer : Consumer)
  | update (order : MapOrder)

/-- An event with the clock reading of its operation. -/
structure DlqAction where
  now : Time
  event : DlqEvent

instance : Inhabited DlqAction := ⟨0, .job default⟩

/-- The operation of an event, and the consumer from whose `dead_count` it takes what it deletes. -/
def DlqEvent.op? (cfg : DlqConfig) : DlqEvent → Option (DbOp × Option Xid)
  | .job op => some (op, none)
  | .deleteJob consumer loaded => some (.deleteDeadJob loaded cfg.maxRetry, some consumer.id)
  | .purge consumer => some (.deleteDeadJobsForConsumer consumer cfg.maxRetry, some consumer.id)
  | .update _ => none

def DbOp.deletesDead : DbOp → Bool
  | .deleteDeadJob .. | .deleteDeadJobsForConsumer .. => true
  | _ => false

/-- What a delete endpoint does with the result of its delete. -/
def afterDelete (consumer : Consumer) (table : List DlqSummary) :
    Except StorageErr Nat × Db → Db × List DlqSummary
  | (.ok rowsAffected, db) => (db, decrementCount consumer.id rowsAffected table)
  | (.error _, db) => (db, table)

namespace DlqSys

def cycle (cfg : DlqConfig) (s : DlqSys) (now : Time) (order : MapOrder) : UpdateCycle :=
  { interval := cfg.interval, db := s.db, table := s.table, now := now, order := order }

def handle [NetUrl] (cfg : DlqConfig) (s : DlqSys) (now : Time) :
    DlqEvent → Option (Db × List DlqSummary)
  | .job op =>
    if op.deletesDead = false ∧ op.deathTime?.all (· == cfg.prec.keep now) then
      (op.step s.db).map (·, s.table)
    else none
  | .deleteJob consumer job =>
    if job.isFor consumer then
      some (afterDelete consumer s.table (deleteDeadJob job cfg.maxRetry s.db))
    else none
  | .purge consumer =>
    some (afterDelete consumer s.table (deleteDeadJobsForConsumer consumer cfg.maxRetry s.db))
  | .update order =>
    if s.db.NamesFound then some (s.db, (processUpdate cfg.prec (cycle cfg s now order)).2)
    else none

/-- An event at least two seconds after the last one. -/
def step [NetUrl] (cfg : DlqConfig) (s : DlqSys) (a : DlqAction) : Option DlqSys :=
  if s.clock + 2 * second ≤ a.now then
    (handle cfg s a.now a.event).map fun tables => ⟨tables.1, tables.2, a.now⟩
  else none

/-- There is no summary yet, and the jobs that are dead died in the past. -/
def initial (cfg : DlqConfig) (s : DlqSys) : Prop :=
  s.table = [] ∧ ∀ row ∈ s.db.deadJobs, row.statusChangedAt ≤ cfg.prec.keep s.clock

end DlqSys

abbrev DlqRun [NetUrl] (cfg : DlqConfig) := Run (DlqSys.initial cfg) (DlqSys.step cfg)

/-- After two seconds, the whole second of the stored clock reading is later than the last
reading. -/
theorem Precision.keep_lt_wholeSecond (prec : Precision) {t now : Time}
    (h : t + 2 * second ≤ now) : prec.keep t < wholeSecond (prec.keep now) := by
  have hhalf : second = second / 2 + second / 2 := by decide
  have hold := (prec.near t).2
  have hnew := (prec.near now).1
  have hcut := lt_wholeSecond_add (prec.keep now)
  linarith

namespace DlqSys
variable {cfg : DlqConfig} {s s' : DlqSys} {a : DlqAction} {c : Xid}

/-- What happened is not later than the clock. -/
structure Timed (cfg : DlqConfig) (s : DlqSys) : Prop where
  deaths : ∀ row ∈ s.db.deadJobs, row.statusChangedAt ≤ cfg.prec.keep s.clock
  checks : CheckedBy (cfg.prec.keep s.clock) s.table

theorem initial.timed (h : initial cfg s) : Timed cfg s where
  deaths := h.2
  checks := by
    rw [h.1]
    exact fun row hrow => absurd hrow not_mem_nil

/-- A counted job of a consumer: the checkpoint has its death behind it. -/
def isCounted (s : DlqSys) (c : Xid) (row : JobRow) : Bool :=
  decide (row.consumerId = c) && decide (Covers (getLastCheckedAt s.table) row)

/-- The number of counted jobs of a consumer. -/
def counted (s : DlqSys) (c : Xid) : Nat := s.db.deadJobs.countP (s.isCounted c)

/-- The event takes a job out of `DEAD` and from the `dead_count` of the consumer, or neither: no
counted job of the consumer is requeued, handed out, pruned or deleted for another consumer, and
only counted jobs of the consumer are deleted for it. -/
def Careful (cfg : DlqConfig) (s : DlqSys) (c : Xid) (e : DlqEvent) : Prop :=
  ∀ op k, e.op? cfg = some (op, k) → ∀ row ∈ s.db.deadJobs, op.takes s.db row = true →
    (s.isCounted c row = true ↔ k = some c)

/-- Everything that an event can do to the dead jobs and to the summary. -/
inductive Handled (cfg : DlqConfig) (s : DlqSys) (now : Time) (e : DlqEvent) (db : Db)
    (table : List DlqSummary) : Prop
  | job {op : DbOp} (he : e.op? cfg = some (op, none)) (hstep : DeathStep op s.db db.deadJobs)
      (htime : ∀ t, op.deathTime? = some t → t = cfg.prec.keep now) (htable : table = s.table)
  | delete {op : DbOp} {k : Xid} (he : e.op? cfg = some (op, some k))
      (hdead : db.deadJobs = s.db.deadJobs.filter fun row => !op.takes s.db row)
      (htable : table = decrementCount k (s.db.deadJobs.countP (op.takes s.db)) s.table)
  | update {order : MapOrder} (he : e = .update order) (hnames : s.db.NamesFound)
      (hdb : db = s.db) (htable : table = (processUpdate cfg.prec (cycle cfg s now order)).2)

section
variable [NetUrl]

theorem step_eq_some (h : step cfg s a = some s') : s.clock + 2 * second ≤ a.now ∧
    handle cfg s a.now a.event = some (s'.db, s'.table) ∧ s'.clock = a.now := by
  unfold step at h
  split at h
  · obtain ⟨tables, htables, rfl⟩ := Option.map_eq_some_iff.1 h
    exact ⟨‹_›, htables, rfl⟩
  · cases h

variable {table : List DlqSummary}
variable {now : Time}

omit [NetUrl] in
/-- A delete always succeeds, and what it deletes is taken from `dead_count`. -/
theorem afterDelete_deleteJob (consumer : Consumer) (q : JobRow → Bool) (db : Db) :
    afterDelete consumer table (transactionalOperations (deleteJob q) db) =
      ({ db with job := deleteWhere q db.job },
        decrementCount consumer.id (db.job.countP q) table) :=
  rfl

omit [NetUrl] in
/-- A delete affects as many rows as dead jobs that it takes. -/
theorem countP_takes {q p : JobRow → Bool} (h : ∀ row, row.status ≠ .dead → q row = false)
    (h' : ∀ row, row.status = .dead → q row = p row) (db : Db) :
    db.job.countP q = db.deadJobs.countP p := by
  rw [Db.deadJobs, countP_filter]
  refine countP_congr fun row _ => ?_
  rcases eq_or_ne row.status .dead with hdead | hdead
  · simp [h' row hdead, hdead]
  · simp [h row hdead, hdead]

theorem handled {e : DlqEvent} {db : Db} (h : handle cfg s now e = some (db, table)) :
    Handled cfg s now e db table := by
  cases e with
  | job op =>
    simp only [handle] at h
    split at h
    · rename_i hop
      obtain ⟨db', hstep, heq⟩ := Option.map_eq_some_iff.1 h
      cases heq
      refine .job rfl (DbOp.step_effect hstep).deathStep (fun t ht => ?_) rfl
      rw [ht] at hop
      exact beq_iff_eq.1 hop.2
    · cases h
  | deleteJob consumer job =>
    simp only [handle] at h
    split at h
    · rw [deleteDeadJob, afterDelete_deleteJob] at h
      cases h
      have he : (DlqEvent.deleteJob consumer job).op? cfg =
          some (.deleteDeadJob job cfg.maxRetry, some consumer.id) := rfl
      refine .delete he (deadJobs_deleteWhere fun row hdead => by simp [DbOp.takes, hdead]) ?_
      rw [countP_takes (p := (DbOp.deleteDeadJob job cfg.maxRetry).takes s.db)
        (fun row hdead => by simp [hdead]) fun row hdead => by simp [DbOp.takes, hdead]]
    · cases h
  | purge consumer =>
    simp only [handle, deleteDeadJobsForConsumer, afterDelete_deleteJob] at h
    cases h
    have he : (DlqEvent.purge consumer).op? cfg =
        some (.deleteDeadJobsForConsumer consumer cfg.maxRetry, some consumer.id) := rfl
    refine .delete he (deadJobs_deleteWhere fun row hdead => by simp [DbOp.takes, hdead]) ?_
    rw [countP_takes (p := (DbOp.deleteDeadJobsForConsumer consumer cfg.maxRetry).takes s.db)
      (fun row hdead => by simp [hdead]) fun row hdead => by simp [DbOp.takes, hdead]]
  | update order =>
    simp only [handle] at h
    split at h
    · cases h
      exact .update rfl ‹_› rfl rfl
    · cases h

end

variable {order : MapOrder} {now : Time}

theorem checkTime_cycle : (cycle cfg s now order).checkTime = now := by
  unfold UpdateCycle.checkTime cycle
  split <;> rfl

theorem Timed.checks_cycle (ht : Timed cfg s) (hnow : s.clock + 2 * second ≤ now) :
    CheckedBy (cfg.prec.keep (cycle cfg s now order).checkTime) (cycle cfg s now order).table := by
  rw [checkTime_cycle]
  exact ht.checks.mono ((cfg.prec.keep_lt_wholeSecond hnow).le.trans (wholeSecond_le _))

theorem step_timed [NetUrl] (h : step cfg s a = some s') (ht : Timed cfg s) : Timed cfg s' := by
  obtain ⟨hclock, hhandle, hnow⟩ := step_eq_some h
  have hlater : cfg.prec.keep s.clock ≤ cfg.prec.keep s'.clock := by
    rw [hnow]
    exact (cfg.prec.keep_lt_wholeSecond hclock).le.trans (wholeSecond_le _)
  have hchecks := ht.checks.mono hlater
  have hdeaths : ∀ row ∈ s.db.deadJobs, row.statusChangedAt ≤ cfg.prec.keep s'.clock :=
    fun row hrow => (ht.deaths row hrow).trans hlater
  cases handled hhandle with
  | job _ hstep htime htable =>
    refine ⟨fun row hrow => ?_, htable ▸ hchecks⟩
    cases hstep with
    | keeps hsame => exact hdeaths row (hsame ▸ hrow)
    | dies hop hperm hnew =>
      rcases mem_append.1 (hperm.mem_iff.1 hrow) with hrow | hrow
      · rw [hnew row hrow, htime _ hop, hnow]
      · exact hdeaths row hrow
    | leaves _ hdead => exact hdeaths row (mem_of_mem_filter (hdead ▸ hrow))
  | delete _ hdead htable =>
    refine ⟨fun row hrow => hdeaths row (mem_of_mem_filter (hdead ▸ hrow)), ?_⟩
    rw [htable]
    exact hchecks.decrementCount _
  | update _ _ hdb htable =>
    refine ⟨hdb ▸ hdeaths, ?_⟩
    rw [htable, UpdateCycle.processUpdate_table]
    refine hchecks.upsertAll fun summary hmem => ?_
    rw [UpdateCycle.lastCheckedAt_of_mem_committed summary hmem, checkTime_cycle, hnow]

/-! ## Events other than updates -/

/-- A new death is after the checkpoint. -/
theorem Timed.not_covers (ht : Timed cfg s) (hnow : s.clock + 2 * second ≤ now) {row : JobRow}
    (hrow : row.statusChangedAt = cfg.prec.keep now) :
    ¬ Covers (getLastCheckedAt s.table) row := by
  intro hcovers
  cases hlast : getLastCheckedAt s.table with
  | none =>
    rw [hlast] at hcovers
    exact covers_none hcovers
  | some since =>
    rw [hlast, covers_some, hrow] at hcovers
    have hsince := ht.checks.checkpoint_le hlast
    have hcut := wholeSecond_le (cfg.prec.keep s.clock)
    have hkeep := cfg.prec.keep_lt_wholeSecond hnow
    have hcut' := wholeSecond_le (cfg.prec.keep now)
    linarith

/-- The counted jobs are those that an event takes and those that it leaves. -/
theorem countP_takes_add (s : DlqSys) (c : Xid) (p : JobRow → Bool) :
    s.db.deadJobs.countP (fun row => s.isCounted c row && p row) +
      (s.db.deadJobs.filter fun row => !p row).countP (s.isCounted c) = s.counted c := by
  rw [counted, countP_filter]
  induction s.db.deadJobs with
  | nil => rfl
  | cons row rows ih =>
    simp only [countP_cons, ← ih]
    cases s.isCounted c row <;> cases p row <;> simp <;> omega

/-- A requeue, a hand-out or a death that is careful leaves the counted jobs as they are. -/
theorem Timed.counted_job (ht : Timed cfg s) (hnow : s.clock + 2 * second ≤ now) {op : DbOp}
    (hstep : DeathStep op s.db s'.db.deadJobs)
    (htime : ∀ t, op.deathTime? = some t → t = cfg.prec.keep now) (htable : s'.table = s.table)
    (hcareful : ∀ row ∈ s.db.deadJobs, op.takes s.db row = true → s.isCounted c row = false) :
    s'.counted c = s.counted c := by
  have hsame : s'.isCounted c = s.isCounted c := by
    funext row
    rw [isCounted, isCounted, htable]
  rw [counted, hsame]
  cases hstep with
  | keeps heq => rw [heq, counted]
  | @dies t new hop hperm hnew =>
    have hnone : new.countP (s.isCounted c) = 0 := by
      refine countP_eq_zero.2 fun row hrow hcounted => ?_
      rw [isCounted, Bool.and_eq_true] at hcounted
      exact ht.not_covers hnow ((hnew row hrow).trans (htime t hop)) (of_decide_eq_true hcounted.2)
    rw [hperm.countP_eq, countP_append, hnone, Nat.zero_add, counted]
  | leaves _ hdead =>
    have hzero : s.db.deadJobs.countP (fun row => s.isCounted c row && op.takes s.db row) = 0 := by
      refine countP_eq_zero.2 fun row hrow hboth => ?_
      rw [Bool.and_eq_true] at hboth
      exact Bool.false_ne_true ((hcareful row hrow hboth.2).symm.trans hboth.1)
    rw [hdead, ← countP_takes_add s c (op.takes s.db), hzero, Nat.zero_add]

/-- A delete that is careful takes as many jobs from `dead_count` as counted jobs. -/
theorem counted_delete {op : DbOp} {k : Xid}
    (hdead : s'.db.deadJobs = s.db.deadJobs.filter fun row => !op.takes s.db row)
    (htable : s'.table = decrementCount k (s.db.deadJobs.countP (op.takes s.db)) s.table)
    (hcareful : ∀ row ∈ s.db.deadJobs, op.takes s.db row = true →
      (s.isCounted c row = true ↔ some k = some c))
    (hright : deadCount s.table c = s.counted c) :
    deadCount s'.table c = s'.counted c := by
  have hsame : s'.isCounted c = s.isCounted c := by
    funext row
    rw [isCounted, isCounted, htable, getLastCheckedAt_decrementCount]
  have hsplit := countP_takes_add s c (op.takes s.db)
  have htaken : s.db.deadJobs.countP (fun row => s.isCounted c row && op.takes s.db row) =
      if k = c then s.db.deadJobs.countP (op.takes s.db) else 0 := by
    split
    · rename_i hk
      refine countP_congr fun row hrow => ?_
      rw [Bool.and_eq_true, and_iff_right_iff_imp]
      exact fun htakes => (hcareful row hrow htakes).2 (congrArg some hk)
    · rename_i hk
      refine countP_eq_zero.2 fun row hrow hboth => hk ?_
      rw [Bool.and_eq_true] at hboth
      exact Option.some.inj ((hcareful row hrow hboth.2).1 hboth.1)
  rw [counted, hdead, hsame, htable, deadCount_decrementCount, hright, ← hsplit, htaken]
  omega

theorem complete_cycle (h : s.db.NamesFound) :
    (cycle cfg s now order).Complete where
  lookups _ := rfl
  writes _ := rfl
  names := h

theorem Timed.counted_update (ht : Timed cfg s) (hnow : s.clock + 2 * second ≤ now)
    (hnames : s.db.NamesFound)
    (hrun : (processUpdate cfg.prec (cycle cfg s now order)).1 ≠ .skipped) (hdb : s'.db = s.db)
    (htable : s'.table = (processUpdate cfg.prec (cycle cfg s now order)).2) :
    s'.counted c = s.db.deadJobsOf c := by
  have hcheck : getLastCheckedAt s'.table = _ := htable ▸
    UpdateCycle.getLastCheckedAt_processUpdate (ht.checks_cycle hnow)
  have hcovers : ∀ row ∈ s.db.deadJobs, Covers (getLastCheckedAt s'.table) row := by
    intro row hrow
    by_cases hnil : (cycle cfg s now order).committed cfg.prec = []
    · rw [hcheck, if_pos hnil]
      by_contra hnot
      have hcounted := ((complete_cycle hnames).committed_eq_nil hrun).1 hnil
      have hmem : row ∈ (cycle cfg s now order).counted := Db.mem_deadJobsSince.2 ⟨hrow, hnot⟩
      rw [hcounted] at hmem
      exact not_mem_nil hmem
    · rw [hcheck, if_neg hnil, covers_some, checkTime_cycle]
      exact (ht.deaths row hrow).trans (cfg.prec.keep_lt_wholeSecond hnow).le
  rw [counted, hdb, Db.deadJobsOf, groupSize]
  refine countP_congr fun row hrow => ?_
  rw [isCounted, decide_eq_true (hcovers row hrow), Bool.and_true]

/-- An update that is not skipped adds the jobs that are not counted yet. -/
theorem deadCount_update (hnames : s.db.NamesFound)
    (hrun : (processUpdate cfg.prec (cycle cfg s now order)).1 ≠ .skipped)
    (hright : deadCount s.table c = s.counted c) :
    deadCount (processUpdate cfg.prec (cycle cfg s now order)).2 c = s.db.deadJobsOf c := by
  have hcounted : s.counted c =
      groupSize (·.consumerId) (s.db.deadJobsUpTo (getLastCheckedAt s.table)) c := by
    rw [groupSize, Db.deadJobsUpTo, countP_filter]
    rfl
  have hadded : deadCount (processUpdate cfg.prec (cycle cfg s now order)).2 c =
      deadCount s.table c +
        groupSize (·.consumerId) (s.db.deadJobsSince (getLastCheckedAt s.table)) c :=
    (complete_cycle hnames).deadCount_eq hrun c
  rw [hadded, hright, hcounted, groupSize_upTo_add_since, Db.deadJobsOf]

/-- Where `dead_count` is the number of counted jobs, it is so after a careful event. -/
theorem step_right [NetUrl] (h : step cfg s a = some s') (ht : Timed cfg s)
    (hcareful : s.Careful cfg c a.event) (hright : deadCount s.table c = s.counted c) :
    deadCount s'.table c = s'.counted c := by
  obtain ⟨hclock, hhandle, -⟩ := step_eq_some h
  cases handled hhandle with
  | job he hstep htime htable =>
    rw [ht.counted_job hclock hstep htime htable fun row hrow htakes => ?_, htable, hright]
    exact Bool.eq_false_iff.2 fun hcounted => nomatch (hcareful _ _ he row hrow htakes).1 hcounted
  | delete he hdead htable => exact counted_delete hdead htable (hcareful _ _ he) hright
  | @update order _ hnames hdb htable =>
    by_cases hrun : (processUpdate cfg.prec (cycle cfg s a.now order)).1 = .skipped
    · have hsame : s'.table = s.table :=
        htable.trans (UpdateCycle.processUpdate_of_skipped hrun)
      rw [hsame, hright, counted, counted, hdb]
      refine countP_congr fun row _ => ?_
      rw [isCounted, isCounted, hsame]
    · rw [ht.counted_update hclock hnames hrun hdb htable, htable]
      exact deadCount_update hnames hrun hright

end DlqSys

namespace DlqRun
variable [NetUrl] {cfg : DlqConfig}

def Updates (r : DlqRun cfg) (n : Nat) : Prop :=
  ∃ order, (r.act n).event = .update order ∧
    (processUpdate cfg.prec (DlqSys.cycle cfg (r.state n) (r.act n).now order)).1 ≠ .skipped

variable {r : DlqRun cfg} {n : Nat}

theorem timed (hn : n ≤ r.len) : DlqSys.Timed cfg (r.state n) :=
  r.invariant (fun _ h => h.timed) (fun _ _ _ ht h => DlqSys.step_timed h ht) n hn

/-- As long as the events are careful, `dead_count` is the number of counted jobs. -/
theorem right (hn : n ≤ r.len) {c : Xid}
    (hcareful : ∀ i < n, (r.state i).Careful cfg c (r.act i).event) :
    deadCount (r.state n).table c = (r.state n).counted c := by
  induction n with
  | zero =>
    have hnone : (r.state 0).isCounted c = fun _ => false := by
      funext row
      simp [DlqSys.isCounted, r.start.1, getLastCheckedAt]
    rw [DlqSys.counted, hnone, r.start.1]
    simp [deadCount, rowAt]
  | succ n ih =>
    have hle := Nat.le_of_succ_le hn
    exact DlqSys.step_right (r.next n hn) (timed hle) (hcareful n (Nat.lt_succ_self n))
      (ih hle fun i hi => hcareful i (Nat.lt_succ_of_lt hi))

end DlqRun

/-- After an update that is not skipped, the `dead_count` of a consumer is the number of its dead
jobs, if each event before was careful with the consumer. -/
theorem dead_count_right [NetUrl] {cfg : DlqConfig} (r : DlqRun cfg) {n : Nat} (hn : n < r.len)
    (hupdates : r.Updates n) (c : Xid)
    (hcareful : ∀ i < n, (r.state i).Careful cfg c (r.act i).event) :
    deadCount (r.state (n + 1)).table c = (r.state (n + 1)).db.deadJobsOf c := by
  obtain ⟨order, hact, hrun⟩ := hupdates
  obtain ⟨-, hhandle, -⟩ := DlqSys.step_eq_some (r.next n hn)
  rw [hact] at hhandle
  have hright := DlqRun.right hn.le hcareful
  cases DlqSys.handled hhandle with
  | job he => cases he
  | delete he => cases he
  | update he hnames hdb htable =>
    cases he
    rw [hdb, htable]
    exact DlqSys.deadCount_update hnames hrun hright

namespace Sample

def dlqConfig : DlqConfig := ⟨.mysql, second, 5⟩

def dlqStart : DlqSys where
  db := { db .push with
    job := [⟨jobXid, messageXid, consumerXid, .inflight, 5, 1, 1, 1, 1, 1, 0, 0⟩] }
  table := []
  clock := 0

theorem sameOrder (counts : List (Xid × Nat)) : (id counts).Perm counts := .refl _

/-- The job dies, is counted, and leaves `DEAD` before the next update. -/
def dlqEvents (leave : DlqEvent) : List DlqAction :=
  [⟨10 * second, .job (.mark .dead (10 * second) (job .push 1))⟩,
    ⟨20 * second, .update ⟨id, sameOrder⟩⟩, ⟨30 * second, leave⟩,
    ⟨40 * second, .update ⟨id, sameOrder⟩⟩]

def requeueRun : @DlqRun netUrl dlqConfig :=
  Run.ofActs dlqStart (dlqEvents (.job (.requeueDeadJob (30 * second) (job .push 1))))
    ⟨rfl, by decide +kernel⟩ (by decide +kernel)

def purgeRun : @DlqRun netUrl dlqConfig :=
  Run.ofActs dlqStart (dlqEvents (.purge (consumer .push)))
    ⟨rfl, by decide +kernel⟩ (by decide +kernel)

end Sample

open Sample

/-- The counted job is purged, and the next update finds no dead job and a `dead_count` of zero. -/
theorem dead_count_right_purged :
    deadCount (purgeRun.state 2).table consumerXid = 1 ∧
    deadCount (purgeRun.state 4).table consumerXid =
      (purgeRun.state 4).db.deadJobsOf consumerXid := by
  refine ⟨by decide +kernel, @dead_count_right netUrl _ purgeRun 3 (by decide)
    ⟨_, rfl, by decide +kernel⟩ consumerXid fun i hi => ?_⟩
  intro op k he
  rcases i with _ | _ | _ | i
  · cases he
    decide +kernel
  · cases he
  · cases he
    decide +kernel
  · omega

/-- After the second update, the consumer has a `dead_count` of one and no dead job. -/
theorem dead_count_keeps_requeued_job : ∃ r : @DlqRun netUrl dlqConfig, ∃ n,
    n < r.len ∧ @DlqRun.Updates netUrl _ r n ∧
      deadCount (r.state (n + 1)).table consumerXid = 1 ∧
      (r.state (n + 1)).db.deadJobsOf consumerXid = 0 :=
  ⟨requeueRun, 3, by decide, ⟨_, rfl, by decide +kernel⟩, by decide +kernel,
    by decide +kernel⟩

end WebhookBroker
