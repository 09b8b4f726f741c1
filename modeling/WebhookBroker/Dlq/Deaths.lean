import WebhookBroker.Storage.DlqSummaryRepo
import WebhookBroker.Storage.Integrity

/-!
# How jobs become dead and stop being dead

The rows with status `DEAD` are what the counts of the summary are about. `DeathStep` lists what an
operation can do to them: leave them, add the rows of the jobs it gives up, with the time at which
it does, or remove some of them by a requeue, a delete or the hand-out of a dead job.
-/

namespace WebhookBroker

open Lib List

/-- The time at which an operation gives jobs up. -/
def DbOp.deathTime? : DbOp → Option Time
  | .mark .dead now _ | .mark .queuedAsDead now _ => some now
  | _ => none

/-- The operations that take jobs out of `DEAD`. -/
def DbOp.revives : DbOp → Bool
  | .requeueDeadJob .. | .requeueDeadJobsForConsumer .. | .mark .deadAsInflight .. => true
  | op => op.isDelete

/-- The dead jobs that an operation takes out of `DEAD`. -/
def DbOp.takes (db : Db) : DbOp → JobRow → Bool
  | .requeueDeadJob _ job, r => sqlLike job.id.string r.id.string
  | .mark .deadAsInflight _ job, r => sqlLike job.id.string r.id.string && jobNotPausedClause db r
  | .requeueDeadJobsForConsumer _ consumer, r => sqlLike consumer.id.string r.consumerId.string
  | .deleteDeadJob job maxRetryCount, r =>
    r.id == job.id && decide (r.retryAttemptCount ≥ maxRetryCount)
  | .deleteDeadJobsForConsumer consumer maxRetryCount, r =>
    r.consumerId == consumer.id && decide (r.retryAttemptCount ≥ maxRetryCount)
  | .deleteMessagesAndJobs messageIDs, r => messageIDs.contains r.messageId.string
  | _, _ => false

/-- Everything that an operation can do to the rows with status `DEAD`. -/
inductive DeathStep (op : DbOp) (db : Db) (dead' : List JobRow) : Prop
  | keeps (h : dead' = db.deadJobs)
  | dies {t : Time} {new : List JobRow} (hop : op.deathTime? = some t)
      (hperm : dead'.Perm (new ++ db.deadJobs)) (hnew : ∀ row ∈ new, row.statusChangedAt = t)
  | leaves (hop : op.revives = true) (h : dead' = db.deadJobs.filter fun row => !op.takes db row)

section
variable {db db' : Db}

theorem filter_dead_append {rows : List JobRow} (h : ∀ row ∈ rows, row.status ≠ .dead) :
    (db.job ++ rows).filter (·.status == .dead) = db.deadJobs := by
  have hrows : rows.filter (·.status == .dead) = [] :=
    filter_eq_nil_iff.2 fun row hrow heq => h row hrow (beq_iff_eq.1 heq)
  rw [filter_append, hrows, append_nil, Db.deadJobs]

/-- Deleting rows takes the dead ones among them out of the dead jobs. -/
theorem deadJobs_deleteWhere {q p : JobRow → Bool}
    (h : ∀ row, row.status = .dead → q row = p row) :
    (deleteWhere q db.job).filter (·.status == .dead) = db.deadJobs.filter fun row => !p row := by
  rw [Db.deadJobs, deleteWhere, filter_filter, filter_filter]
  refine filter_congr fun row _ => ?_
  cases hdead : row.status == .dead with
  | false => simp
  | true => simp [h row (beq_iff_eq.1 hdead)]

/-- Moving rows to another status does so too. -/
theorem deadJobs_updateWhere {q p : JobRow → Bool} {f : JobRow → JobRow}
    (hf : ∀ row, (f row).status ≠ .dead) (h : ∀ row, row.status = .dead → q row = p row) :
    (updateWhere q f db.job).filter (·.status == .dead) = db.deadJobs.filter fun row => !p row := by
  rw [← deadJobs_deleteWhere h]
  unfold updateWhere deleteWhere
  induction db.job with
  | nil => rfl
  | cons row rows ih =>
    cases hq : q row with
    | false => simp [hq, ih, filter_cons]
    | true => simp [hq, ih, beq_eq_false_iff_ne.2 (hf row)]

/-- A mark between statuses that are not `DEAD` keeps the dead jobs, one to `DEAD` adds jobs, and
one from `DEAD` removes some. -/
theorem deathStep_mark (m : Mark) (now : Time) (job : DeliveryJob) :
    DeathStep (.mark m now job) db
      ((updateWhere ((m.update now job).matches db) (m.update now job).set db.job).filter
        (·.status == .dead)) := by
  have hsource : ∀ row, (m.update now job).matches db row = true → row.status = m.source := by
    intro row hmatch
    rw [JobUpdate.matches, Bool.and_eq_true] at hmatch
    exact Mark.status_of_guard hmatch.2
  have hother : m.source ≠ .dead → m.target ≠ .dead →
      (updateWhere ((m.update now job).matches db) (m.update now job).set db.job).filter
        (·.status == .dead) = db.deadJobs := by
    intro hs ht
    rw [filter_updateWhere, Db.deadJobs, updateWhere_eq_self.2]
    · intro row hrow hmatch
      have hdead := beq_iff_eq.1 (mem_filter.1 hrow).2
      exact absurd ((hsource row hmatch).symm.trans hdead) hs
    · intro row hmatch
      rw [m.status_set now job row, hsource row hmatch]
      exact (beq_eq_false_iff_ne.2 ht).trans (beq_eq_false_iff_ne.2 hs).symm
  have hdies : m.source ≠ .dead → m.target = .dead →
      ((updateWhere ((m.update now job).matches db) (m.update now job).set db.job).filter
        (·.status == .dead)).Perm
        ((db.job.filter ((m.update now job).matches db)).map (m.update now job).set ++
          db.deadJobs) := by
    intro hs ht
    refine filter_updateWhere_perm (fun row hmatch => ?_) fun row _ => ?_
    · exact beq_eq_false_iff_ne.2 (hsource row hmatch ▸ hs)
    · rw [m.status_set now job row, ht, beq_self_eq_true]
  cases m with
  | inflight | delivered | retry => exact .keeps (hother nofun nofun)
  | dead | queuedAsDead =>
    refine .dies rfl (hdies nofun rfl) fun row hrow => ?_
    obtain ⟨_, -, rfl⟩ := mem_map.1 hrow
    rfl
  | deadAsInflight =>
    refine .leaves rfl (deadJobs_updateWhere (fun row => ?_) fun row hdead => ?_)
    · rintro ⟨⟩
    · simp [JobUpdate.matches, Mark.update, markDeadJobAsInflight, DbOp.takes, hdead]

theorem DbEffect.deathStep [NetUrl] {op : DbOp} (he : DbEffect db op db') :
    DeathStep op db db'.deadJobs := by
  cases he with
  | unchanged | paused | resumed | locked => exact .keeps rfl
  | dispatched hfresh =>
    refine .keeps (filter_dead_append fun row hrow => ?_)
    obtain ⟨job, hjob, rfl⟩ := mem_map.1 hrow
    have hqueued := (hfresh.2.2 job (mem_append_left _ hjob)).2.1
    exact fun hdead => by cases hqueued.symm.trans hdead
  | reparked =>
    refine .keeps ?_
    rw [Db.deadJobs, Db.deadJobs, deleteWhere, filter_filter]
    refine filter_congr fun row _ => ?_
    cases row.status <;> simp
  | drained =>
    refine .keeps (filter_dead_append fun row hrow => ?_)
    obtain ⟨_, -, rfl⟩ := mem_map.1 hrow
    rintro ⟨⟩
  | marked => exact deathStep_mark ..
  | requeued | requeuedForConsumer =>
    refine .leaves rfl (deadJobs_updateWhere (fun row => ?_) fun row hdead => ?_)
    · rintro ⟨⟩
    · simp [DbOp.takes, hdead]
  | deleted | deletedForConsumer | deletedMessages =>
    exact .leaves rfl (deadJobs_deleteWhere fun row hdead => by simp [DbOp.takes, hdead])

end

end WebhookBroker
