import WebhookBroker.Dispatcher.PauseRegistry
import WebhookBroker.Storage.JobStep

/-!
# The checks for an effective pause

Whether dispatching to a consumer is paused is asked in six places, each with its own code: the
registry asks its snapshot, the repository counts rows, `MarkJobInflight` and `ReparkQueuedJob` have
a subquery on the job's consumer, `DrainPage` one on its parameter, and `GetDrainableConsumerIDs`
reads all scopes and filters in Go. They agree on every content of the tables that the schema
allows (`pause_checks_agree`).
-/

namespace WebhookBroker

open Lib List

def isEffectivelyPaused (consumerInternalID : String) (db : Db) : Bool :=
  decide (db.dispatchPause.countP (fun d =>
    d.scope == consumerInternalID || d.scope == globalDispatchPauseScope) > 0)

def refreshedSnapshot (db : Db) : PauseSnapshot := newPauseSnapshot (getAllDispatchPauses db)

/-- The copy of a job that `MarkJobInflight` takes for up to date. -/
def DeliveryJob.IsUpToDate (row : JobRow) (job : DeliveryJob) : Prop :=
  job.id = row.id ∧ job.retryAttemptCount = row.retryAttemptCount

section
variable {db : Db}

theorem isEffectivelyPaused_eq_effectivelyPaused (consumerInternalID : String) :
    isEffectivelyPaused consumerInternalID db = db.effectivelyPaused consumerInternalID := by
  rw [isEffectivelyPaused, Db.effectivelyPaused, Bool.eq_iff_iff, decide_eq_true_iff, gt_iff_lt,
    countP_pos_iff, any_eq_true]

theorem isEffectivelyPaused_refreshedSnapshot (consumerInternalID : String) :
    (refreshedSnapshot db).isEffectivelyPaused consumerInternalID =
      db.effectivelyPaused consumerInternalID :=
  PauseSnapshot.isEffectivelyPaused_eq (fun _ =>
    mem_scopes_newPauseSnapshot.trans mem_scopes_getAllDispatchPauses) consumerInternalID

/-- The hand-out of an up-to-date `QUEUED` job goes through exactly if its consumer is not
effectively paused. -/
theorem Db.JobTables.isOk_markJobInflight (h : db.JobTables) {row : JobRow} (hrow : row ∈ db.job)
    (hqueued : row.status = .queued) {job : DeliveryJob} (hjob : job.IsUpToDate row) (now : Time) :
    ((markJobInflight now job).run db).1.isOk = !db.effectivelyPaused row.consumerId.string := by
  have hmark : ((Mark.update now job .inflight).run db).1.isOk = _ :=
    Mark.isOk_run_eq h.job_ids hrow hjob.1
  simpa [Mark.update, markJobInflight, hqueued, hjob.2, jobNotPausedClause] using hmark

/-- A drain selects rows exactly if the consumer has parked jobs and is not effectively paused. -/
theorem drainPageQuery_ne_nil_iff {c : String} {limit : Nat} (hlimit : 0 < limit) :
    drainPageQuery db c limit ≠ [] ↔ c ∈ getDrainableConsumerIDs db := by
  rw [mem_getDrainableConsumerIDs, drainPageQuery, ne_eq, take_eq_nil_iff, not_or,
    ← length_eq_zero_iff, length_insertionSort, length_eq_zero_iff]
  constructor
  · rintro ⟨-, hne⟩
    obtain ⟨p, hp⟩ := exists_mem_of_ne_nil _ hne
    obtain ⟨hmem, hc⟩ := mem_filter.1 hp
    rw [Bool.and_eq_true, beq_iff_eq, Bool.not_eq_true'] at hc
    exact ⟨hc.1 ▸ mem_map_of_mem hmem, hc.2⟩
  · rintro ⟨hparked, hpaused⟩
    obtain ⟨p, hmem, rfl⟩ := mem_map.1 hparked
    refine ⟨hlimit.ne', ne_nil_of_mem (mem_filter.2 ⟨hmem, ?_⟩)⟩
    rw [hpaused, beq_self_eq_true]
    rfl

theorem Db.JobTables.drainPage_iff (h : db.JobTables) (c : String) (now : Time) {pageSize : Int}
    (hsize : 0 < pageSize) (earliestNextAttemptAt : Time) :
    (∃ rows, rows ≠ [] ∧
        (drainPage now c pageSize earliestNextAttemptAt db).1 = .ok rows) ↔
      c ∈ getDrainableConsumerIDs db := by
  have hlimit : 0 < pageSize.toNat := by omega
  rw [← drainPageQuery_ne_nil_iff hlimit]
  constructor
  · rintro ⟨rows, hne, hrows⟩ hnil
    rw [drainPage_of_nil hnil] at hrows
    exact hne (Except.ok.inj hrows).symm
  · intro hne
    rw [h.drainPage_ok now c pageSize earliestNextAttemptAt hne]
    exact ⟨_, fun hnil => hne (map_eq_nil_iff.1 hnil), rfl⟩

end

/-- On all tables that the schema allows, the checks for an effective pause agree. -/
theorem pause_checks_agree (db : Db) (htables : db.JobTables) (c : Xid) :
    ((refreshedSnapshot db).isEffectivelyPaused c.string = true ↔
      isEffectivelyPaused c.string db = true) ∧
    (∀ row ∈ db.job, row.consumerId = c → row.status = .queued →
      ∀ (job : DeliveryJob) (now : Time), job.IsUpToDate row →
        ((∃ e, ((markJobInflight now job).run db).1 = .error e) ↔
          isEffectivelyPaused c.string db = true) ∧
        ((∃ copy, (reparkQueuedJob now job db).1 = .ok (true, copy)) ↔
          isEffectivelyPaused c.string db = true)) ∧
    (c.string ∈ getDrainableConsumerIDs db ↔
      (∃ p ∈ db.jobParking, p.consumerId = c) ∧ isEffectivelyPaused c.string db = false) ∧
    ∀ (now : Time) (n : Int) (t : Time), 0 < n →
      ((∃ rows, rows ≠ [] ∧ (drainPage now c.string n t db).1 = .ok rows) ↔
        c.string ∈ getDrainableConsumerIDs db) := by
  simp only [isEffectivelyPaused_eq_effectivelyPaused]
  refine ⟨by rw [isEffectivelyPaused_refreshedSnapshot], ?_, ?_,
    fun now n t hn => htables.drainPage_iff c.string now hn t⟩
  · rintro row hrow rfl hqueued job now hjob
    refine ⟨?_, htables.reparkQueuedJob_iff now hrow hjob.1 hqueued⟩
    have hok := htables.isOk_markJobInflight hrow hqueued hjob now
    cases hresult : ((markJobInflight now job).run db).1 with
    | error e =>
      rw [hresult, eq_comm, Bool.not_eq_eq_eq_not] at hok
      exact ⟨fun _ => hok, fun _ => ⟨e, rfl⟩⟩
    | ok copy =>
      rw [hresult, eq_comm, Bool.not_eq_eq_eq_not] at hok
      rw [hok]
      exact ⟨nofun, nofun⟩
  · rw [mem_getDrainableConsumerIDs, mem_map]
    refine and_congr_left fun _ => ⟨?_, ?_⟩
    · rintro ⟨p, hp, hc⟩
      exact ⟨p, hp, Xid.string_injective hc⟩
    · rintro ⟨p, hp, rfl⟩
      exact ⟨p, hp, rfl⟩

namespace Sample

def pausedDb : Db :=
  { db .push with
    job := [(job .push 5).jobRow]
    message := [⟨messageXid, "m", "x", "y", 0, .dispatched, "c", "p", 1, 1, 1, 1, []⟩,
      ⟨producerXid, "n", "x", "y", 0, .dispatched, "c", "p", 1, 1, 1, 1, []⟩]
    jobParking := [⟨1, channelXid, producerXid, consumerXid, 1, 0, 1, 0, 0, 1, 1⟩]
    nextSeq := 2
    dispatchPause := [⟨consumerXid.string, some consumerXid.string, "", 1⟩] }

theorem pausedDb_jobTables : pausedDb.JobTables :=
  ⟨by decide +kernel, by decide +kernel, by decide +kernel, by decide +kernel⟩

end Sample

open Sample

theorem pause_checks_agree_paused :
    (∃ e, ((markJobInflight 9 (job .push 5)).run pausedDb).1 = .error e) ∧
    (∃ copy, (reparkQueuedJob 9 (job .push 5) pausedDb).1 = .ok (true, copy)) ∧
    consumerXid.string ∉ getDrainableConsumerIDs pausedDb := by
  obtain ⟨-, hjob, hdrainable, -⟩ :=
    pause_checks_agree pausedDb pausedDb_jobTables consumerXid
  have hpaused : isEffectivelyPaused consumerXid.string pausedDb = true := by
    decide +kernel
  have hverdicts := hjob (job .push 5).jobRow (mem_singleton_self _) rfl rfl
    (job .push 5) 9 ⟨rfl, rfl⟩
  refine ⟨hverdicts.1.2 hpaused, hverdicts.2.2 hpaused, fun hmem => ?_⟩
  exact absurd (hdrainable.1 hmem).2 (by rw [hpaused]; decide)

end WebhookBroker
