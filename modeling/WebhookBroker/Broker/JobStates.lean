import WebhookBroker.Broker.Pause
import WebhookBroker.Broker.Prune
import WebhookBroker.Controllers.Job

/-!
# The states of a job

The documentation of the pull interface draws the states of a job; the code spreads the transitions
over the guarded statements of two repositories, which workers, passes, requests and prune threads
execute with copies that may be stale. `JobTransition` is the closed list of transitions, and it
holds in every run of the cluster.
-/

namespace WebhookBroker

open Lib List

/-- The transitions of a job that stays stored. -/
inductive JobTransition : JobStatus → JobStatus → Prop
  | handOut : JobTransition .queued .inflight
  | deliver : JobTransition .inflight .delivered
  | die : JobTransition .inflight .dead
  | retry : JobTransition .inflight .queued
  | giveUp : JobTransition .queued .dead
  | requeue : JobTransition .dead .queued
  | revive : JobTransition .dead .inflight
  | park : JobTransition .queued .parked
  | drain : JobTransition .parked .queued

theorem Mark.transition (m : Mark) : JobTransition m.source m.target := by
  cases m with
  | inflight => exact .handOut
  | delivered => exact .deliver
  | dead => exact .die
  | queuedAsDead => exact .giveUp
  | retry => exact .retry
  | deadAsInflight => exact .revive

section
variable {db db' : Db} {j : Xid} {op : DbOp}

theorem JobStep.transition {p p' : Place} (h : JobStep db j op (some p) (some p')) :
    p'.status = p.status ∨ JobTransition p.status p'.status := by
  cases h with
  | same => exact .inl rfl
  | reparked hid hstatus =>
    rw [Place.status, hstatus]
    exact .inr .park
  | drained => exact .inr .drain
  | @marked m now job row hid hguard =>
    rw [Place.status, Place.status, m.status_set, Mark.status_of_guard hguard]
    exact .inr m.transition
  | requeued hop hstatus =>
    simp only [Place.status, hstatus]
    exact .inr .requeue

theorem JobStep.created_status {p : Place} (h : JobStep db j op none (some p)) :
    p.status = .queued ∨ p.status = .parked := by
  cases h with
  | created hjob hid hstatus => exact .inl hstatus
  | createdParked => exact .inr rfl

theorem JobStep.status_ne_parked {place : Option Place} {row : JobRow}
    (h : JobStep db j op place (some (.job row)))
    (hplace : ∀ row₀, place = some (.job row₀) → row₀.status ≠ .parked) :
    row.status ≠ .parked := by
  cases h with
  | same => exact hplace row rfl
  | created hjob hid hstatus =>
    rw [DeliveryJob.jobRow, hstatus]
    rintro ⟨⟩
  | drained => rintro ⟨⟩
  | @marked m now job row hid hguard =>
    rw [m.status_set]
    cases m <;> rintro ⟨⟩
  | requeued => rintro ⟨⟩

/-- The deletes that remove the row of a job. -/
inductive DbOp.Deletes (db' : Db) (row : JobRow) : DbOp → Prop
  | deadJob {job maxRetryCount} (hdead : row.status = .dead)
      (hcount : maxRetryCount ≤ row.retryAttemptCount) :
      Deletes db' row (.deleteDeadJob job maxRetryCount)
  | deadJobs {consumer maxRetryCount} (hdead : row.status = .dead)
      (hcount : maxRetryCount ≤ row.retryAttemptCount) :
      Deletes db' row (.deleteDeadJobsForConsumer consumer maxRetryCount)
  | message {ids : List String} (hmem : row.messageId.string ∈ ids)
      (hgone : row.messageId ∉ db'.message.map (·.id)) :
      Deletes db' row (.deleteMessagesAndJobs ids)

theorem DbEffect.deletes [NetUrl] (he : DbEffect db op db') (hi : db.Integrity) {p : Place}
    (hp : db.place j = some p) (hgone : db'.place j = none) :
    ∃ row, p = .job row ∧ op.Deletes db' row := by
  have hstep := he.jobStep hi j
  rw [hp, hgone] at hstep
  cases hstep with
  | @deleted _ row hop =>
    refine ⟨row, rfl, ?_⟩
    cases he with
    | deleted =>
      rcases hi.place_deleteWhere _ with hsame | ⟨row', hrow', hmatch, -⟩
      · rw [hsame, hp] at hgone
        cases hgone
      · cases hp.symm.trans hrow'
        simp only [Bool.and_eq_true, beq_iff_eq, decide_eq_true_eq] at hmatch
        exact .deadJob hmatch.1.2 hmatch.2
    | deletedForConsumer =>
      rcases hi.place_deleteWhere _ with hsame | ⟨row', hrow', hmatch, -⟩
      · rw [hsame, hp] at hgone
        cases hgone
      · cases hp.symm.trans hrow'
        simp only [Bool.and_eq_true, beq_iff_eq, decide_eq_true_eq] at hmatch
        exact .deadJobs hmatch.1.2 hmatch.2
    | deletedMessages =>
      rcases hi.place_deleteWhere _ with hsame | ⟨row', hrow', hmatch, -⟩
      · rw [hsame, hp] at hgone
        cases hgone
      · cases hp.symm.trans hrow'
        refine .message (contains_iff_mem.1 hmatch) ?_
        intro hmem
        obtain ⟨m, hm, hid⟩ := mem_map.1 hmem
        have hkept := (mem_deleteWhere.1 hm).2
        rw [hid, hmatch] at hkept
        cases hkept
    | unchanged | locked => exact nomatch hp.symm.trans hgone
    | _ => cases hop

end

section
variable [NetUrl] {cfg : Config} {retention : Duration} {c c' : Cluster} {a : ClusterAction}

/-- What a removed job was: dead with its retries used up, or delivered and removed with its message
by a prune thread. -/
def Cluster.removable (cfg : Config) (c c' : Cluster) (a : ClusterAction) (p : Place) : Prop :=
  ∃ row, p = .job row ∧
    ((row.status = .dead ∧ cfg.maxRetry ≤ row.retryAttemptCount) ∨
      (row.status = .delivered ∧ (∃ t env, a = .runPrune t env) ∧
        row.messageId ∈ c.sys.db.message.map (·.id) ∧
        row.messageId ∉ c'.sys.db.message.map (·.id)))

theorem Cluster.step_removable (h : Cluster.step cfg retention c a = some c')
    (hi : c.sys.db.Integrity) (hl : c.Listed retention) {j : Xid} {p : Place}
    (hp : c.sys.db.place j = some p) (hgone : c'.sys.db.place j = none) :
    Cluster.removable cfg c c' a p := by
  rcases Cluster.step_db h with ⟨-, hdb⟩ | ⟨op, hop, hdb⟩
  · rw [hdb, hp] at hgone
    cases hgone
  · obtain ⟨row, rfl, hdeletes⟩ := (DbOp.step_effect hdb).deletes hi hp hgone
    refine ⟨row, rfl, ?_⟩
    cases hdeletes with
    | deadJob hdead hcount =>
      rcases Cluster.opOf_isDelete h hop rfl with ⟨_, heq⟩ | ⟨_, heq⟩ | ⟨_, _, _, _, -, -, heq⟩
      · cases heq
        exact .inl ⟨hdead, hcount⟩
      · cases heq
      · cases heq
    | deadJobs hdead hcount =>
      rcases Cluster.opOf_isDelete h hop rfl with ⟨_, heq⟩ | ⟨_, heq⟩ | ⟨_, _, _, _, -, -, heq⟩
      · cases heq
      · cases heq
        exact .inl ⟨hdead, hcount⟩
      · cases heq
    | message hmem hgone' =>
      rcases Cluster.opOf_isDelete h hop rfl with
        ⟨_, heq⟩ | ⟨_, heq⟩ | ⟨t, env, ids, moreMessages, ha, hth, heq⟩
      · cases heq
      · cases heq
      · cases heq
        have hprunable := (hl t).2 row.messageId.string (by rw [hth]; exact hmem)
        obtain ⟨hrow, -⟩ := hi.place_eq_job.1 hp
        obtain ⟨m, hm, hid, -⟩ := hi.dispatched row.ref
          (mem_append_left _ (mem_map_of_mem hrow))
        exact .inr ⟨hprunable.delivered row hrow rfl, ⟨t, env, ha⟩,
          mem_map.2 ⟨m, hm, hid⟩, hgone'⟩

theorem Cluster.step_status_ne_parked (h : Cluster.step cfg retention c a = some c')
    (hi : c.sys.db.Integrity) (hparked : ∀ row ∈ c.sys.db.job, row.status ≠ .parked) :
    ∀ row ∈ c'.sys.db.job, row.status ≠ .parked := by
  rcases Cluster.step_db h with ⟨-, hdb⟩ | ⟨op, -, hdb⟩
  · rw [hdb]
    exact hparked
  · intro row hrow
    have hstep := (DbOp.step_effect hdb).jobStep hi row.id
    rw [(Cluster.step_integrity h hi).place_eq_job.2 ⟨hrow, rfl⟩] at hstep
    refine hstep.status_ne_parked fun row₀ hrow₀ => ?_
    exact hparked row₀ (hi.place_eq_job.1 hrow₀).1

theorem ClusterRun.status_ne_parked (r : ClusterRun cfg retention) {n : Nat} (hn : n ≤ r.len) :
    ∀ row ∈ (r.state n).sys.db.job, row.status ≠ .parked := by
  induction n with
  | zero =>
    intro row hrow
    rw [r.start.1.1.1] at hrow
    cases hrow
  | succ n ih =>
    exact Cluster.step_status_ne_parked (r.next n hn) (r.listed (by omega)).1 (ih (by omega))

/-- In every run of the cluster a job is created queued or parked, and a step keeps the status of a
stored job, makes one of the transitions or removes it as dead or pruned. `PARKED` is never stored
in `job`. An operation that returns an error changes no job, unless it is a drain whose page is
committed and whose lookups fail then. -/
theorem job_moves_by_transitions (r : ClusterRun cfg retention) {i : Nat} (hi : i < r.len)
    (j : Xid) :
    (∀ p', (r.state i).sys.db.place j = none → (r.state (i + 1)).sys.db.place j = some p' →
      p'.status = .queued ∨ p'.status = .parked) ∧
    (∀ p p', (r.state i).sys.db.place j = some p → (r.state (i + 1)).sys.db.place j = some p' →
      p'.status = p.status ∨ JobTransition p.status p'.status) ∧
    (∀ p, (r.state i).sys.db.place j = some p → (r.state (i + 1)).sys.db.place j = none →
      Cluster.removable cfg (r.state i) (r.state (i + 1)) (r.act i) p) ∧
    (∀ row ∈ (r.state (i + 1)).sys.db.job, row.status ≠ .parked) ∧
    (∀ faults, (∀ op, (r.state i).opOf cfg (r.act i) = some op →
        op.returnsErr faults (r.state i).sys.db = true) →
      (r.state (i + 1)).sys.db.place j = (r.state i).sys.db.place j ∨
        ∃ now consumerInternalID pageSize earliestNextAttemptAt,
          (r.state i).opOf cfg (r.act i) =
            some (.drainPage now consumerInternalID pageSize earliestNextAttemptAt) ∧
          (drainPage now consumerInternalID pageSize earliestNextAttemptAt
            (r.state i).sys.db).1.isOk = true) := by
  have hstep := r.next i hi
  obtain ⟨hint, hl⟩ := r.listed (Nat.le_of_lt hi)
  have hjob : (r.state (i + 1)).sys.db.place j = (r.state i).sys.db.place j ∨
      ∃ op, JobStep (r.state i).sys.db j op ((r.state i).sys.db.place j)
        ((r.state (i + 1)).sys.db.place j) := by
    rcases Cluster.step_db hstep with ⟨-, hdb⟩ | ⟨op, -, hdb⟩
    · rw [hdb]
      exact .inl rfl
    · exact .inr ⟨op, (DbOp.step_effect hdb).jobStep hint j⟩
  refine ⟨?_, ?_, ?_, r.status_ne_parked hi, ?_⟩
  · intro p' hp hp'
    rw [hp, hp'] at hjob
    rcases hjob with hsame | ⟨op, hjob⟩
    · cases hsame
    · exact hjob.created_status
  · intro p p' hp hp'
    rw [hp, hp'] at hjob
    rcases hjob with hsame | ⟨op, hjob⟩
    · cases hsame
      exact .inl rfl
    · exact hjob.transition
  · intro p hp hgone
    exact Cluster.step_removable hstep hint hl hp hgone
  · intro faults herrs
    rcases Cluster.step_db hstep with ⟨-, hdb⟩ | ⟨op, hop, hdb⟩
    · exact .inl (by rw [hdb])
    · rcases DbOp.fails_of_returnsErr (herrs op hop) with hfails | ⟨_, _, _, _, rfl, hok⟩
      · rw [← DbOp.exec_of_step hdb]
        exact .inl (DbOp.place_of_fails hfails j)
      · exact .inr ⟨_, _, _, _, hop, hok⟩

end

/-- A job is delivered, and its message is listed, archived and deleted. -/
def Sample.deliverAndPrune : List ClusterAction :=
  (deliver ++ [Action.run 1 {}]).map .broker ++
    ([.prune 0, .runPrune 0 { archived := 0 }, .runPrune 0 { archived := 0 },
     .runPrune 0 { archived := 0 }, .runPrune 0 { archived := 1 },
     .runPrune 0 { archived := 0 }] : List ClusterAction)

open Sample

theorem job_moves_by_transitions_prune :
    ∃ r : @ClusterRun netUrl config 1, ∃ i < r.len, ∃ p,
      (r.state i).sys.db.place jobXid = some p ∧ p.status = .delivered ∧
      (r.state (i + 1)).sys.db.place jobXid = none ∧
      Cluster.removable config (r.state i) (r.state (i + 1)) (r.act i) p := by
  let r : @ClusterRun netUrl config 1 := Run.ofActs ⟨sys .push, fun _ => .idle⟩
    deliverAndPrune ⟨⟨by decide, fun _ => rfl⟩, fun _ => rfl⟩ (by decide +kernel)
  have hlen : 11 < r.len := by decide
  have hplace : ((r.state 11).sys.db.place jobXid).map (·.status) = some .delivered := by
    decide +kernel
  have hgone : (r.state (11 + 1)).sys.db.place jobXid = none := by decide +kernel
  obtain ⟨p, hp, hstatus⟩ := Option.map_eq_some_iff.1 hplace
  have hall := @job_moves_by_transitions netUrl _ _ r 11 hlen jobXid
  exact ⟨r, 11, hlen, p, hp, hstatus, hgone, hall.2.2.1 p hp hgone⟩

/-- The page is drained, the messages of its jobs cannot be loaded, and the drain returns the error
of that: the parked job is `QUEUED` then. -/
theorem drain_moves_job_and_fails :
    ∃ r : @ClusterRun netUrl config 1, ∃ i < r.len, ∃ op faults,
      (r.state i).opOf config (r.act i) = some op ∧
      @DbOp.returnsErr netUrl faults (r.state i).sys.db op = true ∧
      ((r.state i).sys.db.place jobXid).map (·.status) = some .parked ∧
      ((r.state (i + 1)).sys.db.place jobXid).map (·.status) = some .queued := by
  let r : @ClusterRun netUrl config 1 := Run.ofActs ⟨sys .push, fun _ => .idle⟩
    [.broker (.dispatch 0 message [] [job .push second]),
      .broker (.drain 1 consumerXid.string 1 0)]
    ⟨⟨by decide, fun _ => rfl⟩, fun _ => rfl⟩ (by decide +kernel)
  exact ⟨r, 1, by decide, .drainPage second consumerXid.string 1 0,
    ⟨some .noRows, fun _ => none⟩, by decide +kernel, by decide +kernel, by decide +kernel,
    by decide +kernel⟩

/-! ## The requests of the pull interface -/

/-- The status that a POST names. -/
def JobStatus.ofString (s : String) : JobStatus :=
  if s = JobStatus.queued.string then .queued
  else if s = JobStatus.inflight.string then .inflight
  else if s = JobStatus.delivered.string then .delivered
  else if s = JobStatus.dead.string then .dead
  else if s = JobStatus.parked.string then .parked
  else .other 0

theorem JobStatus.ofString_string {status : JobStatus} (h : ∀ value, status ≠ .other value) :
    JobStatus.ofString status.string = status := by
  cases status with
  | other value => exact absurd rfl (h value)
  | _ => decide +kernel

theorem JobStatus.string_eq_iff {status : JobStatus} (h : ∀ value, status ≠ .other value)
    (s : String) : status.string = s ↔ .ofString s = status := by
  constructor
  · rintro rfl
    exact JobStatus.ofString_string h
  · rintro rfl
    unfold JobStatus.ofString at h ⊢
    repeat' split
    all_goals first | exact Eq.symm ‹_› | simp_all

/-- The checks of `JobController.Post` on the text of a request are those that the threads of the
broker make on the status. -/
theorem UpdateData.transition_toOption (updateData : UpdateData) {job : DeliveryJob}
    (hjob : ∀ value, job.status ≠ .other value) :
    (updateData.transition job).toOption =
      postMark job (.ofString updateData.nextState) updateData.incrementalTimeout := by
  obtain ⟨nextState, incrementalTimeout⟩ := updateData
  have hinflight := @JobStatus.string_eq_iff .inflight (by exact nofun) nextState
  have hdelivered := @JobStatus.string_eq_iff .delivered (by exact nofun) nextState
  have hdead := @JobStatus.string_eq_iff .dead (by exact nofun) nextState
  have hstatus : (if incrementalTimeout ≠ 0 then
      { job with incrementalTimeout := incrementalTimeout } else job).status = job.status := by
    split <;> rfl
  have hsame := JobStatus.string_eq_iff hjob nextState
  simp only [UpdateData.transition, postMark, hstatus, ne_eq, eq_comm (a := nextState), hinflight,
    hdelivered, hdead, hsame]
  generalize (if ¬ incrementalTimeout = 0 then
      { job with incrementalTimeout := incrementalTimeout } else job) = job'
  generalize JobStatus.ofString nextState = status
  split
  · rfl
  split
  · rfl
  by_cases heq : status = job.status
  · rw [if_pos heq, if_pos heq.symm]
    rfl
  rw [if_neg heq, if_neg (Ne.symm heq)]
  cases status with
  | inflight => cases job.status <;> rfl
  | _ => rfl

theorem transition_toOption_delivered :
    (UpdateData.transition ⟨"DELIVERED", 0⟩ (job .pull 5)).toOption =
      postMark (job .pull 5) (.ofString "DELIVERED") 0 :=
  UpdateData.transition_toOption ⟨"DELIVERED", 0⟩ fun _ h => by cases h

end WebhookBroker
