import WebhookBroker.Broker.HandOut

/-!
# Giving a job up

A worker moves a failed job to `DEAD` when the retry count of its copy has reached `GetMaxRetry()`,
and so does a retry pass with the queued job of a pull consumer. The statement checks the status of
the row but not the count. If the job is recovered, dies, is requeued with the count zero and handed
out again in the meantime, the old copy puts the new attempt to `DEAD`.

As long as no operation sets the count of a job below the limit while a copy with a count at the
limit is around, what is given up has used its retries up.
-/

namespace WebhookBroker

open Lib List

/-- The copies of jobs with which a thread may give a job up: the one that a worker has handed out,
and those that a retry pass has listed. -/
def Thread.giveUpCopies (th : Thread) : List DeliveryJob := th.owned.toList ++ th.retryCopies

/-- The thread is a worker before its settle write, or a retry pass that has locked a job. -/
def Thread.givesUp : Thread → Bool
  | .settling _ _ | .retryLocked _ _ => true
  | _ => false

/-- The operation may set a retry count below the limit. -/
def DbOp.lowersCount (maxRetry : Nat) : DbOp → Bool
  | .dispatchMessageWithParking .. | .requeueDeadJob .. | .requeueDeadJobsForConsumer .. => true
  | .mark (.retry _) _ job | .mark .deadAsInflight _ job =>
    decide (job.retryAttemptCount + 1 < maxRetry)
  | _ => false

def DbOp.concerns (db : Db) (j : Xid) : DbOp → Bool
  | .dispatchMessageWithParking _ _ deliveryJobs parkedJobs =>
    (deliveryJobs ++ parkedJobs).any (·.id == j)
  | .requeueDeadJob _ job | .mark _ _ job => job.id == j
  | .requeueDeadJobsForConsumer _ consumer => (db.place j).any (·.consumerId == consumer.id)
  | _ => true

/-- The step may set the retry count of the job below the limit. -/
def Sys.resets (cfg : Config) (s : Sys) (a : Action) (j : Xid) : Bool :=
  (s.opOf cfg a).any fun op => op.lowersCount cfg.maxRetry && op.concerns s.db j

/-- The stored count of the job, if it is stored, has reached the limit. -/
def Db.exhausted (db : Db) (maxRetry : Nat) (j : Xid) : Prop :=
  ∀ p, db.place j = some p → maxRetry ≤ p.retryAttemptCount

theorem DbEffect.requeue_concerns [NetUrl] {db db' : Db} {op : DbOp} (he : DbEffect db op db')
    (hop : op.isRequeue = true) {j : Xid} (hne : db'.place j ≠ db.place j) :
    op.concerns db j = true := by
  cases he with
  | unchanged | locked => exact absurd rfl hne
  | @requeued now job =>
    rcases place_updateWhere fun r => congrArg JobRef.id (r.ref_requeue now) with
      hplace | ⟨row, -, hid, hmatch, -⟩
    · exact absurd hplace hne
    · simp only [Bool.and_eq_true, Xid.like_iff] at hmatch
      exact beq_iff_eq.2 (hmatch.1.trans hid)
  | @requeuedForConsumer now consumer =>
    rcases place_updateWhere fun r => congrArg JobRef.id (r.ref_requeue now) with
      hplace | ⟨row, hrow, -, hmatch, -⟩
    · exact absurd hplace hne
    · simp only [Bool.and_eq_true, Xid.like_iff] at hmatch
      rw [DbOp.concerns, hrow, Option.any_some, beq_iff_eq]
      exact hmatch.1.symm
  | _ => cases hop

/-- The count of a job stays at the limit unless an operation that is about the job lowers it. -/
theorem DbEffect.exhausted [NetUrl] {db db' : Db} {op : DbOp} (he : DbEffect db op db')
    (hi : db.Integrity) {maxRetry : Nat} {j : Xid} (hj : db.exhausted maxRetry j)
    (hresets : (op.lowersCount maxRetry && op.concerns db j) = false) :
    db'.exhausted maxRetry j := by
  intro p' hp'
  have hstep := he.jobStep hi j
  rw [hp'] at hstep
  generalize hp : db.place j = p at hstep
  cases hstep with
  | same => exact hj p' hp
  | created hjob hid | createdParked hjob hid =>
    simp only [DbOp.lowersCount, DbOp.concerns, Bool.true_and, any_eq_false, mem_append,
      beq_iff_eq] at hresets
    exact absurd hid (hresets _ (by first | exact .inl hjob | exact .inr hjob))
  | reparked | drained =>
    have hcount := hj _ hp
    exact hcount
  | @marked m now job row hid hguard =>
    have hcount := hj _ hp
    cases m with
    | inflight | delivered | dead | queuedAsDead => exact hcount
    | retry | deadAsInflight =>
      simp only [DbOp.lowersCount, DbOp.concerns, hid, beq_self_eq_true, Bool.and_true,
        decide_eq_false_iff_not, Nat.not_lt] at hresets
      exact hresets
  | @requeued _ now row hrequeue hstatus =>
    by_cases hsame : db'.place j = db.place j
    · exact hj _ (hsame.symm.trans hp')
    · rw [he.requeue_concerns hrequeue hsame, Bool.and_true] at hresets
      cases op with
      | requeueDeadJob | requeueDeadJobsForConsumer => cases hresets
      | _ => cases hrequeue

section
variable {cfg : Config} {s s' : Sys} {a : Action}

/-- Whoever has an exhausted copy of a job knows that the stored count has reached the limit. -/
structure Sys.CopiesExhausted (cfg : Config) (s : Sys) : Prop where
  stored : ∀ t, ∀ job ∈ (s.threads t).giveUpCopies, cfg.maxRetry ≤ job.retryAttemptCount →
    s.db.exhausted cfg.maxRetry job.id
  /-- a retry pass gives up only what has used its retries up -/
  locked : ∀ t job jobs, s.threads t = .retryLocked job jobs → job.isPush = false →
    cfg.maxRetry ≤ job.retryAttemptCount

variable [NetUrl]

theorem Sys.step_exhausted (h : Sys.step cfg s a = some s') (hi : s.db.Integrity) {j : Xid}
    (hj : s.db.exhausted cfg.maxRetry j) (hresets : s.resets cfg a j = false) :
    s'.db.exhausted cfg.maxRetry j := by
  rcases Sys.step_db h with ⟨-, hdb⟩ | ⟨op, hop, hdb⟩
  · rw [hdb]
    exact hj
  · rw [Sys.resets, hop, Option.any_some] at hresets
    exact (DbOp.step_effect hdb).exhausted hi hj hresets

/-- A copy that a retry pass holds after a step was there before, or the step has just read it. -/
theorem Sys.step_retryCopies (h : Sys.step cfg s a = some s') {u : Nat} {job : DeliveryJob}
    (hu : job ∈ (s'.threads u).retryCopies) :
    job ∈ (s.threads u).retryCopies ∨
      s'.db = s.db ∧ ∃ row ∈ s.db.job, job = row.toDeliveryJob s.db := by
  rcases Sys.step_thread h u with ⟨-, hsame⟩ | ⟨env, ha, hgoes⟩ | hstart
  · exact .inl (hsame ▸ hu)
  · generalize hth : s.threads u = th at hgoes
    generalize s'.threads u = th' at hgoes hu
    cases hgoes with
    | retryPage hpage =>
      rcases mem_nextPage hpage hu with hbefore | ⟨row, hrow, -, rfl⟩
      · exact .inl hbefore
      · refine .inr ⟨?_, row, hrow, rfl⟩
        rcases Sys.step_db h with ⟨-, hdb⟩ | ⟨op, hop, -⟩
        · exact hdb
        · rw [ha, Sys.opOf, hth] at hop
          split at hop <;> cases hop
    | retryListed | retryLock | retryUnlock => exact .inl hu
    | retrySkip | retryQueue => exact .inl (mem_cons_of_mem _ hu)
    | _ => cases hu
  · generalize s'.threads u = th' at hstart hu
    cases hstart <;> cases hu

theorem Sys.okOf_retrying_pull {u : Nat} {env : Env} {job : DeliveryJob} {jobs : List DeliveryJob}
    (hth : s.threads u = .retrying (job :: jobs)) (hok : s.okOf cfg (.run u env) = true)
    (hpull : job.isPush = false) : cfg.maxRetry ≤ job.retryAttemptCount := by
  rw [Sys.okOf, Sys.opOf_of_ok hok, hth] at hok
  simp only [Thread.op] at hok
  split at hok
  · rename_i hlock
    cases hl : job.listener with
    | none =>
      rw [hl] at hlock
      cases hlock
    | some l =>
      rw [DeliveryJob.isPush, hl, Option.any_some] at hpull
      rw [hl, Option.any_some] at hlock
      cases htype : l.type with
      | push =>
        rw [htype] at hpull
        cases hpull
      | pull =>
        rw [htype, if_pos rfl] at hlock
        exact of_decide_eq_true hlock
  · cases hok

theorem Sys.CopiesExhausted.step (hc : s.CopiesExhausted cfg) (h : Sys.step cfg s a = some s')
    (hi : s.db.Integrity)
    (hkeep : ∀ t, ∀ job ∈ (s.threads t).giveUpCopies, cfg.maxRetry ≤ job.retryAttemptCount →
      s.resets cfg a job.id = false) : s'.CopiesExhausted cfg := by
  have hold : ∀ t, ∀ job ∈ (s.threads t).giveUpCopies, cfg.maxRetry ≤ job.retryAttemptCount →
      s'.db.exhausted cfg.maxRetry job.id := by
    intro t job hjob hcount
    exact Sys.step_exhausted h hi (hc.stored t job hjob hcount) (hkeep t job hjob hcount)
  refine ⟨fun t job hjob hcount => ?_, fun t job jobs hth' hpull => ?_⟩
  · rcases mem_append.1 hjob with howned | hretry
    · rcases Sys.step_owned h (Option.mem_toList.1 howned) with
        ⟨hbefore, -⟩ | ⟨job₀, env, ha, hth, hok, rfl⟩
      · exact hold t job (mem_append_left _ (Option.mem_toList.2 hbefore)) hcount
      · obtain ⟨row, -, -, hrow, hset⟩ := Sys.handOut_row h hi ha hth hok
        intro p hp
        cases hset.symm.trans hp
        exact hcount.trans hrow.ge
    · rcases Sys.step_retryCopies h hretry with hbefore | ⟨hdb, row, hrow, rfl⟩
      · exact hold t job (mem_append_right _ hbefore) hcount
      · intro p hp
        rw [hdb] at hp
        cases (hi.place_eq_job.2 ⟨hrow, rfl⟩).symm.trans hp
        exact hcount
  · rcases Sys.step_thread h t with ⟨-, hsame⟩ | ⟨env, ha, hgoes⟩ | hstart
    · exact hc.locked t job jobs (hsame.symm.trans hth') hpull
    · rw [hth'] at hgoes
      generalize hth : s.threads t = th at hgoes
      cases hgoes with
      | retryLock hok =>
        rw [ha] at hok
        exact Sys.okOf_retrying_pull hth hok hpull
    · rw [hth'] at hstart
      cases hstart

/-- No step of the run resets the count of a job while an exhausted copy of it is around. -/
def SysRun.keepsExhausted (r : SysRun cfg) : Prop :=
  ∀ i < r.len, ∀ t, ∀ job ∈ ((r.state i).threads t).giveUpCopies,
    cfg.maxRetry ≤ job.retryAttemptCount → (r.state i).resets cfg (r.act i) job.id = false

theorem SysRun.copiesExhausted (r : SysRun cfg) (hkeep : r.keepsExhausted) {n : Nat}
    (hn : n ≤ r.len) : (r.state n).CopiesExhausted cfg := by
  induction n with
  | zero =>
    refine ⟨fun t job hjob => ?_, fun t job jobs hth => ?_⟩
    · rw [r.start.2 t] at hjob
      cases hjob
    · rw [r.start.2 t] at hth
      cases hth
  | succ n ih =>
    exact (ih (by omega)).step (r.next n hn) (r.integrity (by omega)) (hkeep n hn)

/-- In a run in which no step resets the count of a job while an exhausted copy of it is around, a
job that is given up has a stored count of at least `GetMaxRetry()`. -/
theorem given_up_jobs_exhausted (r : SysRun cfg) (hkeep : r.keepsExhausted) {i : Nat}
    (hi : i < r.len) {t : Nat} {env : Env} (ha : r.act i = .run t env)
    (hth : ((r.state i).threads t).givesUp = true) {j : Xid} {p p' : Place}
    (hp : (r.state i).db.place j = some p) (hp' : (r.state (i + 1)).db.place j = some p')
    (halive : p.status ≠ .dead) (hdead : p'.status = .dead) :
    cfg.maxRetry ≤ p.retryAttemptCount := by
  have hstep := r.next i hi
  have hc := r.copiesExhausted hkeep (Nat.le_of_lt hi)
  rcases Sys.step_jobStep hstep (r.integrity (Nat.le_of_lt hi)) j with hsame | ⟨op, hop, hjob⟩
  · rw [hp', hp] at hsame
    cases hsame
    exact absurd hdead halive
  · rw [hp, hp'] at hjob
    cases hjob with
    | same => exact absurd hdead halive
    | reparked | drained | requeued => cases hdead
    | @marked m now job row hid hguard =>
      obtain ⟨-, u, env', ha', hmarks⟩ := Sys.opOf_mark (Sys.step_cases hstep).1 hop
      cases ha.symm.trans ha'
      have hcopy : job ∈ ((r.state i).threads t).giveUpCopies →
          cfg.maxRetry ≤ job.retryAttemptCount → cfg.maxRetry ≤ row.retryAttemptCount := by
        intro hmem hcount
        exact hc.stored t job hmem hcount _ (hid ▸ hp)
      generalize hthread : (r.state i).threads t = th at hmarks hth hcopy
      cases hmarks with
      | handOut | recover => cases hdead
      | settle =>
        exact hcopy (mem_append_left _ (mem_singleton.2 rfl)) (settleMark_dead hdead).2
      | giveUp hpull =>
        exact hcopy (mem_append_right _ mem_cons_self) (hc.locked t job _ hthread hpull)
      | post => cases hth

end

def Sample.oneRetry : Config := { config with maxRetry := 1 }

def Sample.failTwice : List Action := failOnce ++ handOutAgain 2 3 ++ [.run 3 {}, .run 3 {}]

def Sample.failTwiceRun : @SysRun netUrl oneRetry :=
  Run.ofActs (sys .push) failTwice ⟨by decide, fun _ => rfl⟩ (by decide +kernel)

theorem Sample.failTwiceRun_keepsExhausted :
    @SysRun.keepsExhausted oneRetry netUrl failTwiceRun := by
  have hlower : ∀ i < failTwiceRun.len, 0 < i →
      ((failTwiceRun.state i).opOf oneRetry (failTwiceRun.act i)).all
        (fun op => !op.lowersCount oneRetry.maxRetry) = true := by decide +kernel
  intro i hi t job hjob _
  rcases Nat.eq_zero_or_pos i with rfl | hpos
  · rw [failTwiceRun.start.2 t] at hjob
    cases hjob
  · have hop := hlower i hi hpos
    unfold Sys.resets
    generalize (failTwiceRun.state i).opOf oneRetry (failTwiceRun.act i) = op at hop
    cases op with
    | none => rfl
    | some op =>
      rw [Option.all_some, Bool.not_eq_true'] at hop
      rw [Option.any_some, hop, Bool.false_and]

open Sample

theorem given_up_jobs_exhausted_fail_twice :
    ∃ r : @SysRun netUrl oneRetry, ∃ i < r.len, ∃ p p',
      (r.state i).db.place jobXid = some p ∧ p.status = .inflight ∧
      (r.state (i + 1)).db.place jobXid = some p' ∧ p'.status = .dead ∧
      oneRetry.maxRetry ≤ p.retryAttemptCount := by
  have hlen : 16 < failTwiceRun.len := by decide
  obtain ⟨hth, hbefore, hafter⟩ : ((failTwiceRun.state 16).threads 3).givesUp = true ∧
      ((failTwiceRun.state 16).db.place jobXid).map (·.status) = some .inflight ∧
      ((failTwiceRun.state (16 + 1)).db.place jobXid).map (·.status) =
        some .dead := by decide +kernel
  obtain ⟨p, hp, hstatus⟩ := Option.map_eq_some_iff.1 hbefore
  obtain ⟨p', hp', hstatus'⟩ := Option.map_eq_some_iff.1 hafter
  have hcount := @given_up_jobs_exhausted _ netUrl _ failTwiceRun_keepsExhausted 16
    hlen 3 {} rfl hth _ _ _ hp hp' (by rw [hstatus]; exact nofun) hstatus'
  exact ⟨_, 16, hlen, p, p', hp, hstatus, hp', hstatus', hcount⟩

/-- The job of a slow worker is recovered, fails for good, is requeued and handed out again. Then
the slow worker gives up. -/
def Sample.giveUpStale : List Action :=
  failOnce ++ handOutAgain 2 3 ++ ([.tick 30000000000] : List Action) ++ list .recover 4 ++
    ([.run 4 {}, .run 4 {}, .run 4 {}] : List Action) ++ handOutAgain 5 6 ++
    ([.run 6 {}, .run 6 {}] : List Action) ++
    ([.request (.requeueDeadJob 91000000000 (job .push second))] : List Action) ++
    handOutAgain 7 8 ++ ([.run 3 {}, .run 3 {}] : List Action)

def Sample.giveUpStaleRun : @SysRun netUrl oneRetry :=
  Run.ofActs (sys .push) giveUpStale ⟨by decide, fun _ => rfl⟩ (by decide +kernel)

theorem gives_up_requeued_job :
    ∃ r : @SysRun netUrl oneRetry, ∃ i < r.len,
      r.act i = .run 3 {} ∧ ((r.state i).threads 3).givesUp = true ∧
      ((r.state i).db.place jobXid).map (fun p => (p.status, p.retryAttemptCount)) =
        some (.inflight, 0) ∧
      ((r.state (i + 1)).db.place jobXid).map (·.status) = some .dead ∧
      0 < oneRetry.maxRetry := by
  have hgivesUp : ((giveUpStaleRun.state 44).threads 3).givesUp = true ∧
      ((giveUpStaleRun.state 44).db.place jobXid).map
        (fun p => (p.status, p.retryAttemptCount)) = some (.inflight, 0) ∧
      ((giveUpStaleRun.state (44 + 1)).db.place jobXid).map (·.status) =
        some .dead ∧
      0 < oneRetry.maxRetry := by decide +kernel
  exact ⟨giveUpStaleRun, 44, by decide, rfl, hgivesUp⟩

end WebhookBroker
