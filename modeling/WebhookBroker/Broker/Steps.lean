import WebhookBroker.Broker.System

/-!
# What a step of the broker can do

A step makes no database operation or one, which is that of its action (`Sys.step_db`). So the
invariants of the database hold along every run of the broker, and every job moves by the steps of
`JobStep`. `Marks` lists the threads that update a job.
-/

namespace WebhookBroker

open Lib

variable {cfg : Config} {s s' : Sys} {a : Action}

@[simp] theorem Sys.setThread_self (s : Sys) (t : Nat) (th : Thread) :
    (s.setThread t th).threads t = th := if_pos rfl
theorem Sys.setThread_ne (s : Sys) {t u : Nat} (th : Thread) (h : u ≠ t) :
    (s.setThread t th).threads u = s.threads u := if_neg h

def Action.thread : Action → Option Nat
  | .receive t _ | .recover t | .retry t | .post t _ _ _ | .dispatch t _ _ _ | .drain t _ _ _
  | .handOver t _ | .run t _ | .crash t => some t
  | .tick _ | .request _ => none

theorem Sys.advance_db (s : Sys) (ok : Bool) (a : Action) : (s.advance cfg ok a).db = s.db := by
  cases a with
  | receive t index =>
    simp only [Sys.advance]
    split <;> rfl
  | post t id nextState incrementalTimeout =>
    simp only [Sys.advance]
    split <;> rfl
  | dispatch t message deliveryJobs parkedJobs =>
    simp only [Sys.advance]
    split <;> rfl
  | drain t c pageSize earliest =>
    simp only [Sys.advance]
    split <;> rfl
  | _ => rfl

theorem Sys.advance_clock (s : Sys) (ok : Bool) (a : Action) :
    s.clock ≤ (s.advance cfg ok a).clock := by
  cases a with
  | tick d => exact Int.le_add_of_nonneg_right (Int.natCast_nonneg d)
  | receive t index =>
    simp only [Sys.advance]
    split <;> exact le_rfl
  | post t id nextState incrementalTimeout =>
    simp only [Sys.advance]
    split <;> exact le_rfl
  | dispatch t message deliveryJobs parkedJobs =>
    simp only [Sys.advance]
    split <;> exact le_rfl
  | drain t c pageSize earliest =>
    simp only [Sys.advance]
    split <;> exact le_rfl
  | _ => exact le_rfl

variable {u : Nat}

theorem Sys.advance_threads (s : Sys) (ok : Bool) (a : Action) (hu : a.thread ≠ some u) :
    (s.advance cfg ok a).threads u = s.threads u := by
  have hne : ∀ {t}, a.thread = some t → u ≠ t := by
    intro t ht hut
    exact hu (ht.trans (congrArg some hut.symm))
  cases a with
  | tick d => rfl
  | request op => rfl
  | receive t index =>
    simp only [Sys.advance]
    split
    · exact Sys.setThread_ne _ _ (hne rfl)
    · rfl
  | post t id nextState incrementalTimeout =>
    simp only [Sys.advance]
    split
    · exact Sys.setThread_ne _ _ (hne rfl)
    · rfl
  | dispatch t message deliveryJobs parkedJobs =>
    simp only [Sys.advance]
    split
    · exact Sys.setThread_ne _ _ (hne rfl)
    · rfl
  | drain t c pageSize earliest =>
    simp only [Sys.advance]
    split
    · exact Sys.setThread_ne _ _ (hne rfl)
    · rfl
  | _ => exact Sys.setThread_ne _ _ (hne rfl)

/-! ## Who updates a job -/

/-- The threads whose next step makes the update `m` with the copy `job`. -/
inductive Marks (cfg : Config) : Mark → DeliveryJob → Thread → Prop
  | handOut {job} : Marks cfg .inflight job (.deliver job)
  | settle {job delivered} : Marks cfg (settleMark cfg job delivered) job (.settling job delivered)
  | recover {job jobs} :
      Marks cfg (.retry (computeEarliestDelta cfg (job.retryAttemptCount + 1))) job
        (.recoverLocked job jobs)
  | giveUp {job jobs} (hpull : job.isPush = false) :
      Marks cfg .queuedAsDead job (.retryLocked job jobs)
  | post {m job job₀ nextState incrementalTimeout}
      (hpost : postMark job₀ nextState incrementalTimeout = some (m, job)) :
      Marks cfg m job (.posting job₀ nextState incrementalTimeout)

variable {env : Env}

theorem Thread.op_eq_mark {now t : Time} {th : Thread} {m : Mark} {job : DeliveryJob}
    (h : th.op cfg now env = some (.mark m t job)) : t = now ∧ Marks cfg m job th := by
  cases th with
  | idle | executing | recoverListing | retryListing => cases h
  | deliver => cases h; exact ⟨rfl, .handOut⟩
  | refused => cases h
  | settling => cases h; exact ⟨rfl, .settle⟩
  | recovering jobs =>
    cases jobs with
    | nil => cases h
    | cons job jobs =>
      simp only [Thread.op] at h
      split at h <;> cases h
  | recoverLocked => cases h; exact ⟨rfl, .recover⟩
  | recoverUnlock => cases h
  | retrying jobs =>
    cases jobs with
    | nil => cases h
    | cons job jobs =>
      simp only [Thread.op] at h
      split at h <;> cases h
  | retryLocked job jobs =>
    simp only [Thread.op] at h
    split at h
    · rename_i hpush
      cases h
      exact ⟨rfl, .giveUp (by simpa using hpush)⟩
    · split at h <;> cases h
  | retryUnlock => cases h
  | enqueuing jobs =>
    cases jobs with
    | nil => cases h
    | cons job jobs =>
      simp only [Thread.op] at h
      split at h <;> cases h
  | posting job nextState incrementalTimeout =>
    obtain ⟨⟨m', job'⟩, hpost, heq⟩ := Option.map_eq_some_iff.1 h
    cases heq
    exact ⟨rfl, .post hpost⟩

theorem Sys.opOf_mark (hen : s.enabled a = true) {m : Mark} {t : Time} {job : DeliveryJob}
    (h : s.opOf cfg a = some (.mark m t job)) :
    t = s.clock ∧ ∃ u env, a = .run u env ∧ Marks cfg m job (s.threads u) := by
  cases a with
  | run u env =>
    simp only [Sys.opOf] at h
    split at h
    · cases h
    · obtain ⟨ht, hm⟩ := Thread.op_eq_mark h
      exact ⟨ht, u, env, rfl, hm⟩
  | request op =>
    cases h
    cases hen
  | _ => cases h

theorem Thread.op_isDelete {now : Time} {th : Thread} {op : DbOp}
    (h : th.op cfg now env = some op) : op.isDelete = false := by
  cases th with
  | idle | executing | recoverListing | retryListing => cases h
  | deliver | refused | settling | recoverLocked | recoverUnlock | retryUnlock => cases h; rfl
  | recovering jobs | retrying jobs | enqueuing jobs =>
    cases jobs with
    | nil => cases h
    | cons job jobs =>
      simp only [Thread.op] at h
      split at h <;> cases h
      rfl
  | retryLocked job jobs =>
    simp only [Thread.op] at h
    repeat' split at h
    all_goals cases h
    all_goals rfl
  | posting job nextState incrementalTimeout =>
    obtain ⟨p, -, rfl⟩ := Option.map_eq_some_iff.1 h
    rfl

theorem Sys.opOf_isDelete {op : DbOp} (h : s.opOf cfg a = some op) (hop : op.isDelete = true) :
    a = .request op := by
  cases a with
  | run t env =>
    simp only [Sys.opOf] at h
    split at h
    · cases h
    · rw [Thread.op_isDelete h] at hop
      cases hop
  | dispatch | drain =>
    cases h
    cases hop
  | request op =>
    cases h
    rfl
  | _ => cases h

/-! ## How a thread gets where it is -/

/-- The positions in which an action leaves a thread that it starts or stops. -/
inductive Starts (s : Sys) (u : Nat) : Action → Thread → Prop
  | crash : Starts s u (.crash u) .idle
  /-- what the thread was to start failed -/
  | failed {a : Action} (ha : a.thread = some u) (hidle : s.threads u = .idle) : Starts s u a .idle
  | receive {index job} (hjob : s.held[index]? = some job) :
      Starts s u (.receive u index) (.deliver job)
  | recover : Starts s u (.recover u) (.recoverListing {} [])
  | retry : Starts s u (.retry u) (.retryListing {} [])
  | post {id nextState incrementalTimeout job} (hjob : getJobByID s.db id = .ok job) :
      Starts s u (.post u id nextState incrementalTimeout)
        (.posting job nextState incrementalTimeout)
  | enqueue {a : Action} {jobs} (ha : a.thread = some u) : Starts s u a (.enqueuing jobs)

/-- The ways in which a thread goes on; `ok` says that its database operation succeeded. -/
inductive Goes (cfg : Config) (now : Time) (env : Env) (db : Db) (ok : Bool) :
    Thread → Thread → Prop
  | stop {th} : Goes cfg now env db ok th .idle
  | handOut {job} (hok : ok = true) :
      Goes cfg now env db ok (.deliver job) (.executing (markJobInflight now job).copy)
  | refuse {job} : Goes cfg now env db ok (.deliver job) (.refused job)
  | call {job} : Goes cfg now env db ok (.executing job) (.settling job env.answer)
  | recoverPage {page jobs page' jobs'}
      (hpage : nextPage env db (isInflightSince now (wrap64 (cfg.stopTimeout + cfg.rationalDelay)))
        page jobs = some (page', jobs')) :
      Goes cfg now env db ok (.recoverListing page jobs) (.recoverListing page' jobs')
  | recoverListed {page jobs} :
      Goes cfg now env db ok (.recoverListing page jobs) (.recovering jobs)
  | recoverLock {job jobs} (hok : ok = true) :
      Goes cfg now env db ok (.recovering (job :: jobs)) (.recoverLocked job jobs)
  | recoverSkip {job jobs} : Goes cfg now env db ok (.recovering (job :: jobs)) (.recovering jobs)
  | recoverRetry {job jobs} :
      Goes cfg now env db ok (.recoverLocked job jobs) (.recoverUnlock job jobs)
  | recoverUnlock {job jobs} :
      Goes cfg now env db ok (.recoverUnlock job jobs) (.recovering jobs)
  | retryPage {page jobs page' jobs'}
      (hpage : nextPage env db (isReadyForInflightSince db now cfg.rationalDelay cfg.maxRetry)
        page jobs = some (page', jobs')) :
      Goes cfg now env db ok (.retryListing page jobs) (.retryListing page' jobs')
  | retryListed {page jobs} : Goes cfg now env db ok (.retryListing page jobs) (.retrying jobs)
  | retryLock {job jobs} (hok : ok = true) :
      Goes cfg now env db ok (.retrying (job :: jobs)) (.retryLocked job jobs)
  | retrySkip {job jobs} : Goes cfg now env db ok (.retrying (job :: jobs)) (.retrying jobs)
  | retryQueue {job jobs} :
      Goes cfg now env db ok (.retryLocked job jobs) (.retryUnlock job jobs)
  | retryUnlock {job jobs} : Goes cfg now env db ok (.retryUnlock job jobs) (.retrying jobs)
  | enqueue {job jobs} : Goes cfg now env db ok (.enqueuing (job :: jobs)) (.enqueuing jobs)

theorem Thread.next_goes (now : Time) (env : Env) (db : Db) (ok : Bool) (th : Thread) :
    Goes cfg now env db ok th (th.next cfg now env db ok).1 := by
  cases th with
  | deliver job =>
    cases ok with
    | true => exact .handOut rfl
    | false => exact .refuse
  | executing => exact .call
  | recoverListing page jobs =>
    simp only [Thread.next]
    split
    · exact .recoverPage ‹_›
    · exact .recoverListed
  | recovering jobs =>
    cases jobs with
    | nil => exact .stop
    | cons job jobs =>
      simp only [Thread.next]
      repeat' split
      · exact .stop
      · exact .recoverLock ‹_›
      · exact .recoverSkip
  | recoverLocked => exact .recoverRetry
  | recoverUnlock => exact .recoverUnlock
  | retryListing page jobs =>
    simp only [Thread.next]
    split
    · exact .retryPage ‹_›
    · exact .retryListed
  | retrying jobs =>
    cases jobs with
    | nil => exact .stop
    | cons job jobs =>
      simp only [Thread.next]
      repeat' split
      · exact .stop
      · exact .retryLock ‹_›
      · exact .retrySkip
  | retryLocked => exact .retryQueue
  | retryUnlock => exact .retryUnlock
  | enqueuing jobs =>
    cases jobs with
    | nil => exact .stop
    | cons job jobs => exact .enqueue
  | idle | refused | settling | posting => exact .stop

theorem mem_nextPage {db : Db} {p : JobRow → Bool} {page page' : Pagination}
    {jobs jobs' : List DeliveryJob} (h : nextPage env db p page jobs = some (page', jobs'))
    {job : DeliveryJob} (hjob : job ∈ jobs') :
    job ∈ jobs ∨ ∃ row ∈ db.job, p row = true ∧ job = row.toDeliveryJob db := by
  simp only [nextPage] at h
  split at h
  · cases h
  · cases h
    rcases List.mem_append.1 hjob with hold | hnew
    · exact .inl hold
    · obtain ⟨row, hrow, rfl⟩ := List.mem_map.1 hnew
      obtain ⟨hmem, hp⟩ := List.mem_filter.1 (mem_pageQuery hrow).1
      exact .inr ⟨row, hmem, hp, rfl⟩

/-- An action advances its thread, or starts or stops it, and leaves the others alone. -/
theorem Sys.advance_thread (ok : Bool) (hen : s.enabled a = true) (u : Nat) :
    (a.thread ≠ some u ∧ (s.advance cfg ok a).threads u = s.threads u) ∨
    (∃ env, a = .run u env ∧
      Goes cfg s.clock env s.db ok (s.threads u) ((s.advance cfg ok a).threads u)) ∨
    Starts s u a ((s.advance cfg ok a).threads u) := by
  by_cases hu : a.thread = some u
  · cases a with
    | tick | request => cases hu
    | run t env =>
      cases hu
      rw [Sys.advance, Sys.setThread_self]
      exact .inr (.inl ⟨env, rfl, Thread.next_goes ..⟩)
    | receive t index =>
      cases hu
      refine .inr (.inr ?_)
      simp only [Sys.advance]
      split
      · rename_i job hjob
        rw [Sys.setThread_self]
        exact .receive hjob
      · simp only [Sys.enabled, Bool.and_eq_true, decide_eq_true_eq] at hen
        rw [hen.1]
        exact .failed rfl hen.1
    | post t id nextState incrementalTimeout =>
      cases hu
      refine .inr (.inr ?_)
      simp only [Sys.advance]
      split
      · rename_i job hjob
        rw [Sys.setThread_self]
        exact .post hjob
      · rw [of_decide_eq_true hen]
        exact .failed rfl (of_decide_eq_true hen)
    | dispatch t message deliveryJobs parkedJobs =>
      cases hu
      refine .inr (.inr ?_)
      simp only [Sys.advance]
      split
      · rw [Sys.setThread_self]
        exact .enqueue rfl
      · rw [of_decide_eq_true hen]
        exact .failed rfl (of_decide_eq_true hen)
    | drain t c pageSize earliest =>
      cases hu
      refine .inr (.inr ?_)
      simp only [Sys.advance]
      split
      · rw [Sys.setThread_self]
        exact .enqueue rfl
      · rw [of_decide_eq_true hen]
        exact .failed rfl (of_decide_eq_true hen)
    | recover t =>
      cases hu
      rw [Sys.advance, Sys.setThread_self]
      exact .inr (.inr .recover)
    | retry t =>
      cases hu
      rw [Sys.advance, Sys.setThread_self]
      exact .inr (.inr .retry)
    | handOver t ids =>
      cases hu
      rw [Sys.advance, Sys.setThread_self]
      exact .inr (.inr (.enqueue rfl))
    | crash t =>
      cases hu
      rw [Sys.advance, Sys.setThread_self]
      exact .inr (.inr .crash)
  · exact .inl ⟨hu, Sys.advance_threads s ok a hu⟩

variable [NetUrl]

theorem Sys.step_cases (h : Sys.step cfg s a = some s') :
    s.enabled a = true ∧
    ((s.opOf cfg a = none ∧ s' = s.advance cfg false a) ∨
      ∃ op db', s.opOf cfg a = some op ∧ DbOp.step s.db op = some db' ∧
        s' = { s.advance cfg (op.succeeds s.db) a with db := db' }) := by
  unfold Sys.step at h
  split at h
  · rename_i hen
    refine ⟨hen, ?_⟩
    split at h
    · rename_i hop
      exact .inl ⟨hop, (Option.some.inj h).symm⟩
    · rename_i op hop
      obtain ⟨db', hdb, hs⟩ := Option.map_eq_some_iff.1 h
      exact .inr ⟨op, db', hop, hdb, hs.symm⟩
  · cases h

theorem Sys.step_db (h : Sys.step cfg s a = some s') :
    (s.opOf cfg a = none ∧ s'.db = s.db) ∨
      ∃ op, s.opOf cfg a = some op ∧ DbOp.step s.db op = some s'.db := by
  obtain ⟨-, ⟨hop, rfl⟩ | ⟨op, db', hop, hdb, rfl⟩⟩ := Sys.step_cases h
  · exact .inl ⟨hop, Sys.advance_db s false a⟩
  · exact .inr ⟨op, hop, hdb⟩

theorem Sys.step_clock (h : Sys.step cfg s a = some s') : s.clock ≤ s'.clock := by
  obtain ⟨-, ⟨hop, rfl⟩ | ⟨op, db', hop, hdb, rfl⟩⟩ := Sys.step_cases h
  · exact Sys.advance_clock s _ a
  · exact Sys.advance_clock s _ a

/-- The success of an action's database operation. -/
def Sys.okOf (cfg : Config) (s : Sys) (a : Action) : Bool :=
  (s.opOf cfg a).any fun op => op.succeeds s.db

theorem Sys.opOf_of_ok (hok : s.okOf cfg (.run u env) = true) :
    s.opOf cfg (.run u env) = (s.threads u).op cfg s.clock env := by
  rw [Sys.okOf, Sys.opOf] at hok
  rw [Sys.opOf]
  split at hok
  · cases hok
  · exact if_neg ‹_›

section
variable (h : Sys.step cfg s a = some s')
include h

theorem Sys.step_eq : s' = { s.advance cfg (s.okOf cfg a) a with db := s'.db } := by
  obtain ⟨-, ⟨hop, rfl⟩ | ⟨op, db', hop, hdb, rfl⟩⟩ := Sys.step_cases h
  · rw [Sys.okOf, hop]
    rfl
  · rw [Sys.okOf, hop]
    rfl

theorem Sys.step_thread (u : Nat) :
    (a.thread ≠ some u ∧ s'.threads u = s.threads u) ∨
    (∃ env, a = .run u env ∧
      Goes cfg s.clock env s.db (s.okOf cfg a) (s.threads u) (s'.threads u)) ∨
    Starts s u a (s'.threads u) := by
  rw [Sys.step_eq h]
  exact Sys.advance_thread (s.okOf cfg a) (Sys.step_cases h).1 u

theorem Sys.step_executing {job : DeliveryJob} (hu : s'.threads u = .executing job) :
    (a.thread ≠ some u ∧ s.threads u = .executing job) ∨
    ∃ job₀ env, a = .run u env ∧ s.threads u = .deliver job₀ ∧ s.okOf cfg a = true ∧
      job = (markJobInflight s.clock job₀).copy := by
  rcases Sys.step_thread h u with ⟨ht, hsame⟩ | ⟨env, ha, hgoes⟩ | hstart
  · exact .inl ⟨ht, hsame.symm.trans hu⟩
  · rw [hu] at hgoes
    generalize hth : s.threads u = th at hgoes
    cases hgoes with
    | handOut hok => exact .inr ⟨_, env, ha, rfl, hok, rfl⟩
  · rw [hu] at hstart
    cases hstart

theorem Sys.step_posting {job : DeliveryJob} {nextState : JobStatus} {incrementalTimeout : Nat}
    (hu : s'.threads u = .posting job nextState incrementalTimeout) :
    s.threads u = .posting job nextState incrementalTimeout ∨
    ∃ id, a = .post u id nextState incrementalTimeout ∧ getJobByID s.db id = .ok job := by
  rcases Sys.step_thread h u with ⟨-, hsame⟩ | ⟨env, ha, hgoes⟩ | hstart
  · exact .inl (hsame.symm.trans hu)
  · rw [hu] at hgoes
    generalize s.threads u = th at hgoes
    cases hgoes
  · rw [hu] at hstart
    cases hstart with
    | post hjob => exact .inr ⟨_, rfl, hjob⟩

end

/-! ## The database along a run -/

theorem Sys.step_integrity (h : Sys.step cfg s a = some s') (hi : s.db.Integrity) :
    s'.db.Integrity := by
  rcases Sys.step_db h with ⟨-, hdb⟩ | ⟨op, -, hdb⟩
  · rw [hdb]
    exact hi
  · exact hi.effect (DbOp.step_effect hdb)

theorem SysRun.integrity (r : SysRun cfg) {n : Nat} (hn : n ≤ r.len) : (r.state n).db.Integrity :=
  r.invariant (P := fun s => s.db.Integrity) (fun _ h => h.1.integrity)
    (fun _ _ _ hi h => Sys.step_integrity h hi) n hn

theorem Sys.step_jobStep (h : Sys.step cfg s a = some s') (hi : s.db.Integrity) (j : Xid) :
    s'.db.place j = s.db.place j ∨
      ∃ op, s.opOf cfg a = some op ∧ JobStep s.db j op (s.db.place j) (s'.db.place j) := by
  rcases Sys.step_db h with ⟨-, hdb⟩ | ⟨op, hop, hdb⟩
  · rw [hdb]
    exact .inl rfl
  · exact .inr ⟨op, hop, (DbOp.step_effect hdb).jobStep hi j⟩

theorem Sys.mark_of_ok (h : Sys.step cfg s a = some s') (hi : s.db.Integrity) {m : Mark} {t : Time}
    {job : DeliveryJob} (hop : s.opOf cfg a = some (.mark m t job)) (hok : s.okOf cfg a = true) :
    ∃ row, s.db.place job.id = some (.job row) ∧ (m.update t job).guard s.db row = true ∧
      s'.db.place job.id = some (.job ((m.update t job).set row)) := by
  rw [Sys.okOf, hop, Option.any_some] at hok
  obtain ⟨row, hplace, hguard, hset⟩ := hi.mark_succeeds hok
  rcases Sys.step_db h with ⟨hnone, -⟩ | ⟨op, hop', hdb⟩
  · rw [hop] at hnone
    cases hnone
  · rw [hop] at hop'
    cases hop'
    rw [DbOp.exec_of_step hdb] at hset
    exact ⟨row, hplace, hguard, hset⟩

/-- A job enters `INFLIGHT` by a mark of the running thread, while its consumer is not paused. -/
theorem Sys.enters_inflight (h : Sys.step cfg s a = some s') (hi : s.db.Integrity) {j : Xid}
    {row : JobRow} (hrow : s'.db.place j = some (.job row)) (hin : row.status = .inflight)
    (hout : ¬ s.db.inflight j) :
    ∃ u env m job row₀, a = .run u env ∧ s.opOf cfg a = some (.mark m s.clock job) ∧
      Marks cfg m job (s.threads u) ∧ job.id = j ∧ (m = .inflight ∨ m = .deadAsInflight) ∧
      s.db.place j = some (.job row₀) ∧ (m.update s.clock job).guard s.db row₀ = true ∧
      row = (m.update s.clock job).set row₀ ∧
      s.db.effectivelyPaused row.consumerId.string = false := by
  rcases Sys.step_jobStep h hi j with hsame | ⟨op, hop, hstep⟩
  · exact absurd ⟨row, hsame.symm.trans hrow, hin⟩ hout
  · rw [hrow] at hstep
    obtain ⟨m, t, job, row₀, rfl, hid, hplace, hm, hguard, hset, hpaused⟩ :=
      hstep.enters_inflight hin fun row₀ hplace hst => hout ⟨row₀, hplace, hst⟩
    obtain ⟨rfl, u, env, ha, hmarks⟩ := Sys.opOf_mark (Sys.step_cases h).1 hop
    exact ⟨u, env, m, job, row₀, ha, hop, hmarks, hid, hm, hplace, hguard, hset, hpaused⟩

/-- The step `q` is the hand-out of `job` by thread `t`: its `MarkJobInflight` moves the job into
`INFLIGHT`. -/
def SysRun.handsOut (r : SysRun cfg) (q t : Nat) (j : Xid) : Prop :=
  ∃ env job row, r.act q = .run t env ∧ (r.state q).threads t = .deliver job ∧ job.id = j ∧
    ¬ (r.state q).db.inflight j ∧ (r.state (q + 1)).db.place j = some (.job row) ∧
    row.status = .inflight

theorem SysRun.handsOut_of_ok (r : SysRun cfg) {q t : Nat} {job : DeliveryJob} (hq : q < r.len)
    (ha : r.act q = .run t env) (hth : (r.state q).threads t = .deliver job)
    (hok : (r.state q).okOf cfg (r.act q) = true) : r.handsOut q t job.id := by
  have hop : (r.state q).opOf cfg (r.act q) = some (.mark .inflight (r.state q).clock job) := by
    rw [ha] at hok ⊢
    rw [Sys.opOf_of_ok hok, hth]
    rfl
  obtain ⟨row, hplace, hguard, hset⟩ :=
    Sys.mark_of_ok (r.next q hq) (r.integrity (by omega)) hop hok
  refine ⟨env, job, _, ha, hth, rfl, ?_, hset, rfl⟩
  rintro ⟨row', hrow', hin⟩
  rw [hplace] at hrow'
  cases hrow'
  simp [Mark.update, markJobInflight, hin] at hguard

theorem SysRun.handsOut_of_executing (r : SysRun cfg) {n t : Nat} {job : DeliveryJob}
    (hn : n ≤ r.len) (hth : (r.state n).threads t = .executing job) :
    ∃ q < n, r.handsOut q t job.id ∧ ∀ k, q < k → k < n → (r.act k).thread ≠ some t := by
  induction n with
  | zero =>
    rw [r.start.2 t] at hth
    cases hth
  | succ n ih =>
    rcases Sys.step_executing (r.next n (by omega)) hth with
      ⟨ht, hbefore⟩ | ⟨job₀, env, ha, hbefore, hok, rfl⟩
    · obtain ⟨q, hq, hout, hquiet⟩ := ih (by omega) hbefore
      refine ⟨q, by omega, hout, fun k hk hkn => ?_⟩
      rcases Nat.lt_or_eq_of_le (Nat.lt_succ_iff.1 hkn) with hlt | rfl
      · exact hquiet k hk hlt
      · exact ht
    · have hout : r.handsOut n t job₀.id := r.handsOut_of_ok (by omega) ha hbefore hok
      exact ⟨n, by omega, hout, fun k hk hkn => by omega⟩

end WebhookBroker
