import WebhookBroker.Broker.Steps

/-!
# The stored retry count

`MarkJobRetry` writes the count of the caller's copy plus one and checks only that the job is
`INFLIGHT`. A recovery pass or a worker whose copy is from an earlier hand-out can therefore lower
the stored count. In a run in which every `MarkJobRetry` that finds its job `INFLIGHT` has a copy
with the stored count, only a requeue lowers it.
-/

namespace WebhookBroker

open Lib

def Place.retryAttemptCount : Place → Nat
  | .job row => row.retryAttemptCount
  | .parked row => row.retryAttemptCount

def Action.isPost : Action → Bool
  | .post .. => true
  | _ => false

def Sys.requeues (cfg : Config) (s : Sys) (a : Action) : Bool :=
  (s.opOf cfg a).any (·.isRequeue)

/-- The step is a `MarkJobRetry` that finds its job `INFLIGHT` with another retry count than the
one of the caller's copy. -/
def Sys.retriesStale (cfg : Config) (s : Sys) (a : Action) : Bool :=
  match s.opOf cfg a with
  | some (.mark (.retry _) _ job) =>
    match s.db.place job.id with
    | some (.job row) => row.status == .inflight && row.retryAttemptCount != job.retryAttemptCount
    | _ => false
  | _ => false

theorem JobStep.retryAttemptCount_le {db : Db} {j : Xid} {op : DbOp} {p p' : Place}
    (h : JobStep db j op (some p) (some p')) (hrequeue : op.isRequeue = false)
    (hmark : ∀ m now job row, op = .mark m now job → job.id = j → p = .job row →
      (m.update now job).guard db row = true →
      row.retryAttemptCount ≤ ((m.update now job).set row).retryAttemptCount) :
    p.retryAttemptCount ≤ p'.retryAttemptCount := by
  cases h with
  | same | reparked | drained => exact le_rfl
  | marked hid hguard => exact hmark _ _ _ _ rfl hid rfl hguard
  | requeued hop =>
    rw [hop] at hrequeue
    cases hrequeue

section
variable {cfg : Config} {s s' : Sys} {a : Action}

/-- A worker, a recovery pass or a retry pass does not lower the count, unless it makes a
`MarkJobRetry` with a stale copy. -/
theorem Marks.retryAttemptCount_le {m : Mark} {job : DeliveryJob} {th : Thread} {db : Db}
    {now : Time} {row : JobRow} (h : Marks cfg m job th)
    (hpost : ∀ job₀ nextState incrementalTimeout, th ≠ .posting job₀ nextState incrementalTimeout)
    (hguard : (m.update now job).guard db row = true)
    (hcurrent : ∀ delta, m = .retry delta → row.status = .inflight →
      row.retryAttemptCount = job.retryAttemptCount) :
    row.retryAttemptCount ≤ ((m.update now job).set row).retryAttemptCount := by
  cases m with
  | inflight | delivered | dead | queuedAsDead => exact le_rfl
  | retry delta =>
    have hin : row.status = .inflight := by
      simpa [Mark.update, markJobRetry] using hguard
    have heq := hcurrent delta rfl hin
    simp only [Mark.update, markJobRetry]
    omega
  | deadAsInflight =>
    generalize hm : Mark.deadAsInflight = m at h
    cases h with
    | handOut | recover | giveUp => cases hm
    | settle =>
      unfold settleMark at hm
      repeat' split at hm
      all_goals cases hm
    | post => exact absurd rfl (hpost _ _ _)

variable [NetUrl]

/-- A step that is no requeue and makes no `MarkJobRetry` with a stale copy does not lower the
count. -/
theorem Sys.step_retryAttemptCount (h : Sys.step cfg s a = some s') (hi : s.db.Integrity)
    (hpost : ∀ u job nextState incrementalTimeout,
      s.threads u ≠ .posting job nextState incrementalTimeout)
    (hstale : s.retriesStale cfg a = false) {j : Xid} {p p' : Place}
    (hp : s.db.place j = some p) (hp' : s'.db.place j = some p')
    (hrequeue : s.requeues cfg a = false) :
    p.retryAttemptCount ≤ p'.retryAttemptCount := by
  rcases Sys.step_jobStep h hi j with hsame | ⟨op, hop, hstep⟩
  · rw [hp', hp] at hsame
    cases hsame
    exact le_rfl
  · rw [hp, hp'] at hstep
    rw [Sys.requeues, hop, Option.any_some] at hrequeue
    refine hstep.retryAttemptCount_le hrequeue ?_
    rintro m now job row rfl rfl rfl hguard
    obtain ⟨rfl, u, env, rfl, hmarks⟩ := Sys.opOf_mark (Sys.step_cases h).1 hop
    refine hmarks.retryAttemptCount_le (hpost u) hguard ?_
    rintro delta rfl hin
    simpa [Sys.retriesStale, hop, hp, hin] using hstale

theorem SysRun.not_posting (r : SysRun cfg) (hpost : ∀ i < r.len, (r.act i).isPost = false)
    {n : Nat} (hn : n ≤ r.len) (u : Nat) (job : DeliveryJob) (nextState : JobStatus)
    (incrementalTimeout : Nat) :
    (r.state n).threads u ≠ .posting job nextState incrementalTimeout := by
  intro hu
  induction n with
  | zero =>
    rw [r.start.2 u] at hu
    cases hu
  | succ n ih =>
    rcases Sys.step_posting (r.next n (by omega)) hu with hbefore | ⟨id, ha, -⟩
    · exact ih (by omega) hbefore
    · have hno := hpost n (by omega)
      rw [ha] at hno
      cases hno

/-- In every run in which each `MarkJobRetry` that finds its job `INFLIGHT` has a copy with the
stored retry count, the stored count never decreases, except by a requeue. -/
theorem retry_count_never_decreases (r : SysRun cfg)
    (hpost : ∀ i < r.len, (r.act i).isPost = false)
    (hcurrent : ∀ i < r.len, (r.state i).retriesStale cfg (r.act i) = false)
    {i : Nat} (hi : i < r.len) {j : Xid} {p p' : Place}
    (hp : (r.state i).db.place j = some p) (hp' : (r.state (i + 1)).db.place j = some p')
    (hrequeue : (r.state i).requeues cfg (r.act i) = false) :
    p.retryAttemptCount ≤ p'.retryAttemptCount :=
  Sys.step_retryAttemptCount (r.next i hi) (r.integrity (by omega))
    (r.not_posting hpost (by omega)) (hcurrent i hi) hp hp' hrequeue

end

/-- A job is dispatched, and its first hand-out fails. -/
def Sample.failOnce : List Action :=
  [.dispatch 0 message [job .push second] [], .run 0 {}, .receive 1 0, .run 1 {}, .run 1 {},
   .run 1 {}]

open Sample

theorem retry_count_never_decreases_fail_once :
    ∃ r : @SysRun netUrl config,
      (r.state 5).db.job.map (·.status) = [.inflight] ∧
      (r.state 6).db.job.map (·.status) = [.queued] ∧
      ∃ p p', (r.state 5).db.place jobXid = some p ∧
        (r.state 6).db.place jobXid = some p' ∧
        p.retryAttemptCount ≤ p'.retryAttemptCount := by
  let _ := netUrl
  let r : SysRun config := Run.ofActs (sys .push) failOnce
    ⟨by decide, fun _ => rfl⟩ (by decide +kernel)
  obtain ⟨p, hp⟩ : ∃ p, (r.state 5).db.place jobXid = some p :=
    Option.isSome_iff_exists.1 (by decide +kernel)
  obtain ⟨p', hp'⟩ : ∃ p', (r.state 6).db.place jobXid = some p' :=
    Option.isSome_iff_exists.1 (by decide +kernel)
  exact ⟨r, by decide +kernel, by decide +kernel, p, p', hp, hp', retry_count_never_decreases r
    (by decide +kernel) (by decide +kernel) (by decide) hp hp' (by decide +kernel)⟩

/-! ## A count that is lowered -/

/-- A job is dispatched and handed out by thread 1, which dies. -/
def Sample.abandon : List Action :=
  [.dispatch 0 message [job .push second] [], .run 0 {}, .run 0 {}, .receive 1 0, .run 1 {},
   .crash 1]

/-- Thread `t` makes a pass that lists the one job and stops before it locks it. -/
def Sample.list (start : Nat → Action) (t : Nat) : List Action :=
  [start t, .run t {}, .run t {}]

/-- After half a minute, a retry pass of thread `t` queues the job and thread `u` hands it out. -/
def Sample.handOutAgain (t u : Nat) : List Action :=
  ([.tick 30000000000] : List Action) ++ list .retry t ++
    ([.run t {}, .run t {}, .run t {}, .receive u 0, .run u {}] : List Action)

/-- Two recovery passes list the abandoned job. One recovers it, and it is handed out twice more;
during the second hand-out the other pass goes on. -/
def Sample.recoverStale : List Action :=
  abandon ++ ([.tick 30000000000] : List Action) ++ list .recover 2 ++ list .recover 3 ++
    ([.run 3 {}, .run 3 {}, .run 3 {}] : List Action) ++ handOutAgain 4 5 ++
    ([.run 5 {}, .run 5 {}] : List Action) ++ handOutAgain 6 7 ++
    ([.run 2 {}, .run 2 {}] : List Action)

theorem Sample.recoverStale_runs :
    (exec (@Sys.step netUrl config) (sys .push) recoverStale).isSome := by
  decide +kernel

theorem retry_count_decreases :
    ∃ r : @SysRun netUrl config,
      (∀ i < r.len, (r.act i).isPost = false) ∧
      ∃ i < r.len, (r.state i).requeues config (r.act i) = false ∧
        ((r.state i).db.place jobXid).map (·.retryAttemptCount) = some 2 ∧
        ((r.state (i + 1)).db.place jobXid).map (·.retryAttemptCount) = some 1 := by
  let _ := netUrl
  let r : SysRun config := Run.ofActs (sys .push) recoverStale
    ⟨by decide, fun _ => rfl⟩ recoverStale_runs
  refine ⟨r, by decide, 37, by decide, ?_⟩
  decide +kernel

end WebhookBroker
