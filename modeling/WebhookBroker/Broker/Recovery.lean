import WebhookBroker.Broker.RetryCount

/-!
# Recovery of jobs that are in flight for too long

A recovery pass tests the age of the copies it listed and later makes a `MarkJobRetry` that only
checks that the job is `INFLIGHT`. The age of the copy says nothing about the job if it was
recovered and handed out again in between. As long as the row is still the one that was listed, a
recovered job has been in flight for the whole time-out.
-/

namespace WebhookBroker

open Lib List

def Thread.recoverCopies : Thread → List DeliveryJob
  | .recoverListing _ jobs | .recovering jobs | .recoverUnlock _ jobs => jobs
  | .recoverLocked job jobs => job :: jobs
  | _ => []

/-- The job whose `MarkJobRetry` is the next step of a recovery pass. -/
def Thread.recoveredJob : Thread → Option DeliveryJob
  | .recoverLocked job _ => some job
  | _ => none

variable {job : DeliveryJob}

theorem Thread.recoveredJob_eq_some {th : Thread} :
    th.recoveredJob = some job ↔ ∃ jobs, th = .recoverLocked job jobs := by
  cases th <;> simp [Thread.recoveredJob]

/-- The exact value is in the range of a 64-bit signed integer, as is its negation. -/
def fits64 (x : Int) : Bool := decide (-2 ^ 63 < x) && decide (x < 2 ^ 63)

theorem wrap64_of_fits64 {x : Int} (h : fits64 x = true) : wrap64 x = x ∧ wrap64 (-x) = -x := by
  simp only [fits64, Bool.and_eq_true, decide_eq_true_eq] at h
  exact ⟨wrap64_of_bounds (by omega) (by omega), wrap64_of_bounds (by omega) (by omega)⟩

/-- The time after which a job is recovered, without overflow. -/
def Config.recoveryTime (cfg : Config) (isPull : Bool) (incrementalTimeout : Nat) : Duration :=
  cfg.stopTimeout + cfg.rationalDelay + if isPull then incrementalTimeout * second else 0

def DeliveryJob.isPull (job : DeliveryJob) : Bool := job.listener.any (·.type == .pull)

/-- A recovery pass is about to retry a job that is `INFLIGHT`, but not with the row that the pass
listed, or whose time-out does not fit in 64 bits. -/
def Sys.recoversOther (cfg : Config) (s : Sys) : Action → Bool
  | .run t _ =>
    match (s.threads t).recoveredJob with
    | some job =>
      match s.db.place job.id with
      | some (.job row) => row.status == .inflight &&
        !(row.statusChangedAt == job.statusChangedAt &&
          row.incrementalTimeout == job.incrementalTimeout &&
          fits64 (cfg.recoveryTime job.isPull job.incrementalTimeout))
      | _ => false
    | none => false
  | _ => false

/-! ## The copies of a recovery pass -/

section
variable {cfg : Config}

/-- What a recovery pass knows of its copies: they were `INFLIGHT` for the time-out when they were
listed, and the one it is about to retry has passed `shouldEnqueueLongInflightJob`. -/
structure Sys.CopiesAreOld (cfg : Config) (s : Sys) : Prop where
  listed : ∀ t, ∀ job ∈ (s.threads t).recoverCopies,
    job.statusChangedAt ≤ s.clock + sinceDelta (wrap64 (cfg.stopTimeout + cfg.rationalDelay))
  checked : ∀ t job, (s.threads t).recoveredJob = some job →
    job.listener.any (fun l => shouldEnqueueLongInflightJob cfg s.clock l.type job) = true

theorem shouldEnqueueLongInflightJob_mono {now now' : Time} {type : ConsumerType}
    (hle : now ≤ now') (h : shouldEnqueueLongInflightJob cfg now type job = true) :
    shouldEnqueueLongInflightJob cfg now' type job = true := by
  simp only [shouldEnqueueLongInflightJob, Bool.or_eq_true, Bool.and_eq_true, beq_iff_eq,
    decide_eq_true_eq] at h ⊢
  rcases h with hpush | ⟨hpull, hold⟩
  · exact .inl hpush
  · exact .inr ⟨hpull, Int.lt_of_lt_of_le hold (Int.add_le_add_right hle _)⟩

theorem Sys.okOf_recovering {s : Sys} {u : Nat} {env : Env} {jobs : List DeliveryJob} [NetUrl]
    (hth : s.threads u = .recovering (job :: jobs)) (hok : s.okOf cfg (.run u env) = true) :
    job.listener.any (fun l => shouldEnqueueLongInflightJob cfg s.clock l.type job) = true := by
  rw [Sys.okOf, Sys.opOf_of_ok hok, hth] at hok
  simp only [Thread.op] at hok
  split at hok
  · assumption
  · cases hok

theorem sinceDelta_le (delta : Duration) : sinceDelta delta ≤ -delta := by
  unfold sinceDelta
  split
  · exact le_of_eq (Int.neg_one_mul delta)
  · have hle : delta ≤ 0 := Int.not_lt.1 ‹_›
    exact hle.trans (Int.neg_nonneg_of_nonpos hle)

/-- The sum of `shouldEnqueueLongInflightJob` overflows only if its value does. -/
theorem totalDuration_eq (job : DeliveryJob) : totalDuration cfg job =
    wrap64 (cfg.stopTimeout + cfg.rationalDelay + job.incrementalTimeout * second) := by
  simp only [totalDuration, wrap64, Int.bmod_add_bmod, Int.bmod_mul_bmod]
  congr 1
  rw [Int.add_assoc, Int.add_comm, Int.add_comm cfg.rationalDelay]

/-- A copy that a recovery pass is about to retry is as old as the time-out. -/
theorem Sys.CopiesAreOld.recoveryTime_le {s : Sys} (hold : s.CopiesAreOld cfg) {t : Nat}
    (hth : (s.threads t).recoveredJob = some job)
    (hfits : fits64 (cfg.recoveryTime job.isPull job.incrementalTimeout) = true) :
    cfg.recoveryTime job.isPull job.incrementalTimeout ≤ s.clock - job.statusChangedAt := by
  obtain ⟨hwrap, hneg⟩ := wrap64_of_fits64 hfits
  obtain ⟨l, hl, hcheck⟩ := Option.any_eq_true _ _ |>.1 (hold.checked t job hth)
  cases hpull : job.isPull with
  | true =>
    have htype : l.type = .pull := by
      simpa [DeliveryJob.isPull, hl] using hpull
    have htime : cfg.recoveryTime true job.incrementalTimeout =
        cfg.stopTimeout + cfg.rationalDelay + job.incrementalTimeout * second := rfl
    rw [hpull, htime] at hwrap hneg
    simp only [shouldEnqueueLongInflightJob, htype, totalDuration_eq, hwrap, hneg,
      show (ConsumerType.pull == .push) = false from rfl, Bool.false_or, beq_self_eq_true,
      Bool.true_and, decide_eq_true_eq] at hcheck
    rw [htime]
    exact Int.le_of_lt (Int.lt_sub_left_of_add_lt (Int.add_lt_of_lt_sub_right hcheck))
  | false =>
    have htime : cfg.recoveryTime false job.incrementalTimeout =
        cfg.stopTimeout + cfg.rationalDelay := Int.add_zero _
    rw [hpull, htime] at hwrap
    obtain ⟨jobs, hjobs⟩ := Thread.recoveredJob_eq_some.1 hth
    have hlisted := hold.listed t job (by rw [hjobs]; exact mem_cons_self)
    rw [hwrap] at hlisted
    have hle := hlisted.trans (Int.add_le_add_left (sinceDelta_le _) s.clock)
    rw [htime]
    exact Int.le_sub_left_of_add_le (Int.add_le_of_le_sub_right hle)

variable [NetUrl] {s s' : Sys} {a : Action}

theorem Sys.CopiesAreOld.step (hold : s.CopiesAreOld cfg) (h : Sys.step cfg s a = some s') :
    s'.CopiesAreOld cfg := by
  have hclock := Sys.step_clock h
  have hlisted : ∀ {t job}, job ∈ (s.threads t).recoverCopies → job.statusChangedAt ≤
      s'.clock + sinceDelta (wrap64 (cfg.stopTimeout + cfg.rationalDelay)) := fun hjob =>
    (hold.listed _ _ hjob).trans (Int.add_le_add_right hclock _)
  refine ⟨fun t job hjob => ?_, fun t job hjob => ?_⟩
  · rcases Sys.step_thread h t with ⟨-, hsame⟩ | ⟨env, -, hgoes⟩ | hstart
    · exact hlisted (hsame ▸ hjob)
    · generalize hth : s.threads t = th at hgoes
      generalize s'.threads t = th' at hgoes hjob
      cases hgoes with
      | recoverPage hpage =>
        rcases mem_nextPage hpage hjob with hbefore | ⟨row, -, hrow, rfl⟩
        · exact hlisted (by rwa [hth])
        · simp only [isInflightSince, Bool.and_eq_true, decide_eq_true_eq] at hrow
          exact hrow.2.trans (Int.add_le_add_right hclock _)
      | recoverListed | recoverLock | recoverUnlock => exact hlisted (by rwa [hth])
      | recoverSkip | recoverRetry =>
        refine hlisted (t := t) ?_
        rw [hth]
        exact mem_cons_of_mem _ hjob
      | _ => cases hjob
    · generalize s'.threads t = th' at hstart hjob
      cases hstart <;> cases hjob
  · rcases Sys.step_thread h t with ⟨-, hsame⟩ | ⟨env, ha, hgoes⟩ | hstart
    · have hbefore := hold.checked t job (hsame ▸ hjob)
      obtain ⟨l, hl, hcheck⟩ := Option.any_eq_true _ _ |>.1 hbefore
      exact Option.any_eq_true _ _ |>.2 ⟨l, hl, shouldEnqueueLongInflightJob_mono hclock hcheck⟩
    · generalize hth : s.threads t = th at hgoes
      generalize s'.threads t = th' at hgoes hjob
      cases hgoes with
      | recoverLock hok =>
        cases hjob
        rw [ha] at hok
        obtain ⟨l, hl, hcheck⟩ := Option.any_eq_true _ _ |>.1 (Sys.okOf_recovering hth hok)
        exact Option.any_eq_true _ _ |>.2 ⟨l, hl, shouldEnqueueLongInflightJob_mono hclock hcheck⟩
      | _ => cases hjob
    · generalize s'.threads t = th' at hstart hjob
      cases hstart <;> cases hjob

theorem SysRun.copiesAreOld (r : SysRun cfg) {n : Nat} (hn : n ≤ r.len) :
    (r.state n).CopiesAreOld cfg := by
  refine r.invariant (P := fun s => s.CopiesAreOld cfg) ?_ (fun _ _ _ hold h => hold.step h) n hn
  intro s hs
  refine ⟨fun t job hjob => ?_, fun t job hjob => ?_⟩
  · rw [hs.2 t] at hjob
    cases hjob
  · rw [hs.2 t] at hjob
    cases hjob

/-! ## How long a job has been in flight -/

/-- The step `h` is the `MarkJobInflight` or `MarkDeadJobAsInflight` that moves the job into
`INFLIGHT`. -/
def SysRun.entersInflight (r : SysRun cfg) (h : Nat) (j : Xid) : Prop :=
  (∃ m job, (r.state h).opOf cfg (r.act h) = some (.mark m (r.state h).clock job) ∧ job.id = j ∧
    (m = .inflight ∨ m = .deadAsInflight)) ∧
  ¬ (r.state h).db.inflight j ∧ (r.state (h + 1)).db.inflight j

/-- The job has been `INFLIGHT` since step `h`, up to the state `n`. -/
def SysRun.inflightSince (r : SysRun cfg) (h n : Nat) (j : Xid) : Prop :=
  h < n ∧ r.entersInflight h j ∧ ∀ k, h < k → k ≤ n → (r.state k).db.inflight j

/-- The row of a job that is `INFLIGHT` carries the time of the step that brought it there. -/
theorem SysRun.inflightSince_of_row (r : SysRun cfg) {n : Nat} (hn : n ≤ r.len) {j : Xid}
    {row : JobRow} (hrow : (r.state n).db.place j = some (.job row))
    (hin : row.status = .inflight) :
    ∃ h, r.inflightSince h n j ∧ (r.state h).clock = row.statusChangedAt := by
  induction n generalizing row with
  | zero =>
    rw [r.start.1.place_eq_none] at hrow
    cases hrow
  | succ n ih =>
    have hstep := r.next n (by omega)
    have hi := r.integrity (n := n) (by omega)
    by_cases hbefore : (r.state n).db.inflight j
    · obtain ⟨row₀, hrow₀, hin₀⟩ := hbefore
      have hsame : row = row₀ := by
        rcases Sys.step_jobStep hstep hi j with heq | ⟨op, -, hjob⟩
        · rw [hrow, hrow₀] at heq
          cases heq
          rfl
        · rw [hrow, hrow₀] at hjob
          exact hjob.row_of_inflight hin₀ hin
      obtain ⟨h, ⟨hlt, henters, hsince⟩, hclock⟩ := ih (by omega) hrow₀ hin₀
      refine ⟨h, ⟨by omega, henters, fun k hk hkn => ?_⟩, hsame ▸ hclock⟩
      rcases Nat.lt_or_eq_of_le hkn with hlt' | rfl
      · exact hsince k hk (by omega)
      · exact ⟨row, hrow, hin⟩
    · obtain ⟨u, env, m, job, row₀, ha, hop, -, hid, hm, -, -, hset, -⟩ :=
        Sys.enters_inflight hstep hi hrow hin hbefore
      refine ⟨n, ⟨by omega, ⟨⟨m, job, hop, hid, hm⟩, hbefore, row, hrow, hin⟩,
        fun k hk hkn => ?_⟩, ?_⟩
      · have hk : k = n + 1 := by omega
        rw [hk]
        exact ⟨row, hrow, hin⟩
      · rw [hset]
        rcases hm with rfl | rfl
        · rfl
        · rfl

theorem SysRun.row_of_recovers (r : SysRun cfg) {i t : Nat} {env : Env} (hi : i < r.len)
    (ha : r.act i = .run t env) (hth : ((r.state i).threads t).recoveredJob = some job)
    (hok : (r.state i).okOf cfg (r.act i) = true) :
    ∃ row, (r.state i).db.place job.id = some (.job row) ∧ row.status = .inflight := by
  obtain ⟨jobs, hth⟩ := Thread.recoveredJob_eq_some.1 hth
  have hop : (r.state i).opOf cfg (r.act i) = some (.mark
      (.retry (computeEarliestDelta cfg (job.retryAttemptCount + 1))) (r.state i).clock job) := by
    rw [ha] at hok ⊢
    rw [Sys.opOf_of_ok hok, hth]
    rfl
  obtain ⟨row, hrow, hguard, -⟩ := Sys.mark_of_ok (r.next i hi) (r.integrity (by omega)) hop hok
  exact ⟨row, hrow, by simpa [Mark.update, markJobRetry] using hguard⟩

/-- A recovery pass makes a `MarkJobRetry` that succeeds. -/
def SysRun.recovers (r : SysRun cfg) (i t : Nat) (job : DeliveryJob) : Prop :=
  ∃ env, r.act i = .run t env ∧ ((r.state i).threads t).recoveredJob = some job ∧
    (r.state i).okOf cfg (r.act i) = true

end

/-- Half a minute after thread 1 died, a recovery pass of thread 2 recovers its job. -/
def Sample.recoverAbandoned : List Action :=
  abandon ++ ([.tick 30000000000] : List Action) ++ list .recover 2 ++
    ([.run 2 {}, .run 2 {}] : List Action)

open Sample

end WebhookBroker
