import WebhookBroker.Broker.RetryCount

/-!
# The hand-outs of a push job

A job of a push consumer is handed out by the workers only, as long as no recovery pass and no
request of the pull interface acts on it. `MarkJobInflight` compares the stored retry count with
the one of the worker's copy, so the copy of the worker that handed the job out is current until
its settle write (`Sys.Owned`). Between two requeues the stored count therefore grows with every
hand-out that fails, and the job is handed out at most once for each count.
-/

namespace WebhookBroker

open Lib List

/-- The job, if it is stored, is for a push consumer. -/
def Db.isPushJob (db : Db) (j : Xid) : Bool :=
  (db.place j).all fun p => db.consumer.all fun c => c.id != p.consumerId || c.type == .push

/-- The step updates the job for a recovery pass or for a request of the pull interface. -/
def Sys.interferes (cfg : Config) (s : Sys) (a : Action) (j : Xid) : Bool :=
  match a, s.opOf cfg a with
  | .run t _, some (.mark _ _ job) =>
    match s.threads t with
    | .recoverLocked _ _ | .posting _ _ _ => job.id == j
    | _ => false
  | _, _ => false

/-! ## The copies of a retry pass -/

def Thread.retryCopies : Thread → List DeliveryJob
  | .retryListing _ jobs | .retrying jobs | .retryUnlock _ jobs => jobs
  | .retryLocked job jobs => job :: jobs
  | _ => []

/-- The retry passes know that the consumer of the job is a push consumer. -/
structure Sys.RetriesPush (s : Sys) (j : Xid) : Prop where
  listed : ∀ t, ∀ job ∈ (s.threads t).retryCopies, job.id = j →
    job.listener.all (·.type == .push) = true
  locked : ∀ t job jobs, s.threads t = .retryLocked job jobs → job.listener.isSome = true

variable {job : DeliveryJob}

theorem Sys.RetriesPush.isPush {s : Sys} {j : Xid} (h : s.RetriesPush j) {t : Nat}
    {jobs : List DeliveryJob} (hth : s.threads t = .retryLocked job jobs) (hid : job.id = j) :
    job.isPush = true := by
  have hall := h.listed t job (by rw [hth]; exact mem_cons_self) hid
  obtain ⟨l, hl⟩ := Option.isSome_iff_exists.1 (h.locked t job jobs hth)
  rw [hl] at hall
  rw [DeliveryJob.isPush, hl]
  exact hall

theorem getConsumerByID_mem {db : Db} {id : Xid} {c : Consumer}
    (h : getConsumerByID db id.string = .ok c) :
    ∃ row ∈ db.consumer, row.id = id ∧ c.type = row.type := by
  unfold getConsumerByID at h
  split at h
  · rename_i row hfind
    have hid : id = row.id := by simpa using List.find?_some hfind
    refine ⟨row, mem_of_find?_eq_some hfind, hid.symm, ?_⟩
    cases hchannel : getChannel db row.channelId with
    | error e =>
      rw [hchannel] at h
      cases h
    | ok channel =>
      rw [hchannel] at h
      cases h
      rfl
  · cases h

variable {row : JobRow}

theorem Db.isPush_toDeliveryJob {db : Db} {j : Xid} (h : db.isPushJob j = true)
    (hi : db.Integrity) (hrow : row ∈ db.job) (hid : row.id = j) :
    (row.toDeliveryJob db).listener.all (·.type == .push) = true := by
  rw [Db.isPushJob, hi.place_eq_job.2 ⟨hrow, hid⟩, Option.all_some, all_eq_true] at h
  cases hget : getConsumerByID db row.consumerId.string with
  | error e =>
    simp only [JobRow.toDeliveryJob, hget]
    rfl
  | ok c =>
    obtain ⟨crow, hmem, hcid, htype⟩ := getConsumerByID_mem hget
    have hc := h crow hmem
    simp only [JobRow.toDeliveryJob, hget]
    simpa [hcid, Place.consumerId, Except.toOption, htype] using hc

/-! ## The steps of a push job -/

section
variable {cfg : Config} {s s' : Sys} {a : Action} {j : Xid}

/-- Everything a step can do to a push job on which nothing but the workers, the retry passes, the
reparks, the drains and the requeues acts. -/
inductive PushStep (cfg : Config) (s : Sys) (a : Action) (j : Xid) :
    Option Place → Option Place → Prop
  | same {p} : PushStep cfg s a j p p
  | created {row : JobRow} (hstatus : row.status = .queued) (hcount : row.retryAttemptCount = 0) :
      PushStep cfg s a j none (some (.job row))
  | createdParked {p : ParkedJobRow} (hcount : p.retryAttemptCount = 0) :
      PushStep cfg s a j none (some (.parked p))
  | reparked {row : JobRow} {p : ParkedJobRow} (hstatus : row.status = .queued)
      (hcount : p.retryAttemptCount = row.retryAttemptCount) :
      PushStep cfg s a j (some (.job row)) (some (.parked p))
  | drained {p : ParkedJobRow} {row : JobRow} (hstatus : row.status = .queued)
      (hcount : row.retryAttemptCount = p.retryAttemptCount) :
      PushStep cfg s a j (some (.parked p)) (some (.job row))
  | handedOut {t env job} {row : JobRow} (ha : a = .run t env) (hth : s.threads t = .deliver job)
      (hid : job.id = j) (hstatus : row.status = .queued)
      (hcount : row.retryAttemptCount = job.retryAttemptCount) :
      PushStep cfg s a j (some (.job row)) (some (.job ((markJobInflight s.clock job).set row)))
  | settled {t env job delivered} {row : JobRow} (ha : a = .run t env)
      (hth : s.threads t = .settling job delivered) (hid : job.id = j)
      (hstatus : row.status = .inflight) :
      PushStep cfg s a j (some (.job row))
        (some (.job (((settleMark cfg job delivered).update s.clock job).set row)))
  | requeued {now} {row : JobRow} (hrequeue : s.requeues cfg a = true)
      (hstatus : row.status = .dead) :
      PushStep cfg s a j (some (.job row)) (some (.job (row.requeue now)))

variable {delivered : Bool}
variable {now : Time}

theorem settleMark_guard {db : Db}
    (h : ((settleMark cfg job delivered).update now job).guard db row = true) :
    row.status = .inflight := by
  unfold settleMark at h
  repeat' split at h
  all_goals
    simpa [Mark.update, markJobDelivered, markJobDead, markJobRetry, updateJobStatus] using h

theorem settleMark_count_le (h : row.retryAttemptCount ≤ cfg.maxRetry) :
    (((settleMark cfg job delivered).update now job).set row).retryAttemptCount ≤ cfg.maxRetry := by
  unfold settleMark
  split
  · exact h
  · split
    · exact h
    · rename_i hlt
      exact Nat.lt_of_not_le hlt

theorem settleMark_dead
    (h : (((settleMark cfg job delivered).update now job).set row).status = .dead) :
    delivered = false ∧ cfg.maxRetry ≤ job.retryAttemptCount := by
  unfold settleMark at h
  split at h
  · cases h
  · rename_i hfailed
    split at h
    · exact ⟨Bool.eq_false_iff.2 hfailed, ‹_›⟩
    · cases h

/-- How far a job is between two requeues: every hand-out and every retry counts one. -/
def Place.rank : Place → Nat
  | .job row => 2 * row.retryAttemptCount + if row.status = .queued then 0 else 1
  | .parked row => 2 * row.retryAttemptCount

/-- How far a job is; one that is not stored has not started. -/
def placeRank (p : Option Place) : Nat := p.elim 0 Place.rank

/-- No step but a requeue moves the job back, given that the copies of settle writes are current. -/
theorem PushStep.rank_le {before after : Option Place} (h : PushStep cfg s a j before after)
    (hrequeue : ¬ (s.requeues cfg a = true ∧ after ≠ before))
    (hcurrent : ∀ t job delivered row, s.threads t = .settling job delivered → job.id = j →
      before = some (.job row) → row.retryAttemptCount = job.retryAttemptCount) :
    placeRank before ≤ placeRank after := by
  cases h with
  | same => exact le_rfl
  | created | createdParked => exact Nat.zero_le _
  | reparked hstatus hcount => simp [placeRank, Place.rank, hstatus, hcount]
  | drained hstatus hcount => simp [placeRank, Place.rank, hstatus, hcount]
  | handedOut _ _ _ hstatus => simp [placeRank, Place.rank, hstatus, markJobInflight]
  | @settled t env job delivered row ha hth hid hstatus =>
    have hcount := hcurrent t job delivered row hth hid rfl
    unfold settleMark
    split
    · simp [placeRank, Place.rank, hstatus, Mark.update, markJobDelivered, updateJobStatus]
    · split
      · simp [placeRank, Place.rank, hstatus, Mark.update, markJobDead, updateJobStatus]
      · simp only [placeRank, Option.elim_some, Place.rank, hstatus, hcount, Mark.update,
          markJobRetry, reduceCtorEq, if_false, if_true]
        omega
  | requeued hop =>
    have hsame := not_not.1 fun hne => hrequeue ⟨hop, hne⟩
    rw [hsame]

/-! ## The worker that handed the job out -/

/-- The copy of the job that a worker has handed out and not yet settled. -/
def Thread.owned : Thread → Option DeliveryJob
  | .executing job | .settling job _ => some job
  | _ => none

/-- At most one worker has the job out; its copy is current, and the retry count is in bounds. -/
structure Sys.Owned (cfg : Config) (s : Sys) (j : Xid) : Prop where
  unique : ∀ t t' job job', (s.threads t).owned = some job → job.id = j →
    (s.threads t').owned = some job' → job'.id = j → t = t'
  current : ∀ t job, (s.threads t).owned = some job → job.id = j →
    ∃ row, s.db.place j = some (.job row) ∧ row.status = .inflight ∧
      row.retryAttemptCount = job.retryAttemptCount
  bounded : ∀ p, s.db.place j = some p → p.retryAttemptCount ≤ cfg.maxRetry

/-- A job that a worker has out stays as it is until the worker's settle write. -/
theorem Sys.Owned.place_eq (ho : s.Owned cfg j)
    (hstep : PushStep cfg s a j (s.db.place j) (s'.db.place j)) {t : Nat}
    (howned : (s.threads t).owned = some job) (hid : job.id = j)
    (hsettle : ∀ env job delivered, a = .run t env → s.threads t ≠ .settling job delivered) :
    s'.db.place j = s.db.place j := by
  obtain ⟨row, hrow, hin, -⟩ := ho.current t job howned hid
  rw [hrow] at hstep ⊢
  generalize s'.db.place j = after at hstep ⊢
  cases hstep with
  | same => rfl
  | reparked hstatus | handedOut _ _ _ hstatus | requeued _ hstatus =>
    rw [hin] at hstatus
    cases hstatus
  | @settled t' env' job' delivered _ ha hth hid' =>
    have howned' : (s.threads t').owned = some job' := by
      rw [hth]
      rfl
    obtain rfl := ho.unique t t' job job' howned hid howned' hid'
    exact absurd hth (hsettle _ _ _ ha)

variable [NetUrl]

/-! ## Steps keep the invariants -/

theorem Sys.okOf_retrying {u : Nat} {env : Env} {jobs : List DeliveryJob}
    (hth : s.threads u = .retrying (job :: jobs)) (hok : s.okOf cfg (.run u env) = true) :
    job.listener.isSome = true := by
  cases hl : job.listener with
  | some l => rfl
  | none =>
    rw [Sys.okOf, Sys.opOf_of_ok hok, hth] at hok
    simp [Thread.op, hl] at hok

theorem Sys.RetriesPush.step (hp : s.RetriesPush j) (h : Sys.step cfg s a = some s')
    (hi : s.db.Integrity) (hpush : s.db.isPushJob j = true) : s'.RetriesPush j := by
  refine ⟨fun t job hjob hid => ?_, fun t job jobs hth' => ?_⟩
  · rcases Sys.step_thread h t with ⟨-, hsame⟩ | ⟨env, -, hgoes⟩ | hstart
    · exact hp.listed t job (hsame ▸ hjob) hid
    · generalize hth : s.threads t = th at hgoes
      generalize s'.threads t = th' at hgoes hjob
      cases hgoes with
      | retryPage hpage =>
        rcases mem_nextPage hpage hjob with hbefore | ⟨row, hrow, -, rfl⟩
        · exact hp.listed t job (by rwa [hth]) hid
        · exact Db.isPush_toDeliveryJob hpush hi hrow hid
      | retryListed | retryLock | retryUnlock => exact hp.listed t job (by rwa [hth]) hid
      | retrySkip | retryQueue =>
        refine hp.listed t job ?_ hid
        rw [hth]
        exact mem_cons_of_mem _ hjob
      | _ => cases hjob
    · generalize s'.threads t = th' at hstart hjob
      cases hstart <;> cases hjob
  · rcases Sys.step_thread h t with ⟨-, hsame⟩ | ⟨env, ha, hgoes⟩ | hstart
    · exact hp.locked t job jobs (hsame.symm.trans hth')
    · rw [hth'] at hgoes
      generalize hth : s.threads t = th at hgoes
      cases hgoes with
      | retryLock hok =>
        rw [ha] at hok
        exact Sys.okOf_retrying hth hok
    · rw [hth'] at hstart
      cases hstart

theorem Sys.pushStep (h : Sys.step cfg s a = some s') (hi : s.db.Integrity)
    (hp : s.RetriesPush j) (hout : s.interferes cfg a j = false)
    (hkept : (s.db.place j).isSome = true → (s'.db.place j).isSome = true) :
    PushStep cfg s a j (s.db.place j) (s'.db.place j) := by
  rcases Sys.step_jobStep h hi j with hsame | ⟨op, hop, hstep⟩
  · rw [hsame]
    exact .same
  · generalize hbefore : s.db.place j = before at hstep hkept
    generalize hafter : s'.db.place j = after at hstep hkept
    cases hstep with
    | same => exact .same
    | created hjob hid hstatus => exact .created hstatus rfl
    | createdParked hjob hid hcount => exact .createdParked hcount
    | reparked hid hstatus hpaused => exact .reparked hstatus rfl
    | drained hpaused => exact .drained rfl rfl
    | requeued hrequeue hstatus =>
      exact .requeued (by rw [Sys.requeues, hop, Option.any_some, hrequeue]) hstatus
    | deleted hdelete => cases hkept rfl
    | marked hid hguard =>
      obtain ⟨rfl, u, env, rfl, hmarks⟩ := Sys.opOf_mark (Sys.step_cases h).1 hop
      generalize hth : s.threads u = th at hmarks
      cases hmarks with
      | handOut =>
        simp only [Mark.update, markJobInflight, Bool.and_eq_true, beq_iff_eq] at hguard
        exact .handedOut rfl hth hid hguard.1.1 hguard.1.2
      | settle => exact .settled rfl hth hid (settleMark_guard hguard)
      | recover => simp [Sys.interferes, hop, hth, hid] at hout
      | giveUp hpull =>
        rw [hp.isPush hth hid] at hpull
        cases hpull
      | post hpost => simp [Sys.interferes, hop, hth, hid] at hout

/-- A worker that has a job out had it before and is not at its settle write, or it has just handed
it out. -/
theorem Sys.step_owned (h : Sys.step cfg s a = some s') {u : Nat}
    (hu : (s'.threads u).owned = some job) :
    ((s.threads u).owned = some job ∧
      ∀ env job delivered, a = .run u env → s.threads u ≠ .settling job delivered) ∨
    ∃ job₀ env, a = .run u env ∧ s.threads u = .deliver job₀ ∧ s.okOf cfg a = true ∧
      job = (markJobInflight s.clock job₀).copy := by
  rcases Sys.step_thread h u with ⟨ht, hsame⟩ | ⟨env, ha, hgoes⟩ | hstart
  · refine .inl ⟨hsame ▸ hu, ?_⟩
    rintro env job delivered rfl
    exact absurd rfl ht
  · generalize hth : s.threads u = th at hgoes
    generalize s'.threads u = th' at hgoes hu
    cases hgoes with
    | handOut hok =>
      cases hu
      exact .inr ⟨_, env, ha, rfl, hok, rfl⟩
    | call =>
      cases hu
      refine .inl ⟨rfl, ?_⟩
      rintro env job delivered rfl hne
      cases hne
    | _ => cases hu
  · generalize s'.threads u = th' at hstart hu
    cases hstart <;> cases hu

theorem Sys.handOut_row (h : Sys.step cfg s a = some s') (hi : s.db.Integrity) {u : Nat}
    {env : Env} (ha : a = .run u env) (hth : s.threads u = .deliver job)
    (hok : s.okOf cfg a = true) :
    ∃ row, s.db.place job.id = some (.job row) ∧ row.status = .queued ∧
      row.retryAttemptCount = job.retryAttemptCount ∧
      s'.db.place job.id = some (.job ((markJobInflight s.clock job).set row)) := by
  have hop : s.opOf cfg a = some (.mark .inflight s.clock job) := by
    rw [ha] at hok ⊢
    rw [Sys.opOf_of_ok hok, hth]
    rfl
  obtain ⟨row, hrow, hguard, hset⟩ := Sys.mark_of_ok h hi hop hok
  simp only [Mark.update, markJobInflight, Bool.and_eq_true, beq_iff_eq] at hguard
  exact ⟨row, hrow, hguard.1.1, hguard.1.2, hset⟩

theorem Sys.Owned.step (ho : s.Owned cfg j) (h : Sys.step cfg s a = some s') (hi : s.db.Integrity)
    (hstep : PushStep cfg s a j (s.db.place j) (s'.db.place j)) : s'.Owned cfg j := by
  have hnew : ∀ {t t' job job₀ env}, a = .run t env → s.threads t = .deliver job₀ →
      s.okOf cfg a = true → job₀.id = j → (s.threads t').owned = some job → job.id = j → False := by
    intro t t' job job₀ env ha hth hok hid₀ howned hid
    obtain ⟨row, hrow, hqueued, -⟩ := Sys.handOut_row h hi ha hth hok
    obtain ⟨row', hrow', hin, -⟩ := ho.current t' job howned hid
    rw [hid₀, hrow'] at hrow
    cases hrow
    rw [hin] at hqueued
    cases hqueued
  refine ⟨?_, ?_, ?_⟩
  · intro t t' job job' ht hid ht' hid'
    rcases Sys.step_owned h ht with ⟨hold, -⟩ | ⟨job₀, env, ha, hth, hok, rfl⟩
    · rcases Sys.step_owned h ht' with ⟨hold', -⟩ | ⟨job₀, env, ha, hth, hok, rfl⟩
      · exact ho.unique t t' job job' hold hid hold' hid'
      · exact (hnew ha hth hok hid' hold hid).elim
    · rcases Sys.step_owned h ht' with ⟨hold', -⟩ | ⟨job₁, env', ha', -⟩
      · exact (hnew ha hth hok hid hold' hid').elim
      · rw [ha] at ha'
        cases ha'
        rfl
  · intro t job ht hid
    rcases Sys.step_owned h ht with ⟨hold, hsettle⟩ | ⟨job₀, env, ha, hth, hok, rfl⟩
    · rw [ho.place_eq hstep hold hid hsettle]
      exact ho.current t job hold hid
    · obtain ⟨row, -, -, hcount, hset⟩ := Sys.handOut_row h hi ha hth hok
      obtain rfl : job₀.id = j := hid
      exact ⟨(markJobInflight s.clock job₀).set row, hset, rfl, hcount⟩
  · intro p hp
    rw [hp] at hstep
    generalize hbefore : s.db.place j = before at hstep
    cases hstep with
    | same => exact ho.bounded p hbefore
    | created hstatus hcount => exact le_of_eq_of_le hcount (Nat.zero_le _)
    | createdParked hcount => exact le_of_eq_of_le hcount (Nat.zero_le _)
    | reparked hstatus hcount => exact le_of_eq_of_le hcount (ho.bounded _ hbefore)
    | drained hstatus hcount => exact le_of_eq_of_le hcount (ho.bounded _ hbefore)
    | handedOut =>
      have hle := ho.bounded _ hbefore
      exact hle
    | settled => exact settleMark_count_le (ho.bounded _ hbefore)
    | requeued => exact Nat.zero_le _

/-- The job is a push job, no recovery pass and no request of the pull interface acts on it, and no
delete removes it. -/
structure SysRun.Undisturbed (r : SysRun cfg) (j : Xid) : Prop where
  push : ∀ n ≤ r.len, (r.state n).db.isPushJob j = true
  alone : ∀ i < r.len, (r.state i).interferes cfg (r.act i) j = false
  kept : ∀ i < r.len, ((r.state i).db.place j).isSome = true →
    ((r.state (i + 1)).db.place j).isSome = true

variable {r : SysRun cfg}

theorem SysRun.Undisturbed.invariant (hr : r.Undisturbed j) {n : Nat} (hn : n ≤ r.len) :
    (r.state n).RetriesPush j ∧ (r.state n).Owned cfg j := by
  induction n with
  | zero =>
    have hidle := r.start.2
    refine ⟨⟨?_, ?_⟩, ⟨?_, ?_, ?_⟩⟩
    · intro t job hjob
      rw [hidle t] at hjob
      cases hjob
    · intro t job jobs hth
      rw [hidle t] at hth
      cases hth
    · intro t t' job job' ht
      rw [hidle t] at ht
      cases ht
    · intro t job ht
      rw [hidle t] at ht
      cases ht
    · intro p hp
      rw [r.start.1.place_eq_none] at hp
      cases hp
  | succ n ih =>
    obtain ⟨hp, ho⟩ := ih (by omega)
    have h := r.next n (by omega)
    have hi := r.integrity (n := n) (by omega)
    have hstep := Sys.pushStep h hi hp (hr.alone n (by omega)) (hr.kept n (by omega))
    exact ⟨hp.step h hi (hr.push n (by omega)), ho.step h hi hstep⟩

theorem SysRun.Undisturbed.pushStep (hr : r.Undisturbed j) {i : Nat} (hi : i < r.len) :
    PushStep cfg (r.state i) (r.act i) j ((r.state i).db.place j)
      ((r.state (i + 1)).db.place j) :=
  Sys.pushStep (r.next i hi) (r.integrity (by omega)) (hr.invariant (by omega)).1 (hr.alone i hi)
    (hr.kept i hi)

def SysRun.requeued (r : SysRun cfg) (i : Nat) (j : Xid) : Prop :=
  (r.state i).requeues cfg (r.act i) = true ∧
    (r.state (i + 1)).db.place j ≠ (r.state i).db.place j

/-- The retry count stored before a step. -/
def SysRun.countAt (r : SysRun cfg) (i : Nat) (j : Xid) : Option Nat :=
  ((r.state i).db.place j).map (·.retryAttemptCount)

/-- Between two requeues the job never goes back. -/
theorem SysRun.Undisturbed.rank_mono (hr : r.Undisturbed j) {i n : Nat} (hin : i ≤ n)
    (hn : n ≤ r.len) (hrequeue : ∀ k, i ≤ k → k < n → ¬ r.requeued k j) :
    placeRank ((r.state i).db.place j) ≤ placeRank ((r.state n).db.place j) := by
  induction n with
  | zero => rw [Nat.le_zero.1 hin]
  | succ n ih =>
    rcases Nat.lt_or_eq_of_le hin with hlt | rfl
    · have hle := ih (by omega) (by omega) fun k hk hkn => hrequeue k hk (by omega)
      refine hle.trans ((hr.pushStep (by omega)).rank_le (hrequeue n (by omega) (by omega)) ?_)
      intro t job delivered row hth hid hrow
      have howned : ((r.state n).threads t).owned = some job := by
        rw [hth]
        rfl
      obtain ⟨row', hrow', -, hcount⟩ :=
        (hr.invariant (n := n) (by omega)).2.current t job howned hid
      rw [hrow] at hrow'
      cases hrow'
      exact hcount
    · exact le_rfl

theorem SysRun.Undisturbed.handsOut_place (hr : r.Undisturbed j) {q t : Nat} (hq : q < r.len)
    (h : r.handsOut q t j) :
    ∃ row row', (r.state q).db.place j = some (.job row) ∧ row.status = .queued ∧
      (r.state (q + 1)).db.place j = some (.job row') ∧ row'.status = .inflight ∧
      row'.retryAttemptCount = row.retryAttemptCount := by
  obtain ⟨env, job, row', ha, hth, hid, hout, hrow', hin⟩ := h
  have hstep := hr.pushStep hq
  rw [hrow'] at hstep
  generalize hbefore : (r.state q).db.place j = before at hstep
  cases hstep with
  | same => exact absurd ⟨row', hbefore, hin⟩ hout
  | created hstatus | drained hstatus =>
    rw [hin] at hstatus
    cases hstatus
  | @handedOut t' env' job' row ha' hth' hid' hstatus hcount =>
    exact ⟨row, _, rfl, hstatus, hrow', hin, rfl⟩
  | settled _ _ _ hstatus => exact absurd ⟨_, hbefore, hstatus⟩ hout
  | requeued => cases hin

theorem SysRun.Undisturbed.handsOut_count (hr : r.Undisturbed j) {q q' t t' : Nat} (hqq : q < q')
    (hq' : q' < r.len) (h : r.handsOut q t j) (h' : r.handsOut q' t' j)
    (hrequeue : ∀ k, q < k → k < q' → ¬ r.requeued k j) : r.countAt q j ≠ r.countAt q' j := by
  obtain ⟨row, row₁, hrow, -, hrow₁, hin, hcount⟩ := hr.handsOut_place (by omega) h
  obtain ⟨row', -, hrow', hqueued, -⟩ := hr.handsOut_place hq' h'
  have hle := hr.rank_mono (i := q + 1) hqq (by omega) fun k hk => hrequeue k (by omega)
  simp only [hrow₁, hrow', placeRank, Option.elim_some, Place.rank, hin, hqueued, hcount,
    reduceCtorEq, if_false, if_true] at hle
  simp only [SysRun.countAt, hrow, hrow', Option.map_some, Place.retryAttemptCount]
  intro heq
  have heq := Option.some.inj heq
  omega

/-- A worker that has a job out has handed it out and kept it since. -/
theorem SysRun.handsOut_of_owned (r : SysRun cfg) {n t : Nat} (hn : n ≤ r.len)
    (howned : ((r.state n).threads t).owned = some job) :
    ∃ q < n, r.handsOut q t job.id ∧
      ∀ k, q < k → k ≤ n → ((r.state k).threads t).owned = some job := by
  induction n with
  | zero =>
    rw [r.start.2 t] at howned
    cases howned
  | succ n ih =>
    have hlast : ∀ {k}, n < k → k ≤ n + 1 → ((r.state k).threads t).owned = some job := by
      intro k hk hkn
      obtain rfl : k = n + 1 := by omega
      exact howned
    rcases Sys.step_owned (r.next n (by omega)) howned with
      ⟨hbefore, -⟩ | ⟨job₀, env, ha, hth, hok, rfl⟩
    · obtain ⟨q, hq, hout, hkept⟩ := ih (by omega) hbefore
      refine ⟨q, by omega, hout, fun k hk hkn => ?_⟩
      rcases Nat.lt_or_ge n k with hlt | hge
      · exact hlast hlt hkn
      · exact hkept k hk hge
    · have hout : r.handsOut n t job₀.id := r.handsOut_of_ok (by omega) ha hth hok
      exact ⟨n, by omega, hout, fun k hk hkn => hlast hk hkn⟩

/-- Step `i` is the settle write of the hand-out `q`: the worker that made it has had the job out
all the time, and the job has been `INFLIGHT`. -/
def SysRun.settles (r : SysRun cfg) (q t i : Nat) (j : Xid) (delivered : Bool) : Prop :=
  q < i ∧ r.handsOut q t j ∧
    (∃ env job, r.act i = .run t env ∧ (r.state i).threads t = .settling job delivered ∧
      job.id = j) ∧
    ∀ k, q < k → k ≤ i → (r.state k).db.inflight j ∧
      ∃ job, ((r.state k).threads t).owned = some job ∧ job.id = j

section
variable {r : SysRun cfg} (hr : r.Undisturbed j)
include hr

/-- The settle write of a worker settles its own hand-out, which was made at the count of the
worker's copy. -/
theorem SysRun.Undisturbed.settles_of_settling {i t : Nat} {env : Env} (hi : i < r.len)
    (ha : r.act i = .run t env) (hth : (r.state i).threads t = .settling job delivered)
    (hid : job.id = j) :
    ∃ q, r.settles q t i j delivered ∧ r.countAt q j = some job.retryAttemptCount := by
  have howned : ((r.state i).threads t).owned = some job := by
    rw [hth]
    rfl
  obtain ⟨q, hq, hout, hkept⟩ := r.handsOut_of_owned (by omega) howned
  rw [hid] at hout
  have hcurrent : ∀ k, q < k → k ≤ i → ∃ row, (r.state k).db.place j = some (.job row) ∧
      row.status = .inflight ∧ row.retryAttemptCount = job.retryAttemptCount := fun k hk hki =>
    (hr.invariant (n := k) (by omega)).2.current t job (hkept k hk hki) hid
  refine ⟨q, ⟨hq, hout, ⟨env, job, ha, hth, hid⟩,
    fun k hk hki => ⟨?_, job, hkept k hk hki, hid⟩⟩, ?_⟩
  · obtain ⟨row, hrow, hin, -⟩ := hcurrent k hk hki
    exact ⟨row, hrow, hin⟩
  · obtain ⟨row, row', hrow, -, hrow', -, hcount⟩ := hr.handsOut_place (by omega) hout
    obtain ⟨row₁, hrow₁, -, hcount₁⟩ := hcurrent (q + 1) (by omega) hq
    rw [hrow'] at hrow₁
    cases hrow₁
    rw [SysRun.countAt, hrow, Option.map_some, Place.retryAttemptCount, ← hcount, hcount₁]

/-- The job leaves `INFLIGHT` only by the settle write of the worker that handed it out. -/
theorem SysRun.Undisturbed.leaves_inflight {i : Nat} (hi : i < r.len)
    (hin : (r.state i).db.inflight j) (hout : ¬ (r.state (i + 1)).db.inflight j) :
    ∃ q t delivered, r.settles q t i j delivered := by
  obtain ⟨row, hrow, hstatus⟩ := hin
  have hstep := hr.pushStep hi
  rw [hrow] at hstep
  generalize hafter : (r.state (i + 1)).db.place j = after at hstep
  cases hstep with
  | same => exact absurd ⟨row, hafter, hstatus⟩ hout
  | reparked hqueued | handedOut _ _ _ hqueued | requeued _ hqueued =>
    rw [hstatus] at hqueued
    cases hqueued
  | @settled t env job delivered _ ha hth hid =>
    obtain ⟨q, hsettles, -⟩ := hr.settles_of_settling hi ha hth hid
    exact ⟨q, t, delivered, hsettles⟩

/-- Only the failure of the hand-out that was made at the last count makes the job `DEAD`. -/
theorem SysRun.Undisturbed.enters_dead {i : Nat} (hi : i < r.len) {row' : JobRow}
    (hrow' : (r.state (i + 1)).db.place j = some (.job row')) (hdead : row'.status = .dead)
    (hbefore : ∀ row, (r.state i).db.place j = some (.job row) → row.status ≠ .dead) :
    ∃ q t, r.settles q t i j false ∧ r.countAt q j = some cfg.maxRetry := by
  have hstep := hr.pushStep hi
  rw [hrow'] at hstep
  generalize hplace : (r.state i).db.place j = before at hstep hbefore
  cases hstep with
  | same => exact absurd hdead (hbefore row' rfl)
  | created hqueued | drained hqueued =>
    rw [hdead] at hqueued
    cases hqueued
  | handedOut | requeued => cases hdead
  | @settled t env job delivered row ha hth hid hstatus =>
    obtain ⟨rfl, hge⟩ := settleMark_dead hdead
    obtain ⟨q, hsettles, hcount⟩ := hr.settles_of_settling hi ha hth hid
    have hinv := (hr.invariant (n := i) (by omega)).2
    have howned : ((r.state i).threads t).owned = some job := by
      rw [hth]
      rfl
    obtain ⟨row₁, hrow₁, -, hcount₁⟩ := hinv.current t job howned hid
    have hle : row₁.retryAttemptCount ≤ cfg.maxRetry := hinv.bounded _ hrow₁
    exact ⟨q, t, hsettles, hcount.trans (congrArg some (by omega))⟩

theorem SysRun.Undisturbed.settled_before {q q' t t' : Nat} (hqq : q < q') (hq' : q' < r.len)
    (h : r.handsOut q t j) (h' : r.handsOut q' t' j) :
    ∃ i delivered, i < q' ∧ r.settles q t i j delivered := by
  obtain ⟨env, job, row, ha, hth, hid, hout, hrow, hin⟩ := id h
  obtain ⟨-, -, -, -, -, -, hout', -⟩ := id h'
  obtain ⟨i, hqi, hiq', hsince, hleaves⟩ :=
    exists_first_end (P := fun k => (r.state k).db.inflight j) hqq ⟨row, hrow, hin⟩ hout'
  obtain ⟨q₁, t₁, delivered, hsettles⟩ :=
    hr.leaves_inflight (by omega) (hsince i hqi le_rfl) hleaves
  obtain ⟨hlt, ⟨env₁, job₁, row₁, ha₁, -, -, hout₁, -⟩, -, hsince₁⟩ := id hsettles
  have hge : q ≤ q₁ := Nat.le_of_not_lt fun hlt' => hout (hsince₁ q hlt' (by omega)).1
  have hle : q₁ ≤ q := Nat.le_of_not_lt fun hlt' => hout₁ (hsince q₁ hlt' (by omega))
  obtain rfl : q₁ = q := by omega
  rw [ha] at ha₁
  cases ha₁
  exact ⟨i, delivered, hiq', hsettles⟩

theorem SysRun.Undisturbed.countAt_lt {q t : Nat} (hq : q < r.len) (h : r.handsOut q t j) :
    ∃ k < cfg.maxRetry + 1, r.countAt q j = some k := by
  obtain ⟨row, -, hrow, -⟩ := hr.handsOut_place hq h
  have hle := (hr.invariant (n := q) (by omega)).2.bounded _ hrow
  exact ⟨row.retryAttemptCount, Nat.lt_succ_of_le hle, by rw [SysRun.countAt, hrow]; rfl⟩

end

/-- A push job on which no recovery pass and no pull request acts is handed out at most once for
each retry count between two requeues. A hand-out is settled by its worker before the next one, and
only a failure at the count `maxRetry` makes the job `DEAD`. -/
theorem push_job_hand_outs (r : SysRun cfg) {j : Xid} (hr : r.Undisturbed j) {a b : Nat}
    (hb : b ≤ r.len) (hrequeue : ∀ i, a ≤ i → i < b → ¬ r.requeued i j) :
    (∀ q q' t t', a ≤ q → q < b → a ≤ q' → q' < b → r.handsOut q t j → r.handsOut q' t' j →
      r.countAt q j = r.countAt q' j → q = q') ∧
    (∀ q q' t t', q < q' → q' < r.len → r.handsOut q t j → r.handsOut q' t' j →
      ∃ i delivered, i < q' ∧ r.settles q t i j delivered) ∧
    (∀ i < r.len, (r.state i).db.inflight j → ¬ (r.state (i + 1)).db.inflight j →
      ∃ q t delivered, r.settles q t i j delivered) ∧
    (∀ qs : List Nat, qs.Nodup → (∀ q ∈ qs, a ≤ q ∧ q < b ∧ ∃ t, r.handsOut q t j) →
      qs.length ≤ cfg.maxRetry + 1) ∧
    (∀ i row', i < r.len → (r.state (i + 1)).db.place j = some (.job row') →
      row'.status = .dead →
      (∀ row, (r.state i).db.place j = some (.job row) → row.status ≠ .dead) →
      ∃ q t, r.settles q t i j false ∧ r.countAt q j = some cfg.maxRetry) := by
  have honce : ∀ q q' t t', a ≤ q → q < b → a ≤ q' → q' < b → r.handsOut q t j →
      r.handsOut q' t' j → r.countAt q j = r.countAt q' j → q = q' := by
    intro q q' t t' haq hqb haq' hqb' hout hout' hcount
    rcases Nat.lt_trichotomy q q' with hlt | heq | hgt
    · exact absurd hcount (hr.handsOut_count hlt (by omega) hout hout' fun k hk hkq =>
        hrequeue k (by omega) (by omega))
    · exact heq
    · exact absurd hcount.symm (hr.handsOut_count hgt (by omega) hout' hout fun k hk hkq =>
        hrequeue k (by omega) (by omega))
  refine ⟨honce, ?_, ?_, ?_, ?_⟩
  · exact fun q q' t t' hqq hq' hout hout' => hr.settled_before hqq hq' hout hout'
  · exact fun i hi hin hout => hr.leaves_inflight hi hin hout
  · intro qs hnodup hqs
    have hinj : (qs.map fun q => r.countAt q j).Nodup := by
      refine hnodup.map_on fun q hq q' hq' heq => ?_
      obtain ⟨haq, hqb, t, hout⟩ := hqs q hq
      obtain ⟨haq', hqb', t', hout'⟩ := hqs q' hq'
      exact honce q q' t t' haq hqb haq' hqb' hout hout' heq
    have hsub : (qs.map fun q => r.countAt q j) ⊆ (List.range (cfg.maxRetry + 1)).map some := by
      intro c hc
      obtain ⟨q, hq, rfl⟩ := mem_map.1 hc
      obtain ⟨-, hqb, t, hout⟩ := hqs q hq
      obtain ⟨k, hk, hcount⟩ := hr.countAt_lt (by omega) hout
      exact mem_map.2 ⟨k, mem_range.2 hk, hcount.symm⟩
    have hlen := (subperm_of_subset hinj hsub).length_le
    simpa using hlen
  · exact fun i row' hi hrow' hdead hbefore => hr.enters_dead hi hrow' hdead hbefore

end

open Sample

theorem push_job_hand_outs_fail_once :
    ∃ r : @SysRun netUrl config, (r.state 5).db.inflight jobXid ∧
      ¬ (r.state 6).db.inflight jobXid ∧
      ∃ q t delivered,
        @SysRun.settles config netUrl r q t 5 jobXid delivered := by
  let _ := netUrl
  let r : SysRun config := Run.ofActs (sys .push) failOnce
    ⟨by decide, fun _ => rfl⟩ (by decide +kernel)
  have hr : r.Undisturbed jobXid := ⟨by decide +kernel, by decide +kernel, by decide +kernel⟩
  have hrequeue : ∀ i < r.len, (r.state i).requeues config (r.act i) = false := by
    decide +kernel
  obtain ⟨-, -, hleaves, -⟩ := push_job_hand_outs r hr (le_refl r.len)
    fun i (_ : 0 ≤ i) hi hreq => Bool.false_ne_true ((hrequeue i hi).symm.trans hreq.1)
  have hin : (r.state 5).db.inflight jobXid := by decide +kernel
  have hout : ¬ (r.state 6).db.inflight jobXid := by decide +kernel
  exact ⟨r, hin, hout, hleaves 5 (by decide) hin hout⟩

end WebhookBroker
