import WebhookBroker.Broker.System
import WebhookBroker.Dispatcher.PauseRegistry
import WebhookBroker.Dispatcher.Queue

/-!
# The passes over the jobs to recover (`dispatcher/msgdispatcher.go`)

`retryQueuedJobs` and `recoverJobsFromLongInflight` list jobs and go through the list. `getJobs`
ignores a failed lookup of a listener and leaves `nil` in the job, and the passes read
`job.Listener.Type`: the panic is recovered around the whole pass, not around the job. So a pass
ends at the first job without listener, and the jobs after it wait for another pass.

What a pass calls is a parameter (`PassCalls`), with any state: the calls may fail, and what other
goroutines do in between is part of what they do to the state.
-/

namespace WebhookBroker

open Lib List

structure PassCalls (σ : Type) where
  now : σ → Time
  isHeld : DeliveryJob → σ → Bool × σ
  tryLock : Lock → σ → Except StorageErr Unit × σ
  releaseLock : Lock → σ → σ
  /-- `djRepo.MarkQueuedJobAsDead`, whose error is only logged -/
  markQueuedJobAsDead : DeliveryJob → σ → σ
  /-- `djRepo.MarkJobRetry`, whose error is ignored -/
  markJobRetry : DeliveryJob → Duration → σ → σ
  isEffectivelyPaused : String → σ → Bool × σ
  reparkQueuedJob : DeliveryJob → σ → Except StorageErr Bool × σ
  send : Job → σ → σ

section
variable {σ : Type} (calls : PassCalls σ) (cfg : Config)

/-- `inLockRun`, with a function that returns no error. -/
def inLockRun (job : DeliveryJob) (run : σ → σ) (s : σ) : σ :=
  let lock := job.lock (calls.now s)
  match calls.tryLock lock s with
  | (.ok _, s) => calls.releaseLock lock (run s)
  | (.error _, s) => s

def reparkJob (job : DeliveryJob) (s : σ) : Bool × σ :=
  match calls.reparkQueuedJob job s with
  | (.ok moved, s) => (moved, s)
  | (.error _, s) => (false, s)

def parkOrQueue (job : DeliveryJob) (listener : Consumer) (s : σ) : σ :=
  let (paused, s) := calls.isEffectivelyPaused listener.id.string s
  let (moved, s) := if paused then reparkJob calls job s else (false, s)
  if moved then s else calls.send (newJob job) s

def queueJob (job : DeliveryJob) (listener : Consumer) (s : σ) : σ :=
  if listener.type = .push then parkOrQueue calls job listener s else s

/-- The loop of a pass: the first job without listener ends it. -/
def passLoop (body : DeliveryJob → Consumer → σ → σ) : List DeliveryJob → σ → σ
  | [], s => s
  | job :: jobs, s =>
    match job.listener with
    -- the dereference panics, and `genericPanicRecoveryFunc` runs when the pass returns
    | none => s
    | some listener => passLoop body jobs (body job listener s)

def retryQueuedJob (job : DeliveryJob) (listener : Consumer) (s : σ) : σ :=
  if listener.type = .pull then
    if job.retryAttemptCount ≥ cfg.maxRetry then
      inLockRun calls job (calls.markQueuedJobAsDead job) s
    else s
  else
    match calls.isHeld job s with
    | (true, s) => s
    | (false, s) => inLockRun calls job (queueJob calls job listener) s

/-- `retryQueuedJobs`, after `GetJobsReadyForInflightSince` returned the jobs. -/
def retryQueuedJobs : List DeliveryJob → σ → σ := passLoop (retryQueuedJob calls cfg)

def recoverJobFromLongInflight (job : DeliveryJob) (listener : Consumer) (s : σ) : σ :=
  if shouldEnqueueLongInflightJob cfg (calls.now s) listener.type job then
    inLockRun calls job
      (calls.markJobRetry job (computeEarliestDelta cfg (job.retryAttemptCount + 1))) s
  else s

/-- `recoverJobsFromLongInflight`, after `GetJobsInflightSince` returned the jobs. -/
def recoverJobsFromLongInflight : List DeliveryJob → σ → σ :=
  passLoop (recoverJobFromLongInflight calls cfg)

end

/-- The listener of the job could be loaded. -/
def DeliveryJob.isLoaded (job : DeliveryJob) : Bool := job.listener.isSome

/-! ## Where a pass ends -/

section
variable {σ : Type} {body : DeliveryJob → Consumer → σ → σ}

theorem passLoop_eq_takeWhile (body : DeliveryJob → Consumer → σ → σ) (jobs : List DeliveryJob)
    (s : σ) : passLoop body jobs s = passLoop body (jobs.takeWhile (·.isLoaded)) s := by
  induction jobs generalizing s with
  | nil => rfl
  | cons job jobs ih =>
    cases hlistener : job.listener with
    | none => simp [passLoop, DeliveryJob.isLoaded, hlistener]
    | some listener => simp [passLoop, DeliveryJob.isLoaded, hlistener, ih]

variable {jobs : List DeliveryJob}

theorem passLoop_append (hload : ∀ job ∈ jobs, job.isLoaded = true) (jobs' : List DeliveryJob)
    (s : σ) : passLoop body (jobs ++ jobs') s = passLoop body jobs' (passLoop body jobs s) := by
  induction jobs generalizing s with
  | nil => rfl
  | cons job jobs ih =>
    obtain ⟨hjob, hjobs⟩ := forall_mem_cons.1 hload
    obtain ⟨listener, hlistener⟩ := Option.isSome_iff_exists.1 hjob
    simp only [cons_append, passLoop, hlistener, ih hjobs]

theorem passLoop_of_idle
    (hidle : ∀ job ∈ jobs, ∀ listener, job.listener = some listener → ∀ s, body job listener s =
      s) (s : σ) : passLoop body jobs s = s := by
  induction jobs with
  | nil => rfl
  | cons job jobs ih =>
    obtain ⟨hjob, hjobs⟩ := forall_mem_cons.1 hidle
    cases hlistener : job.listener with
    | none => simp only [passLoop, hlistener]
    | some listener => simp only [passLoop, hlistener, hjob listener hlistener, ih hjobs]

/-- The loaded jobs are those before the first job that is not loaded, and some after it. -/
theorem passLoop_filter (body : DeliveryJob → Consumer → σ → σ) (jobs : List DeliveryJob) (s : σ) :
    passLoop body (jobs.filter (·.isLoaded)) s =
      passLoop body ((jobs.dropWhile (·.isLoaded)).filter (·.isLoaded))
        (passLoop body jobs s) := by
  have htake : ∀ job ∈ jobs.takeWhile (·.isLoaded), job.isLoaded = true :=
    fun _ => mem_takeWhile_imp
  have hsplit : jobs.filter (·.isLoaded) = jobs.takeWhile (·.isLoaded) ++
      (jobs.dropWhile (·.isLoaded)).filter (·.isLoaded) := by
    conv_lhs => rw [← takeWhile_append_dropWhile (p := (·.isLoaded)) (l := jobs)]
    rw [filter_append, filter_eq_self.2 htake]
  rw [hsplit, passLoop_append htake, ← passLoop_eq_takeWhile]

theorem le_passLoop {body : DeliveryJob → Consumer → Nat → Nat}
    (hle : ∀ job listener n, n ≤ body job listener n) (jobs : List DeliveryJob) (n : Nat) :
    n ≤ passLoop body jobs n := by
  induction jobs generalizing n with
  | nil => exact le_rfl
  | cons job jobs ih =>
    cases hlistener : job.listener with
    | none => simp [passLoop, hlistener]
    | some listener =>
      simp only [passLoop, hlistener]
      exact (hle job listener n).trans (ih _)

theorem lt_passLoop {body : DeliveryJob → Consumer → Nat → Nat}
    (hle : ∀ job listener n, n ≤ body job listener n) (hload : ∀ job ∈ jobs, job.isLoaded = true)
    {job : DeliveryJob} {listener : Consumer} (hjob : job ∈ jobs)
    (hlistener : job.listener = some listener) (hlt : ∀ n, n < body job listener n) (n : Nat) :
    n < passLoop body jobs n := by
  obtain ⟨before, after, rfl⟩ := append_of_mem hjob
  rw [passLoop_append fun j hj => hload j (mem_append_left _ hj)]
  simp only [passLoop, hlistener]
  calc n ≤ passLoop body before n := le_passLoop hle before n
    _ < body job listener (passLoop body before n) := hlt _
    _ ≤ _ := le_passLoop hle after _

end

/-- Whatever the calls of the pass do, it treats the jobs with a listener as if the others were not
in the list. -/
def IsolatesUnloaded (pass : ∀ {σ : Type}, PassCalls σ → List DeliveryJob → σ → σ)
    (jobs : List DeliveryJob) : Prop :=
  ∀ (σ : Type) (calls : PassCalls σ) (s : σ),
    pass calls jobs s = pass calls (jobs.filter (·.isLoaded)) s

/-- `retryQueuedJobs` has something to do for the job. -/
def DeliveryJob.isRetried (cfg : Config) (job : DeliveryJob) : Bool :=
  job.listener.any fun l => l.type == .push || decide (job.retryAttemptCount ≥ cfg.maxRetry)

/-- Calls that only count how many they are. No lock is free. -/
def countingCalls (now : Time) : PassCalls Nat where
  now _ := now
  isHeld _ n := (false, n + 1)
  tryLock _ n := (.error .duplicateKey, n + 1)
  releaseLock _ n := n + 1
  markQueuedJobAsDead _ n := n + 1
  markJobRetry _ _ n := n + 1
  isEffectivelyPaused _ n := (false, n + 1)
  reparkQueuedJob _ n := (.ok false, n + 1)
  send _ n := n + 1

/-- A loop isolates the jobs that are not loaded if and only if it has nothing to do for those
after the first of them. Calls that count tell whether it has. -/
theorem isolatesUnloaded_passLoop_iff
    {body : ∀ {σ : Type}, PassCalls σ → DeliveryJob → Consumer → σ → σ} {jobs : List DeliveryJob}
    {active : DeliveryJob → Bool}
    (hidle : ∀ {σ : Type} (calls : PassCalls σ) {job : DeliveryJob} {listener : Consumer},
      active job = false → job.listener = some listener → ∀ s, body calls job listener s = s)
    (hle : ∀ now job listener n, n ≤ body (countingCalls now) job listener n)
    (hlt : ∀ {job : DeliveryJob}, active job = true → ∃ listener now,
      job.listener = some listener ∧ ∀ n, n < body (countingCalls now) job listener n) :
    IsolatesUnloaded (fun calls => passLoop (body calls)) jobs ↔
      ∀ job ∈ jobs.dropWhile (·.isLoaded), active job = false := by
  constructor
  · intro hiso job hjob
    by_contra hactive
    obtain ⟨listener, now, hlistener, hlt⟩ := hlt (Bool.eq_true_of_not_eq_false hactive)
    have hload : job.isLoaded = true := by rw [DeliveryJob.isLoaded, hlistener]; rfl
    have hcount := (hiso Nat (countingCalls now) 0).trans (passLoop_filter _ jobs 0)
    exact absurd hcount (ne_of_lt (lt_passLoop (hle now) (fun j hj => (mem_filter.1 hj).2)
      (mem_filter.2 ⟨hjob, hload⟩) hlistener hlt _))
  · intro hnone σ calls s
    refine Eq.trans ?_ (passLoop_filter _ jobs s).symm
    refine (passLoop_of_idle (fun job hjob listener hlistener => ?_) _).symm
    exact hidle calls (hnone job (mem_filter.1 hjob).1) hlistener

theorem retryQueuedJob_counting (cfg : Config) (now : Time) (job : DeliveryJob)
    (listener : Consumer) (n : Nat) :
    retryQueuedJob (countingCalls now) cfg job listener n =
      if listener.type = .pull then if job.retryAttemptCount ≥ cfg.maxRetry then n + 1 else n
      else n + 2 := rfl

theorem recoverJobFromLongInflight_counting (cfg : Config) (now : Time) (job : DeliveryJob)
    (listener : Consumer) (n : Nat) :
    recoverJobFromLongInflight (countingCalls now) cfg job listener n =
      if shouldEnqueueLongInflightJob cfg now listener.type job then n + 1 else n := rfl

/-- Late enough, `recoverJobsFromLongInflight` has something to do for every job. -/
theorem exists_shouldEnqueueLongInflightJob (cfg : Config) (type : ConsumerType)
    (job : DeliveryJob) : ∃ now, shouldEnqueueLongInflightJob cfg now type job = true := by
  refine ⟨job.statusChangedAt - wrap64 (-totalDuration cfg job) + 1, ?_⟩
  cases type with
  | push => rfl
  | pull =>
    have hlt : ∀ x d : Int, x < x - d + 1 + d := by omega
    simp only [shouldEnqueueLongInflightJob, hlt, decide_true, Bool.and_true]
    rfl

/-- The passes treat the jobs with a listener as if the others were not in the list if and only if
no job that they have something to do for comes after a job without listener. -/
theorem passes_isolate_unloaded_iff (cfg : Config) (jobs : List DeliveryJob) :
    (IsolatesUnloaded (fun calls => retryQueuedJobs calls cfg) jobs ↔
      ∀ job ∈ jobs.dropWhile (·.isLoaded), job.isRetried cfg = false) ∧
    (IsolatesUnloaded (fun calls => recoverJobsFromLongInflight calls cfg) jobs ↔
      ∀ job ∈ jobs.dropWhile (·.isLoaded), job.isLoaded = false) := by
  constructor
  · refine @isolatesUnloaded_passLoop_iff (fun calls => retryQueuedJob calls cfg) jobs _ ?_ ?_ ?_
    · intro σ calls job listener hactive hlistener s
      simp only [DeliveryJob.isRetried, hlistener, Option.any_some, Bool.or_eq_false_iff,
        beq_eq_false_iff_ne, decide_eq_false_iff_not] at hactive
      cases htype : listener.type with
      | push => exact absurd htype hactive.1
      | pull => simp only [retryQueuedJob, htype, if_true, if_neg hactive.2]
    · intro now job listener n
      rw [retryQueuedJob_counting]
      split_ifs <;> omega
    · intro job hactive
      obtain ⟨listener, hlistener, hactive⟩ := (Option.any_eq_true ..).1 hactive
      refine ⟨listener, 0, hlistener, fun n => ?_⟩
      rw [retryQueuedJob_counting]
      cases htype : listener.type with
      | push => simp
      | pull => simp_all
  · refine @isolatesUnloaded_passLoop_iff (fun calls => recoverJobFromLongInflight calls cfg) jobs _
      ?_ ?_ ?_
    · intro σ calls job listener hactive hlistener
      rw [DeliveryJob.isLoaded, hlistener] at hactive
      cases hactive
    · intro now job listener n
      rw [recoverJobFromLongInflight_counting]
      split_ifs <;> omega
    · intro job hactive
      obtain ⟨listener, hlistener⟩ := Option.isSome_iff_exists.1 hactive
      obtain ⟨now, hnow⟩ := exists_shouldEnqueueLongInflightJob cfg listener.type job
      refine ⟨listener, now, hlistener, fun n => ?_⟩
      rw [recoverJobFromLongInflight_counting, if_pos hnow]
      exact Nat.lt_succ_self n

/-! ## A pass that runs alone -/

structure PassNode where
  db : Db
  clock : Time
  /-- the answers of `scheduler.isHeld` -/
  isHeld : DeliveryJob → Bool
  snapshot : PauseSnapshot
  jobQueue : List Job

/-- The calls of a pass while nothing else runs and none fails. -/
def PassNode.calls : PassCalls PassNode where
  now node := node.clock
  isHeld job node := (node.isHeld job, node)
  tryLock lock node :=
    let (result, db) := WebhookBroker.tryLock lock node.db
    (result, { node with db })
  releaseLock lock node := { node with db := (WebhookBroker.releaseLock lock.lockID node.db).2 }
  markQueuedJobAsDead job node :=
    { node with db := ((WebhookBroker.markQueuedJobAsDead node.clock job).run node.db).2 }
  markJobRetry job earliestDelta node :=
    { node with db := ((WebhookBroker.markJobRetry node.clock job earliestDelta).run node.db).2 }
  isEffectivelyPaused consumerInternalID node :=
    (node.snapshot.isEffectivelyPaused consumerInternalID, node)
  reparkQueuedJob job node :=
    let (result, db) := WebhookBroker.reparkQueuedJob node.clock job node.db
    (result.map Prod.fst, { node with db })
  send job node := { node with jobQueue := node.jobQueue ++ [job] }

namespace Sample

/-- Two jobs of a push consumer. The lookup of the first one's listener failed. -/
def halfLoaded : List DeliveryJob :=
  [{ job .push 5 with id := producerXid, listener := none }, job .push 5]

def passNode (status : JobStatus) : PassNode where
  db := { db .push with job := [producerXid, jobXid].map fun id =>
    ⟨id, messageXid, consumerXid, status, 0, 5, 5, 5, 5, 5, 0, 0⟩ }
  clock := 100 * second
  isHeld _ := false
  snapshot := .empty
  jobQueue := []

end Sample

open Sample

/-- The job behind one without listener is not queued, and not taken back from the worker that died
with it; alone it would be. -/
theorem unloaded_listener_ends_pass :
    ((retryQueuedJobs PassNode.calls config halfLoaded
        (passNode .queued)).jobQueue = [] ∧
      (retryQueuedJobs PassNode.calls config (halfLoaded.filter (·.isLoaded))
        (passNode .queued)).jobQueue = [newJob (job .push 5)] ∧
      (recoverJobsFromLongInflight PassNode.calls config halfLoaded
        (passNode .inflight)).db.job.map (·.status) = [.inflight, .inflight] ∧
      (recoverJobsFromLongInflight PassNode.calls config
        (halfLoaded.filter (·.isLoaded)) (passNode .inflight)).db.job.map (·.status) =
          [.inflight, .queued]) ∧
    ¬ IsolatesUnloaded (fun calls => retryQueuedJobs calls config) halfLoaded ∧
    ¬ IsolatesUnloaded (fun calls => recoverJobsFromLongInflight calls config)
      halfLoaded := by
  refine ⟨by decide +kernel, fun hiso => ?_, fun hiso => ?_⟩
  · have heq := congrArg PassNode.jobQueue (hiso PassNode PassNode.calls (passNode .queued))
    revert heq
    decide +kernel
  · have heq := congrArg (fun node => node.db.job.map (·.status))
      (hiso PassNode PassNode.calls (passNode .inflight))
    revert heq
    decide +kernel

end WebhookBroker
