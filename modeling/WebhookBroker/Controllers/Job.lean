import WebhookBroker.Dispatcher.CreateJobs
import WebhookBroker.Storage.JobStep

/-!
# The endpoints of a job (`controllers/job.go`, `controllers/dlqdelete.go`)

A request names a channel, a consumer and a job, and carries a token of the channel and one of the
consumer. The endpoints check the tokens and then load the job by its id alone. What ties the job to
the consumer is a comparison of consumer ids, which are unique only within a channel: a consumer
reaches the jobs of every consumer with the same id in another channel.

The answer to a GET stands for the JSON text made from its job. The text of a storage error, the
summary of the dead letter queue and the gauges are left out.
-/

namespace WebhookBroker

open Lib List

/-- The path parameters and the two token headers of a request. -/
structure JobRequest where
  channelID : String
  consumerID : String
  jobID : String
  channelToken : String
  consumerToken : String

/-- A status and the text of the error that `writeStatus` writes. -/
structure Status where
  code : Nat
  text : String := ""
deriving DecidableEq

/-- What an endpoint writes: the JSON of a job, or a status. -/
inductive Answer where
  | json (job : DeliveryJob)
  | status (s : Status)
deriving DecidableEq

def writeNotFound : Status := ⟨404, "Request resource not found"⟩

/-- `writeErr`, without the text of the error. -/
def writeErr : Status := { code := 500 }

def errInvalidTransitionRequest : String := "invalid transition request"
def errJobDoesNotExist : String := "job could not be found"
def errDispatchPaused : String := "dispatch paused"

/-- The token checks of `getConsumerWithValidation` and `getChannelConsumerWithAuth`, which differ
in the answer for a consumer that is not found. -/
def checkTokens (noConsumer : Status) (db : Db) (r : JobRequest) : Except Status Consumer :=
  match getChannel db r.channelID with
  | .error _ => .error writeNotFound
  | .ok channel =>
    if channel.token ≠ r.channelToken then .error ⟨403, "channel token does not match"⟩
    else match getConsumer db r.channelID r.consumerID with
      | .error _ => .error noConsumer
      | .ok consumer =>
        if consumer.token ≠ r.consumerToken then .error ⟨403, "consumer token does not match"⟩
        else .ok consumer

def getConsumerWithValidation (db : Db) (r : JobRequest) : Except Status Consumer :=
  match checkTokens ⟨401, "consumer could not be found"⟩ db r with
  | .error a => .error a
  | .ok consumer =>
    if consumer.type ≠ .pull then .error ⟨412, "consumer not pull based"⟩ else .ok consumer

def getChannelConsumerWithAuth (db : Db) (r : JobRequest) : Except Status Consumer :=
  checkTokens writeNotFound db r

/-- The job belongs to a consumer with the consumer id of this one. -/
def DeliveryJob.isFor (job : DeliveryJob) (consumer : Consumer) : Bool :=
  job.listener.map (·.consumerID) == some consumer.consumerID

def getJobWithValidation (db : Db) (r : JobRequest) : Except Status DeliveryJob :=
  match getConsumerWithValidation db r with
  | .error a => .error a
  | .ok consumer =>
    match getJobByID db r.jobID with
    | .error _ => .error ⟨404, errJobDoesNotExist⟩
    | .ok job =>
      if !job.isFor consumer then .error ⟨401, errJobDoesNotExist⟩ else .ok job

/-- The body of a POST. -/
structure UpdateData where
  nextState : String
  incrementalTimeout : Nat

/-- The checks of `JobController.Post` on the body: the update to make and the job to pass, or the
answer. -/
def UpdateData.transition (updateData : UpdateData) (job : DeliveryJob) :
    Except Status (Mark × DeliveryJob) :=
  if updateData.incrementalTimeout ≠ 0 ∧
      (updateData.nextState ≠ JobStatus.inflight.string ∨ job.status = .inflight) then
    .error ⟨400, "timeout provided with invalid state"⟩
  else
    let job := if updateData.incrementalTimeout ≠ 0 then
      { job with incrementalTimeout := updateData.incrementalTimeout } else job
    if job.status = .parked then .error ⟨409, errDispatchPaused⟩
    else if job.status.string = updateData.nextState then .error ⟨202, ""⟩
    else if updateData.nextState = JobStatus.inflight.string then
      match job.status with
      | .queued => .ok (.inflight, job)
      | .dead => .ok (.deadAsInflight, job)
      | _ => .error ⟨400, errInvalidTransitionRequest⟩
    else if updateData.nextState = JobStatus.delivered.string then .ok (.delivered, job)
    else if updateData.nextState = JobStatus.dead.string then .ok (.dead, job)
    else .error ⟨400, errInvalidTransitionRequest⟩

/-- `handOut` of `JobController.Post`. -/
def Mark.isHandOut : Mark → Bool
  | .inflight | .deadAsInflight => true
  | _ => false

def isConsumerEffectivelyPaused (db : Db) (consumer : Option Consumer) : Bool :=
  consumer.any fun c => db.effectivelyPaused c.id.string

/-- The endpoints of one job. A POST has no body when the body cannot be decoded. -/
inductive JobEndpoint where
  | get
  | post (body : Option UpdateData)
  | requeue
  /-- `DeadJobDeleteController.Delete`, with `GetMaxRetry()` -/
  | delete (maxRetry : Nat)

section
variable (now : Time) (db : Db) (r : JobRequest)

/-- `JobController.Get`. -/
def jobGet : Answer × Db :=
  match getJobWithValidation db r with
  | .error a => (.status a, db)
  | .ok job => (.json job, db)

/-- `JobController.Post`. -/
def jobPost (body : Option UpdateData) : Answer × Db :=
  match getJobWithValidation db r with
  | .error a => (.status a, db)
  | .ok job =>
    match body with
    | none => (.status writeErr, db)
    | some updateData =>
      match updateData.transition job with
      | .error a => (.status a, db)
      | .ok (m, job) =>
        match (m.update now job).run db with
        | (.ok _, db') => (.status ⟨202, ""⟩, db')
        | (.error _, db') =>
          if m.isHandOut && isConsumerEffectivelyPaused db' job.listener then
            (.status ⟨409, errDispatchPaused⟩, db')
          else (.status ⟨400, errInvalidTransitionRequest⟩, db')

/-- `JobRequeueController.Post`. -/
def jobRequeuePost : Answer × Db :=
  match getJobWithValidation db r with
  | .error a => (.status a, db)
  | .ok job =>
    if job.status ≠ .dead then (.status ⟨400, errJobDoesNotExist⟩, db)
    else match requeueDeadJob now job db with
      | (.ok _, db') => (.status ⟨202, ""⟩, db')
      | (.error _, db') => (.status writeErr, db')

/-- `DeadJobDeleteController.Delete`. -/
def deadJobDelete (maxRetry : Nat) : Answer × Db :=
  match getChannelConsumerWithAuth db r with
  | .error a => (.status a, db)
  | .ok consumer =>
    match getJobByID db r.jobID with
    | .error _ => (.status writeNotFound, db)
    | .ok job =>
      if !job.isFor consumer then (.status writeNotFound, db)
      else if job.status ≠ .dead then (.status writeNotFound, db)
      else match deleteDeadJob job maxRetry db with
        | (.error _, db') => (.status writeErr, db')
        | (.ok rowsAffected, db') =>
          if rowsAffected = 0 then (.status ⟨404, "job is not dead or retry not exhausted"⟩, db')
          else (.status ⟨204, ""⟩, db')

def JobEndpoint.handle : JobEndpoint → Answer × Db
  | .get => jobGet db r
  | .post body => jobPost now db r body
  | .requeue => jobRequeuePost now db r
  | .delete maxRetry => deadJobDelete db r maxRetry

def JobEndpoint.touches (e : JobEndpoint) (j : Xid) : Prop :=
  (∃ job, (e.handle now db r).1 = .json job ∧ job.id = j) ∨
    (e.handle now db r).2.place j ≠ db.place j

end

/-! ## The stored job -/

def Db.jobConsumer (db : Db) (j : Xid) : Option ConsumerRow :=
  (db.place j).bind fun p => rowAt (·.id) db.consumer p.consumerId

section
variable {db : Db} {j : Xid}
variable {job : DeliveryJob}

theorem getJobByID_place (hjob : (db.job.map (·.id)).Nodup)
    (hparked : (db.jobParking.map (·.id)).Nodup) {id : String} (h : getJobByID db id = .ok job) :
    (∃ row, db.place job.id = some (.job row) ∧ job = row.toDeliveryJob db) ∨
      ∃ p, db.place job.id = some (.parked p) ∧ job = p.toDeliveryJob db := by
  have hfind : findJob db id = some job := by
    unfold getJobByID at h
    split at h
    · split at h
      · cases h
        assumption
      · cases h
    · cases h
  unfold findJob at hfind
  split at hfind
  · rename_i row hrow
    cases hfind
    have hat := rowAt_of_mem hjob (mem_of_find?_eq_some hrow)
    exact .inl ⟨row, by simp [Db.place, JobRow.toDeliveryJob, hat], rfl⟩
  · rename_i hnone
    split at hfind
    · rename_i p hp
      cases hfind
      have hid : p.id.string = id := by simpa using List.find?_some hp
      have hat := rowAt_of_mem hparked (mem_of_find?_eq_some hp)
      have hno : rowAt (·.id) db.job p.id = none := by
        rw [rowAt_eq_none]
        intro hmem
        obtain ⟨row, hrow, hrowId⟩ := mem_map.1 hmem
        refine List.find?_eq_none.1 hnone row hrow ?_
        rw [hrowId, ← hid]
        exact sqlLike_self _
      exact .inr ⟨p, by simp [Db.place, ParkedJobRow.toDeliveryJob, hno, hat], rfl⟩
    · cases hfind

theorem getJobByID_jobConsumer (hjob : (db.job.map (·.id)).Nodup)
    (hparked : (db.jobParking.map (·.id)).Nodup) {id : String} (h : getJobByID db id = .ok job)
    {consumer : Consumer} (hfor : job.isFor consumer = true) :
    ∃ row, db.jobConsumer job.id = some row ∧ row.consumerId = consumer.consumerID := by
  have hlistener : ∃ p, db.place job.id = some p ∧
      job.listener = (getConsumerByID db p.consumerId.string).toOption := by
    rcases getJobByID_place hjob hparked h with ⟨row, hplace, hrow⟩ | ⟨p, hplace, hp⟩
    · exact ⟨.job row, hplace, congrArg (·.listener) hrow⟩
    · exact ⟨.parked p, hplace, congrArg (·.listener) hp⟩
  obtain ⟨p, hplace, hlistener⟩ := hlistener
  have hrowAt : rowAt (·.id) db.consumer p.consumerId =
      db.consumer.find? fun row => sqlLike p.consumerId.string row.id.string := by
    refine congrArg (db.consumer.find? ·) (funext fun row => ?_)
    rw [Bool.eq_iff_iff, decide_eq_true_eq, Xid.like_iff, eq_comm]
  rw [DeliveryJob.isFor, beq_iff_eq, hlistener, getConsumerByID] at hfor
  simp only [Db.jobConsumer, hplace, Option.bind_some, hrowAt]
  split at hfor
  · rename_i row hrow
    refine ⟨row, hrow, ?_⟩
    cases hchannel : getChannel db row.channelId with
    | ok channel =>
      rw [hchannel] at hfor
      exact Option.some.inj hfor
    | error e =>
      rw [hchannel] at hfor
      cases hfor
  · cases hfor

/-- An update that changes the rows it matches changes the places of the jobs it matches. -/
theorem place_updateWhere_ne_iff {q : JobRow → Bool} {f : JobRow → JobRow}
    (hf : ∀ r, (f r).id = r.id) (hne : ∀ r, q r = true → f r ≠ r) :
    ({ db with job := updateWhere q f db.job } : Db).place j ≠ db.place j ↔
      ∃ row, db.place j = some (.job row) ∧ q row = true := by
  simp only [Db.place, rowAt_updateWhere fun r _ => hf r]
  cases rowAt (·.id) db.job j with
  | none => simp
  | some row =>
    cases hq : q row with
    | false => simp [hq]
    | true => simp [hq, hne row hq]

theorem place_deleteWhere_ne_iff (hjob : (db.job.map (·.id)).Nodup) {q : JobRow → Bool} :
    ({ db with job := deleteWhere q db.job } : Db).place j ≠ db.place j ↔
      ∃ row, db.place j = some (.job row) ∧ q row = true := by
  simp only [Db.place, rowAt_deleteWhere hjob]
  cases rowAt (·.id) db.job j with
  | none => simp
  | some row =>
    cases hq : q row with
    | false => simp [Option.filter, hq]
    | true => simp [Option.filter, hq]

theorem Mark.set_ne {m : Mark} {now : Time} {row : JobRow}
    (h : (m.update now job).guard db row = true) : (m.update now job).set row ≠ row := by
  intro heq
  have hstatus := congrArg (·.status) heq
  rw [m.status_set, Mark.status_of_guard h] at hstatus
  exact m.source_ne_target hstatus.symm

theorem Mark.run_place_ne_iff (hjob : (db.job.map (·.id)).Nodup) {m : Mark} {now : Time} :
    ((m.update now job).run db).2.place j ≠ db.place j ↔
      ∃ row, db.place j = some (.job row) ∧ (m.update now job).matches db row = true := by
  have hplace := @place_updateWhere_ne_iff db j ((m.update now job).matches db)
    (m.update now job).set (fun r => congrArg JobRef.id (m.ref_set now job r))
    fun r hr => Mark.set_ne (Bool.and_eq_true_iff.1 hr).2
  constructor
  · intro hne
    rcases (m.update now job).run_cases db with ⟨-, hr⟩ | ⟨e, hr⟩
    · rw [hr] at hne
      exact hplace.1 hne
    · rw [hr] at hne
      exact absurd rfl hne
  · intro hrow
    obtain ⟨row, hrow, hmatch⟩ := hrow
    have hat := Db.place_eq_job_iff.1 hrow
    have hcount := JobUpdate.countP_matches hjob (mem_of_rowAt hat).1 hmatch
    rw [JobUpdate.run_of_countP hcount]
    exact hplace.2 ⟨row, hrow, hmatch⟩

end

/-! ## The jobs that a request reaches -/

section
variable (now : Time) (db : Db) (r : JobRequest)

def JobEndpoint.auth : JobEndpoint → Except Status Consumer
  | .delete _ => getChannelConsumerWithAuth db r
  | _ => getConsumerWithValidation db r

/-- The checks of an endpoint on the loaded job, with the condition of its statement. -/
def JobEndpoint.meets (job : DeliveryJob) : JobEndpoint → Prop
  | .get => True
  | .post body => ∃ updateData m job', body = some updateData ∧
      updateData.transition job = .ok (m, job') ∧
      ∃ row, db.place job.id = some (.job row) ∧ (m.update now job').guard db row = true
  | .requeue => job.status = .dead
  | .delete maxRetry => job.status = .dead ∧ maxRetry ≤ job.retryAttemptCount

def JobEndpoint.admits (e : JobEndpoint) (job : DeliveryJob) : Prop :=
  (∃ consumer, e.auth db r = .ok consumer ∧ getJobByID db r.jobID = .ok job ∧
    job.isFor consumer = true) ∧ e.meets now db job

end

section
variable {now : Time} {db : Db} {r : JobRequest} {j : Xid}

theorem getJobWithValidation_eq_ok {job : DeliveryJob} :
    getJobWithValidation db r = .ok job ↔
      ∃ consumer, getConsumerWithValidation db r = .ok consumer ∧
        getJobByID db r.jobID = .ok job ∧ job.isFor consumer = true := by
  unfold getJobWithValidation
  cases getConsumerWithValidation db r with
  | error a => simp
  | ok consumer =>
    cases getJobByID db r.jobID with
    | error e => simp
    | ok job' =>
      cases hfor : job'.isFor consumer with
      | false =>
        simp only [hfor, Bool.not_false, if_true, reduceCtorEq, Except.ok.injEq, false_iff]
        rintro ⟨_, rfl, rfl, h⟩
        rw [hfor] at h
        cases h
      | true =>
        simp only [hfor, Bool.not_true, Bool.false_eq_true, if_false, Except.ok.injEq]
        refine ⟨?_, ?_⟩
        · rintro rfl
          exact ⟨consumer, rfl, rfl, hfor⟩
        · rintro ⟨_, -, hjob, -⟩
          exact hjob

theorem UpdateData.transition_id {updateData : UpdateData} {job job' : DeliveryJob} {m : Mark}
    (h : updateData.transition job = .ok (m, job')) : job'.id = job.id := by
  have hid : (if updateData.incrementalTimeout ≠ 0 then
      { job with incrementalTimeout := updateData.incrementalTimeout } else job).id = job.id := by
    split <;> rfl
  unfold UpdateData.transition at h
  split at h
  · cases h
  · dsimp only at h
    generalize (if updateData.incrementalTimeout ≠ 0 then
      { job with incrementalTimeout := updateData.incrementalTimeout } else job) = job₀ at h hid
    repeat' split at h
    all_goals cases h
    all_goals exact hid

theorem getJobByID_dead_iff (hjob : (db.job.map (·.id)).Nodup)
    (hparked : (db.jobParking.map (·.id)).Nodup) {id : String} {job : DeliveryJob}
    (h : getJobByID db id = .ok job) (q : Nat → Prop) :
    (job.status = .dead ∧ q job.retryAttemptCount) ↔
      ∃ row, db.place job.id = some (.job row) ∧ row.status = .dead ∧ q row.retryAttemptCount := by
  rcases getJobByID_place hjob hparked h with ⟨row, hplace, hrow⟩ | ⟨p, hplace, hp⟩
  · simp only [hplace, Option.some.injEq, Place.job.injEq, exists_eq_left']
    rw [hrow]
    rfl
  · simp only [hplace, Option.some.injEq, reduceCtorEq, false_and, exists_false, iff_false]
    rw [hp]
    exact fun h => nomatch h.1

/-- A POST that is not refused executes its update, and it never answers with a job. -/
theorem jobPost_db (now : Time) {job job' : DeliveryJob} {updateData : UpdateData} {m : Mark}
    (hjob : getJobWithValidation db r = .ok job)
    (htransition : updateData.transition job = .ok (m, job')) :
    ∃ s, jobPost now db r (some updateData) = (.status s, ((m.update now job').run db).2) := by
  simp only [jobPost, hjob, htransition]
  split
  · rename_i hrun
    exact ⟨_, by rw [hrun]⟩
  · rename_i hrun
    rw [hrun]
    split <;> exact ⟨_, rfl⟩

theorem exists_place_id_iff {i : Xid} {q : JobRow → Prop} :
    (∃ row, db.place j = some (.job row) ∧ row.id = i ∧ q row) ↔
      (∃ row, db.place i = some (.job row) ∧ q row) ∧ i = j := by
  have hid : ∀ {k row}, db.place k = some (.job row) → row.id = k :=
    fun h => (mem_of_rowAt (Db.place_eq_job_iff.1 h)).2
  constructor
  · rintro ⟨row, hrow, rfl, hq⟩
    obtain rfl := hid hrow
    exact ⟨⟨row, hrow, hq⟩, rfl⟩
  · rintro ⟨⟨row, hrow, hq⟩, rfl⟩
    exact ⟨row, hrow, hid hrow, hq⟩

section
variable (hjob : (db.job.map (·.id)).Nodup) {job : DeliveryJob}
include hjob

theorem jobPost_touches {body : Option UpdateData} (hload : getJobWithValidation db r = .ok job) :
    (JobEndpoint.post body).touches now db r j ↔
      (JobEndpoint.post body).meets now db job ∧ job.id = j := by
  simp only [JobEndpoint.touches, JobEndpoint.handle, JobEndpoint.meets]
  cases body with
  | none => simp [jobPost, hload]
  | some updateData =>
    cases htransition : updateData.transition job with
    | error a => simp [jobPost, hload, htransition]
    | ok p =>
      obtain ⟨s, hpost⟩ := jobPost_db now hload htransition
      have hid := UpdateData.transition_id htransition
      simp only [hpost, Mark.run_place_ne_iff hjob, JobUpdate.matches, Mark.update_id, hid,
        Bool.and_eq_true, Xid.like_iff, fun row : JobRow => eq_comm (a := job.id) (b := row.id),
        exists_place_id_iff]
      obtain ⟨m, job'⟩ := p
      simp [htransition]

theorem jobRequeuePost_touches (hparked : (db.jobParking.map (·.id)).Nodup)
    (hload : getJobWithValidation db r = .ok job) :
    JobEndpoint.requeue.touches now db r j ↔ job.status = .dead ∧ job.id = j := by
  obtain ⟨-, -, hget, -⟩ := getJobWithValidation_eq_ok.1 hload
  have hdead := getJobByID_dead_iff hjob hparked hget fun _ => True
  simp only [and_true] at hdead
  simp only [JobEndpoint.touches, JobEndpoint.handle, jobRequeuePost, hload]
  by_cases hstatus : job.status = .dead
  · have hplace := @place_updateWhere_ne_iff db j
      (fun r => sqlLike job.id.string r.id.string && r.status == .dead) (·.requeue now)
      (fun _ => rfl) (by
        intro row hrow heq
        have hqueued : JobStatus.queued = row.status := congrArg (·.status) heq
        rw [beq_iff_eq.1 (Bool.and_eq_true_iff.1 hrow).2] at hqueued
        cases hqueued)
    simp only [Bool.and_eq_true, Xid.like_iff, beq_iff_eq,
      fun row : JobRow => eq_comm (a := job.id) (b := row.id), exists_place_id_iff,
      ← requeueDeadJob_db, ← hdead] at hplace
    rw [← hplace]
    simp only [hstatus, ne_eq, not_true_eq_false, if_false]
    split <;> simp_all
  · simp [hstatus]

theorem deadJobDelete_touches (hparked : (db.jobParking.map (·.id)).Nodup) {maxRetry : Nat}
    {consumer : Consumer} (hauth : getChannelConsumerWithAuth db r = .ok consumer)
    (hget : getJobByID db r.jobID = .ok job) (hfor : job.isFor consumer = true) :
    (JobEndpoint.delete maxRetry).touches now db r j ↔
      (job.status = .dead ∧ maxRetry ≤ job.retryAttemptCount) ∧ job.id = j := by
  simp only [JobEndpoint.touches, JobEndpoint.handle, deadJobDelete, hauth, hget, hfor,
    Bool.not_true, Bool.false_eq_true, if_false]
  by_cases hstatus : job.status = .dead
  · have hplace := @place_deleteWhere_ne_iff db j hjob
      (fun r => r.id == job.id && r.status == .dead && decide (r.retryAttemptCount ≥ maxRetry))
    simp only [Bool.and_eq_true, beq_iff_eq, decide_eq_true_eq, and_assoc, exists_place_id_iff,
      ge_iff_le, ← getJobByID_dead_iff hjob hparked hget (maxRetry ≤ ·)] at hplace
    rw [and_assoc, ← hplace]
    simp only [hstatus, ne_eq, not_true_eq_false, if_false, deleteDeadJob, transactionalOperations,
      deleteJob]
    split <;> simp
  · simp [hstatus]

end

/-- A request returns or changes exactly the job with which it passes all checks. -/
theorem JobEndpoint.touches_iff (hjob : (db.job.map (·.id)).Nodup)
    (hparked : (db.jobParking.map (·.id)).Nodup) (e : JobEndpoint) :
    e.touches now db r j ↔ ∃ job, e.admits now db r job ∧ job.id = j := by
  cases e with
  | get =>
    simp only [touches, handle, jobGet, admits, auth, meets, and_true, ← getJobWithValidation_eq_ok]
    cases getJobWithValidation db r <;> simp
  | post body =>
    simp only [admits, auth, ← getJobWithValidation_eq_ok]
    cases hload : getJobWithValidation db r with
    | error a => simp [touches, handle, jobPost, hload]
    | ok job => simp [jobPost_touches hjob hload]
  | requeue =>
    simp only [admits, auth, ← getJobWithValidation_eq_ok]
    cases hload : getJobWithValidation db r with
    | error a => simp [touches, handle, jobRequeuePost, hload]
    | ok job => simp [jobRequeuePost_touches hjob hparked hload, meets]
  | delete maxRetry =>
    cases hauth : getChannelConsumerWithAuth db r with
    | error a => simp [touches, handle, deadJobDelete, admits, auth, hauth]
    | ok consumer =>
      cases hget : getJobByID db r.jobID with
      | error a => simp [touches, handle, deadJobDelete, admits, auth, hauth, hget]
      | ok job =>
        cases hfor : job.isFor consumer with
        | false => simp [touches, handle, deadJobDelete, admits, auth, hauth, hget, hfor]
        | true =>
          rw [deadJobDelete_touches hjob hparked hauth hget hfor]
          simp [admits, auth, meets, hauth, hget, hfor]

/-! ## The consumer that authenticated a request -/

/-- The tokens of the request are those of the consumer and of its channel. -/
def JobRequest.authenticates (r : JobRequest) (db : Db) (row : ConsumerRow) : Prop :=
  ∃ channel, getChannel db r.channelID = .ok channel ∧ channel.token = r.channelToken ∧
    findConsumer db r.channelID r.consumerID = some row ∧ row.token = r.consumerToken ∧
    row.channelId = channel.channelID

/-- The consumer of the job and the consumer that the request names are both in the channel that the
request names. -/
def JobRequest.sameChannel (r : JobRequest) (db : Db) (j : Xid) : Prop :=
  ∃ channel found owner, getChannel db r.channelID = .ok channel ∧
    findConsumer db r.channelID r.consumerID = some found ∧ db.jobConsumer j = some owner ∧
    found.channelId = channel.channelID ∧ owner.channelId = channel.channelID

theorem checkTokens_eq_ok {noConsumer : Status} {consumer : Consumer}
    (h : checkTokens noConsumer db r = .ok consumer) :
    ∃ channel row, getChannel db r.channelID = .ok channel ∧ channel.token = r.channelToken ∧
      findConsumer db r.channelID r.consumerID = some row ∧ row.token = r.consumerToken ∧
      consumer.consumerID = row.consumerId := by
  unfold checkTokens at h
  split at h
  · cases h
  · rename_i channel hchannel
    split at h
    · cases h
    · rename_i htoken
      cases hrow : findConsumer db r.channelID r.consumerID with
      | none =>
        simp only [getConsumer, hchannel, hrow] at h
        cases h
      | some row =>
        have hconsumer : getConsumer db r.channelID r.consumerID =
            .ok (row.toConsumer channel) := by
          rw [getConsumer, hchannel, hrow]
          rfl
        rw [hconsumer] at h
        dsimp only at h
        split at h
        · cases h
        · rename_i hmatch
          cases h
          exact ⟨channel, row, hchannel, not_not.1 htoken, rfl, not_not.1 hmatch, rfl⟩

theorem JobEndpoint.auth_eq_ok {e : JobEndpoint} {consumer : Consumer}
    (h : e.auth db r = .ok consumer) :
    ∃ noConsumer, checkTokens noConsumer db r = .ok consumer := by
  have hpull : getConsumerWithValidation db r = .ok consumer →
      ∃ noConsumer, checkTokens noConsumer db r = .ok consumer := by
    intro h
    unfold getConsumerWithValidation at h
    split at h
    · cases h
    · rename_i hcheck
      split at h
      · cases h
      · cases h
        exact ⟨_, hcheck⟩
  cases e with
  | get | post | requeue => exact hpull h
  | delete => exact ⟨_, h⟩

/-- A request returns or changes jobs of its own consumer only, if and only if the consumer of the
job with which it passes all checks and the one that it names are in the channel that it names. -/
theorem requests_reach_own_jobs_iff (now : Time) (hkeys : db.ChannelKeys)
    (hjob : (db.job.map (·.id)).Nodup) (hparked : (db.jobParking.map (·.id)).Nodup)
    (e : JobEndpoint) (r : JobRequest) :
    (∀ j, e.touches now db r j →
      ∃ row, db.jobConsumer j = some row ∧ r.authenticates db row) ↔
      ∀ job, e.admits now db r job → r.sameChannel db job.id := by
  simp only [JobEndpoint.touches_iff hjob hparked]
  constructor
  · intro h job hadmits
    obtain ⟨row, hrow, channel, hchannel, -, hfound, -, hsame⟩ := h job.id ⟨job, hadmits, rfl⟩
    exact ⟨channel, row, row, hchannel, hfound, hrow, hsame, hsame⟩
  · rintro h _ ⟨job, hadmits, rfl⟩
    obtain ⟨⟨consumer, hauth, hget, hfor⟩, -⟩ := id hadmits
    obtain ⟨noConsumer, hcheck⟩ := JobEndpoint.auth_eq_ok hauth
    obtain ⟨_, _, hchannel, htoken, hfound, hmatch, hid⟩ := checkTokens_eq_ok hcheck
    obtain ⟨_, _, owner, hchannel', hfound', howner, hsame, hsame'⟩ := h job hadmits
    cases hchannel.symm.trans hchannel'
    cases hfound.symm.trans hfound'
    obtain ⟨_, howner', hownerId⟩ := getJobByID_jobConsumer hjob hparked hget hfor
    cases howner.symm.trans howner'
    obtain ⟨p, -, hat⟩ := Option.bind_eq_some_iff.1 howner
    have hrow := inj_on_of_nodup_map hkeys.consumer_consumerId (mem_of_rowAt hat).1
      (mem_of_find?_eq_some hfound)
      (Prod.ext (hownerId.trans hid) (hsame'.trans hsame.symm))
    rw [hrow] at howner
    exact ⟨_, howner, _, hchannel, htoken, hfound, hmatch, hsame⟩

end

namespace Sample

def otherConsumerXid : Xid := ⟨"0000000000000000000e", by decide, all_eq_true.1 (by decide)⟩

def queuedRow (consumerId : Xid) : JobRow :=
  ⟨jobXid, messageXid, consumerId, .queued, 0, 1, 1, 1, 1, 1, 0, 0⟩

/-- Two channels that each have a consumer `d`, with other tokens, and one job. -/
def sharedConsumerID (owner : Xid) : Db where
  channel := [⟨channelXid, "c", "c", "t", 1, 1⟩, ⟨producerXid, "e", "e", "s", 1, 1⟩]
  consumer := [⟨consumerXid, "d", "d", "t", "u", "c", .pull, 1, 1⟩,
    ⟨otherConsumerXid, "d", "d", "s", "u", "e", .pull, 1, 1⟩]
  message := [⟨messageXid, "m", "x", "y", 0, .dispatched, "e", "p", 1, 1, 1, 1, []⟩]
  job := [queuedRow owner]

def jobRequest : JobRequest := ⟨"c", "d", jobXid.string, "t", "t"⟩

theorem sharedConsumerID_keys (owner : Xid) : (sharedConsumerID owner).ChannelKeys where
  channel_id := show [channelXid, producerXid].Nodup by decide
  channel_channelId := show ["c", "e"].Nodup by decide
  consumer_id := show [consumerXid, otherConsumerXid].Nodup by decide
  consumer_consumerId := show [("d", "c"), ("d", "e")].Nodup by decide
  consumer_channelId := by
    intro row hrow
    simp only [sharedConsumerID, mem_cons, not_mem_nil, or_false] at hrow
    rcases hrow with rfl | rfl
    · exact mem_cons_self
    · exact mem_cons_of_mem _ mem_cons_self

end Sample

open Sample

theorem requests_reach_own_jobs_iff_own :
    let db := sharedConsumerID consumerXid
    JobEndpoint.get.touches 1 db jobRequest jobXid ∧
      ∃ row, db.jobConsumer jobXid = some row ∧ jobRequest.authenticates db row := by
  intro db
  have htouches : JobEndpoint.get.touches 1 db jobRequest jobXid :=
    .inl ⟨(queuedRow consumerXid).toDeliveryJob db, by decide +kernel, rfl⟩
  refine ⟨htouches, (requests_reach_own_jobs_iff 1 (sharedConsumerID_keys _)
    (nodup_singleton _) nodup_nil .get jobRequest).2 ?_ _ htouches⟩
  rintro job ⟨⟨_, _, hget, _⟩, _⟩
  have hid : (getJobByID db jobRequest.jobID).toOption.map (·.id) = some jobXid := by
    decide +kernel
  rw [hget] at hid
  have hjob : job.id = jobXid := Option.some.inj hid
  rw [hjob]
  exact ⟨_, _, _, rfl, rfl, rfl, rfl, rfl⟩

/-- The tokens of a consumer give access to the job of a consumer with the same id in another
channel: a GET returns it, and a POST hands it out. -/
theorem request_reaches_job_of_other_channel :
    let db := sharedConsumerID otherConsumerXid
    db.ChannelKeys ∧
      JobEndpoint.get.touches 1 db jobRequest jobXid ∧
      (JobEndpoint.post (some ⟨"INFLIGHT", 0⟩)).touches 1 db jobRequest jobXid ∧
      ∃ row, db.jobConsumer jobXid = some row ∧ row.channelId = "e" ∧
        ¬ jobRequest.authenticates db row := by
  intro db
  refine ⟨sharedConsumerID_keys _,
    .inl ⟨(queuedRow otherConsumerXid).toDeliveryJob db, ?_, rfl⟩,
    .inr ?_, _, rfl, rfl, ?_⟩
  · decide +kernel
  · decide +kernel
  · rintro ⟨channel, -, -, hfound, -, -⟩
    revert hfound
    decide +kernel

end WebhookBroker
