import WebhookBroker.Storage.Integrity

/-!
# The life of one job

`Db.place` is where a job is stored: in `job`, in `job_parking` or nowhere. `JobStep` lists
everything that an operation can do to one job, and `DbEffect.jobStep` proves that the list is
complete. What holds of a job along a run is derived from it.
-/

namespace WebhookBroker

open Lib List

inductive Place where
  | job (row : JobRow)
  | parked (row : ParkedJobRow)
deriving DecidableEq

def Place.consumerId : Place → Xid
  | .job row => row.consumerId
  | .parked row => row.consumerId

/-- The status of a stored job, `PARKED` for a parked one. -/
def Place.status : Place → JobStatus
  | .job row => row.status
  | .parked _ => .parked

def Db.place (db : Db) (j : Xid) : Option Place :=
  match rowAt (·.id) db.job j with
  | some row => some (.job row)
  | none => (rowAt (·.id) db.jobParking j).map .parked

def Db.inflight (db : Db) (j : Xid) : Prop :=
  ∃ row, db.place j = some (.job row) ∧ row.status = .inflight

theorem Db.inflight_iff {db : Db} {j : Xid} : db.inflight j ↔ ((db.place j).any fun
    | .job row => row.status == .inflight
    | .parked _ => false) = true := by
  unfold Db.inflight
  cases db.place j with
  | none => simp
  | some p => cases p <;> simp

instance (db : Db) (j : Xid) : Decidable (db.inflight j) := decidable_of_iff _ Db.inflight_iff.symm

/-- The operations that put dead jobs back to `QUEUED`. -/
def DbOp.isRequeue : DbOp → Bool
  | .requeueDeadJob .. | .requeueDeadJobsForConsumer .. => true
  | _ => false

/-- Everything that an operation on `db` can do to the job `j`. -/
inductive JobStep (db : Db) (j : Xid) : DbOp → Option Place → Option Place → Prop
  | same {op p} : JobStep db j op p p
  | created {now message deliveryJobs parkedJobs} {job : DeliveryJob} (hjob : job ∈ deliveryJobs)
      (hid : job.id = j) (hstatus : job.status = .queued) :
      JobStep db j (.dispatchMessageWithParking now message deliveryJobs parkedJobs)
        none (some (.job job.jobRow))
  | createdParked {now message deliveryJobs parkedJobs} {job : DeliveryJob} {seq : Nat}
      (hjob : job ∈ parkedJobs) (hid : job.id = j) (hcount : job.retryAttemptCount = 0) :
      JobStep db j (.dispatchMessageWithParking now message deliveryJobs parkedJobs)
        none (some (.parked { job.parkedRow now with seq := seq }))
  | reparked {now job} {row : JobRow} (hid : job.id = j) (hstatus : row.status = .queued)
      (hpaused : db.effectivelyPaused row.consumerId.string = true) :
      JobStep db j (.reparkQueuedJob now job)
        (some (.job row)) (some (.parked { row.park now with seq := db.nextSeq }))
  | drained {now pageSize earliest} {row : ParkedJobRow}
      (hpaused : db.effectivelyPaused row.consumerId.string = false) :
      JobStep db j (.drainPage now row.consumerId.string pageSize earliest)
        (some (.parked row)) (some (.job (row.drain now earliest)))
  | marked {m : Mark} {now job} {row : JobRow} (hid : job.id = j)
      (hguard : (m.update now job).guard db row = true) :
      JobStep db j (.mark m now job)
        (some (.job row)) (some (.job ((m.update now job).set row)))
  | requeued {op : DbOp} {now} {row : JobRow} (hop : op.isRequeue = true)
      (hstatus : row.status = .dead) :
      JobStep db j op (some (.job row)) (some (.job (row.requeue now)))
  | deleted {op : DbOp} {row : JobRow} (hop : op.isDelete = true) :
      JobStep db j op (some (.job row)) none

/-! ## Places and rows -/

section
variable {db db' : Db} {j : Xid}

/-- What differs for all jobs differs for the rows of `job`. -/
theorem Db.job_nodup {κ : Type} {key : JobRef → κ} (h : (db.stored.map key).Nodup) :
    (db.job.map (key ·.ref)).Nodup := by
  rw [Db.stored, map_append, map_map] at h
  exact h.of_append_left

@[inherit_doc Db.job_nodup]
theorem Db.parked_nodup {κ : Type} {key : JobRef → κ} (h : (db.stored.map key).Nodup) :
    (db.jobParking.map (key ·.ref)).Nodup := by
  rw [Db.stored, map_append, map_map, map_map] at h
  exact h.of_append_right

/-- What the schema asks of the two tables of jobs: their keys, their foreign keys, and that a job
is in one of them only. -/
structure Db.JobTables (db : Db) : Prop where
  ids : (db.stored.map (·.id)).Nodup
  pairs : (db.stored.map (·.pair)).Nodup
  seqs : (db.jobParking.map (·.seq)).Nodup
  references : ∀ r ∈ db.stored, db.hasMessageAndConsumer r.messageId r.consumerId

theorem Db.JobTables.job_ids (h : db.JobTables) : (db.job.map (·.id)).Nodup := Db.job_nodup h.ids

theorem Db.Integrity.job_ids (h : db.Integrity) : (db.job.map (·.id)).Nodup := Db.job_nodup h.ids

theorem Db.Integrity.parked_ids (h : db.Integrity) : (db.jobParking.map (·.id)).Nodup :=
  Db.parked_nodup h.ids

theorem Db.Integrity.disjoint (h : db.Integrity) {row : JobRow} {p : ParkedJobRow}
    (hrow : row ∈ db.job) (hp : p ∈ db.jobParking) : row.id ≠ p.id := by
  have hids := h.ids
  rw [Db.stored, map_append, map_map, map_map] at hids
  intro heq
  exact (nodup_append.1 hids).2.2 _ (mem_map_of_mem hrow) _ (mem_map_of_mem hp) heq

theorem Db.place_eq_job_iff {row : JobRow} :
    db.place j = some (.job row) ↔ rowAt (·.id) db.job j = some row := by
  rw [Db.place]
  cases rowAt (·.id) db.job j <;> simp

theorem Db.Integrity.place_eq_job (h : db.Integrity) {row : JobRow} :
    db.place j = some (.job row) ↔ row ∈ db.job ∧ row.id = j := by
  rw [Db.place_eq_job_iff, rowAt_eq_some h.job_ids]

theorem Db.Integrity.place_eq_parked (h : db.Integrity) {p : ParkedJobRow} :
    db.place j = some (.parked p) ↔ p ∈ db.jobParking ∧ p.id = j := by
  rw [← rowAt_eq_some h.parked_ids, Db.place]
  cases hrow : rowAt (·.id) db.job j with
  | none => simp
  | some row =>
    obtain ⟨hmem, hid⟩ := mem_of_rowAt hrow
    simp only [Option.some.injEq, reduceCtorEq, false_iff]
    intro hp
    obtain ⟨hpmem, hpid⟩ := mem_of_rowAt hp
    exact h.disjoint hmem hpmem (hid.trans hpid.symm)

theorem Db.place_eq_none : db.place j = none ↔ j ∉ db.stored.map (·.id) := by
  have hjob : j ∈ (db.job.map (·.ref)).map (·.id) ↔ rowAt (·.id) db.job j ≠ none := by
    rw [ne_eq, rowAt_eq_none, not_not, map_map]
    rfl
  have hparked : j ∈ (db.jobParking.map (·.ref)).map (·.id) ↔
      rowAt (·.id) db.jobParking j ≠ none := by
    rw [ne_eq, rowAt_eq_none, not_not, map_map]
    rfl
  rw [Db.stored, map_append, mem_append, hjob, hparked, Db.place]
  cases rowAt (·.id) db.job j <;> simp

theorem Db.isInitial.place_eq_none (h : db.isInitial) : db.place j = none := by
  rw [Db.place_eq_none, Db.stored, h.1, h.2.1]
  exact not_mem_nil

/-- A job whose row is kept, or that stays unstored, keeps its place. -/
theorem Db.Integrity.place_of_keeps (h : db.Integrity) (h' : db'.Integrity)
    (hjob : ∀ row ∈ db.job, row.id = j → row ∈ db'.job)
    (hparked : ∀ p ∈ db.jobParking, p.id = j → p ∈ db'.jobParking)
    (hnone : j ∉ db.stored.map (·.id) → j ∉ db'.stored.map (·.id)) : db'.place j = db.place j := by
  cases hplace : db.place j with
  | none => exact Db.place_eq_none.2 (hnone (Db.place_eq_none.1 hplace))
  | some place =>
    cases place with
    | job row =>
      obtain ⟨hmem, hid⟩ := h.place_eq_job.1 hplace
      exact h'.place_eq_job.2 ⟨hjob row hmem hid, hid⟩
    | parked p =>
      obtain ⟨hmem, hid⟩ := h.place_eq_parked.1 hplace
      exact h'.place_eq_parked.2 ⟨hparked p hmem hid, hid⟩

/-! ## The effects on one job -/

theorem place_updateWhere {q : JobRow → Bool} {f : JobRow → JobRow} (hf : ∀ r, (f r).id = r.id) :
    ({ db with job := updateWhere q f db.job } : Db).place j = db.place j ∨
    ∃ row, db.place j = some (.job row) ∧ row.id = j ∧ q row = true ∧
      ({ db with job := updateWhere q f db.job } : Db).place j = some (.job (f row)) := by
  simp only [Db.place, rowAt_updateWhere fun r _ => hf r]
  cases hrow : rowAt (·.id) db.job j with
  | none => exact .inl rfl
  | some row =>
    cases hq : q row with
    | false => exact .inl (by simp [hq])
    | true => exact .inr ⟨row, rfl, (mem_of_rowAt hrow).2, hq, by simp [hq]⟩

theorem Db.Integrity.place_deleteWhere (h : db.Integrity) (q : JobRow → Bool) {messages} :
    ({ db with job := deleteWhere q db.job, message := messages } : Db).place j = db.place j ∨
    ∃ row, db.place j = some (.job row) ∧ q row = true ∧
      ({ db with job := deleteWhere q db.job, message := messages } : Db).place j = none := by
  simp only [Db.place, rowAt_deleteWhere h.job_ids]
  cases hrow : rowAt (·.id) db.job j with
  | none => exact .inl rfl
  | some row =>
    cases hq : q row with
    | false => exact .inl (by simp [Option.filter, hq])
    | true =>
      have hparked : rowAt (·.id) db.jobParking j = none := by
        cases hp : rowAt (·.id) db.jobParking j with
        | none => rfl
        | some p =>
          obtain ⟨hmem, hid⟩ := mem_of_rowAt hrow
          obtain ⟨hpmem, hpid⟩ := mem_of_rowAt hp
          exact absurd (hid.trans hpid.symm) (h.disjoint hmem hpmem)
      exact .inr ⟨row, rfl, hq, by simp [Option.filter, hq, hparked]⟩

theorem Db.Integrity.jobStep_repark (h : db.Integrity) (h' : db'.Integrity) {now : Time}
    {job : DeliveryJob} {row : JobRow}
    (hrow : db.job.filter (fun r => r.id == job.id && r.status == .queued) = [row])
    (hpaused : db.effectivelyPaused row.consumerId.string = true)
    (hdb : db' = { db with
      job := deleteWhere (fun r => r.id == job.id && r.status == .queued) db.job
      jobParking := db.jobParking ++ [{ row.park now with seq := db.nextSeq }]
      nextSeq := db.nextSeq + 1 }) :
    JobStep db j (.reparkQueuedJob now job) (db.place j) (db'.place j) := by
  have hmem : row ∈ db.job.filter (fun r => r.id == job.id && r.status == .queued) := by simp [hrow]
  simp only [mem_filter, Bool.and_eq_true, beq_iff_eq] at hmem
  obtain ⟨hmem, hid, hstatus⟩ := hmem
  by_cases hj : job.id = j
  · have hnew : ({ row.park now with seq := db.nextSeq } : ParkedJobRow) ∈ db'.jobParking := by
      simp [hdb]
    rw [h.place_eq_job.2 ⟨hmem, hid.trans hj⟩, h'.place_eq_parked.2 ⟨hnew, hid.trans hj⟩]
    exact .reparked hj hstatus hpaused
  · have hplace : db'.place j = db.place j := by
      refine h.place_of_keeps h' ?_ ?_ ?_
      · intro r hr hrj
        simp only [hdb, mem_deleteWhere]
        refine ⟨hr, ?_⟩
        have hne : r.id ≠ job.id := fun heq => hj (heq.symm.trans hrj)
        simp [hne]
      · intro p hp _
        rw [hdb]
        exact mem_append_left _ hp
      · rw [hdb, ((stored_repark hrow (by rfl)).map _).mem_iff]
        exact id
    rw [hplace]
    exact .same

theorem Db.Integrity.jobStep_drain (h : db.Integrity) (h' : db'.Integrity) {now earliest : Time}
    {c : String} {pageSize : Int} {rows : List ParkedJobRow}
    (hrows : rows = drainPageQuery db c pageSize.toNat)
    (hdb : db' = { db with
      jobParking := deleteWhere (fun p => (rows.map (·.seq)).contains p.seq) db.jobParking
      job := db.job ++ rows.map (·.drain now earliest) }) :
    JobStep db j (.drainPage now c pageSize earliest) (db.place j) (db'.place j) := by
  obtain ⟨hmem, hnodup⟩ := drainPageQuery_mem_nodup h.seqs c pageSize.toNat
  rw [← hrows] at hmem hnodup
  by_cases hj : ∃ p ∈ rows, p.id = j
  · obtain ⟨p, hp, hid⟩ := hj
    have hselected : p.consumerId.string = c ∧ db.effectivelyPaused c = false := by
      rw [hrows] at hp
      have hp := (perm_insertionSort _ _).mem_iff.1 (mem_of_mem_take hp)
      simpa using (mem_filter.1 hp).2
    obtain ⟨rfl, hpaused⟩ := hselected
    have hnew : p.drain now earliest ∈ db'.job := by
      rw [hdb]
      exact mem_append_right _ (mem_map_of_mem hp)
    rw [h.place_eq_parked.2 ⟨hmem p hp, hid⟩, h'.place_eq_job.2 ⟨hnew, hid⟩]
    exact .drained hpaused
  · have hplace : db'.place j = db.place j := by
      refine h.place_of_keeps h' ?_ ?_ ?_
      · intro r hr _
        rw [hdb]
        exact mem_append_left _ hr
      · intro p hp hpj
        simp only [hdb, mem_deleteWhere]
        refine ⟨hp, Bool.eq_false_iff.2 fun hc => hj ?_⟩
        obtain ⟨p', hp', hseq⟩ := mem_map.1 (contains_iff_mem.1 hc)
        rw [inj_on_of_nodup_map h.seqs (hmem p' hp') hp hseq] at hp'
        exact ⟨p, hp', hpj⟩
      · rw [hdb, ((stored_drain (filter_seq_perm h.seqs hmem hnodup) fun _ => rfl).map _).mem_iff]
        exact id
    rw [hplace]
    exact .same

theorem exists_mem_numberFrom {n : Nat} {rows : List ParkedJobRow} {p : ParkedJobRow}
    (hp : p ∈ rows) : ∃ seq, ({ p with seq := seq } : ParkedJobRow) ∈ numberFrom n rows := by
  induction rows generalizing n with
  | nil => cases hp
  | cons row rows ih =>
    rcases mem_cons.1 hp with rfl | hp
    · exact ⟨n, mem_cons_self⟩
    · obtain ⟨seq, hseq⟩ := ih hp
      exact ⟨seq, mem_cons_of_mem _ hseq⟩

theorem Db.Integrity.jobStep_dispatch (h : db.Integrity) {now : Time} {message : Message}
    {deliveryJobs parkedJobs : List DeliveryJob}
    (hfresh : db.freshJobs (deliveryJobs ++ parkedJobs))
    (h' : (db.dispatched now message deliveryJobs parkedJobs).Integrity) :
    JobStep db j (.dispatchMessageWithParking now message deliveryJobs parkedJobs) (db.place j)
      ((db.dispatched now message deliveryJobs parkedJobs).place j) := by
  obtain ⟨-, -, hnew⟩ := hfresh
  by_cases hj : ∃ job ∈ deliveryJobs ++ parkedJobs, job.id = j
  · obtain ⟨job, hjob, hid⟩ := hj
    obtain ⟨hfreshId, hstatus, hcount⟩ := hnew job hjob
    rw [Db.place_eq_none.2 (hid ▸ hfreshId)]
    rcases mem_append.1 hjob with hjob | hjob
    · have hrow : job.jobRow ∈ (db.dispatched now message deliveryJobs parkedJobs).job :=
        mem_append_right _ (mem_map_of_mem hjob)
      rw [h'.place_eq_job.2 ⟨hrow, hid⟩]
      exact .created hjob hid hstatus
    · have hparked : job.parkedRow now ∈ parkedJobs.map (·.parkedRow now) :=
        mem_map_of_mem hjob
      obtain ⟨seq, hseq⟩ := exists_mem_numberFrom hparked
      rw [h'.place_eq_parked.2 ⟨mem_append_right _ hseq, hid⟩]
      exact .createdParked hjob hid hcount
  · have hplace : (db.dispatched now message deliveryJobs parkedJobs).place j = db.place j := by
      refine h.place_of_keeps h' ?_ ?_ ?_
      · exact fun row hrow _ => mem_append_left _ hrow
      · exact fun p hp _ => mem_append_left _ hp
      · rw [((stored_dispatched ..).map _).mem_iff, map_append, mem_append]
        rintro hnot (hold | hadded)
        · exact hnot hold
        · obtain ⟨_, href, rfl⟩ := mem_map.1 hadded
          obtain ⟨job, hjob, rfl⟩ := mem_map.1 href
          exact hj ⟨job, hjob, rfl⟩
    rw [hplace]
    exact .same

/-- What an operation does to a job is one of the listed steps. -/
theorem DbEffect.jobStep [NetUrl] {op : DbOp} (he : DbEffect db op db') (h : db.Integrity)
    (j : Xid) : JobStep db j op (db.place j) (db'.place j) := by
  have h' := h.effect he
  cases he with
  | unchanged => exact .same
  | dispatched hfresh hvalid hack => exact h.jobStep_dispatch hfresh h'
  | reparked hrow hpaused => exact h.jobStep_repark h' hrow hpaused rfl
  | drained hrows hcount => exact h.jobStep_drain h' hrows rfl
  | @marked m now job hcount =>
    rcases place_updateWhere fun r => congrArg JobRef.id (m.ref_set now job r) with
      hplace | ⟨row, hrow, hid, hmatch, hplace⟩
    · rw [hplace]
      exact .same
    · simp only [JobUpdate.matches, Bool.and_eq_true, Xid.like_iff, Mark.update_id] at hmatch
      rw [hrow, hplace]
      exact .marked (hmatch.1.trans hid) hmatch.2
  | @requeued now job =>
    rcases place_updateWhere fun r => congrArg JobRef.id (r.ref_requeue now) with
      hplace | ⟨row, hrow, hid, hmatch, hplace⟩
    · rw [hplace]
      exact .same
    · simp only [Bool.and_eq_true, beq_iff_eq] at hmatch
      rw [hrow, hplace]
      exact .requeued rfl hmatch.2
  | @requeuedForConsumer now consumer =>
    rcases place_updateWhere fun r => congrArg JobRef.id (r.ref_requeue now) with
      hplace | ⟨row, hrow, hid, hmatch, hplace⟩
    · rw [hplace]
      exact .same
    · simp only [Bool.and_eq_true, beq_iff_eq] at hmatch
      rw [hrow, hplace]
      exact .requeued rfl hmatch.2
  | deleted | deletedForConsumer | deletedMessages =>
    rcases h.place_deleteWhere _ with hplace | ⟨row, hrow, -, hplace⟩
    · rw [hplace]
      exact .same
    · rw [hrow, hplace]
      exact .deleted rfl
  | paused | resumed | locked => exact .same

/-- An operation that returns an error leaves every job as it is. -/
theorem DbOp.place_of_fails [NetUrl] {op : DbOp} (h : op.fails db = true) (j : Xid) :
    (op.exec db).place j = db.place j := by
  cases op with
  | dispatchMessageWithParking now message deliveryJobs parkedJobs =>
    rcases dispatchMessageWithParking_cases now message deliveryJobs parkedJobs db with
      ⟨-, -, hr⟩ | ⟨e, hr⟩
    · rw [DbOp.fails, hr] at h
      cases h
    · rw [DbOp.exec, hr]
  | reparkQueuedJob now job =>
    rcases reparkQueuedJob_cases now job db with ⟨row, -, -, hr⟩ | ⟨r, hr, -⟩
    · rw [DbOp.fails, hr] at h
      cases h
    · rw [DbOp.exec, hr]
  | drainPage now consumerInternalID pageSize earliestNextAttemptAt =>
    rcases drainPage_cases now consumerInternalID pageSize earliestNextAttemptAt db with
      ⟨rows, -, -, hr⟩ | hr
    · rw [DbOp.fails, hr] at h
      cases h
    · rw [DbOp.exec, hr]
  | mark m now job =>
    rcases (m.update now job).run_cases db with ⟨-, hr⟩ | ⟨e, hr⟩
    · rw [DbOp.fails, hr] at h
      cases h
    · rw [DbOp.exec, hr]
  | requeueDeadJob now job =>
    rcases requeueDeadJob_cases now job db with ⟨n, hr⟩ | ⟨-, e, hr⟩
    · rw [DbOp.fails, hr] at h
      cases h
    · rw [DbOp.exec, hr]
  | deleteMessagesAndJobs ids =>
    rcases deleteMessagesAndJobs_cases ids db with ⟨hr, -⟩ | ⟨e, hr⟩
    · rw [DbOp.fails, hr] at h
      cases h
    · rw [DbOp.exec, hr]
  | requeueDeadJobsForConsumer | deleteDeadJob | deleteDeadJobsForConsumer => cases h
  | pause now p =>
    obtain ⟨rows, hr⟩ := pause_frame now p db
    rw [DbOp.exec, hr]
    rfl
  | resume scope => rfl
  | tryLock lock =>
    obtain ⟨locks, hr⟩ := tryLock_frame lock db
    rw [DbOp.exec, hr]
    rfl
  | releaseLock lockID =>
    obtain ⟨locks, hr⟩ := releaseLock_frame lockID db
    rw [DbOp.exec, hr]
    rfl
  | timeoutLocks now threshold => rfl

/-- A mark that reports success found the row of its job and its condition met. -/
theorem Db.Integrity.mark_succeeds [NetUrl] (h : db.Integrity) {m : Mark} {now : Time}
    {job : DeliveryJob} (hok : (DbOp.mark m now job).succeeds db = true) :
    ∃ row, db.place job.id = some (.job row) ∧ (m.update now job).guard db row = true ∧
      ((DbOp.mark m now job).exec db).place job.id = some (.job ((m.update now job).set row)) := by
  rcases (m.update now job).run_cases db with ⟨hcount, hr⟩ | ⟨e, hr⟩
  · obtain ⟨row, hmem, hmatch⟩ := countP_pos_iff.1 (hcount ▸ Nat.one_pos)
    have hguard := hmatch
    simp only [JobUpdate.matches, Bool.and_eq_true, Xid.like_iff, Mark.update_id] at hguard
    have hplace := h.place_eq_job.2 ⟨hmem, hguard.1.symm⟩
    refine ⟨row, hplace, hguard.2, ?_⟩
    have hrow : (m.update now job).set row ∈
        updateWhere ((m.update now job).matches db) (m.update now job).set db.job :=
      mem_updateWhere.2 ⟨row, hmem, if_pos hmatch⟩
    have hid : ((m.update now job).set row).id = job.id :=
      (congrArg JobRef.id (m.ref_set now job row)).trans hguard.1.symm
    rw [DbOp.exec, hr]
    exact (h.update (m.ref_set now job)).place_eq_job.2 ⟨hrow, hid⟩
  · rw [DbOp.succeeds, hr] at hok
    cases hok

theorem JobUpdate.countP_matches (hjob : (db.job.map (·.id)).Nodup) {u : JobUpdate} {row : JobRow}
    (hrow : row ∈ db.job) (hmatch : u.matches db row = true) :
    db.job.countP (u.matches db) = 1 := by
  have hid : ∀ r, u.matches db r = true → r.id = u.id := by
    intro r hr
    simp only [JobUpdate.matches, Bool.and_eq_true, Xid.like_iff] at hr
    exact hr.1.symm
  exact countP_of_rowAt hjob (fun r _ hr => (hid r hr).trans (hid row hmatch).symm)
    (rowAt_of_mem hjob hrow) hmatch

/-- A mark of a stored job succeeds exactly if the row meets its condition. -/
theorem Mark.isOk_run_eq (hjob : (db.job.map (·.id)).Nodup) {m : Mark} {now : Time}
    {job : DeliveryJob} {row : JobRow} (hrow : row ∈ db.job) (hid : job.id = row.id) :
    ((m.update now job).run db).1.isOk = (m.update now job).guard db row := by
  rw [Bool.eq_iff_iff]
  constructor
  · intro hok
    rcases (m.update now job).run_cases db with ⟨hcount, -⟩ | ⟨e, he⟩
    · obtain ⟨row', hrow', hmatch⟩ := countP_pos_iff.1 (hcount ▸ Nat.one_pos)
      rw [JobUpdate.matches, Bool.and_eq_true, Xid.like_iff, Mark.update_id] at hmatch
      rw [inj_on_of_nodup_map hjob hrow hrow' (hid.symm.trans hmatch.1)]
      exact hmatch.2
    · rw [he] at hok
      cases hok
  · intro hguard
    have hmatch : (m.update now job).matches db row = true := by
      rw [JobUpdate.matches, hguard, Mark.update_id, Bool.and_true, Xid.like_iff]
      exact hid
    rw [JobUpdate.run_of_countP (JobUpdate.countP_matches hjob hrow hmatch)]
    rfl

/-- The only steps into `INFLIGHT` are the two marks that hand a job out, and both check that its
consumer is not paused. -/
theorem JobStep.enters_inflight {op : DbOp} {place : Option Place} {row : JobRow}
    (h : JobStep db j op place (some (.job row))) (hrow : row.status = .inflight)
    (hplace : ∀ row₀, place = some (.job row₀) → row₀.status ≠ .inflight) :
    ∃ m now job row₀, op = .mark m now job ∧ job.id = j ∧ place = some (.job row₀) ∧
      (m = .inflight ∨ m = .deadAsInflight) ∧ (m.update now job).guard db row₀ = true ∧
      row = (m.update now job).set row₀ ∧ db.effectivelyPaused row.consumerId.string = false := by
  cases h with
  | same => exact absurd hrow (hplace row rfl)
  | created hjob hid hstatus =>
    rw [DeliveryJob.jobRow, hstatus] at hrow
    cases hrow
  | drained hpaused => cases hrow
  | @marked m now job row₀ hid hguard =>
    refine ⟨m, now, job, row₀, rfl, hid, rfl, ?_, hguard, rfl, ?_⟩
    · cases m with
      | inflight => exact .inl rfl
      | deadAsInflight => exact .inr rfl
      | delivered | dead | queuedAsDead | retry => cases hrow
    · cases m with
      | inflight =>
        simp only [Mark.update, markJobInflight, jobNotPausedClause, Bool.and_eq_true,
          Bool.not_eq_true'] at hguard
        exact hguard.2
      | deadAsInflight =>
        simp only [Mark.update, markDeadJobAsInflight, jobNotPausedClause, Bool.and_eq_true,
          Bool.not_eq_true'] at hguard
        exact hguard.2
      | delivered | dead | queuedAsDead | retry => cases hrow
  | requeued hop hstatus => cases hrow

theorem JobStep.row_of_inflight {op : DbOp} {row row' : JobRow}
    (h : JobStep db j op (some (.job row)) (some (.job row'))) (hrow : row.status = .inflight)
    (hrow' : row'.status = .inflight) : row' = row := by
  cases h with
  | same => rfl
  | @marked m now job row hid hguard =>
    cases m with
    | inflight => simp [Mark.update, markJobInflight, hrow] at hguard
    | deadAsInflight => simp [Mark.update, markDeadJobAsInflight, hrow] at hguard
    | delivered | dead | queuedAsDead | retry => cases hrow'
  | requeued hop hstatus => cases hrow'

/-! ## The moves between the tables -/

/-- A repark of a `QUEUED` job moves it exactly if its consumer is effectively paused. -/
theorem Db.JobTables.reparkQueuedJob_iff (h : db.JobTables) (now : Time) {job : DeliveryJob}
    {row : JobRow} (hrow : row ∈ db.job) (hid : job.id = row.id) (hqueued : row.status = .queued) :
    (∃ copy, (reparkQueuedJob now job db).1 = .ok (true, copy)) ↔
      db.effectivelyPaused row.consumerId.string = true := by
  have hat := rowAt_of_mem h.job_ids hrow
  have hone : db.job.filter (fun j => j.id == job.id && j.status == .queued) = [row] := by
    refine filter_of_rowAt h.job_ids (fun r _ hr => ?_) hat (by simp [hid, hqueued])
    exact (beq_iff_eq.1 (Bool.and_eq_true_iff.1 hr).1).trans hid
  constructor
  · rintro ⟨copy, hcopy⟩
    rcases reparkQueuedJob_cases now job db with ⟨row', hone', hpaused, -⟩ | ⟨r, hr, hnot⟩
    · rw [hone] at hone'
      cases hone'
      exact hpaused
    · rw [hr] at hcopy
      exact absurd hcopy (hnot copy)
  · intro hpaused
    have hcopied : (db.job.filter fun j => j.id == job.id && j.status == .queued &&
        db.effectivelyPaused j.consumerId.string) = [row] := by
      refine filter_of_rowAt h.job_ids (fun r _ hr => ?_) hat
        (by simp [hid, hqueued, hpaused])
      simp only [Bool.and_eq_true, beq_iff_eq] at hr
      exact hr.1.1.trans hid
    have hperm := @stored_repark db _ row (row.park now) db.nextSeq hone rfl
    have haccepts : db.acceptsParkedJobs [row.park now] := by
      refine ⟨⟨Db.parked_nodup ((hperm.map _).nodup_iff.2 h.ids),
        Db.parked_nodup ((hperm.map _).nodup_iff.2 h.pairs)⟩, fun r hr => ?_⟩
      rw [mem_singleton.1 hr]
      exact h.references row.ref (mem_append_left _ (mem_map_of_mem hrow))
    obtain ⟨db₁, hinsert, hjob₁⟩ : ∃ db₁, insertParkedJob [row.park now] db = .ok (1, db₁) ∧
        db₁.job = db.job := ⟨_, insertParkedJob_eq_ok.2 ⟨haccepts, rfl⟩, rfl⟩
    have hquery : reparkQuery now job.id db = .ok (1, db₁) := by
      rw [reparkQuery, hcopied]
      exact hinsert
    have hdelete : deleteJob (fun j => j.id == job.id && j.status == .queued) db₁ =
        .ok (1, { db₁ with
          job := deleteWhere (fun j => j.id == job.id && j.status == .queued) db₁.job }) := by
      rw [deleteJob, hjob₁, countP_eq_length_filter, hone]
      rfl
    have htx : reparkQueuedJobInTx now job.id db = .ok (true, { db₁ with
        job := deleteWhere (fun j => j.id == job.id && j.status == .queued) db₁.job }) :=
      Tx.bind_eq_ok.2 ⟨1, db₁, hquery, Tx.bind_eq_ok.2 ⟨(), _,
        inTransactionExec_eq_ok.2 ⟨1, hdelete, fun _ => rfl⟩, rfl⟩⟩
    rw [reparkQueuedJob, transactionalOperations, htx]
    exact ⟨_, rfl⟩

theorem Db.JobTables.drainPage_ok (h : db.JobTables) (now : Time) (consumerInternalID : String)
    (pageSize : Int) (earliestNextAttemptAt : Time)
    (hne : drainPageQuery db consumerInternalID pageSize.toNat ≠ []) :
    drainPage now consumerInternalID pageSize earliestNextAttemptAt db =
      (.ok ((drainPageQuery db consumerInternalID pageSize.toNat).map
        (·.drain now earliestNextAttemptAt)), { db with
          jobParking := deleteWhere (fun p => ((drainPageQuery db consumerInternalID
            pageSize.toNat).map (·.seq)).contains p.seq) db.jobParking
          job := db.job ++ (drainPageQuery db consumerInternalID pageSize.toNat).map
            (·.drain now earliestNextAttemptAt) }) := by
  obtain ⟨hmem, hnodup⟩ := drainPageQuery_mem_nodup h.seqs consumerInternalID pageSize.toNat
  have hpos : ¬ pageSize ≤ 0 := by
    intro hle
    rw [Int.toNat_of_nonpos hle] at hne
    exact hne rfl
  generalize hrows : drainPageQuery db consumerInternalID pageSize.toNat = rows at *
  have hselected := filter_seq_perm h.seqs hmem hnodup
  have hperm := stored_drain (f := (·.drain now earliestNextAttemptAt)) hselected fun _ => rfl
  have hcount : db.jobParking.countP (fun p => (rows.map (·.seq)).contains p.seq) =
      rows.length := by
    rw [countP_eq_length_filter, hselected.length_eq]
  have hdelete : inTransactionExec
      (deleteParkedJob fun p => (rows.map (·.seq)).contains p.seq) rows.length db =
      .ok ((), { db with
        jobParking := deleteWhere (fun p => (rows.map (·.seq)).contains p.seq) db.jobParking }) :=
    inTransactionExec_eq_ok.2 ⟨rows.length, by rw [deleteParkedJob, hcount], fun _ => rfl⟩
  have haccepts : ({ db with
      jobParking := deleteWhere (fun p => (rows.map (·.seq)).contains p.seq) db.jobParking } :
      Db).acceptsJobs (rows.map (·.drain now earliestNextAttemptAt)) := by
    refine ⟨⟨Db.job_nodup ((hperm.map _).nodup_iff.2 h.ids),
      Db.job_nodup ((hperm.map _).nodup_iff.2 h.pairs)⟩, fun r hr => ?_⟩
    obtain ⟨p, hp, rfl⟩ := mem_map.1 hr
    exact h.references p.ref (mem_append_right _ (mem_map_of_mem (hmem p hp)))
  have htx : drainPageInTx now consumerInternalID pageSize.toNat earliestNextAttemptAt db =
      .ok (rows, { db with
        jobParking := deleteWhere (fun p => (rows.map (·.seq)).contains p.seq) db.jobParking
        job := db.job ++ rows.map (·.drain now earliestNextAttemptAt) }) := by
    refine Tx.bind_eq_ok.2 ⟨db, db, rfl, ?_⟩
    rw [hrows, if_neg fun h0 => hne (length_eq_zero_iff.1 h0)]
    refine Tx.bind_eq_ok.2 ⟨(), _, hdelete, Tx.bind_eq_ok.2 ⟨(), _,
      inTransactionExec_eq_ok.2 ⟨rows.length, insertJob_eq_ok.2 ⟨haccepts, ?_⟩, fun _ => rfl⟩,
      rfl⟩⟩
    rw [length_map]
  rw [drainPage, if_neg hpos, transactionalOperations, htx]

theorem drainPage_of_nil {c : String} {now earliestNextAttemptAt : Time} {pageSize : Int}
    (h : drainPageQuery db c pageSize.toNat = []) :
    drainPage now c pageSize earliestNextAttemptAt db = (.ok [], db) := by
  unfold drainPage
  split
  · rfl
  · have htx : drainPageInTx now c pageSize.toNat earliestNextAttemptAt db = .ok ([], db) := by
      refine Tx.bind_eq_ok.2 ⟨db, db, rfl, ?_⟩
      rw [h]
      rfl
    rw [transactionalOperations, htx]
    rfl

end

end WebhookBroker
