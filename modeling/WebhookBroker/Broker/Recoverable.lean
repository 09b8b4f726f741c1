import WebhookBroker.Broker.Dispatch
import WebhookBroker.Dispatcher.ListingComplete
import WebhookBroker.Storage.Writes

/-!
# No row is out of the reach of recovery

The recovery passes select rows by their status and by times that lie some delay in the past, and
then write under conditions of their own: `Dispatch` for messages, `MarkJobInflight`,
`ReparkQueuedJob` and `MarkJobRetry` for jobs, `DrainPage` for parked jobs. For every row that waits
for one of them there is a time after which it is selected and the write goes through, in every
database that the broker can reach.
-/

namespace WebhookBroker

open Lib List

section
variable [NetUrl] {db : Db}

variable {row : MessageRow}

theorem Db.Sound.load (h : db.Sound) (hrow : row ∈ db.message) (hack : row.status = .acknowledged) :
    (row.load db).isInValidState = true ∧
      (row.load db).broadcastedToID ∈ db.channel.map (·.channelId) := by
  obtain ⟨channel, hchannel, hget⟩ := getChannel_of_mem (h.message_channel row hrow)
  obtain ⟨producer, hproducer, hget'⟩ := getProducer_of_mem (h.message_producer row hrow)
  have hload : row.load db = row.withReferences channel.toChannel producer.toProducer := by
    rw [MessageRow.load, hget, hget']
    rfl
  rw [hload]
  exact ⟨h.messages row hrow hack _ _ (h.channels channel hchannel)
    (h.producers producer hproducer), mem_map_of_mem hchannel⟩

/-- `Dispatch` up to the loop that queues the jobs: the jobs of that loop, or the error that it
logs. The clock is read for each job and in the transaction. -/
def dispatch (now : Nat → Time) (txNow : Time) (newID : Nat → Xid)
    (isEffectivelyPaused : Xid → Bool) (message : Message) (db : Db) :
    Except StorageErr (List DeliveryJob) × Db :=
  if !message.isInValidState then (.ok [], db)
  else match createJobs now newID db message with
    | (_, some err) => (.error err, db)
    | (jobs, none) =>
      let (deliveryJobs, parkedJobs) := splitPausedJobs isEffectivelyPaused jobs.reduceOption
      match dispatchMessageWithParking txNow message deliveryJobs parkedJobs db with
      | (.ok _, db) => (.ok deliveryJobs, db)
      | (.error err, db) => (.error err, db)

theorem newDeliveryJob_valid {now : Time} {newID : Xid} {message : Message} {consumer : Consumer}
    (hnow : now ≠ 0) (hmessage : message.isInValidState = true)
    (hconsumer : consumer.isInValidState = true) :
    (newDeliveryJob now newID message consumer).2 = true := by
  simp [newDeliveryJob, DeliveryJob.quickFix, DeliveryJob.isInValidState, hmessage, hconsumer, hnow]

theorem buildJobs_of_valid {now : Nat → Time} {newID : Nat → Xid} {message : Message}
    {consumers : List Consumer} (hnow : ∀ i, now i ≠ 0) (hmessage : message.isInValidState = true)
    (hconsumers : ∀ consumer ∈ consumers, consumer.isInValidState = true) (index : Nat) :
    buildJobs now newID message index none consumers =
      ((consumers.zipIdx index).map fun p =>
        some (newDeliveryJob (now p.2) (newID p.2) message p.1).1, none) := by
  induction consumers generalizing index with
  | nil => rfl
  | cons consumer consumers ih =>
    have hvalid := @newDeliveryJob_valid _ _ (newID index) _ _ (hnow index) hmessage
      (hconsumers consumer mem_cons_self)
    have hrest := ih (fun c hc => hconsumers c (mem_cons_of_mem _ hc)) (index + 1)
    rw [buildJobs, zipIdx_cons, map_cons]
    simp only [hvalid, if_true, hrest]

theorem Db.Sound.listConsumers (h : db.Sound) {channelID : String}
    (hid : channelID ∈ db.channel.map (·.channelId)) (n : Nat) :
    ∃ consumers, WebhookBroker.listConsumers db channelID n (newPagination none none) =
        (consumers, none) ∧
      (consumers.map (·.id)).Nodup ∧
      ∀ consumer ∈ consumers, consumer.isInValidState = true ∧
        consumer.id ∈ db.consumer.map (·.id) := by
  obtain ⟨channel, hchannel, hget⟩ := getChannel_of_mem hid
  have hlist := listConsumers_eq_walk h.consumer_ids hget n none
  have hordered : Paging.Ordered (isBeyond ConsumerRow.key) (inOrder ConsumerRow.key
      (db.consumer.filter fun row => sqlLike channelID row.channelId)) :=
    inOrder_ordered (nodup_filter_ids h.consumer_ids fun row => sqlLike channelID row.channelId)
  have hmem : ∀ row ∈ Paging.walk (isBeyond ConsumerRow.key) 25 none (inOrder ConsumerRow.key
      (db.consumer.filter fun row => sqlLike channelID row.channelId)) n [] none,
      row ∈ db.consumer := by
    intro row hrow
    exact (mem_filter.1 (mem_inOrder.1 (hordered.mem_of_mem_cutWalk hrow))).1
  refine ⟨_, hlist, ?_, ?_⟩
  · rw [map_map]
    exact (hordered.nodup_cutWalk n 0 none).map_on fun a ha b hb heq =>
      inj_on_of_nodup_map h.consumer_ids (hmem a ha) (hmem b hb) heq
  · intro consumer hconsumer
    obtain ⟨row, hrow, rfl⟩ := mem_map.1 hconsumer
    exact ⟨h.consumers row (hmem row hrow) _ (h.channels channel hchannel),
      mem_map_of_mem (hmem row hrow)⟩

theorem Db.Sound.acceptsDispatch (h : db.Sound) (now : Time) {message : Message}
    {deliveryJobs parkedJobs : List DeliveryJob}
    (hfresh : db.freshJobs (deliveryJobs ++ parkedJobs))
    (hvalid : ∀ job ∈ deliveryJobs ++ parkedJobs, job.isValidFor message = true)
    (hmessage : message.isInValidState = true)
    (hack : db.message.countP (isAcknowledged message.id) = 1)
    (hconsumers : ∀ job ∈ deliveryJobs ++ parkedJobs, job.listenerID ∈ db.consumer.map (·.id)) :
    db.acceptsDispatch now message deliveryJobs parkedJobs := by
  have hi : (db.dispatched now message deliveryJobs parkedJobs).Integrity :=
    h.integrity.dispatch hfresh hvalid hack
  have hrefs : ∀ job ∈ deliveryJobs ++ parkedJobs,
      db.hasMessageAndConsumer job.messageID job.listenerID := by
    intro job hjob
    refine ⟨?_, hconsumers job hjob⟩
    obtain ⟨row, hrow, hrowack⟩ := countP_pos_iff.1 (hack ▸ Nat.one_pos)
    simp only [isAcknowledged, Bool.and_eq_true, Xid.like_iff] at hrowack
    have hmid : job.messageID = message.id := messageId_of_isValidFor (hvalid job hjob)
    rw [hmid, hrowack.1]
    exact mem_map_of_mem hrow
  refine ⟨fun _ => ⟨⟨Db.job_nodup hi.ids, Db.job_nodup hi.pairs⟩, ?_⟩, fun _ => ⟨?_, ?_⟩,
    hmessage, hack⟩
  · intro row hrow
    obtain ⟨job, hjob, rfl⟩ := mem_map.1 hrow
    exact hrefs job (mem_append_left _ hjob)
  · have hparked : (db.dispatched now message deliveryJobs parkedJobs).jobParking.map (·.ref) =
        (db.jobParking ++ parkedJobs.map (·.parkedRow now)).map (·.ref) := by
      rw [Db.dispatched, map_append, map_append, map_ref_numberFrom]
    have hkeys : ∀ {κ : Type} (key : JobRef → κ),
        ((db.dispatched now message deliveryJobs parkedJobs).jobParking.map (key ·.ref)).Nodup →
          ((db.jobParking ++ parkedJobs.map (·.parkedRow now)).map (key ·.ref)).Nodup := by
      intro κ key hnodup
      have hmap := congrArg (List.map key) hparked
      rw [map_map, map_map] at hmap
      exact hmap ▸ hnodup
    exact ⟨hkeys JobRef.id (Db.parked_nodup hi.ids),
      hkeys JobRef.pair (Db.parked_nodup hi.pairs)⟩
  · intro row hrow
    obtain ⟨job, hjob, rfl⟩ := mem_map.1 hrow
    exact hrefs job (mem_append_right _ hjob)

theorem Db.Sound.createJobs (h : db.Sound) {message : Message} {now : Nat → Time}
    {newID : Nat → Xid} (hmessage : message.isInValidState = true)
    (hchannel : message.broadcastedToID ∈ db.channel.map (·.channelId)) (hnow : ∀ i, now i ≠ 0)
    (hinj : Set.InjOn newID (Set.Iio db.consumer.length))
    (hnew : ∀ i < db.consumer.length, newID i ∉ db.stored.map (·.id)) :
    ∃ jobs, WebhookBroker.createJobs now newID db message = (jobs.map some, none) ∧
      db.freshJobs jobs ∧ ∀ job ∈ jobs, job.isValidFor message = true ∧
        job.listenerID ∈ db.consumer.map (·.id) := by
  obtain ⟨consumers, hlist, hnodup, hconsumers⟩ :=
    h.listConsumers hchannel (db.consumer.length + 1)
  have hvalid := fun c hc => (hconsumers c hc).1
  have hlen : consumers.length ≤ db.consumer.length := by
    have hsub : consumers.map (·.id) ⊆ db.consumer.map (·.id) := by
      intro id hid
      obtain ⟨c, hc, rfl⟩ := mem_map.1 hid
      exact (hconsumers c hc).2
    simpa using (subperm_of_subset hnodup hsub).length_le
  refine ⟨consumers.zipIdx.map fun p => (newDeliveryJob (now p.2) (newID p.2) message p.1).1,
    ?_, ⟨?_, ?_, ?_⟩, ?_⟩
  · rw [createJobs_eq, hlist, buildJobs_of_valid hnow hmessage hvalid, map_map]
    rfl
  · have hids : (consumers.zipIdx.map fun p =>
        (newDeliveryJob (now p.2) (newID p.2) message p.1).1).map (·.id) =
        (consumers.zipIdx.map Prod.snd).map newID := by
      rw [map_map, map_map]
      rfl
    rw [hids, zipIdx_map_snd]
    refine List.Nodup.map_on (fun i hi j hj => hinj ?_ ?_) nodup_range'
    · exact (mem_range'_1.1 hi).2.trans_le (by omega)
    · exact (mem_range'_1.1 hj).2.trans_le (by omega)
  · have hlisteners : (consumers.zipIdx.map fun p =>
        (newDeliveryJob (now p.2) (newID p.2) message p.1).1).map (·.listenerID) =
        (consumers.zipIdx.map Prod.fst).map (·.id) := by
      rw [map_map, map_map]
      rfl
    rw [hlisteners, zipIdx_map_fst]
    exact hnodup
  · intro job hjob
    obtain ⟨p, hp, rfl⟩ := mem_map.1 hjob
    exact ⟨hnew p.2 ((snd_lt_of_mem_zipIdx hp).trans_le hlen), rfl, rfl⟩
  · intro job hjob
    obtain ⟨p, hp, rfl⟩ := mem_map.1 hjob
    obtain ⟨hvalid, hmem⟩ := hconsumers p.1 (fst_mem_of_mem_zipIdx hp)
    refine ⟨?_, hmem⟩
    rw [DeliveryJob.isValidFor, Bool.and_eq_true, beq_iff_eq]
    exact ⟨newDeliveryJob_valid (hnow p.2) hmessage hvalid, rfl⟩

omit [NetUrl] in
theorem Db.freshJobs_perm {jobs jobs' : List DeliveryJob} (hperm : jobs'.Perm jobs)
    (h : db.freshJobs jobs) : db.freshJobs jobs' :=
  ⟨(hperm.map _).nodup_iff.2 h.1, (hperm.map _).nodup_iff.2 h.2.1,
    fun job hjob => h.2.2 job (hperm.mem_iff.1 hjob)⟩

theorem Db.Sound.dispatch_load (h : db.Sound) (hrow : row ∈ db.message)
    (hack : row.status = .acknowledged) {now : Nat → Time} {newID : Nat → Xid}
    (hnow : ∀ i, now i ≠ 0) (hinj : Set.InjOn newID (Set.Iio db.consumer.length))
    (hnew : ∀ i < db.consumer.length, newID i ∉ db.stored.map (·.id)) (txNow : Time)
    (isEffectivelyPaused : Xid → Bool) :
    ∃ jobs : List DeliveryJob,
      WebhookBroker.createJobs now newID db (row.load db) = (jobs.map some, none) ∧
      (∀ job ∈ jobs, job.isValidFor (row.load db) = true) ∧
      db.message.countP (isAcknowledged row.id) = 1 ∧
      dispatch now txNow newID isEffectivelyPaused (row.load db) db =
        (.ok (jobs.filter fun job => !isEffectivelyPaused job.listenerID),
          db.dispatched txNow (row.load db)
            (jobs.filter fun job => !isEffectivelyPaused job.listenerID)
            (jobs.filter fun job => isEffectivelyPaused job.listenerID)) := by
  obtain ⟨hmessage, hchannel⟩ := h.load hrow hack
  obtain ⟨jobs, hjobs, hfresh, hvalid⟩ := h.createJobs hmessage hchannel hnow hinj hnew
  have hperm := perm_append_comm.trans
      (filter_append_perm (fun job => isEffectivelyPaused job.listenerID) jobs)
  have hcount : db.message.countP (isAcknowledged row.id) = 1 := by
    refine countP_of_rowAt h.integrity.messages (k := row.id) ?_
      (rowAt_of_mem h.integrity.messages hrow) (by simp [isAcknowledged, hack])
    intro r _ hr
    simp only [isAcknowledged, Bool.and_eq_true, Xid.like_iff] at hr
    exact hr.1.symm
  have haccepts := h.acceptsDispatch txNow (Db.freshJobs_perm hperm hfresh)
    (fun job hjob => (hvalid job (hperm.mem_iff.1 hjob)).1) hmessage hcount
    fun job hjob => (hvalid job (hperm.mem_iff.1 hjob)).2
  have hdispatch := dispatchMessageWithParking_of_accepts
    (fun job hjob => (hvalid job (hperm.mem_iff.1 hjob)).1) haccepts
  have hreduce : (jobs.map some).reduceOption = jobs := by
    rw [List.reduceOption, filterMap_map]
    exact filterMap_some
  refine ⟨jobs, hjobs, fun job hjob => (hvalid job hjob).1, hcount, ?_⟩
  rw [dispatch, hmessage, hjobs]
  simp only [Bool.not_true, Bool.false_eq_true, if_false, splitPausedJobs, hreduce, hdispatch]

theorem Db.Sound.listener (h : db.Sound) {consumer : ConsumerRow} (hc : consumer ∈ db.consumer) :
    ∃ channel, (getConsumerByID db consumer.id.string).toOption =
      some (consumer.toConsumer channel) := by
  have hfind : (db.consumer.find? fun row => sqlLike consumer.id.string row.id.string) =
      some consumer := by
    have hid : consumer.id.string ∈ db.consumer.map (·.id.string) := mem_map_of_mem hc
    obtain ⟨row, hrow⟩ := find?_sqlLike_of_mem hid
    have hlike := List.find?_some hrow
    rw [Xid.like_iff] at hlike
    rw [hrow, inj_on_of_nodup_map h.consumer_ids hc (mem_of_find?_eq_some hrow) hlike]
  obtain ⟨channel, -, hget⟩ := getChannel_of_mem (h.consumer_channel consumer hc)
  exact ⟨channel.toChannel, by rw [getConsumerByID, hfind]; simp only [hget]; rfl⟩

theorem Db.Sound.jobTables (h : db.Sound) : db.JobTables where
  ids := h.integrity.ids
  pairs := h.integrity.pairs
  seqs := h.integrity.seqs
  references r hr := by
    obtain ⟨m, hm, hid, -⟩ := h.integrity.dispatched r hr
    exact ⟨hid ▸ mem_map_of_mem hm, h.jobs r hr⟩

@[inherit_doc Db.JobTables.reparkQueuedJob_iff]
theorem Db.Sound.repark_succeeds_eq (h : db.Sound) {now : Time} {job : DeliveryJob} {row : JobRow}
    (hrow : row ∈ db.job) (hid : job.id = row.id) (hqueued : row.status = .queued) :
    (DbOp.reparkQueuedJob now job).succeeds db = db.effectivelyPaused row.consumerId.string := by
  rw [Bool.eq_iff_iff, ← h.jobTables.reparkQueuedJob_iff now hrow hid hqueued,
    DbOp.succeeds]
  split
  · rename_i hresult
    rw [hresult]
    simp
  · rename_i hresult
    rw [hresult]
    simp

/-! ## The reach of the recovery passes -/

variable (cfg : Config) (T : Time) (db : Db)

/-- After `T`, `GetMessagesNotDispatchedForCertainPeriod` selects the message and `Dispatch` of it,
with job ids that are new and distinct, goes through, whatever the node takes for paused. There is
at most one new job for each consumer. -/
def MessageRow.Recoverable (row : MessageRow) : Prop :=
  ∀ now, T < now → isNotDispatchedSince now cfg.rationalDelay row = true ∧
    ∀ (clock : Nat → Time) (newID : Nat → Xid) (isEffectivelyPaused : Xid → Bool),
      (∀ i, T < clock i) → Set.InjOn newID (Set.Iio db.consumer.length) →
      (∀ i < db.consumer.length, newID i ∉ db.stored.map (·.id)) →
      ∃ deliveryJobs parkedJobs,
        dispatch clock now newID isEffectivelyPaused (row.load db) db =
          (.ok deliveryJobs, db.dispatched now (row.load db) deliveryJobs parkedJobs)

/-- After `T`, `GetJobsReadyForInflightSince` selects the job as a push job, and with the loaded
copy `ReparkQueuedJob` succeeds if the consumer is effectively paused and `MarkJobInflight`
otherwise. -/
def JobRow.QueuedRecoverable (row : JobRow) : Prop :=
  ∀ now, T < now →
    isReadyForInflightSince db now cfg.rationalDelay cfg.maxRetry row = true ∧
    (row.toDeliveryJob db).isPush = true ∧
    (DbOp.mark .inflight now (row.toDeliveryJob db)).succeeds db =
      !db.effectivelyPaused row.consumerId.string ∧
    (DbOp.reparkQueuedJob now (row.toDeliveryJob db)).succeeds db =
      db.effectivelyPaused row.consumerId.string

/-- After `T`, the job is selected by `GetJobsInflightSince` and `shouldEnqueueLongInflightJob`, and
`MarkJobRetry` with the loaded copy succeeds. -/
def JobRow.InflightRecoverable (row : JobRow) : Prop :=
  ∀ now, T < now →
    isInflightSince now (wrap64 (cfg.stopTimeout + cfg.rationalDelay)) row = true ∧
    ((row.toDeliveryJob db).listener.any fun l =>
      shouldEnqueueLongInflightJob cfg now l.type (row.toDeliveryJob db)) = true ∧
    (DbOp.mark (.retry (computeEarliestDelta cfg ((row.toDeliveryJob db).retryAttemptCount + 1)))
      now (row.toDeliveryJob db)).succeeds db = true

/-- The position of a parked job among those of its consumer, in the order in which they are
drained. -/
def Db.drainPosition (db : Db) (row : ParkedJobRow) : Nat :=
  ((db.jobParking.filter fun p => p.consumerId == row.consumerId).insertionSort drainOrder).idxOf
    row + 1

/-- After `T`, the consumer is among `GetDrainableConsumerIDs`, and `DrainPage` with a page that
reaches to the job's position moves it. -/
def ParkedJobRow.Recoverable (row : ParkedJobRow) : Prop :=
  ∀ now, T < now →
    row.consumerId.string ∈ getDrainableConsumerIDs db ∧
    ∀ (pageSize : Int) (earliestNextAttemptAt : Time), db.drainPosition row ≤ pageSize →
      ∃ rows db', drainPage now row.consumerId.string pageSize earliestNextAttemptAt db =
          (.ok rows, db') ∧
        row.drain now earliestNextAttemptAt ∈ db'.job ∧ row ∉ db'.jobParking

variable {cfg T db}

theorem Db.Sound.message_recoverable (h : db.Sound) (hrow : row ∈ db.message)
    (hack : row.status = .acknowledged) (h0 : 0 ≤ T)
    (hT : row.receivedAt - sinceDelta cfg.rationalDelay ≤ T) : row.Recoverable cfg T db := by
  intro now hnow
  refine ⟨?_, ?_⟩
  · rw [isNotDispatchedSince, Bool.and_eq_true, beq_iff_eq, decide_eq_true_eq]
    exact ⟨hack, Int.le_of_lt (Int.lt_add_of_sub_right_lt (Int.lt_of_le_of_lt hT hnow))⟩
  · intro clock newID isEffectivelyPaused hclock hinj hnew
    obtain ⟨jobs, -, -, -, hdispatch⟩ := h.dispatch_load hrow hack
      (fun i => Int.ne_of_gt (Int.lt_of_le_of_lt h0 (hclock i))) hinj hnew now isEffectivelyPaused
    exact ⟨_, _, hdispatch⟩

theorem Db.Sound.queued_recoverable (h : db.Sound) {row : JobRow} (hrow : row ∈ db.job)
    (hqueued : row.status = .queued) {consumer : ConsumerRow} (hconsumer : consumer ∈ db.consumer)
    (hid : consumer.id = row.consumerId) (hpush : consumer.type = .push)
    (hT : row.earliestNextAttemptAt - sinceDelta cfg.rationalDelay ≤ T) :
    row.QueuedRecoverable cfg T db := by
  intro now hnow
  obtain ⟨channel, hlistener⟩ := h.listener hconsumer
  rw [hid] at hlistener
  refine ⟨?_, ?_, ?_, h.repark_succeeds_eq hrow rfl hqueued⟩
  · have hnotPull : ((db.consumer.filter (·.type == .pull)).map (·.id)).contains row.consumerId =
        false := by
      rw [Bool.eq_false_iff, ne_eq, contains_iff_mem]
      intro hmem
      obtain ⟨other, hother, heq⟩ := mem_map.1 hmem
      obtain ⟨hmem, hpull⟩ := mem_filter.1 hother
      obtain rfl := inj_on_of_nodup_map h.consumer_ids hmem hconsumer (heq.trans hid.symm)
      rw [hpush] at hpull
      cases hpull
    rw [isReadyForInflightSince, hnotPull, hqueued, Bool.not_false, Bool.or_true, Bool.true_and,
      beq_self_eq_true, Bool.true_and, decide_eq_true_eq]
    exact Int.le_of_lt (Int.lt_add_of_sub_right_lt (Int.lt_of_le_of_lt hT hnow))
  · rw [DeliveryJob.isPush, JobRow.toDeliveryJob, hlistener, Option.any_some]
    exact beq_iff_eq.2 hpush
  · rw [DbOp.succeeds, Mark.isOk_run_eq h.integrity.job_ids hrow rfl]
    simp [Mark.update, markJobInflight, jobNotPausedClause, hqueued, JobRow.toDeliveryJob]

theorem Db.Sound.inflight_recoverable (h : db.Sound) {row : JobRow} (hrow : row ∈ db.job)
    (hinflight : row.status = .inflight)
    (hT : row.statusChangedAt - sinceDelta (wrap64 (cfg.stopTimeout + cfg.rationalDelay)) ≤ T)
    (hT' : row.statusChangedAt - wrap64 (-totalDuration cfg (row.toDeliveryJob db)) ≤ T) :
    row.InflightRecoverable cfg T db := by
  intro now hnow
  have href : row.ref ∈ db.stored := mem_append_left _ (mem_map_of_mem hrow)
  obtain ⟨consumer, hconsumer, hid⟩ := mem_map.1 (h.jobs row.ref href)
  obtain ⟨channel, hlistener⟩ := h.listener hconsumer
  rw [show consumer.id = row.consumerId from hid] at hlistener
  refine ⟨?_, ?_, ?_⟩
  · rw [isInflightSince, Bool.and_eq_true, beq_iff_eq, decide_eq_true_eq]
    exact ⟨hinflight, Int.le_of_lt (Int.lt_add_of_sub_right_lt (Int.lt_of_le_of_lt hT hnow))⟩
  · rw [show (row.toDeliveryJob db).listener = some (consumer.toConsumer channel) from hlistener,
      Option.any_some, shouldEnqueueLongInflightJob]
    have hstale := Int.lt_add_of_sub_right_lt (Int.lt_of_le_of_lt hT' hnow)
    cases (consumer.toConsumer channel).type with
    | push => rfl
    | pull => exact decide_eq_true hstale
  · rw [DbOp.succeeds, Mark.isOk_run_eq h.integrity.job_ids hrow rfl]
    exact beq_iff_eq.2 hinflight

theorem Db.Sound.parked_recoverable (h : db.Sound) {row : ParkedJobRow} (hrow : row ∈ db.jobParking)
    (hpaused : db.effectivelyPaused row.consumerId.string = false) : row.Recoverable T db := by
  intro now _
  refine ⟨mem_getDrainableConsumerIDs.2 ⟨mem_map_of_mem hrow, hpaused⟩, ?_⟩
  intro pageSize earliestNextAttemptAt hposition
  have hquery : drainPageQuery db row.consumerId.string pageSize.toNat =
      ((db.jobParking.filter fun p => p.consumerId == row.consumerId).insertionSort
        drainOrder).take pageSize.toNat := by
    have hfilter : (db.jobParking.filter fun p => p.consumerId.string == row.consumerId.string &&
        !db.effectivelyPaused row.consumerId.string) =
        db.jobParking.filter fun p => p.consumerId == row.consumerId := by
      refine filter_congr fun p _ => ?_
      rw [hpaused, Bool.not_false, Bool.and_true, Bool.eq_iff_iff, beq_iff_eq, beq_iff_eq]
      exact Xid.string_injective.eq_iff
    rw [drainPageQuery, hfilter]
  have hsorted : row ∈ (db.jobParking.filter fun p =>
      p.consumerId == row.consumerId).insertionSort drainOrder :=
    (perm_insertionSort _ _).mem_iff.2 (mem_filter.2 ⟨hrow, beq_self_eq_true _⟩)
  have hpage : row ∈ drainPageQuery db row.consumerId.string pageSize.toNat := by
    rw [hquery, mem_take_iff_idxOf_lt hsorted]
    rw [Db.drainPosition] at hposition
    omega
  have hdrain := h.jobTables.drainPage_ok now row.consumerId.string pageSize earliestNextAttemptAt
    (ne_nil_of_mem hpage)
  refine ⟨_, _, hdrain, mem_append_right _ (mem_map_of_mem hpage), fun hmem => ?_⟩
  have hkept := (mem_deleteWhere.1 hmem).2
  rw [contains_iff_mem.2 (mem_map_of_mem hpage)] at hkept
  cases hkept

/-- For every row there is a time such that in every reachable database in which the row waits for a
recovery pass it is selected at every later clock reading, and the write of the pass succeeds. -/
theorem recovery_reaches_every_row (cfg : Config) (r : StorageRun) :
    (∀ row : MessageRow, ∃ T, ∀ n ≤ r.len, row ∈ (r.state n).message →
      row.status = .acknowledged → row.Recoverable cfg T (r.state n)) ∧
    (∀ row : JobRow, ∃ T, ∀ n ≤ r.len, row ∈ (r.state n).job → row.status = .queued →
      (∃ consumer ∈ (r.state n).consumer, consumer.id = row.consumerId ∧ consumer.type = .push) →
      row.QueuedRecoverable cfg T (r.state n)) ∧
    (∀ row : JobRow, ∃ T, ∀ n ≤ r.len, row ∈ (r.state n).job → row.status = .inflight →
      row.InflightRecoverable cfg T (r.state n)) ∧
    (∀ row : ParkedJobRow, ∃ T, ∀ n ≤ r.len, row ∈ (r.state n).jobParking →
      (r.state n).effectivelyPaused row.consumerId.string = false →
      row.Recoverable T (r.state n)) := by
  refine ⟨fun row => ?_, fun row => ?_, fun row => ?_, fun row => ?_⟩
  · refine ⟨max 0 (row.receivedAt - sinceDelta cfg.rationalDelay), fun n hn hrow hack => ?_⟩
    exact (r.sound hn).message_recoverable hrow hack (Int.le_max_left _ _) (Int.le_max_right _ _)
  · refine ⟨row.earliestNextAttemptAt - sinceDelta cfg.rationalDelay, ?_⟩
    rintro n hn hrow hqueued ⟨consumer, hconsumer, hid, hpush⟩
    exact (r.sound hn).queued_recoverable hrow hqueued hconsumer hid hpush (Int.le_refl _)
  · refine ⟨max (row.statusChangedAt - sinceDelta (wrap64 (cfg.stopTimeout + cfg.rationalDelay)))
      (row.statusChangedAt - wrap64 (-totalDuration cfg (row.toDeliveryJob {}))), ?_⟩
    intro n hn hrow hinflight
    exact (r.sound hn).inflight_recoverable hrow hinflight (Int.le_max_left _ _)
      (Int.le_max_right _ _)
  · refine ⟨0, fun n hn hrow hpaused => ?_⟩
    exact (r.sound hn).parked_recoverable hrow hpaused

end

/-- The records of a small broker are stored, and a message is created. -/
def Sample.storeAll : List StorageOp :=
  [.storeProducer 1 producerXid producer, .storeChannel 1 channelXid channel,
   .storeConsumer 1 consumerXid (consumer .push), .createMessage message]

open Sample

theorem recovery_reaches_every_row_message :
    ∃ r : @StorageRun netUrl, ∃ row ∈ (r.state 4).message,
      row.status = .acknowledged ∧
        ∃ T, @MessageRow.Recoverable netUrl config T (r.state 4) row := by
  let r : @StorageRun netUrl := Run.ofActs {} storeAll rfl (by decide +kernel)
  have hmessage : (r.state 4).message = [message.toRow] := by decide +kernel
  have hrow : message.toRow ∈ (r.state 4).message := by
    rw [hmessage]
    exact mem_cons_self
  have hlen : 4 ≤ r.len := by decide
  obtain ⟨T, hT⟩ :=
    (@recovery_reaches_every_row netUrl config r).1 message.toRow
  exact ⟨r, _, hrow, rfl, T, hT 4 hlen hrow rfl⟩

end WebhookBroker
