import WebhookBroker.Storage.Op

/-!
# A job is stored once

No constraint of the schema spans `job` and `job_parking`. That a job is in exactly one of them,
and that no two jobs have the same message and consumer, follows from how the operations work
together: a dispatch only succeeds on a message without jobs, a repark copies and deletes the same
row, and a drain deletes the rows it inserts. `Db.Integrity` is the invariant that carries this.
-/

namespace WebhookBroker

open Lib List

structure Db.Integrity (db : Db) : Prop where
  /-- a job id occurs once in the two tables together -/
  ids : (db.stored.map (·.id)).Nodup
  /-- so does a message with a consumer -/
  pairs : (db.stored.map (·.pair)).Nodup
  /-- a job's message exists and is dispatched -/
  dispatched : ∀ r ∈ db.stored, ∃ m ∈ db.message, m.id = r.messageId ∧ m.status = .dispatched
  /-- the primary key of `message` -/
  messages : (db.message.map (·.id)).Nodup
  seqs : (db.jobParking.map (·.seq)).Nodup
  /-- the counter is ahead of the keys it gave out -/
  seqs_lt : ∀ p ∈ db.jobParking, p.seq < db.nextSeq

section
variable {db : Db}

@[simp] theorem JobRow.ref_requeue (now : Time) (row : JobRow) : (row.requeue now).ref = row.ref :=
  rfl
@[simp] theorem DeliveryJob.ref_parkedRow (now : Time) (job : DeliveryJob) :
    (job.parkedRow now).ref = job.jobRow.ref := rfl
@[simp] theorem ParkedJobRow.ref_seq (row : ParkedJobRow) (seq : Nat) :
    ({ row with seq := seq } : ParkedJobRow).ref = row.ref := rfl

@[simp] theorem Mark.ref_set (m : Mark) (now : Time) (job : DeliveryJob) (row : JobRow) :
    ((m.update now job).set row).ref = row.ref := by
  cases m <;> rfl

theorem map_ref_numberFrom (n : Nat) (rows : List ParkedJobRow) :
    (numberFrom n rows).map (·.ref) = rows.map (·.ref) := by
  induction rows generalizing n with
  | nil => rfl
  | cons row rows ih => simp [numberFrom, ih]

theorem map_seq_numberFrom (n : Nat) (rows : List ParkedJobRow) :
    (numberFrom n rows).map (·.seq) = List.range' n rows.length := by
  induction rows generalizing n with
  | nil => rfl
  | cons row rows ih => simp [numberFrom, ih, range'_succ]

theorem stored_updateWhere {p : JobRow → Bool} {f : JobRow → JobRow}
    (hf : ∀ r, (f r).ref = r.ref) :
    ({ db with job := updateWhere p f db.job } : Db).stored = db.stored := by
  unfold Db.stored
  rw [map_updateWhere fun r _ => hf r]

theorem stored_repark {q : JobRow → Bool} {row : JobRow} {parked : ParkedJobRow} {n : Nat}
    (hrow : db.job.filter q = [row]) (href : parked.ref = row.ref) :
    ({ db with job := deleteWhere q db.job, jobParking := db.jobParking ++ [parked]
               nextSeq := n } : Db).stored.Perm db.stored := by
  have hjob : ([row] ++ deleteWhere q db.job).Perm db.job :=
    hrow ▸ filter_append_deleteWhere_perm q db.job
  unfold Db.stored
  simp only [map_append, map_cons, map_nil, href]
  calc (deleteWhere q db.job).map (·.ref) ++ (db.jobParking.map (·.ref) ++ [row.ref])
    _ = (deleteWhere q db.job).map (·.ref) ++ db.jobParking.map (·.ref) ++ [row.ref] := by
        rw [append_assoc]
    _ ~ [row.ref] ++ ((deleteWhere q db.job).map (·.ref) ++ db.jobParking.map (·.ref)) :=
        perm_append_comm
    _ ~ db.job.map (·.ref) ++ db.jobParking.map (·.ref) := by
        rw [← append_assoc]
        exact (hjob.map (·.ref)).append_right _

theorem drainPageQuery_mem_nodup (hseq : (db.jobParking.map (·.seq)).Nodup) (c : String)
    (limit : Nat) :
    (∀ p ∈ drainPageQuery db c limit, p ∈ db.jobParking) ∧ (drainPageQuery db c limit).Nodup := by
  unfold drainPageQuery
  refine ⟨?_, ?_⟩
  · intro p hp
    have hp := (perm_insertionSort _ _).mem_iff.1 (mem_of_mem_take hp)
    exact (mem_filter.1 hp).1
  · have hnodup : db.jobParking.Nodup := List.Nodup.of_map _ hseq
    have hsorted := (perm_insertionSort drainOrder _).nodup_iff.2 (hnodup.filter
      fun p => p.consumerId.string == c && !db.effectivelyPaused c)
    exact hsorted.sublist (take_sublist _ _)

/-- The rows whose sequence numbers a drain deletes are the rows it selected. -/
theorem filter_seq_perm (hseq : (db.jobParking.map (·.seq)).Nodup) {rows : List ParkedJobRow}
    (hmem : ∀ p ∈ rows, p ∈ db.jobParking) (hnodup : rows.Nodup) :
    (db.jobParking.filter fun p => (rows.map (·.seq)).contains p.seq).Perm rows := by
  have hparking : db.jobParking.Nodup := List.Nodup.of_map _ hseq
  refine (perm_ext_iff_of_nodup (hparking.filter _) hnodup).2 fun p => ?_
  rw [mem_filter, contains_iff_mem]
  constructor
  · rintro ⟨hp, hc⟩
    obtain ⟨p', hp', heq⟩ := mem_map.1 hc
    rwa [← inj_on_of_nodup_map hseq (hmem p' hp') hp heq]
  · exact fun hp => ⟨hmem p hp, mem_map_of_mem hp⟩

theorem stored_drain {rows : List ParkedJobRow} {q : ParkedJobRow → Bool}
    {f : ParkedJobRow → JobRow} (hrows : (db.jobParking.filter q).Perm rows)
    (href : ∀ p, (f p).ref = p.ref) :
    ({ db with jobParking := deleteWhere q db.jobParking
               job := db.job ++ rows.map f } : Db).stored.Perm db.stored := by
  have hparking := (hrows.symm.append_right _).trans
    (filter_append_deleteWhere_perm q db.jobParking)
  have hmap : (rows.map f).map (·.ref) = rows.map (·.ref) := by
    rw [map_map]
    exact map_congr_left fun p _ => href p
  unfold Db.stored
  rw [map_append, hmap, append_assoc, ← map_append]
  exact (hparking.map _).append_left _

theorem stored_dispatched (now : Time) (message : Message) (deliveryJobs parkedJobs) :
    (db.dispatched now message deliveryJobs parkedJobs).stored.Perm
      (db.stored ++ (deliveryJobs ++ parkedJobs).map (·.jobRow.ref)) := by
  have hparked : (parkedJobs.map (·.parkedRow now)).map (·.ref) =
      parkedJobs.map (·.jobRow.ref) := by simp
  unfold Db.stored Db.dispatched
  simp only [map_append, map_ref_numberFrom, hparked, map_map]
  rw [append_assoc, append_assoc]
  refine List.Perm.append_left _ ?_
  rw [← append_assoc, ← append_assoc]
  exact perm_append_comm.append_right _

end

/-! ## The invariant is kept -/

section
variable {db db' : Db}

/-- The invariant carries over when no job is added and the messages of the jobs that are left
are still there. -/
theorem Db.Integrity.transport (h : db.Integrity) (hstored : db'.stored <+~ db.stored)
    (hdispatched : ∀ m ∈ db.message, m.id ∈ db'.stored.map (·.messageId) → m ∈ db'.message)
    (hmessages : (db'.message.map (·.id)).Nodup) (hseqs : (db'.jobParking.map (·.seq)).Nodup)
    (hlt : ∀ p ∈ db'.jobParking, p.seq < db'.nextSeq) : db'.Integrity where
  ids := by
    obtain ⟨l, hl, hsub⟩ := hstored
    exact (hl.map _).nodup_iff.1 (h.ids.sublist (hsub.map _))
  pairs := by
    obtain ⟨l, hl, hsub⟩ := hstored
    exact (hl.map _).nodup_iff.1 (h.pairs.sublist (hsub.map _))
  dispatched r hr := by
    obtain ⟨m, hm, hid, hstatus⟩ := h.dispatched r (hstored.subset hr)
    exact ⟨m, hdispatched m hm (hid ▸ mem_map_of_mem hr), hid, hstatus⟩
  messages := hmessages
  seqs := hseqs
  seqs_lt := hlt

theorem Db.Integrity.not_stored_of_acknowledged (h : db.Integrity) {id : Xid}
    (hack : db.message.countP (isAcknowledged id) = 1) : id ∉ db.stored.map (·.messageId) := by
  obtain ⟨m, hm, hmack⟩ := countP_pos_iff.1 (hack ▸ Nat.one_pos)
  simp only [isAcknowledged, Bool.and_eq_true, Xid.like_iff, beq_iff_eq] at hmack
  obtain ⟨rfl, hacked⟩ := hmack
  intro hmem
  obtain ⟨r, hr, hrid⟩ := mem_map.1 hmem
  obtain ⟨m', hm', hid, hdispatched⟩ := h.dispatched r hr
  have heq : m' = m := inj_on_of_nodup_map h.messages hm' hm (hid.trans hrid)
  rw [heq, hacked] at hdispatched
  cases hdispatched

variable {now : Time}

theorem mem_message_dispatched {message : Message} {deliveryJobs parkedJobs} {m : MessageRow}
    (hm : m ∈ db.message) (hstatus : m.status = .dispatched) :
    m ∈ (db.dispatched now message deliveryJobs parkedJobs).message := by
  refine mem_updateWhere.2 ⟨m, hm, ?_⟩
  rw [if_neg]
  simp [isAcknowledged, hstatus]

theorem exists_message_dispatched {message : Message} {deliveryJobs parkedJobs}
    (hack : db.message.countP (isAcknowledged message.id) = 1) :
    ∃ m ∈ (db.dispatched now message deliveryJobs parkedJobs).message,
      m.id = message.id ∧ m.status = .dispatched := by
  obtain ⟨m, hm, hmack⟩ := countP_pos_iff.1 (hack ▸ Nat.one_pos)
  refine ⟨m.setDispatched now, mem_updateWhere.2 ⟨m, hm, if_pos hmack⟩, ?_, rfl⟩
  simp only [isAcknowledged, Bool.and_eq_true, Xid.like_iff] at hmack
  exact hmack.1.symm

theorem Db.Integrity.seqs_append (h : db.Integrity) (rows : List ParkedJobRow) :
    ((db.jobParking ++ numberFrom db.nextSeq rows).map (·.seq)).Nodup ∧
      ∀ p ∈ db.jobParking ++ numberFrom db.nextSeq rows, p.seq < db.nextSeq + rows.length := by
  have hnew : ∀ p ∈ numberFrom db.nextSeq rows,
      db.nextSeq ≤ p.seq ∧ p.seq < db.nextSeq + rows.length := by
    intro p hp
    have hmem : p.seq ∈ (numberFrom db.nextSeq rows).map (·.seq) := mem_map_of_mem hp
    rwa [map_seq_numberFrom, mem_range'_1] at hmem
  refine ⟨?_, ?_⟩
  · rw [map_append, nodup_append]
    refine ⟨h.seqs, map_seq_numberFrom _ _ ▸ nodup_range', ?_⟩
    intro a ha b hb heq
    obtain ⟨p, hp, rfl⟩ := mem_map.1 ha
    obtain ⟨q, hq, rfl⟩ := mem_map.1 hb
    have := h.seqs_lt p hp
    have := (hnew q hq).1
    omega
  · intro p hp
    rcases mem_append.1 hp with hp | hp
    · have := h.seqs_lt p hp
      omega
    · exact (hnew p hp).2

theorem messageId_of_isValidFor [NetUrl] {message : Message} {job : DeliveryJob}
    (h : job.isValidFor message = true) : job.jobRow.ref.messageId = message.id := by
  simp only [DeliveryJob.isValidFor, Bool.and_eq_true, beq_iff_eq] at h
  exact h.2

theorem Db.Integrity.dispatch [NetUrl] (h : db.Integrity) {message : Message}
    {deliveryJobs parkedJobs : List DeliveryJob}
    (hfresh : db.freshJobs (deliveryJobs ++ parkedJobs))
    (hvalid : ∀ job ∈ deliveryJobs ++ parkedJobs, job.isValidFor message = true)
    (hack : db.message.countP (isAcknowledged message.id) = 1) :
    (db.dispatched now message deliveryJobs parkedJobs).Integrity := by
  obtain ⟨hids, hlisteners, hnew⟩ := hfresh
  have hperm : (db.dispatched now message deliveryJobs parkedJobs).stored ~
      db.stored ++ (deliveryJobs ++ parkedJobs).map (·.jobRow.ref) := stored_dispatched ..
  obtain ⟨hseqs, hlt⟩ := h.seqs_append (parkedJobs.map (·.parkedRow now))
  rw [length_map] at hlt
  refine ⟨?_, ?_, ?_, ?_, hseqs, hlt⟩
  · rw [(hperm.map _).nodup_iff, map_append, nodup_append]
    refine ⟨h.ids, by rw [map_map]; exact hids, ?_⟩
    intro a ha b hb heq
    obtain ⟨_, hr, rfl⟩ := mem_map.1 hb
    obtain ⟨job, hjob, rfl⟩ := mem_map.1 hr
    exact (hnew job hjob).1 ((show a = job.id from heq) ▸ ha)
  · rw [(hperm.map _).nodup_iff, map_append, nodup_append]
    refine ⟨h.pairs, ?_, ?_⟩
    · refine List.Nodup.of_map Prod.snd ?_
      rw [map_map, map_map]
      exact hlisteners
    · intro a ha b hb heq
      obtain ⟨r, hr, rfl⟩ := mem_map.1 ha
      obtain ⟨_, hr', rfl⟩ := mem_map.1 hb
      obtain ⟨job, hjob, rfl⟩ := mem_map.1 hr'
      have hmid : r.messageId = message.id :=
        (congrArg Prod.fst heq).trans (messageId_of_isValidFor (hvalid job hjob))
      exact h.not_stored_of_acknowledged hack (hmid ▸ mem_map_of_mem hr)
  · intro r hr
    rcases mem_append.1 (hperm.mem_iff.1 hr) with hr | hr
    · obtain ⟨m, hm, hid, hstatus⟩ := h.dispatched r hr
      exact ⟨m, mem_message_dispatched hm hstatus, hid, hstatus⟩
    · obtain ⟨job, hjob, rfl⟩ := mem_map.1 hr
      rw [messageId_of_isValidFor (hvalid job hjob)]
      exact exists_message_dispatched hack
  · have hkeys : (db.dispatched now message deliveryJobs parkedJobs).message.map (·.id) =
        db.message.map (·.id) := map_updateWhere fun _ _ => rfl
    rw [hkeys]
    exact h.messages

theorem Db.Integrity.delete (h : db.Integrity) (q : JobRow → Bool) :
    ({ db with job := deleteWhere q db.job } : Db).Integrity := by
  have hsub : ({ db with job := deleteWhere q db.job } : Db).stored.Sublist db.stored :=
    ((deleteWhere_sublist q db.job).map _).append_right _
  exact h.transport hsub.subperm (fun m hm _ => hm) h.messages h.seqs h.seqs_lt

theorem Db.Integrity.update (h : db.Integrity) {p : JobRow → Bool} {f : JobRow → JobRow}
    (hf : ∀ r, (f r).ref = r.ref) :
    ({ db with job := updateWhere p f db.job } : Db).Integrity := by
  have hstored : ({ db with job := updateWhere p f db.job } : Db).stored = db.stored :=
    stored_updateWhere hf
  exact h.transport (hstored.symm ▸ List.Subperm.refl _) (fun m hm _ => hm) h.messages h.seqs
    h.seqs_lt

variable {op : DbOp}

theorem Db.Integrity.effect [NetUrl] (h : db.Integrity) (he : DbEffect db op db') :
    db'.Integrity := by
  cases he with
  | unchanged => exact h
  | dispatched hfresh hvalid hack => exact h.dispatch hfresh hvalid hack
  | @reparked now job row hrow hpaused =>
    obtain ⟨hseqs, hlt⟩ := h.seqs_append [row.park now]
    exact h.transport (stored_repark hrow rfl).subperm (fun m hm _ => hm) h.messages hseqs hlt
  | @drained _ c pageSize _ rows hrows hcount =>
    obtain ⟨hmem, hnodup⟩ := drainPageQuery_mem_nodup h.seqs c pageSize.toNat
    rw [← hrows] at hmem hnodup
    have hperm := filter_seq_perm h.seqs hmem hnodup
    exact h.transport (stored_drain hperm fun _ => rfl).subperm (fun m hm _ => hm) h.messages
      (h.seqs.sublist ((deleteWhere_sublist _ _).map _))
      fun p hp => h.seqs_lt p ((mem_deleteWhere.1 hp).1)
  | marked hcount => exact h.update (Mark.ref_set _ _ _)
  | requeued => exact h.update fun _ => rfl
  | requeuedForConsumer => exact h.update fun _ => rfl
  | deleted => exact h.delete _
  | deletedForConsumer => exact h.delete _
  | @deletedMessages ids hparked =>
    refine h.transport (((deleteWhere_sublist _ _).map _).append_right _).subperm ?_
      (h.messages.sublist ((deleteWhere_sublist _ _).map _)) h.seqs h.seqs_lt
    intro m hm hstored
    refine mem_deleteWhere.2 ⟨hm, Bool.eq_false_iff.2 fun hids => ?_⟩
    obtain ⟨r, hr, hrid⟩ := mem_map.1 hstored
    rcases mem_append.1 hr with hr | hr
    · obtain ⟨row, hrow, rfl⟩ := mem_map.1 hr
      have hleft := (mem_deleteWhere.1 hrow).2
      rw [show row.messageId = m.id from hrid, hids] at hleft
      cases hleft
    · obtain ⟨row, hrow, rfl⟩ := mem_map.1 hr
      exact hparked m hm hids (hrid ▸ mem_map_of_mem hrow)
  | paused | resumed | locked =>
    exact ⟨h.ids, h.pairs, h.dispatched, h.messages, h.seqs, h.seqs_lt⟩

def Db.isInitial (db : Db) : Prop :=
  db.job = [] ∧ db.jobParking = [] ∧ (db.message.map (·.id)).Nodup

instance (db : Db) : Decidable db.isInitial := inferInstanceAs (Decidable (_ ∧ _ ∧ _))

def DbOp.isDelete : DbOp → Bool
  | .deleteDeadJob .. | .deleteDeadJobsForConsumer .. | .deleteMessagesAndJobs .. => true
  | _ => false

/-- The operation is a dispatch that commits and creates the job. -/
def DbOp.creates [NetUrl] (db : Db) (j : Xid) : DbOp → Prop
  | .dispatchMessageWithParking now message deliveryJobs parkedJobs =>
    (WebhookBroker.dispatchMessageWithParking now message deliveryJobs parkedJobs db).1.isOk ∧
      j ∈ (deliveryJobs ++ parkedJobs).map (·.id)
  | _ => False

/-- The operation is a delete after which the job is no longer stored. -/
def DbOp.removes [NetUrl] (db : Db) (j : Xid) (op : DbOp) : Prop :=
  op.isDelete = true ∧ j ∈ db.stored.map (·.id) ∧ j ∉ (op.exec db).stored.map (·.id)

theorem Db.isInitial.integrity (h : db.isInitial) : db.Integrity := by
  obtain ⟨hjob, hparking, hmessages⟩ := h
  have hstored : db.stored = [] := by simp [Db.stored, hjob, hparking]
  exact ⟨by simp [hstored], by simp [hstored], by simp [hstored], hmessages, by simp [hparking],
    by simp [hparking]⟩

theorem DbEffect.stored_subset [NetUrl] (he : DbEffect db op db') (h : db.Integrity)
    (hop : op.isDelete = false) : db.stored ⊆ db'.stored := by
  cases he with
  | unchanged => exact List.Subset.refl _
  | dispatched =>
    exact fun r hr => (stored_dispatched ..).mem_iff.2 (mem_append_left _ hr)
  | reparked hrow => exact fun r hr => (stored_repark hrow rfl).mem_iff.2 hr
  | @drained _ c pageSize _ rows hrows hcount =>
    obtain ⟨hmem, hnodup⟩ := drainPageQuery_mem_nodup h.seqs c pageSize.toNat
    rw [← hrows] at hmem hnodup
    exact fun r hr => (stored_drain (filter_seq_perm h.seqs hmem hnodup) fun _ => rfl).mem_iff.2 hr
  | marked => exact (stored_updateWhere (Mark.ref_set _ _ _)).symm ▸ List.Subset.refl _
  | requeued => exact (stored_updateWhere (JobRow.ref_requeue _)).symm ▸ List.Subset.refl _
  | requeuedForConsumer =>
    exact (stored_updateWhere (JobRow.ref_requeue _)).symm ▸ List.Subset.refl _
  | deleted | deletedForConsumer | deletedMessages => cases hop
  | paused | resumed | locked => exact List.Subset.refl _

theorem DbOp.creates.stored [NetUrl] {j : Xid} (hc : op.creates db j) :
    j ∈ (op.exec db).stored.map (·.id) := by
  cases op with
  | dispatchMessageWithParking now message deliveryJobs parkedJobs =>
    obtain ⟨hok, hj⟩ := hc
    rcases dispatchMessageWithParking_cases now message deliveryJobs parkedJobs db with
      ⟨-, -, hr⟩ | ⟨e, hr⟩
    · obtain ⟨job, hjob, rfl⟩ := mem_map.1 hj
      have href : job.jobRow.ref ∈
          (db.dispatched now message deliveryJobs parkedJobs).stored :=
        (stored_dispatched ..).mem_iff.2 (mem_append_right _ (mem_map_of_mem hjob))
      rw [DbOp.exec, hr]
      exact mem_map_of_mem href
    · rw [hr] at hok
      cases hok
  | _ => exact hc.elim

theorem Db.Integrity.count_rows (h : db.Integrity) {j : Xid} (hj : j ∈ db.stored.map (·.id)) :
    db.job.countP (·.id == j) + db.jobParking.countP (·.id == j) = 1 := by
  have hcount : (db.stored.map (·.id)).count j = 1 := count_eq_one_of_mem h.ids hj
  rw [Db.stored, map_append, count_append, map_map, map_map] at hcount
  rw [← hcount, count_eq_countP, count_eq_countP, countP_map, countP_map]
  rfl

theorem DbOp.exec_of_step [NetUrl] (h : DbOp.step db op = some db') : op.exec db = db' := by
  unfold DbOp.step at h
  split at h
  · exact Option.some.inj h
  · cases h

theorem integrity_of_run [NetUrl] (r : Run Db.isInitial DbOp.step) {n : Nat} (hn : n ≤ r.len) :
    (r.state n).Integrity :=
  r.invariant (fun _ h => h.integrity) (fun _ _ _ h hs => h.effect (DbOp.step_effect hs)) n hn

/-- A job that is stored stays stored up to the step that removes it. -/
theorem stored_of_run [NetUrl] (r : Run Db.isInitial DbOp.step) {i n : Nat} {j : Xid}
    (hn : n ≤ r.len) (hin : i ≤ n) (hi : j ∈ (r.state i).stored.map (·.id))
    (hkeep : ∀ k, i ≤ k → k < n → ¬ (r.act k).removes (r.state k) j) :
    j ∈ (r.state n).stored.map (·.id) := by
  induction n with
  | zero => rwa [Nat.le_zero.1 hin] at hi
  | succ n ih =>
    rcases Nat.lt_or_eq_of_le hin with hlt | rfl
    · have hj := ih (by omega) (by omega) fun k hk hkn => hkeep k hk (by omega)
      have hstep := r.next n (by omega)
      cases hop : (r.act n).isDelete with
      | true =>
        by_contra hgone
        rw [← DbOp.exec_of_step hstep] at hgone
        exact hkeep n (by omega) (by omega) ⟨hop, hj, hgone⟩
      | false =>
        have hsub := (DbOp.step_effect hstep).stored_subset (integrity_of_run r (by omega)) hop
        obtain ⟨ref, href, rfl⟩ := mem_map.1 hj
        exact mem_map_of_mem (hsub href)
    · exact hi

/-- In every state of every run, a job that was created and not deleted since has one row in the two
tables together, no job id and no pair of message and consumer occurs twice, and a message with jobs
is dispatched. -/
theorem job_stored_once [NetUrl] (r : Run Db.isInitial DbOp.step) (n : Nat) (hn : n ≤ r.len) :
    (∀ i j, i < n → (r.act i).creates (r.state i) j →
      (∀ k, i < k → k < n → ¬ (r.act k).removes (r.state k) j) →
      (r.state n).job.countP (·.id == j) + (r.state n).jobParking.countP (·.id == j) = 1) ∧
    ((r.state n).stored.map (·.id)).Nodup ∧
    ((r.state n).stored.map (·.pair)).Nodup ∧
    ∀ m ∈ (r.state n).message, m.id ∈ (r.state n).stored.map (·.messageId) →
      m.status = .dispatched := by
  have h := integrity_of_run r hn
  refine ⟨?_, h.ids, h.pairs, ?_⟩
  · intro i j hi hcreates hkeep
    have hstored : j ∈ (r.state (i + 1)).stored.map (·.id) :=
      DbOp.exec_of_step (r.next i (by omega)) ▸ hcreates.stored
    exact h.count_rows (stored_of_run r hn hi hstored hkeep)
  · intro m hm hmem
    obtain ⟨ref, href, hid⟩ := mem_map.1 hmem
    obtain ⟨m', hm', hid', hstatus⟩ := h.dispatched ref href
    rwa [inj_on_of_nodup_map h.messages hm' hm (hid'.trans hid)] at hstatus

/-- The consumer is paused, the job is created in `job_parking`, the consumer is resumed and the
job is drained and handed out. -/
def Sample.parkAndDrain : List DbOp :=
  [.pause 2 ⟨consumerXid.string, consumerXid.string, "", 0⟩,
   .dispatchMessageWithParking 3 message [] [job .push 3],
   .resume consumerXid.string,
   .drainPage 4 consumerXid.string 10 4,
   .mark .inflight 5 (job .push 3)]

open Sample

theorem job_stored_once_park_and_drain :
    ∃ r : Run Db.isInitial (@DbOp.step netUrl),
      (r.state 2).jobParking.countP (·.id == jobXid) = 1 ∧
      (r.state 5).job.countP (·.id == jobXid) +
        (r.state 5).jobParking.countP (·.id == jobXid) = 1 := by
  let _ := netUrl
  refine ⟨Run.ofActs (db .push) parkAndDrain (by decide) (by decide +kernel),
    by decide +kernel, ?_⟩
  refine (job_stored_once _ 5 (by decide)).1 1 jobXid (by decide)
    ⟨by decide +kernel, by decide⟩ ?_
  intro k hk hk5 hremoves
  have hop : ∀ k ∈ [2, 3, 4], (parkAndDrain.getD k default).isDelete = false := by decide
  have hk' : k ∈ [2, 3, 4] := by simp only [mem_cons, not_mem_nil]; omega
  exact Bool.false_ne_true ((hop k hk').symm.trans hremoves.1)

end

end WebhookBroker
