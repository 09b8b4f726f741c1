import WebhookBroker.Broker.Recoverable

/-!
# `GetByID` of the job repository while jobs move (`storage/deliveryjobrepo.go`)

`GetByID` is not a transaction. It reads `job`, then `job_parking` if there was no row, and then the
message and the consumer, and each of these statements may see another state of the database. A job
that is parked during the first statement and drained before the second is in neither result,
although it was stored all the time. This is the only way to lose it (`JobLookup.cases`): a job that
is found in `job`, or that is still in `job_parking` during the second statement, is returned with
the status of that moment, and its message and its consumer are found as long as the job is stored.
-/

namespace WebhookBroker

open Lib List

section
variable (dbAt : Nat → Db)

/-- `GetByID` of the message repository: the statements 2, 3 and 4 read the message, its producer
and its channel. -/
def getMessageByIDAt (id : String) : Except StorageErr Message :=
  match (dbAt 2).message.find? fun row => sqlLike id row.id.string with
  | some row => do
    let producer ← getProducer (dbAt 3) row.producerId
    let channel ← getChannel (dbAt 4) row.channelId
    return row.withReferences channel producer
  | none => .error .noRows

/-- `GetByID` of the consumer repository: the statements 5 and 6 read the consumer and its
channel. -/
def getConsumerByIDAt (id : String) : Except StorageErr Consumer :=
  match (dbAt 5).consumer.find? fun row => sqlLike id row.id.string with
  | some row => do return row.toConsumer (← getChannel (dbAt 6) row.channelId)
  | none => .error .noRows

/-- The job with the message and the consumer of its row. -/
def loadJobAt (job : DeliveryJob) (messageId consumerId : Xid) : Except StorageErr DeliveryJob := do
  let message ← getMessageByIDAt dbAt messageId.string
  let consumer ← getConsumerByIDAt dbAt consumerId.string
  return { job with message := some message, listener := some consumer }

/-- `loadParkedJobByID`: statement 1 reads `job_parking`. -/
def loadParkedJobByIDAt (id : String) : Except StorageErr DeliveryJob :=
  match (dbAt 1).jobParking.find? fun row => row.id.string == id with
  | some row => loadJobAt dbAt (row.toDeliveryJob {}) row.messageId row.consumerId
  | none => .error .noRows

/-- `GetByID`, where statement `i` reads the database `dbAt i`. Statement 0 reads `job`, and
statement 1 is left out when it finds a row. -/
def getJobByIDAt (id : String) : Except StorageErr DeliveryJob :=
  match (dbAt 0).job.find? fun row => sqlLike id row.id.string with
  | some row => loadJobAt dbAt (row.toDeliveryJob {}) row.messageId row.consumerId
  | none =>
    match loadParkedJobByIDAt dbAt id with
    | .ok job => .ok job
    | .error _ => .error .noRows

end

/-! ## What stays while a job is stored -/

theorem Db.mem_stored_id (db : Db) {j : Xid} : j ∈ db.stored.map (·.id) ↔
    (∃ row ∈ db.job, row.id = j) ∨ ∃ p ∈ db.jobParking, p.id = j := by
  rw [Db.stored, map_append, map_map, map_map, mem_append, mem_map,
    mem_map]
  rfl

section
variable [NetUrl] {db db' : Db}
variable {ref : JobRef}

theorem DbEffect.mem_stored_of_id {op : DbOp} (he : DbEffect db op db') (h : db.Integrity)
    (href : ref ∈ db.stored) (hid : ref.id ∈ db'.stored.map (·.id)) : ref ∈ db'.stored := by
  cases hop : op.isDelete with
  | false => exact he.stored_subset h hop href
  | true =>
    obtain ⟨ref', href', hid'⟩ := mem_map.1 hid
    have hmem : ref' ∈ db.stored := by
      cases he with
      | unchanged | locked => exact href'
      | deleted | deletedForConsumer | deletedMessages =>
        rcases mem_append.1 href' with hr | hr
        · obtain ⟨row, hrow, rfl⟩ := mem_map.1 hr
          exact mem_append_left _ (mem_map_of_mem (mem_deleteWhere.1 hrow).1)
        · exact mem_append_right _ hr
      | dispatched | reparked | drained | marked | requeued | requeuedForConsumer | paused
      | resumed => cases hop
    rwa [← inj_on_of_nodup_map h.ids hmem href hid']

theorem StorageEffect.mem_stored_of_id {op : StorageOp} (he : StorageEffect db op db')
    (h : db.Integrity) (href : ref ∈ db.stored) (hid : ref.id ∈ db'.stored.map (·.id)) :
    ref ∈ db'.stored := by
  cases he with
  | job he => exact he.mem_stored_of_id h href hid
  | records | created => exact href

theorem StorageRun.keys_subset (r : StorageRun) {m n : Nat} (hmn : m ≤ n) (hn : n ≤ r.len) :
    (r.state m).channel.map (·.channelId) ⊆ (r.state n).channel.map (·.channelId) ∧
      (r.state m).producer.map (·.producerId) ⊆ (r.state n).producer.map (·.producerId) := by
  induction n, hmn using Nat.le_induction with
  | base => exact ⟨List.Subset.refl _, List.Subset.refl _⟩
  | succ n _ ih =>
    obtain ⟨hchannel, hproducer⟩ := ih (Nat.le_of_succ_le hn)
    have hstep := (StorageOp.step_effect (r.next n hn)).keys_subset
    exact ⟨List.Subset.trans hchannel hstep.1, List.Subset.trans hproducer hstep.2⟩

theorem StorageRun.mem_stored (r : StorageRun) {m n : Nat} (hmn : m ≤ n) (hn : n ≤ r.len)
    (href : ref ∈ (r.state m).stored)
    (hstored : ∀ k, m ≤ k → k ≤ n → ref.id ∈ (r.state k).stored.map (·.id)) :
    ref ∈ (r.state n).stored := by
  induction n, hmn using Nat.le_induction with
  | base => exact href
  | succ n hmn ih =>
    have hbefore := ih (Nat.le_of_succ_le hn) fun k hk hkn => hstored k hk (Nat.le_succ_of_le hkn)
    exact (StorageOp.step_effect (r.next n hn)).mem_stored_of_id
      (r.sound (Nat.le_of_succ_le hn)).integrity hbefore
      (hstored (n + 1) (Nat.le_succ_of_le hmn) le_rfl)

/-! ## What the statements find -/

section
variable (dbAt : Nat → Db) {ref : JobRef}

theorem getMessageByIDAt_of_stored (h : (dbAt 2).Sound) (href : ref ∈ (dbAt 2).stored)
    (hproducers : (dbAt 2).producer.map (·.producerId) ⊆ (dbAt 3).producer.map (·.producerId))
    (hchannels : (dbAt 2).channel.map (·.channelId) ⊆ (dbAt 4).channel.map (·.channelId)) :
    ∃ message, getMessageByIDAt dbAt ref.messageId.string = .ok message := by
  obtain ⟨m, hm, hid, -⟩ := h.integrity.dispatched ref href
  obtain ⟨row, hrow⟩ := find?_sqlLike_of_mem
    (show ref.messageId.string ∈ (dbAt 2).message.map (·.id.string) from
      hid ▸ mem_map_of_mem hm)
  have hmem := mem_of_find?_eq_some hrow
  obtain ⟨producer, -, hproducer⟩ := getProducer_of_mem (hproducers (h.message_producer row hmem))
  obtain ⟨channel, -, hchannel⟩ := getChannel_of_mem (hchannels (h.message_channel row hmem))
  refine ⟨row.withReferences channel.toChannel producer.toProducer, ?_⟩
  simp only [getMessageByIDAt, hrow, hproducer, hchannel]
  rfl

theorem getConsumerByIDAt_of_stored (h : (dbAt 5).Sound) (href : ref ∈ (dbAt 5).stored)
    (hchannels : (dbAt 5).channel.map (·.channelId) ⊆ (dbAt 6).channel.map (·.channelId)) :
    ∃ consumer, getConsumerByIDAt dbAt ref.consumerId.string = .ok consumer := by
  obtain ⟨c, hc, hid⟩ := mem_map.1 (h.jobs ref href)
  obtain ⟨row, hrow⟩ := find?_sqlLike_of_mem
    (show ref.consumerId.string ∈ (dbAt 5).consumer.map (·.id.string) from
      hid ▸ mem_map_of_mem hc)
  obtain ⟨channel, -, hchannel⟩ := getChannel_of_mem
    (hchannels (h.consumer_channel row (mem_of_find?_eq_some hrow)))
  refine ⟨row.toConsumer channel.toChannel, ?_⟩
  simp only [getConsumerByIDAt, hrow, hchannel]
  rfl

end

/-- The statements of a call of `GetByID` run at the moments `t` of a run, and the job is stored in
one table from the first to the last of them. -/
structure JobLookup (r : StorageRun) (t : Nat → Nat) (j : Xid) : Prop where
  mono : Monotone t
  last_le : t 6 ≤ r.len
  once : ∀ n, t 0 ≤ n → n ≤ t 6 →
    (r.state n).job.countP (·.id == j) + (r.state n).jobParking.countP (·.id == j) = 1

namespace JobLookup
variable {r : StorageRun} {t : Nat → Nat} {j : Xid} (h : JobLookup r t j)
include h

theorem moment {i : Nat} (hi : i ≤ 6) : t 0 ≤ t i ∧ t i ≤ t 6 ∧ t i ≤ r.len :=
  ⟨h.mono (Nat.zero_le i), h.mono hi, (h.mono hi).trans h.last_le⟩

theorem stored {n : Nat} (hn : t 0 ≤ n) (hn' : n ≤ t 6) : j ∈ (r.state n).stored.map (·.id) := by
  have honce := h.once n hn hn'
  rw [Db.mem_stored_id]
  rcases Nat.eq_zero_or_pos ((r.state n).job.countP (·.id == j)) with hjob | hjob
  · have hparked : 0 < (r.state n).jobParking.countP (·.id == j) := by omega
    obtain ⟨p, hp, hid⟩ := countP_pos_iff.1 hparked
    exact .inr ⟨p, hp, beq_iff_eq.1 hid⟩
  · obtain ⟨row, hrow, hid⟩ := countP_pos_iff.1 hjob
    exact .inl ⟨row, hrow, beq_iff_eq.1 hid⟩

theorem loadJobAt {i : Nat} (hi : i ≤ 1) (ref : JobRef) (href : ref ∈ (r.state (t i)).stored)
    (hid : ref.id = j) (job : DeliveryJob) :
    ∃ message consumer, WebhookBroker.loadJobAt (fun k => r.state (t k)) job ref.messageId
      ref.consumerId = .ok { job with message := some message, listener := some consumer } := by
  have hstored : ∀ k, i ≤ k → k ≤ 6 → ref ∈ (r.state (t k)).stored := by
    intro k hik hk
    refine r.mem_stored (h.mono hik) (h.moment hk).2.2 href fun n hn hn' => ?_
    rw [hid]
    exact h.stored ((h.moment (by omega)).1.trans hn) (hn'.trans (h.moment hk).2.1)
  have hsound : ∀ k ≤ 6, (r.state (t k)).Sound := fun k hk => r.sound (h.moment hk).2.2
  have hkeys : ∀ k l, k ≤ l → l ≤ 6 → _ := fun k l hkl hl =>
    r.keys_subset (h.mono hkl) (h.moment hl).2.2
  obtain ⟨message, hmessage⟩ := getMessageByIDAt_of_stored (fun k => r.state (t k))
    (hsound 2 (by decide)) (hstored 2 (by omega) (by decide))
    (hkeys 2 3 (by decide) (by decide)).2 (hkeys 2 4 (by decide) (by decide)).1
  obtain ⟨consumer, hconsumer⟩ := getConsumerByIDAt_of_stored (fun k => r.state (t k))
    (hsound 5 (by decide)) (hstored 5 (by omega) (by decide)) (hkeys 5 6 (by decide) le_rfl).1
  exact ⟨message, consumer, by rw [WebhookBroker.loadJobAt, hmessage, hconsumer]; rfl⟩

/-- The three outcomes: the job is in `job` at first, it is parked during both statements, or it is
drained between them. -/
theorem cases :
    (∃ row message consumer, (r.state (t 0)).place j = some (.job row) ∧
      getJobByIDAt (fun k => r.state (t k)) j.string =
        .ok { row.toDeliveryJob {} with message := some message, listener := some consumer }) ∨
    (∃ p p' message consumer, (r.state (t 0)).place j = some (.parked p) ∧
      (r.state (t 1)).place j = some (.parked p') ∧
      getJobByIDAt (fun k => r.state (t k)) j.string =
        .ok { p'.toDeliveryJob {} with message := some message, listener := some consumer }) ∨
    ∃ p row, (r.state (t 0)).place j = some (.parked p) ∧
      (r.state (t 1)).place j = some (.job row) ∧
      getJobByIDAt (fun k => r.state (t k)) j.string = .error .noRows := by
  have h0 := (r.sound (h.moment (Nat.zero_le 6)).2.2).integrity
  have h1 := (r.sound (h.moment (show 1 ≤ 6 by decide)).2.2).integrity
  rw [getJobByIDAt]
  cases hjob : (r.state (t 0)).job.find? fun row => sqlLike j.string row.id.string with
  | some row =>
    have hmem := mem_of_find?_eq_some hjob
    have hlike := List.find?_some hjob
    have hid : row.id = j := ((Xid.like_iff _ _).1 hlike).symm
    obtain ⟨message, consumer, hload⟩ := h.loadJobAt (Nat.zero_le 1) row.ref
      (mem_append_left _ (mem_map_of_mem hmem)) hid (row.toDeliveryJob {})
    exact .inl ⟨row, message, consumer, h0.place_eq_job.2 ⟨hmem, hid⟩, hload⟩
  | none =>
    refine .inr ?_
    have hnot : ∀ row ∈ (r.state (t 0)).job, row.id ≠ j := by
      rintro row hrow rfl
      exact List.find?_eq_none.1 hjob row hrow (sqlLike_self _)
    obtain ⟨p, hp, hpid⟩ : ∃ p ∈ (r.state (t 0)).jobParking, p.id = j := by
      rcases (r.state (t 0)).mem_stored_id.1 (h.stored le_rfl (h.moment (Nat.zero_le 6)).2.1) with
        ⟨row, hrow, hid⟩ | hparked
      · exact absurd hid (hnot row hrow)
      · exact hparked
    have hplace0 := h0.place_eq_parked.2 ⟨hp, hpid⟩
    rw [loadParkedJobByIDAt]
    cases hparked : (r.state (t 1)).jobParking.find? fun row => row.id.string == j.string with
    | some p' =>
      have hmem := mem_of_find?_eq_some hparked
      have heq := List.find?_some hparked
      have hid : p'.id = j := Xid.string_injective (beq_iff_eq.1 heq)
      obtain ⟨message, consumer, hload⟩ := h.loadJobAt le_rfl p'.ref
        (mem_append_right _ (mem_map_of_mem hmem)) hid (p'.toDeliveryJob {})
      refine .inl ⟨p, p', message, consumer, hplace0, h1.place_eq_parked.2 ⟨hmem, hid⟩, ?_⟩
      have hload' : WebhookBroker.loadJobAt (fun k => r.state (t k)) (p'.toDeliveryJob {})
          p'.messageId p'.consumerId = _ := hload
      simp only [hload']
    | none =>
      obtain ⟨row, hrow, hid⟩ : ∃ row ∈ (r.state (t 1)).job, row.id = j := by
        rcases (r.state (t 1)).mem_stored_id.1 (h.stored (h.moment (by decide)).1
          (h.moment (by decide)).2.1) with hrow | ⟨p', hp', rfl⟩
        · exact hrow
        · exact absurd (beq_self_eq_true _) (List.find?_eq_none.1 hparked p' hp')
      exact .inr ⟨p, row, hplace0, h1.place_eq_job.2 ⟨hrow, hid⟩, rfl⟩

end JobLookup

/-- In every run of the storage layer, `GetByID` returns a job that is stored all the time, with a
status that it has during the call, if and only if it is not drained between the first two
statements, and `sql.ErrNoRows` otherwise. -/
theorem getByID_finds_job_iff (r : StorageRun) (t : Nat → Nat) (j : Xid) (h : JobLookup r t j) :
    let result := getJobByIDAt (fun k => r.state (t k)) j.string
    (result.isOk = true ↔ ¬ ((∃ p, (r.state (t 0)).place j = some (.parked p)) ∧
      ∃ row, (r.state (t 1)).place j = some (.job row))) ∧
    (∀ job, result = .ok job → job.id = j ∧
      ∃ n place, t 0 ≤ n ∧ n ≤ t 6 ∧ (r.state n).place j = some place ∧ job.status = place.status) ∧
    ∀ err, result = .error err → err = .noRows := by
  intro result
  have h0 := (r.sound (h.moment (Nat.zero_le 6)).2.2).integrity
  have h1 := (r.sound (h.moment (show 1 ≤ 6 by decide)).2.2).integrity
  rcases h.cases with ⟨row, message, consumer, hplace, hok⟩ |
    ⟨p, p', message, consumer, hplace, hplace', hok⟩ | ⟨p, row, hplace, hplace', herr⟩
  · refine ⟨?_, fun job hjob => ?_, fun err herr => ?_⟩
    · simp [result, hok, hplace, Except.isOk, Except.toBool]
    · obtain rfl := Except.ok.inj (hok.symm.trans hjob)
      exact ⟨(h0.place_eq_job.1 hplace).2, t 0, _, le_rfl, (h.moment (Nat.zero_le 6)).2.1, hplace,
        rfl⟩
    · cases hok.symm.trans herr
  · refine ⟨?_, fun job hjob => ?_, fun err herr => ?_⟩
    · simp [result, hok, hplace', Except.isOk, Except.toBool]
    · obtain rfl := Except.ok.inj (hok.symm.trans hjob)
      have hmoment := h.moment (show 1 ≤ 6 by decide)
      exact ⟨(h1.place_eq_parked.1 hplace').2, t 1, _, hmoment.1, hmoment.2.1, hplace', rfl⟩
    · cases hok.symm.trans herr
  · refine ⟨?_, fun job hjob => ?_, fun err herr' => ?_⟩
    · simp [result, herr, hplace, hplace', Except.isOk, Except.toBool]
    · cases herr.symm.trans hjob
    · exact (Except.error.inj (herr.symm.trans herr')).symm

end

/-- Whatever is written, a stored job has its message and its consumer, with their references. -/
theorem stored_job_has_records [NetUrl] (r : StorageRun) {n : Nat} (hn : n ≤ r.len) {job : JobRef}
    (hjob : job ∈ (r.state n).stored) :
    (∃ message ∈ (r.state n).message, message.id = job.messageId ∧ message.status = .dispatched ∧
      message.producerId ∈ (r.state n).producer.map (·.producerId) ∧
      message.channelId ∈ (r.state n).channel.map (·.channelId)) ∧
    ∃ consumer ∈ (r.state n).consumer, consumer.id = job.consumerId ∧
      consumer.channelId ∈ (r.state n).channel.map (·.channelId) := by
  have hsound := r.sound hn
  constructor
  · obtain ⟨message, hmessage, hid, hstatus⟩ := hsound.integrity.dispatched job hjob
    exact ⟨message, hmessage, hid, hstatus, hsound.message_producer message hmessage,
      hsound.message_channel message hmessage⟩
  · obtain ⟨consumer, hconsumer, hid⟩ := mem_map.1 (hsound.jobs job hjob)
    exact ⟨consumer, hconsumer, hid, hsound.consumer_channel consumer hconsumer⟩

/-! ## A job that is drained -/

/-- The records are stored, and the job of the message is parked, drained and handed out. -/
def Sample.parkAndDrainAll : List StorageOp := storeAll ++ parkAndDrain.map .job

def Sample.parkAndDrainRun : @StorageRun netUrl :=
  Run.ofActs {} parkAndDrainAll rfl (by decide +kernel)

theorem Sample.parkAndDrain_lookup {t : Nat → Nat} (hmono : Monotone t) (hfirst : 7 ≤ t 0)
    (hlast : t 6 ≤ 8) : @JobLookup netUrl parkAndDrainRun t jobXid := by
  have honce : ∀ n ∈ [7, 8], (parkAndDrainRun.state n).job.countP (·.id == jobXid) +
      (parkAndDrainRun.state n).jobParking.countP (·.id == jobXid) = 1 := by
    decide +kernel
  refine @JobLookup.mk netUrl _ t _ hmono (hlast.trans (by decide)) fun n hn hn' => honce n ?_
  simp only [mem_cons, not_mem_nil, or_false]
  omega

open Sample

theorem stored_job_has_records_drained :
    ∃ message ∈ (parkAndDrainRun.state 8).message, message.status = .dispatched := by
  obtain ⟨⟨message, hmessage, -, hstatus, -⟩, -⟩ := @stored_job_has_records netUrl
    parkAndDrainRun 8 (by decide)
    ⟨jobXid, messageXid, consumerXid⟩ (by decide +kernel)
  exact ⟨message, hmessage, hstatus⟩

theorem getByID_finds_job_iff_drained :
    (getJobByIDAt (fun _ => parkAndDrainRun.state 8) jobXid.string).isOk = true := by
  have hlookup := @parkAndDrain_lookup (fun _ => 8) monotone_const (by decide) le_rfl
  refine (@getByID_finds_job_iff netUrl parkAndDrainRun (fun _ => 8) jobXid
    hlookup).1.2 ?_
  rintro ⟨⟨p, hp⟩, row, hrow⟩
  cases hp.symm.trans hrow

/-- The job is parked when `job` is read, and it is drained before `job_parking` is read. -/
theorem getByID_misses_drained_job :
    ∃ t : Nat → Nat, @JobLookup netUrl parkAndDrainRun t jobXid ∧
      getJobByIDAt (fun k => parkAndDrainRun.state (t k)) jobXid.string =
        .error .noRows := by
  have hmono : Monotone fun k : Nat => if k = 0 then 7 else 8 := by
    intro a b hab
    dsimp only
    split <;> split <;> omega
  exact ⟨fun k => if k = 0 then 7 else 8, parkAndDrain_lookup hmono le_rfl le_rfl,
    by decide +kernel⟩

end WebhookBroker
