import WebhookBroker.Scheduler.System

/-!
# A scheduled message is created once

The locks of the scheduler time out, so several goroutines may work on one scheduled message at a
time, from batches that are out of date. That only one of them creates a message follows from the
unique key of `message`: all of them insert the channel id and the message id of the scheduled
message, which nothing changes. A goroutine marks the scheduled message only after its own insert.
-/

namespace WebhookBroker

open Lib List

/-- The row of a message carries what the row of the scheduled message does. -/
structure MessageRow.Carries (row : MessageRow) (scheduled : ScheduledMessageRow) : Prop where
  channelId : row.channelId = scheduled.channelId
  producerId : row.producerId = scheduled.producerId
  messageId : row.messageId = scheduled.messageId
  payload : row.payload = scheduled.payload
  contentType : row.contentType = scheduled.contentType
  headers : row.headers = scheduled.headers
  priority : row.priority = scheduled.priority

/-- The channel id and the producer id have no wildcards. -/
def ScheduledMessageRow.isPlain (row : ScheduledMessageRow) : Bool :=
  (row.channelId.toList ++ row.producerId.toList).all fun c => !isWildcard c

section
variable [NetUrl] {limit : Nat} {s s' : SchedulerSys} {a : SchedulerAction} {db db' : Db}

def SchedulerSys.Creates (s : SchedulerSys) (a : SchedulerAction) (s' : SchedulerSys)
    (scheduledID : Xid) (row : MessageRow) : Prop :=
  ∃ t env th message, a = .run t env ∧ s.threads[t]? = some th ∧
    th.position = .inserting message ∧ th.scheduledMsg.id = scheduledID ∧ message.toRow = row ∧
    s'.db.message = s.db.message ++ [row]

def SchedulerRun.Creates (r : SchedulerRun limit) (i : Nat) (scheduledID : Xid)
    (row : MessageRow) : Prop :=
  (r.state i).Creates (r.act i) (r.state (i + 1)) scheduledID row

variable {scheduledID : Xid} {row : MessageRow}

theorem SchedulerGoes.key_of_creates (hg : SchedulerGoes limit s a s')
    (hc : s.Creates a s' scheduledID row) :
    (row.messageId, row.channelId) ∉ s.db.message.map fun m => (m.messageId, m.channelId) := by
  obtain ⟨t, env, th, message, rfl, hth, hpos, -, rfl, hmessage⟩ := hc
  have hne : s'.db.message ≠ s.db.message := by
    rw [hmessage]
    simp
  cases hg with
  | wrote ha => exact absurd rfl (ha t env)
  | scheduled ha => exact absurd rfl (ha t env)
  | ran hth' he =>
    obtain rfl := Option.some.inj (hth.symm.trans hth')
    cases he with
    | quiet | checked | marked => exact absurd rfl hne
    | inserted hpos' hq =>
      cases hpos.symm.trans hpos'
      exact (insertMessage_eq_ok.1 hq).1.2
    | dispatched hpos' => cases hpos.symm.trans hpos'

omit [NetUrl] in
theorem ScheduledMessageRow.LoadedAs.carries {row : ScheduledMessageRow}
    {scheduledMsg : ScheduledMessage} (h : row.LoadedAs scheduledMsg) (hplain : row.isPlain = true)
    {message : Message} (hmade : message.MadeFrom scheduledMsg) : message.toRow.Carries row := by
  obtain ⟨row₀, hsame, channel, producer, hchannel, hproducer, rfl⟩ := h
  have hchars : ∀ c ∈ row.channelId.toList ++ row.producerId.toList, isWildcard c = false := by
    intro c hc
    simpa using all_eq_true.1 hplain c hc
  rw [sqlLike_iff_eq fun c hc => hchars c (mem_append_left _ hc)] at hchannel
  rw [sqlLike_iff_eq fun c hc => hchars c (mem_append_right _ hc)] at hproducer
  refine ⟨?_, ?_, hmade.messageID.trans hsame.messageId.symm,
    hmade.payload.trans hsame.payload.symm, hmade.contentType.trans hsame.contentType.symm,
    hmade.headers.trans hsame.headers.symm, hmade.priority.trans hsame.priority.symm⟩
  · simp only [Message.toRow, Message.getChannelIDSafely, hmade.broadcastedTo]
    exact hchannel.symm
  · simp only [Message.toRow, hmade.producedBy]
    exact hproducer.symm

theorem SchedulerSys.Inv.carries_of_creates (h : s.Inv)
    (hplain : ∀ row ∈ s.db.scheduledMessage, row.isPlain = true)
    (hc : s.Creates a s' scheduledID row) :
    ∃ scheduled ∈ s.db.scheduledMessage, scheduled.id = scheduledID ∧ row.Carries scheduled := by
  obtain ⟨t, env, th, message, -, hth, hpos, rfl, rfl, -⟩ := hc
  have hmem := mem_of_getElem? hth
  obtain ⟨scheduled, hscheduled, hloaded⟩ := h.loaded th hmem
  obtain ⟨hmade, -⟩ := h.made th hmem message (by rw [hpos]; rfl)
  exact ⟨scheduled, hscheduled, hloaded.id.symm,
    hloaded.carries (hplain scheduled hscheduled) hmade⟩

/-- Every row of `message` was there before, with the same key, or has a new id. -/
def Db.MessagesFrom (db db' : Db) : Prop :=
  ∀ m' ∈ db'.message, (∃ m ∈ db.message, m'.id = m.id ∧
    (m'.messageId, m'.channelId) = (m.messageId, m.channelId)) ∨ m'.id ∉ db.message.map (·.id)

omit [NetUrl] in
theorem Db.messagesFrom_of_eq (hsame : db'.message = db.message) : db.MessagesFrom db' :=
  fun m' hm' => .inl ⟨m', hsame ▸ hm', rfl, rfl⟩

omit [NetUrl] in
theorem Db.messagesFrom_append {row : MessageRow} (hid : row.id ∉ db.message.map (·.id))
    (hmessage : db'.message = db.message ++ [row]) : db.MessagesFrom db' := by
  intro m' hm'
  rw [hmessage] at hm'
  rcases mem_append.1 hm' with hm' | hm'
  · exact .inl ⟨m', hm', rfl, rfl⟩
  · rw [mem_singleton.1 hm']
    exact .inr hid

theorem DbEffect.messagesFrom {op : DbOp} (he : DbEffect db op db') : db.MessagesFrom db' := by
  intro m' hm'
  rcases he.mem_message hm' with hm' | ⟨m, hm, now, rfl⟩
  · exact .inl ⟨m', hm', rfl, rfl⟩
  · exact .inl ⟨m, hm, rfl, rfl⟩

theorem StorageEffect.messagesFrom {op : StorageOp} (he : StorageEffect db op db') :
    db.MessagesFrom db' := by
  cases he with
  | job he => exact he.messagesFrom
  | records => exact Db.messagesFrom_of_eq rfl
  | created _ hid _ => exact Db.messagesFrom_append hid rfl

theorem SchedulerGoes.messagesFrom (hg : SchedulerGoes limit s a s') :
    s.db.MessagesFrom s'.db := by
  cases hg with
  | wrote _ he _ => exact he.messagesFrom
  | scheduled _ _ _ hq =>
    obtain ⟨-, -, heq⟩ := insertScheduledMessage_eq_ok.1 hq
    cases heq
    exact Db.messagesFrom_of_eq rfl
  | ticked | crashed => exact Db.messagesFrom_of_eq rfl
  | ran _ he =>
    cases he with
    | quiet | checked | marked => exact Db.messagesFrom_of_eq rfl
    | inserted _ hq =>
      obtain ⟨⟨hid, -⟩, -, heq⟩ := insertMessage_eq_ok.1 hq
      cases heq
      exact Db.messagesFrom_append hid rfl
    | dispatched _ he => exact he.messagesFrom

theorem SchedulerGoes.key_stays (hg : SchedulerGoes limit s a s') (h : s.Inv) {m : MessageRow}
    (hm : m ∈ s.db.message) (hid : m.id ∈ s'.db.message.map (·.id)) :
    ∃ m' ∈ s'.db.message, m'.id = m.id ∧
      (m'.messageId, m'.channelId) = (m.messageId, m.channelId) := by
  obtain ⟨m', hm', heq⟩ := mem_map.1 hid
  rcases hg.messagesFrom m' hm' with ⟨m₀, hm₀, hid₀, hkey⟩ | hnew
  · obtain rfl := inj_on_of_nodup_map h.sound.integrity.messages hm₀ hm (hid₀.symm.trans heq)
    exact ⟨m', hm', heq, hkey⟩
  · rw [heq] at hnew
    exact absurd (mem_map_of_mem hm) hnew

theorem SchedulerRun.key_of_creates (r : SchedulerRun limit) {i : Nat}
    (hc : r.Creates i scheduledID row) {j : Nat} (hij : i < j) (hj : j ≤ r.len)
    (hstays : ∀ k, i < k → k ≤ j → row.id ∈ (r.state k).db.message.map (·.id)) :
    ∃ m ∈ (r.state j).db.message, m.id = row.id ∧
      (m.messageId, m.channelId) = (row.messageId, row.channelId) := by
  induction j, hij using Nat.le_induction with
  | base =>
    obtain ⟨-, -, -, -, -, -, -, -, -, hmessage⟩ := hc
    exact ⟨row, by rw [hmessage]; exact mem_append_right _ mem_cons_self, rfl, rfl⟩
  | succ j hij ih =>
    obtain ⟨m, hm, hid, hkey⟩ := ih (by omega) fun k hk hkj => hstays k hk (by omega)
    have hid' : m.id ∈ (r.state (j + 1)).db.message.map (·.id) := by
      rw [hid]
      exact hstays (j + 1) (by omega) (Nat.le_refl _)
    obtain ⟨m', hm', hmid, hmkey⟩ :=
      (SchedulerSys.step_goes (r.next j hj)).key_stays (r.inv (by omega)) hm hid'
    exact ⟨m', hm', hmid.trans hid, hmkey.trans hkey⟩

theorem SchedulerRun.scheduled_stays (r : SchedulerRun limit) {i j : Nat} (hij : i ≤ j)
    (hj : j ≤ r.len) : (r.state i).db.KeepsScheduled (r.state j).db := by
  induction j, hij using Nat.le_induction with
  | base => exact Db.keepsScheduled_of_eq rfl
  | succ j hij ih =>
    intro row hrow
    obtain ⟨row', hrow', hsame⟩ := ih (by omega) row hrow
    obtain ⟨row'', hrow'', hsame'⟩ := (SchedulerSys.step_goes (r.next j hj)).keeps row' hrow'
    exact ⟨row'', hrow'', hsame.trans hsame'⟩

/-- What is marked, or about to be marked, was created. -/
structure SchedulerSys.MarkedOnly (s : SchedulerSys) (created : Xid → Prop) : Prop where
  rows : ∀ row ∈ s.db.scheduledMessage, row.status = .dispatched → created row.id
  threads : ∀ th ∈ s.threads, ∀ message, th.position = .marking message →
    created th.scheduledMsg.id

omit [NetUrl] in
theorem SchedulerSys.MarkedOnly.mono {created created' : Xid → Prop} (h : s.MarkedOnly created)
    (himp : ∀ id, created id → created' id) : s.MarkedOnly created' where
  rows row hrow hstatus := himp _ (h.rows row hrow hstatus)
  threads th hth message hpos := himp _ (h.threads th hth message hpos)

omit [NetUrl] in
theorem SchedulerSys.MarkedOnly.threads_set {created : Xid → Prop} (h : s.MarkedOnly created)
    {t : Nat} {th : ScheduledDispatch} {p : SchedulerPosition}
    (hp : ∀ message, p = .marking message → created th.scheduledMsg.id) :
    ∀ th' ∈ s.threads.set t { th with position := p }, ∀ message,
      th'.position = .marking message → created th'.scheduledMsg.id := by
  intro th' hth' message hpos
  rcases mem_or_eq_of_mem_set hth' with hth' | rfl
  · exact h.threads th' hth' message hpos
  · exact hp message hpos

/-- The rows that a goroutine marks are those of the scheduled message it has created a row for. -/
theorem SchedulerGoes.markedOnly (hg : SchedulerGoes limit s a s') {created : Xid → Prop}
    (h : s.MarkedOnly created) :
    s'.MarkedOnly fun id => created id ∨ ∃ row, s.Creates a s' id row := by
  have hold : s.MarkedOnly fun id => created id ∨ ∃ row, s.Creates a s' id row :=
    h.mono fun _ => .inl
  cases hg with
  | wrote _ he _ => exact ⟨he.scheduledMessage ▸ hold.rows, hold.threads⟩
  | scheduled _ _ hstatus hq =>
    obtain ⟨-, -, heq⟩ := insertScheduledMessage_eq_ok.1 hq
    cases heq
    refine ⟨fun row hrow hdispatched => ?_, hold.threads⟩
    rcases mem_append.1 hrow with hrow | hrow
    · exact hold.rows row hrow hdispatched
    · rw [mem_singleton.1 hrow] at hdispatched
      cases hstatus.symm.trans hdispatched
  | ticked =>
    refine ⟨hold.rows, fun th hth message hpos => ?_⟩
    rcases mem_append.1 hth with hth | hth
    · exact hold.threads th hth message hpos
    · obtain ⟨m, -, rfl⟩ := mem_map.1 hth
      cases hpos
  | crashed => exact ⟨hold.rows, hold.threads_set fun _ hp => SchedulerPosition.noConfusion hp⟩
  | @ran t env th db p hth he =>
    cases he with
    | quiet hp =>
      refine ⟨hold.rows, hold.threads_set fun message hmarking => ?_⟩
      rw [hmarking] at hp
      cases hp
    | checked => exact ⟨hold.rows, hold.threads_set fun _ hp => SchedulerPosition.noConfusion hp⟩
    | @inserted message _ hpos hq =>
      obtain ⟨-, -, heq⟩ := insertMessage_eq_ok.1 hq
      cases heq
      refine ⟨hold.rows, hold.threads_set fun _ _ => .inr ⟨message.toRow, ?_⟩⟩
      exact ⟨t, env, th, message, rfl, hth, hpos, rfl, rfl, rfl⟩
    | marked hpos =>
      refine ⟨fun row hrow hdispatched => ?_,
        hold.threads_set fun _ hp => SchedulerPosition.noConfusion hp⟩
      obtain ⟨row, hmem, rfl⟩ := mem_updateWhere.1 hrow
      split at hdispatched
      · rename_i hid
        rw [if_pos hid]
        have hcreated := hold.threads th (mem_of_getElem? hth) _ hpos
        rwa [← eq_of_beq hid] at hcreated
      · rename_i hid
        rw [if_neg hid]
        exact hold.rows row hmem hdispatched
    | dispatched _ he =>
      exact ⟨he.scheduledMessage ▸ hold.rows,
        hold.threads_set fun _ hp => SchedulerPosition.noConfusion hp⟩

theorem SchedulerRun.markedOnly (r : SchedulerRun limit) : ∀ n ≤ r.len,
    (r.state n).MarkedOnly fun id => ∃ i < n, ∃ row, r.Creates i id row := by
  intro n
  induction n with
  | zero =>
    obtain ⟨-, hscheduled, hthreads⟩ := r.start
    intro _
    refine ⟨?_, ?_⟩
    · rw [hscheduled]
      exact fun _ hrow => absurd hrow not_mem_nil
    · rw [hthreads]
      exact fun _ hth => absurd hth not_mem_nil
  | succ n ih =>
    intro hn
    refine ((SchedulerSys.step_goes (r.next n hn)).markedOnly (ih (by omega))).mono ?_
    rintro id (⟨i, hi, hc⟩ | hc)
    · exact ⟨i, Nat.lt_succ_of_lt hi, hc⟩
    · exact ⟨n, Nat.lt_succ_self n, hc⟩

/-! ## At most one row -/

/-- A second row is created for a scheduled message only after the first one was removed; a created
row carries what the scheduled message does; and a scheduled message is `DISPATCHED` only if a row
was created for it. -/
theorem scheduled_message_created_once (r : SchedulerRun limit)
    (hplain : ∀ n ≤ r.len, ∀ row ∈ (r.state n).db.scheduledMessage, row.isPlain = true) :
    (∀ i j, i < j → j < r.len → ∀ id row row', r.Creates i id row → r.Creates j id row' →
      ∃ k, i < k ∧ k ≤ j ∧ row.id ∉ (r.state k).db.message.map (·.id)) ∧
    (∀ i < r.len, ∀ id row, r.Creates i id row →
      ∃ scheduled ∈ (r.state i).db.scheduledMessage, scheduled.id = id ∧ row.Carries scheduled) ∧
    ∀ n ≤ r.len, ∀ scheduled ∈ (r.state n).db.scheduledMessage, scheduled.status = .dispatched →
      ∃ i < n, ∃ row, r.Creates i scheduled.id row := by
  have hcarries : ∀ i < r.len, ∀ id row, r.Creates i id row →
      ∃ scheduled ∈ (r.state i).db.scheduledMessage, scheduled.id = id ∧ row.Carries scheduled :=
    fun i hi id row hc =>
      (r.inv (Nat.le_of_lt hi)).carries_of_creates (hplain i (Nat.le_of_lt hi)) hc
  refine ⟨fun i j hij hj id row row' hc hc' => ?_, hcarries, fun n hn => (r.markedOnly n hn).rows⟩
  by_contra hremoved
  have hstays : ∀ k, i < k → k ≤ j → row.id ∈ (r.state k).db.message.map (·.id) := by
    intro k hik hkj
    by_contra hgone
    exact hremoved ⟨k, hik, hkj, hgone⟩
  obtain ⟨m, hm, -, hkey⟩ := r.key_of_creates hc hij (Nat.le_of_lt hj) hstays
  obtain ⟨scheduled, hscheduled, hid, hrow⟩ := hcarries i (by omega) id row hc
  obtain ⟨scheduled', hscheduled', hid', hrow'⟩ := hcarries j hj id row' hc'
  obtain ⟨later, hlater, hsame⟩ :=
    r.scheduled_stays (Nat.le_of_lt hij) (Nat.le_of_lt hj) scheduled hscheduled
  have heq : later = scheduled' :=
    inj_on_of_nodup_map (r.inv (Nat.le_of_lt hj)).scheduled.ids hlater hscheduled'
      ((hsame.id.trans hid).trans hid'.symm)
  rw [heq] at hsame
  refine (SchedulerSys.step_goes (r.next j hj)).key_of_creates hc' (mem_map.2 ⟨m, hm, ?_⟩)
  rw [hkey, hrow.messageId, hrow.channelId, hrow'.messageId, hrow'.channelId, hsame.messageId,
    hsame.channelId]

end

/-- The goroutine locks, finds no message, inserts it and marks the scheduled message. -/
def Sample.createScheduled : List SchedulerAction :=
  scheduleAndTick ++ List.replicate 4 (.run 0 schedulerEnv)

def Sample.createScheduledRun : @SchedulerRun netUrl 1 :=
  Run.ofActs ⟨schedulerDb, []⟩ createScheduled schedulerDb_isInitial (by decide +kernel)

open Sample

theorem scheduled_message_created_once_one :
    ∃ i < 6, ∃ row, @SchedulerRun.Creates netUrl 1 createScheduledRun i
      jobXid row := by
  have hplain : ∀ n ≤ 6, ∀ row ∈ (createScheduledRun.state n).db.scheduledMessage,
      row.isPlain = true := by decide +kernel
  have hmarked : ∃ row ∈ (createScheduledRun.state 6).db.scheduledMessage,
      row.status = .dispatched ∧ row.id = jobXid := by decide +kernel
  have hlen : createScheduledRun.len = 6 := rfl
  generalize createScheduledRun = r at *
  obtain ⟨row, hrow, hstatus, hid⟩ := hmarked
  rw [← hid]
  exact (@scheduled_message_created_once netUrl 1 r (hlen ▸ hplain)).2.2 6
    (Nat.le_of_eq hlen.symm) row hrow hstatus

end WebhookBroker
