import WebhookBroker.Storage.Query

/-!
# Creating the jobs of a message (`dispatcher/msgdispatcher.go`)

`createJobs` lists the consumers of the message's channel page by page and makes a job for each. The
list is the one of `GetList`, which finds the consumers by `channelId like ?`, with the channel id
as the pattern. So a channel id without `%` and `_` finds its own consumers only, and a channel id
with one of them finds those of every channel whose id matches.
-/

namespace WebhookBroker

open Lib List

/-- The loop of `createJobs` over the pages of consumers, for at most `n` rounds. -/
def listConsumers (db : Db) (channelID : String) :
    Nat → Pagination → List Consumer × Option StorageErr
  | 0, _ => ([], none)
  | n + 1, page =>
    let (consumersPage, page, err) := getConsumerList db channelID page
    if page.next.isSome && err.isNone then
      let (consumers, err) := listConsumers db channelID n { page with previous := none }
      (consumersPage ++ consumers, err)
    else (consumersPage, err)

section
variable [NetUrl] (now : Nat → Time) (newID : Nat → Xid)

/-- The loop of `createJobs` over the consumers, from the one at `index` on. Once there is an error,
the jobs stay `nil`. -/
def buildJobs (message : Message) :
    Nat → Option StorageErr → List Consumer → List (Option DeliveryJob) × Option StorageErr
  | _, err, [] => ([], err)
  | index, some err, _ :: consumers =>
    let (jobs, err) := buildJobs message (index + 1) (some err) consumers
    (none :: jobs, err)
  | index, none, consumer :: consumers =>
    let (job, valid) := newDeliveryJob (now index) (newID index) message consumer
    let err := if valid then none else some .insufficientInformationForCreating
    let (jobs, err) := buildJobs message (index + 1) err consumers
    (some job :: jobs, err)

/-- The channel id of a message's channel. A message without channel panics in `createJobs`, but
`Dispatch` calls it for valid messages only. -/
def Message.broadcastedToID (message : Message) : String :=
  (message.broadcastedTo.map (·.channelID)).getD ""

def createJobs (db : Db) (message : Message) : List (Option DeliveryJob) × Option StorageErr :=
  let (consumers, err) := listConsumers db message.broadcastedToID (db.consumer.length + 1)
    (newPagination none none)
  buildJobs now newID message 0 err consumers

theorem createJobs_eq (db : Db) (message : Message) :
    createJobs now newID db message =
      buildJobs now newID message 0
        (listConsumers db message.broadcastedToID (db.consumer.length + 1)
          (newPagination none none)).2
        (listConsumers db message.broadcastedToID (db.consumer.length + 1)
          (newPagination none none)).1 := rfl

end

/-! ## The consumers that get a job -/

structure Db.ChannelKeys (db : Db) : Prop where
  channel_id : (db.channel.map (·.id)).Nodup
  channel_channelId : (db.channel.map (·.channelId)).Nodup
  consumer_id : (db.consumer.map (·.id)).Nodup
  consumer_consumerId : (db.consumer.map fun row => (row.consumerId, row.channelId)).Nodup
  /-- `channelConsumerRef` -/
  consumer_channelId : ∀ row ∈ db.consumer, row.channelId ∈ db.channel.map (·.channelId)

theorem mem_listConsumers {db : Db} {channelID : String} {n : Nat} {page : Pagination}
    {consumer : Consumer} (h : consumer ∈ (listConsumers db channelID n page).1) :
    ∃ row ∈ db.consumer, sqlLike channelID row.channelId = true ∧ consumer.id = row.id := by
  have hpage : ∀ {page : Pagination} {consumer : Consumer},
      consumer ∈ (getConsumerList db channelID page).1 →
      ∃ row ∈ db.consumer, sqlLike channelID row.channelId = true ∧ consumer.id = row.id := by
    intro page consumer hmem
    unfold getConsumerList at hmem
    split at hmem
    · cases hmem
    · split at hmem
      · cases hmem
      · obtain ⟨row, hrow, rfl⟩ := mem_map.1 hmem
        obtain ⟨hrow, -⟩ := mem_pageQuery hrow
        obtain ⟨hrow, hlike⟩ := mem_filter.1 hrow
        exact ⟨row, hrow, hlike, rfl⟩
  induction n generalizing page with
  | zero => cases h
  | succ n ih =>
    have hfirst := @hpage page
    rw [listConsumers] at h
    cases hlist : getConsumerList db channelID page with
    | mk consumersPage rest =>
      rw [hlist] at h hfirst
      obtain ⟨page', err⟩ := rest
      simp only at h
      split at h
      · rcases mem_append.1 h with h | h
        · exact hfirst h
        · exact ih h
      · exact hfirst h

section
variable [NetUrl] {now : Nat → Time} {newID : Nat → Xid}

theorem mem_buildJobs {message : Message} {index : Nat} {err : Option StorageErr}
    {consumers : List Consumer} {job : DeliveryJob}
    (h : some job ∈ (buildJobs now newID message index err consumers).1) :
    ∃ consumer ∈ consumers, job.listener = some consumer := by
  induction consumers generalizing index err with
  | nil =>
    cases err <;> cases h
  | cons consumer consumers ih =>
    have hrest : ∀ {index err}, some job ∈ (buildJobs now newID message index err consumers).1 →
        ∃ consumer' ∈ consumer :: consumers, job.listener = some consumer' := by
      intro index err hmem
      obtain ⟨consumer', hin, heq⟩ := ih hmem
      exact ⟨consumer', mem_cons_of_mem _ hin, heq⟩
    cases err with
    | some err =>
      rcases mem_cons.1 h with hjob | h
      · cases hjob
      · exact hrest h
    | none =>
      rcases mem_cons.1 h with hjob | h
      · cases hjob
        exact ⟨consumer, mem_cons_self, rfl⟩
      · exact hrest h

/-- The jobs of a message are only for consumers of its own channel. -/
def Db.buildsOwnJobs (now : Nat → Time) (newID : Nat → Xid) (db : Db) (message : Message) : Prop :=
  ∀ job, some job ∈ (createJobs now newID db message).1 → ∀ row ∈ db.consumer,
    job.listener.map (·.id) = some row.id → row.channelId = message.broadcastedToID

theorem buildsOwnJobs_of_no_wildcard {message : Message}
    (h : ∀ c ∈ message.broadcastedToID.toList, isWildcard c = false) {db : Db}
    (hkeys : db.ChannelKeys) : db.buildsOwnJobs now newID message := by
  intro job hjob row hrow hid
  rw [createJobs_eq] at hjob
  obtain ⟨consumer, hmem, hlistener⟩ := mem_buildJobs hjob
  obtain ⟨row', hrow', hlike, hid'⟩ := mem_listConsumers hmem
  rw [hlistener, Option.map_some, hid'] at hid
  have heq : row' = row :=
    inj_on_of_nodup_map hkeys.consumer_id hrow' hrow (Option.some.inj hid)
  rw [← heq]
  exact ((sqlLike_iff_eq h row'.channelId).1 hlike).symm

end

/-! ## Channel ids with wildcards -/

namespace Sample

def channelRow (id : Xid) (channelID : String) : ChannelRow := ⟨id, channelID, "n", "t", 1, 1⟩

def consumerRow (channelID : String) : ConsumerRow :=
  ⟨consumerXid, "d", "d", "t", "u", channelID, .push, 1, 1⟩

def twoChannels (channelID other : String) : Db where
  channel := [channelRow channelXid channelID, channelRow producerXid other]
  consumer := [consumerRow other]

theorem twoChannels_keys {channelID other : String} (h : other ≠ channelID) :
    (twoChannels channelID other).ChannelKeys where
  channel_id := by
    have hne : channelXid ≠ producerXid := by decide
    simpa [twoChannels, channelRow] using hne
  channel_channelId := by
    simpa [twoChannels, channelRow] using h.symm
  consumer_id := nodup_singleton _
  consumer_consumerId := nodup_singleton _
  consumer_channelId row hrow := by
    rw [mem_singleton.1 hrow]
    exact mem_cons_of_mem _ mem_cons_self

theorem listConsumers_twoChannels {channelID other : String} (h : sqlLike channelID other = true) :
    listConsumers (twoChannels channelID other) channelID 2 (newPagination none none) =
      ([(consumerRow other).toConsumer (channelRow channelXid channelID).toChannel], none) := by
  have hother : sqlLike channelID (consumerRow other).channelId = true := h
  have hown : sqlLike channelID (channelRow channelXid channelID).channelId = true :=
    sqlLike_self channelID
  simp [listConsumers, getConsumerList, getChannel, consumerPage, pageQuery, Pagination.covers,
    newPagination, twoChannels, hother, hown, ConsumerRow.toConsumer, BasePaginateable.getCursor,
    idLess_irrefl]

end Sample

open Sample

/-- For a message, `createJobs` makes jobs only for consumers of the message's channel, whatever the
tables hold, if and only if the channel id has no `%` and no `_`. -/
theorem builds_own_jobs_iff_no_wildcard [NetUrl] (now : Nat → Time) (newID : Nat → Xid)
    (message : Message) :
    (∀ db : Db, db.ChannelKeys → db.buildsOwnJobs now newID message) ↔
      ∀ c ∈ message.broadcastedToID.toList, isWildcard c = false := by
  refine ⟨fun h c hc => ?_, fun h db hkeys => buildsOwnJobs_of_no_wildcard h hkeys⟩
  by_contra hw
  obtain ⟨other, hne, hlike⟩ := exists_ne_sqlLike ⟨c, hc, Bool.not_eq_false _ ▸ hw⟩
  have hown := h (twoChannels message.broadcastedToID other) (twoChannels_keys hne)
  rw [Db.buildsOwnJobs, createJobs_eq,
    show (twoChannels message.broadcastedToID other).consumer.length + 1 = 2 from rfl,
    listConsumers_twoChannels hlike] at hown
  exact hne (hown _ mem_cons_self _ mem_cons_self rfl)

def Sample.wildcardMessage : Message :=
  { message with broadcastedTo := some { channel with channelID := "a_c" } }

theorem job_for_consumer_of_other_channel :
    (twoChannels "a_c" "abc").ChannelKeys ∧
    wildcardMessage.isInValidState = true ∧
    (@createJobs netUrl (fun _ => second) (fun _ => jobXid)
      (twoChannels "a_c" "abc") wildcardMessage).2 = none ∧
    ¬ @Db.buildsOwnJobs netUrl (fun _ => second) (fun _ => jobXid)
      (twoChannels "a_c" "abc") wildcardMessage := by
  let _ := netUrl
  refine ⟨twoChannels_keys (by decide), by decide, by decide +kernel, fun hown => ?_⟩
  let job := (newDeliveryJob second jobXid wildcardMessage
    ((consumerRow "abc").toConsumer
      (channelRow channelXid "a_c").toChannel)).1
  have hjob : some job ∈ (createJobs (fun _ => second) (fun _ => jobXid)
      (twoChannels "a_c" "abc") wildcardMessage).1 := by
    decide +kernel
  have heq : "abc" = "a_c" := hown job hjob (consumerRow "abc") mem_cons_self rfl
  exact absurd heq (by decide)

end WebhookBroker
