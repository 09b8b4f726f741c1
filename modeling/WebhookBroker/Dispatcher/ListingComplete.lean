import WebhookBroker.Dispatcher.CreateJobs
import WebhookBroker.Storage.Listing

/-!
# What the listings of the dispatcher miss

`createJobs` lists the consumers of a channel in pages of 25, the passes that retry and recover list
jobs and messages in pages of 100, and the prune pass lists the messages it removes in the same way.
All of them continue after the last row of a page with the rows that have a smaller id. They see
every row if and only if the ids descend across the ends of the pages.
-/

namespace WebhookBroker

open Lib List

def ConsumerRow.key (row : ConsumerRow) : String × Time := (row.id.string, row.createdAt)

section
variable {db : Db} {channelID : String} {channel : Channel}

theorem getConsumerList_eq (hchannel : getChannel db channelID = .ok channel)
    (cursor : Option Cursor) :
    getConsumerList db channelID { next := cursor } =
      let rows := consumerPage db channelID { next := cursor }
      (rows.map (·.toConsumer channel),
        { next := rows.getLast?.map (cursorOf ConsumerRow.key)
          previous := rows.head?.map (cursorOf ConsumerRow.key) }, none) := by
  have hcursor : ∀ row : ConsumerRow,
      (row.toConsumer channel).toBasePaginateable.getCursor = cursorOf ConsumerRow.key row :=
    fun _ => rfl
  simp only [getConsumerList, hchannel, Option.isSome_none, Bool.and_false, Bool.false_eq_true,
    if_false, Prod.mk.injEq, true_and, and_true]
  cases h : consumerPage db channelID { next := cursor } with
  | nil => rfl
  | cons row rows =>
    rw [if_neg (by simp), newPagination, List.getLast?_map, List.head?_map]
    simp only [Option.map_map, Function.comp_def, hcursor]

theorem listConsumers_eq_walk (hids : (db.consumer.map (·.id)).Nodup)
    (hchannel : getChannel db channelID = .ok channel) (n : Nat) (cursor : Option ConsumerRow) :
    listConsumers db channelID n { next := cursor.map (cursorOf ConsumerRow.key) } =
      ((Paging.walk (isBeyond ConsumerRow.key) 25 none
        (inOrder ConsumerRow.key (db.consumer.filter fun row => sqlLike channelID row.channelId))
        n [] cursor).map (·.toConsumer channel), none) := by
  induction n generalizing cursor with
  | zero => rfl
  | succ n ih =>
    have hpage : consumerPage db channelID { next := cursor.map (cursorOf ConsumerRow.key) } =
        (Paging.rest (isBeyond ConsumerRow.key) (inOrder ConsumerRow.key
          (db.consumer.filter fun row => sqlLike channelID row.channelId)) cursor).take 25 :=
      pageQuery_eq (nodup_filter_ids hids fun row => sqlLike channelID row.channelId) 25 cursor
    rw [listConsumers, getConsumerList_eq hchannel, hpage, Paging.walk_eq]
    generalize (Paging.rest (isBeyond ConsumerRow.key) (inOrder ConsumerRow.key
      (db.consumer.filter fun row => sqlLike channelID row.channelId)) cursor).take 25 = rows
    cases hlast : rows.getLast? with
    | none =>
      rw [List.getLast?_eq_none_iff.1 hlast]
      rfl
    | some last =>
      have hnext := ih (some last)
      rw [Option.map_some] at hnext
      simp only [hlast, Option.map_some, Option.isSome_some, Option.isNone_none, Bool.and_self,
        if_true, Option.any_none, Bool.false_eq_true, if_false, nil_append, hnext]
      rw [Paging.walk_eq_append n rows, map_append]

/-- `createJobs` sees every consumer that its query matches if and only if the ids descend across
the ends of the pages of 25. -/
theorem listConsumers_complete (hids : (db.consumer.map (·.id)).Nodup)
    (hchannel : getChannel db channelID = .ok channel) :
    (∀ row ∈ db.consumer, sqlLike channelID row.channelId = true →
      row.id.string ∈ (listConsumers db channelID (db.consumer.length + 1)
        (newPagination none none)).1.map (·.id.string)) ↔
    PagesDescend ConsumerRow.key 25 none
      (db.consumer.filter fun row => sqlLike channelID row.channelId) := by
  have hnodup := nodup_filter_ids hids fun row => sqlLike channelID row.channelId
  rw [← id_mem_followNext_iff hnodup (by decide) none (fun _ => rfl)
      (Nat.lt_succ_of_le (length_filter_le _ db.consumer)),
    show newPagination none none = { next := Option.map (cursorOf ConsumerRow.key) none } from rfl,
    listConsumers_eq_walk hids hchannel, followNext_eq_walk hnodup 25 none fun _ => rfl]
  simp only [mem_filter, and_imp, map_map]
  rfl

end

/-- In tables with distinct ids that do not change, and while the clock readings do not change which
rows match, each listing of the dispatcher and of the prune scan returns every matching row if and
only if the ids descend across the ends of its pages. -/
theorem listings_see_every_row_iff (db : Db) (hconsumer : (db.consumer.map (·.id)).Nodup)
    (hjob : (db.job.map (·.id)).Nodup) (hmessage : (db.message.map (·.id)).Nodup) :
    (∀ channelID channel, getChannel db channelID = .ok channel →
      ((∀ row ∈ db.consumer, sqlLike channelID row.channelId = true →
        row.id.string ∈ (listConsumers db channelID (db.consumer.length + 1)
          (newPagination none none)).1.map (·.id.string)) ↔
      PagesDescend ConsumerRow.key 25 none
        (db.consumer.filter fun row => sqlLike channelID row.channelId))) ∧
    (∀ (now : Nat → Time) (jobQuery : JobRow → Bool) status delta useStatusChangedAt,
      (∀ i, ∀ row ∈ db.job,
        isForStatusAndDelta jobQuery status delta useStatusChangedAt (now i) row =
          isForStatusAndDelta jobQuery status delta useStatusChangedAt (now 0) row) →
      ((∀ row ∈ db.job,
        isForStatusAndDelta jobQuery status delta useStatusChangedAt (now 0) row = true →
        row.id.string ∈ (getJobsForStatusAndDeltaWithCustomQuery db now jobQuery status delta
          useStatusChangedAt).map (·.id.string)) ↔
      PagesDescend JobRow.key 100 none
        (db.job.filter (isForStatusAndDelta jobQuery status delta useStatusChangedAt (now 0))))) ∧
    (∀ now delta,
      ((∀ row ∈ db.message, isNotDispatchedSince now delta row = true →
        row.id.string ∈ (getMessagesNotDispatchedForCertainPeriod db now delta).map
          (·.id.string)) ↔
      PagesDescend MessageRow.key 100 none
        (db.message.filter (isNotDispatchedSince now delta)))) ∧
    (∀ now delta absoluteMaxMessages,
      ((∀ row ∈ db.message, isCompletelyDelivered db now delta row = true →
        row.id.string ∈ (getMessagesFromBeforeDurationThatAreCompletelyDelivered db now delta
          absoluteMaxMessages).map (·.id.string)) ↔
      PagesDescend MessageRow.key 100 (some absoluteMaxMessages)
        (db.message.filter (isCompletelyDelivered db now delta)))) ∧
    (∀ {ρ : Type} (key : ρ → String × Time) (rows : List ρ), (rows.map fun r => (key r).1).Nodup →
      ∀ limit > 0, ∀ n > rows.length,
      ((∀ r ∈ rows,
        r ∈ followNext key limit none (fun _ => rows) n 0 [] (newPagination none none)) ↔
      PagesDescend key limit none rows)) := by
  refine ⟨fun channelID channel hchannel => listConsumers_complete hconsumer hchannel,
    fun now jobQuery status delta useStatusChangedAt hsame =>
      getJobsForStatusAndDelta_complete hjob hsame,
    fun now delta => messages_complete hmessage (isNotDispatchedSince now delta) none,
    fun now delta absoluteMaxMessages =>
      messages_complete hmessage (isCompletelyDelivered db now delta) (some absoluteMaxMessages),
    fun key rows hids limit hlimit n hn => mem_followNext_iff hids hlimit none (fun _ => rfl) hn⟩

/-! ## Twenty-six consumers -/

namespace Sample

def xid (i : Fin 32) : Xid where
  string := String.ofList (List.replicate 19 '0' ++ [xidDigit i])
  length := by rw [String.length_ofList, length_append, length_replicate]; rfl
  chars := by
    intro c hc
    rw [String.toList_ofList, mem_append, mem_singleton] at hc
    rcases hc with hc | rfl
    · rw [eq_of_mem_replicate hc]
      decide
    · exact isXidChar_xidDigit i

theorem xid_string_injective : Function.Injective fun i => (xid i).string := by
  intro i j h
  have hlist := String.ofList_injective h
  rw [append_cancel_left_eq, List.cons.injEq] at hlist
  exact xidDigit_inj i j hlist.1

/-- A channel with 26 consumers; `createdAt i` is the creation time of the `i`-th id. -/
def twoPages (createdAt : Fin 32 → Time) : Db where
  channel := [channelRow channelXid "c"]
  consumer := ((List.finRange 32).take 26).map fun i =>
    { consumerRow "c" with id := xid i, consumerId := (xid i).string, createdAt := createdAt i }

/-- A column that tells the ids apart is a key. -/
theorem twoPages_nodup {κ : Type} (createdAt : Fin 32 → Time) {key : ConsumerRow → κ}
    (hkey : Function.Injective fun i => key { consumerRow "c" with
      id := xid i, consumerId := (xid i).string, createdAt := createdAt i }) :
    ((twoPages createdAt).consumer.map key).Nodup := by
  rw [twoPages, map_map]
  exact List.Nodup.map hkey ((nodup_finRange 32).sublist (take_sublist 26 _))

theorem twoPages_ids (createdAt : Fin 32 → Time) :
    ((twoPages createdAt).consumer.map (·.id)).Nodup :=
  twoPages_nodup createdAt fun _ _ h => xid_string_injective (congrArg Xid.string h)

theorem twoPages_channelKeys (createdAt : Fin 32 → Time) : (twoPages createdAt).ChannelKeys where
  channel_id := nodup_singleton _
  channel_channelId := nodup_singleton _
  consumer_id := twoPages_ids createdAt
  consumer_consumerId := twoPages_nodup createdAt fun _ _ h =>
    xid_string_injective (congrArg Prod.fst h)
  consumer_channelId row hrow := by
    obtain ⟨i, -, rfl⟩ := mem_map.1 hrow
    exact mem_singleton_self _

end Sample

open Sample

theorem listings_see_every_row_iff_two_pages :
    ((twoPages fun i => i.val).consumer.map (·.id)).Nodup ∧
    PagesDescend ConsumerRow.key 25 none
      ((twoPages fun i => i.val).consumer.filter fun row => sqlLike "c" row.channelId) := by
  have hids := twoPages_ids fun i => i.val
  refine ⟨hids, ?_⟩
  have h := listings_see_every_row_iff (twoPages fun i => i.val) hids nodup_nil
    nodup_nil
  exact (h.1 "c" _ rfl).1 (by decide +kernel)

/-- The consumer with the greatest id is the oldest one, and `createJobs` makes a job for each of
the other 25. -/
theorem create_jobs_misses_consumer :
    (twoPages fun i => if i = 25 then 1 else 2).ChannelKeys ∧
    message.isInValidState = true ∧
    xid 25 ∈ (twoPages fun i => if i = 25 then 1 else 2).consumer.map (·.id) ∧
    (@createJobs netUrl (fun _ => second) (fun _ => jobXid)
      (twoPages fun i => if i = 25 then 1 else 2) message).2 = none ∧
    (@createJobs netUrl (fun _ => second) (fun _ => jobXid)
      (twoPages fun i => if i = 25 then 1 else 2) message).1.length = 25 ∧
    (xid 25).string ∉ (listConsumers (twoPages fun i => if i = 25 then 1 else 2)
      message.broadcastedToID 27 (newPagination none none)).1.map (·.id.string) := by
  refine ⟨twoPages_channelKeys _, ?_⟩
  decide +kernel

end WebhookBroker
