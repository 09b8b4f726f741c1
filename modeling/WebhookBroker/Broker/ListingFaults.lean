import WebhookBroker.Broker.Recoverable

/-!
# Listings that break off (`storage/rdbms.go`, `storage/consumerrepo.go`)

`queryRows` reads a result row by row. An error of `Query` or of a `Scan` is returned, but when the
stream breaks off, `rows.Next` returns false as it does after the last row, and `rows.Err` is not
asked. `GetList` then returns a page that is too short, or an empty one, without an error, and the
loop of `createJobs` takes an empty page for the end of the list. `Dispatch` marks the message as
dispatched, and the consumers after the break get no job. After a page that is too short the loop
goes on from its last row: whether that does damage depends on where the page was cut.
-/

namespace WebhookBroker

open Lib List

/-! ## Queries with faults -/

/-- What becomes of the rows of a query. -/
inductive ResultStream where
  | complete
  /-- `Query` returns an error -/
  | queryFails (err : StorageErr)
  /-- the `Scan` of a row returns an error -/
  | scanFails (row : Nat) (err : StorageErr)
  /-- after so many rows `Next` returns false, and `Err` would return an error -/
  | breaksOff (rows : Nat)
deriving DecidableEq

/-- `queryRows`: the rows that were scanned, and the error. -/
def queryRows {ρ : Type} (stream : ResultStream) (rows : List ρ) : List ρ × Option StorageErr :=
  match stream with
  | .complete => (rows, none)
  | .queryFails err => ([], some err)
  | .scanFails row err => if row < rows.length then (rows.take row, some err) else (rows, none)
  | .breaksOff n => (rows.take n, none)

/-- The faults of one call of `GetList`: in the lookup of the channel, and in the listing. -/
structure ListingFault where
  channel : Option StorageErr := none
  stream : ResultStream := .complete

/-- `GetList` of the consumer repository. -/
def getConsumerListWith (fault : ListingFault) (db : Db) (channelID : String) (page : Pagination) :
    List Consumer × Pagination × Option StorageErr :=
  if page.next.isSome && page.previous.isSome then
    ([], {}, some .paginationDeadlock)
  else
    match fault.channel, getChannel db channelID with
    | some e, _ | none, .error e => ([], {}, some e)
    | none, .ok channel =>
      let (rows, err) := queryRows fault.stream (consumerPage db channelID page)
      let consumers := rows.map (·.toConsumer channel)
      let pagination := if err.isSome || consumers.isEmpty then {} else
        newPagination (consumers.getLast?.map (·.toBasePaginateable))
          (consumers.head?.map (·.toBasePaginateable))
      (consumers, pagination, err)

/-- The loop of `createJobs` over the pages of consumers, for at most `n` rounds, the first of which
is round `i`. -/
def listConsumersWith (faults : Nat → ListingFault) (db : Db) (channelID : String) :
    Nat → Nat → Pagination → List Consumer × Option StorageErr
  | 0, _, _ => ([], none)
  | n + 1, i, page =>
    let (consumersPage, page, err) := getConsumerListWith (faults i) db channelID page
    if page.next.isSome && err.isNone then
      let (consumers, err) :=
        listConsumersWith faults db channelID n (i + 1) { page with previous := none }
      (consumersPage ++ consumers, err)
    else (consumersPage, err)

section
variable [NetUrl]

/-- `Dispatch` up to the loop that queues the jobs, with the faults of the listing; `txErr` is an
error of the transaction. -/
def dispatchWith (faults : Nat → ListingFault) (txErr : Option StorageErr) (now : Nat → Time)
    (txNow : Time) (newID : Nat → Xid) (isEffectivelyPaused : Xid → Bool) (message : Message)
    (db : Db) : Except StorageErr (List DeliveryJob) × Db :=
  if !message.isInValidState then (.ok [], db)
  else
    let (consumers, err) := listConsumersWith faults db message.broadcastedToID
      (db.consumer.length + 1) 0 (newPagination none none)
    match buildJobs now newID message 0 err consumers, txErr with
    | (_, some err), _ | (_, none), some err => (.error err, db)
    | (jobs, none), none =>
      let (deliveryJobs, parkedJobs) := splitPausedJobs isEffectivelyPaused jobs.reduceOption
      match dispatchMessageWithParking txNow message deliveryJobs parkedJobs db with
      | (.ok _, db) => (.ok deliveryJobs, db)
      | (.error err, db) => (.error err, db)

end

/-- The consumers that `createJobs` lists when nothing fails. -/
def Db.listing (db : Db) (message : Message) : List Consumer :=
  (listConsumers db message.broadcastedToID (db.consumer.length + 1) (newPagination none none)).1

/-- The message is as it was, without jobs, or it is dispatched and has one job for each consumer of
the complete listing, in `job` or in `job_parking`. -/
def AllOrNothing (message : Message) (db db' : Db) : Prop :=
  ((∀ row ∈ db'.message, row.id = message.id → row.status = .acknowledged) ∧
    ∀ r ∈ db'.stored, r.messageId ≠ message.id) ∨
  ((∀ row ∈ db'.message, row.id = message.id → row.status = .dispatched) ∧
    ((db.listing message).map (·.id)).Nodup ∧
    ((db'.stored.filter fun r => r.messageId == message.id).map (·.consumerId)).Perm
      ((db.listing message).map (·.id)))

/-- The consumers that the query of the listing matches, in its order. -/
def Db.consumersOf (db : Db) (channelID : String) : List ConsumerRow :=
  inOrder ConsumerRow.key (db.consumer.filter fun row => sqlLike channelID row.channelId)

/-- The consumers on pages of at most the sizes, each of which continues after the last row of the
page before it. -/
def Db.listed (db : Db) (channelID : String) (size : Nat → Nat) : List ConsumerRow :=
  Paging.cutWalk (isBeyond ConsumerRow.key) none size (db.consumersOf channelID)
    (db.consumer.length + 1) 0 [] none

/-- The rows of a full page that are scanned, if nothing is reported. -/
def ResultStream.scanned : ResultStream → Nat
  | .breaksOff n => min n 25
  | _ => 25

/-! ## Faults that are not reported -/

/-- A query reports an error, or it returns the rows up to the break. -/
theorem queryRows_cases {ρ : Type} (stream : ResultStream) (rows : List ρ) :
    (∃ err, (queryRows stream (rows.take 25)).2 = some err) ∨
      queryRows stream (rows.take 25) = (rows.take stream.scanned, none) := by
  cases stream with
  | complete => exact .inr rfl
  | queryFails err => exact .inl ⟨err, rfl⟩
  | scanFails row err =>
    rw [queryRows]
    split
    · exact .inl ⟨err, rfl⟩
    · exact .inr rfl
  | breaksOff n =>
    rw [queryRows, take_take]
    exact .inr rfl

/-- No row is left out without an error exactly if no break comes before the last row. -/
theorem queryRows_complete_iff {ρ : Type} (stream : ResultStream) (rows : List ρ) :
    ((queryRows stream rows).2 = none → (queryRows stream rows).1 = rows) ↔
      ∀ k, stream = .breaksOff k → rows.length ≤ k := by
  cases stream with
  | complete => simp [queryRows]
  | queryFails err => simp [queryRows]
  | scanFails row err =>
    rw [queryRows]
    split <;> simp
  | breaksOff n => simp [queryRows, take_eq_self_iff]

section
variable {db : Db} {channelID : String} {channel : Channel}

theorem Db.consumersOf_ordered (hids : (db.consumer.map (·.id)).Nodup) (channelID : String) :
    Paging.Ordered (isBeyond ConsumerRow.key) (db.consumersOf channelID) :=
  inOrder_ordered (nodup_filter_ids hids fun row => sqlLike channelID row.channelId)

theorem Db.mem_consumersOf {row : ConsumerRow} (h : row ∈ db.consumersOf channelID) :
    row ∈ db.consumer :=
  (mem_filter.1 (mem_inOrder.1 h)).1

/-- A page of the listing: an error, or the rows up to the break and the cursors of these. -/
theorem getConsumerListWith_cases (hids : (db.consumer.map (·.id)).Nodup)
    (hchannel : getChannel db channelID = .ok channel) (fault : ListingFault)
    (cursor : Option ConsumerRow) :
    (∃ err, (getConsumerListWith fault db channelID
      { next := cursor.map (cursorOf ConsumerRow.key) }).2.2 = some err) ∨
    ∃ previous, getConsumerListWith fault db channelID
        { next := cursor.map (cursorOf ConsumerRow.key) } =
      let rows := (Paging.rest (isBeyond ConsumerRow.key) (db.consumersOf channelID) cursor).take
        fault.stream.scanned
      (rows.map (·.toConsumer channel),
        { next := rows.getLast?.map (cursorOf ConsumerRow.key), previous := previous }, none) := by
  have hpage : consumerPage db channelID { next := cursor.map (cursorOf ConsumerRow.key) } =
      (Paging.rest (isBeyond ConsumerRow.key) (db.consumersOf channelID) cursor).take 25 :=
    pageQuery_eq (nodup_filter_ids hids fun row => sqlLike channelID row.channelId) 25 cursor
  unfold getConsumerListWith
  rw [Option.isSome_none, Bool.and_false, if_neg Bool.false_ne_true, hchannel, hpage]
  cases hfault : fault.channel with
  | some err => exact .inl ⟨err, rfl⟩
  | none =>
    rcases queryRows_cases fault.stream
      (Paging.rest (isBeyond ConsumerRow.key) (db.consumersOf channelID) cursor) with
      ⟨err, herr⟩ | hrows
    · exact .inl ⟨err, herr⟩
    · simp only [hrows]
      generalize (Paging.rest (isBeyond ConsumerRow.key) (db.consumersOf channelID) cursor).take
        fault.stream.scanned = rows
      cases rows with
      | nil => exact .inr ⟨none, rfl⟩
      | cons row rows =>
        refine .inr ⟨(some row).map (cursorOf ConsumerRow.key), ?_⟩
        rw [if_neg (by simp), newPagination, List.getLast?_map]
        simp only [Option.map_map]
        rfl

/-- The loop of `createJobs` reports an error, or it is the walk with the pages that the breaks
leave. -/
theorem listConsumersWith_cases (hids : (db.consumer.map (·.id)).Nodup)
    (hchannel : getChannel db channelID = .ok channel) (faults : Nat → ListingFault) (n i : Nat)
    (cursor : Option ConsumerRow) :
    (∃ err, (listConsumersWith faults db channelID n i
      { next := cursor.map (cursorOf ConsumerRow.key) }).2 = some err) ∨
    listConsumersWith faults db channelID n i { next := cursor.map (cursorOf ConsumerRow.key) } =
      ((Paging.cutWalk (isBeyond ConsumerRow.key) none (fun i => (faults i).stream.scanned)
        (db.consumersOf channelID) n i [] cursor).map (·.toConsumer channel), none) := by
  induction n generalizing i cursor with
  | zero => exact .inr rfl
  | succ n ih =>
    rw [listConsumersWith, Paging.cutWalk_succ]
    rcases getConsumerListWith_cases hids hchannel (faults i) cursor with
      ⟨err, herr⟩ | ⟨previous, hpage⟩
    · simp only [herr, Option.isNone_some, Bool.and_false, Bool.false_eq_true, if_false]
      exact .inl ⟨err, rfl⟩
    · rw [hpage]
      generalize (Paging.rest (isBeyond ConsumerRow.key) (db.consumersOf channelID) cursor).take
        (faults i).stream.scanned = rows
      cases hlast : rows.getLast? with
      | none =>
        rw [List.getLast?_eq_none_iff.1 hlast]
        exact .inr rfl
      | some last =>
        have hnext := ih (i + 1) (some last)
        rw [Option.map_some] at hnext
        simp only [hlast, Option.map_some, Option.isSome_some, Option.isNone_none, Bool.and_self,
          if_true, Option.getD_some, map_append]
        rcases hnext with ⟨err, herr⟩ | hnext
        · exact .inl ⟨err, herr⟩
        · rw [hnext]
          exact .inr rfl

/-- The listing without faults. -/
theorem Db.listing_eq (hids : (db.consumer.map (·.id)).Nodup) {message : Message}
    (hchannel : getChannel db message.broadcastedToID = .ok channel) :
    db.listing message =
      (db.listed message.broadcastedToID fun _ => 25).map (·.toConsumer channel) := by
  rw [Db.listing, show newPagination none none =
    { next := Option.map (cursorOf ConsumerRow.key) none } from rfl,
    listConsumers_eq_walk hids hchannel]
  rfl

variable (hids : (db.consumer.map (·.id)).Nodup) {size size' : Nat → Nat}
include hids

theorem Db.mem_consumer_of_listed {row : ConsumerRow} (h : row ∈ db.listed channelID size) :
    row ∈ db.consumer :=
  Db.mem_consumersOf ((Db.consumersOf_ordered hids channelID).mem_of_mem_cutWalk h)

theorem Db.nodup_listed : (db.listed channelID size).Nodup :=
  (Db.consumersOf_ordered hids channelID).nodup_cutWalk _ 0 none

theorem Db.id_mem_listed {row : ConsumerRow} (hrow : row ∈ db.consumer) :
    row.id ∈ (db.listed channelID size).map (·.id) ↔ row ∈ db.listed channelID size := by
  refine ⟨fun h => ?_, mem_map_of_mem⟩
  obtain ⟨row', hrow', heq⟩ := mem_map.1 h
  rwa [← inj_on_of_nodup_map hids (Db.mem_consumer_of_listed hids hrow') hrow heq]

/-- Two listings have the same ids exactly if they have the same rows. -/
theorem Db.perm_ids_listed_iff :
    ((db.listed channelID size).map (·.id)).Perm ((db.listed channelID size').map (·.id)) ↔
      ∀ row, row ∈ db.listed channelID size ↔ row ∈ db.listed channelID size' := by
  constructor
  · intro hperm row
    constructor
    · intro hrow
      have hmem := hperm.mem_iff.1 (mem_map_of_mem hrow)
      exact (Db.id_mem_listed hids (Db.mem_consumer_of_listed hids hrow)).1 hmem
    · intro hrow
      have hmem := hperm.mem_iff.2 (mem_map_of_mem hrow)
      exact (Db.id_mem_listed hids (Db.mem_consumer_of_listed hids hrow)).1 hmem
  · intro hsame
    exact ((perm_ext_iff_of_nodup (Db.nodup_listed hids) (Db.nodup_listed hids)).2 hsame).map _

/-- If the complete listing finds every consumer that its query matches, the cut one does so exactly
if no page is cut badly. -/
theorem Db.same_rows_iff_cleanFrom (hdescend : PagesDescend ConsumerRow.key 25 none
      (db.consumer.filter fun row => sqlLike channelID row.channelId)) :
    (∀ row, row ∈ db.listed channelID size ↔ row ∈ db.listed channelID fun _ => 25) ↔
    Paging.CleanFrom (isBeyond ConsumerRow.key) none size (db.consumersOf channelID) 0 := by
  have hordered := Db.consumersOf_ordered hids channelID
  have hfuel : (db.consumersOf channelID).length < db.consumer.length + 1 := by
    rw [Db.consumersOf, inOrder_perm.length_eq]
    exact Nat.lt_succ_of_le (length_filter_le _ _)
  have hall : ∀ row ∈ db.consumersOf channelID, row ∈ db.listed channelID fun _ => 25 := by
    rw [Db.listed, Paging.cutWalk_const, hordered.mem_walk_iff (by decide) hfuel]
    intro k hk hlt
    rw [Db.consumersOf, inOrder_perm.length_eq] at hlt
    obtain ⟨hcap, hcut⟩ := hdescend k hk hlt
    exact ⟨hcap, (cutAt_iff _).2 hcut⟩
  rw [← hordered.mem_cutWalk_iff hfuel]
  constructor
  · intro hsame row hrow
    exact (hsame row).2 (hall row hrow)
  · intro hcut row
    exact ⟨fun hrow => hall row (hordered.mem_of_mem_cutWalk hrow),
      fun hrow => hcut row (hordered.mem_of_mem_cutWalk hrow)⟩

end

section
variable [NetUrl] {now : Nat → Time} {newID : Nat → Xid} {message : Message}

theorem buildJobs_of_error (index : Nat) (err : StorageErr) (consumers : List Consumer) :
    (buildJobs now newID message index (some err) consumers).2 = some err := by
  induction consumers generalizing index with
  | nil => rfl
  | cons consumer consumers ih => exact ih (index + 1)

theorem buildJobs_eq_ok {index : Nat} {consumers : List Consumer}
    {jobs : List (Option DeliveryJob)}
    (h : buildJobs now newID message index none consumers = (jobs, none)) :
    jobs.reduceOption.map (·.listenerID) = consumers.map (·.id) := by
  induction consumers generalizing index jobs with
  | nil =>
    cases h
    rfl
  | cons consumer consumers ih =>
    rw [buildJobs] at h
    dsimp only at h
    split at h
    · rw [Prod.mk.injEq] at h
      obtain ⟨rfl, herr⟩ := h
      rw [reduceOption_cons_of_some, map_cons, map_cons, ih (Prod.ext rfl herr)]
      rfl
    · rw [Prod.mk.injEq, buildJobs_of_error] at h
      cases h.2

theorem Db.Integrity.stored_dispatched_for {db : Db} (h : db.Integrity) (txNow : Time)
    {deliveryJobs parkedJobs : List DeliveryJob}
    (hvalid : ∀ job ∈ deliveryJobs ++ parkedJobs, job.isValidFor message = true)
    (hack : db.message.countP (isAcknowledged message.id) = 1) :
    (((db.dispatched txNow message deliveryJobs parkedJobs).stored.filter
      fun r => r.messageId == message.id).map (·.consumerId)).Perm
      ((deliveryJobs ++ parkedJobs).map (·.listenerID)) := by
  have hbefore : db.stored.filter (fun r => r.messageId == message.id) = [] := by
    rw [filter_eq_nil_iff]
    intro r hr heq
    exact h.not_stored_of_acknowledged hack (beq_iff_eq.1 heq ▸ mem_map_of_mem hr)
  have hnew : ((deliveryJobs ++ parkedJobs).map (·.jobRow.ref)).filter
      (fun r => r.messageId == message.id) = (deliveryJobs ++ parkedJobs).map (·.jobRow.ref) := by
    rw [filter_eq_self]
    intro r hr
    obtain ⟨job, hjob, rfl⟩ := mem_map.1 hr
    exact beq_iff_eq.2 (messageId_of_isValidFor (hvalid job hjob))
  have hperm := (@stored_dispatched db txNow message deliveryJobs parkedJobs).filter
    fun r => r.messageId == message.id
  rw [filter_append, hbefore, hnew, nil_append] at hperm
  refine (hperm.map _).trans (List.Perm.of_eq ?_)
  rw [map_map]
  rfl

omit [NetUrl] in
theorem Db.Integrity.status_dispatched {db : Db} (h : db.Integrity) {txNow : Time}
    {deliveryJobs parkedJobs : List DeliveryJob} {row₀ : MessageRow} (hrow₀ : row₀ ∈ db.message)
    (hid : row₀.id = message.id) (hack : row₀.status = .acknowledged) {row : MessageRow}
    (hrow : row ∈ (db.dispatched txNow message deliveryJobs parkedJobs).message)
    (hrowid : row.id = message.id) : row.status = .dispatched := by
  obtain ⟨row₁, hrow₁, rfl⟩ := mem_updateWhere.1 hrow
  split at hrowid
  · rw [if_pos ‹_›]
    rfl
  · rename_i hnot
    obtain rfl := inj_on_of_nodup_map h.messages hrow₁ hrow₀ (hrowid.trans hid.symm)
    exact absurd (by simp [isAcknowledged, hid, hack]) hnot

omit [NetUrl] in
theorem Db.Integrity.allOrNothing_same {db : Db} (h : db.Integrity) {row₀ : MessageRow}
    (hrow₀ : row₀ ∈ db.message) (hid : row₀.id = message.id)
    (hack : row₀.status = .acknowledged) : AllOrNothing message db db := by
  refine .inl ⟨fun row hrow hrowid => ?_, fun r hr hmessage => ?_⟩
  · rw [inj_on_of_nodup_map h.messages hrow hrow₀ (hrowid.trans hid.symm)]
    exact hack
  · obtain ⟨m, hm, hmid, hdispatched⟩ := h.dispatched r hr
    rw [inj_on_of_nodup_map h.messages hm hrow₀ (hmid.trans (hmessage.trans hid.symm)),
      hack] at hdispatched
    cases hdispatched

/-- A dispatch of the jobs for some consumers is all or nothing exactly if they are those of the
complete listing. -/
theorem Db.Sound.allOrNothing_dispatched_iff {db : Db} (h : db.Sound) {row₀ : MessageRow}
    (hrow₀ : row₀ ∈ db.message) (hid : row₀.id = message.id) (hack : row₀.status = .acknowledged)
    {consumers : List Consumer} {deliveryJobs parkedJobs : List DeliveryJob}
    (hjobs : ((deliveryJobs ++ parkedJobs).map (·.listenerID)).Perm (consumers.map (·.id)))
    (txNow : Time) (hvalid : ∀ job ∈ deliveryJobs ++ parkedJobs, job.isValidFor message = true)
    (hcount : db.message.countP (isAcknowledged message.id) = 1)
    (hnodup : ((db.listing message).map (·.id)).Nodup) :
    AllOrNothing message db (db.dispatched txNow message deliveryJobs parkedJobs) ↔
      (consumers.map (·.id)).Perm ((db.listing message).map (·.id)) := by
  have hstored := (h.integrity.stored_dispatched_for txNow hvalid hcount).trans hjobs
  have hstatus : ∀ row ∈ (db.dispatched txNow message deliveryJobs parkedJobs).message,
      row.id = message.id → row.status = .dispatched := fun row hrow =>
    h.integrity.status_dispatched hrow₀ hid hack hrow
  constructor
  · rintro (⟨hacknowledged, -⟩ | ⟨-, -, hperm⟩)
    · obtain ⟨row, hrow, hrowid⟩ : ∃ row ∈
          (db.dispatched txNow message deliveryJobs parkedJobs).message, row.id = message.id := by
        refine ⟨_, mem_updateWhere.2 ⟨row₀, hrow₀, rfl⟩, ?_⟩
        split <;> exact hid
      have hboth := (hstatus row hrow hrowid).symm.trans (hacknowledged row hrow hrowid)
      cases hboth
    · exact hstored.symm.trans hperm
  · intro hperm
    exact .inr ⟨hstatus, hnodup, hstored.trans hperm⟩

/-- `Dispatch` leaves the database as it is, or it stores the jobs for the consumers on the pages
that the breaks leave. -/
theorem dispatchWith_cases {db : Db} (hids : (db.consumer.map (·.id)).Nodup)
    (faults : Nat → ListingFault) (txErr : Option StorageErr) (txNow : Time)
    (isEffectivelyPaused : Xid → Bool) :
    (dispatchWith faults txErr now txNow newID isEffectivelyPaused message db).2 = db ∨
    ∃ channel deliveryJobs parkedJobs, getChannel db message.broadcastedToID = .ok channel ∧
      ((deliveryJobs ++ parkedJobs).map (·.listenerID)).Perm
        ((db.listed message.broadcastedToID fun i => (faults i).stream.scanned).map (·.id)) ∧
      (∀ job ∈ deliveryJobs ++ parkedJobs, job.isValidFor message = true) ∧
      db.message.countP (isAcknowledged message.id) = 1 ∧
      (dispatchWith faults txErr now txNow newID isEffectivelyPaused message db).2 =
        db.dispatched txNow message deliveryJobs parkedJobs := by
  have hreported {err : StorageErr} {consumers : List Consumer} {jobs : List (Option DeliveryJob)}
      (h : buildJobs now newID message 0 (some err) consumers = (jobs, none)) : False := by
    have herr := congrArg Prod.snd h
    rw [buildJobs_of_error] at herr
    cases herr
  unfold dispatchWith
  split
  · exact .inl rfl
  · dsimp only
    split
    · exact .inl rfl
    · exact .inl rfl
    · rename_i jobs hjobs
      cases hchannel : getChannel db message.broadcastedToID with
      | error err =>
        have herr : (listConsumersWith faults db message.broadcastedToID (db.consumer.length + 1) 0
            (newPagination none none)).2.isSome = true := by
          cases hfault : (faults 0).channel <;>
            simp [listConsumersWith, getConsumerListWith, hchannel, hfault, newPagination]
        obtain ⟨err, herr⟩ := Option.isSome_iff_exists.1 herr
        rw [herr] at hjobs
        exact (hreported hjobs).elim
      | ok channel =>
        rw [show newPagination none none = { next := Option.map (cursorOf ConsumerRow.key) none }
          from rfl] at hjobs
        rcases listConsumersWith_cases hids hchannel faults (db.consumer.length + 1) 0 none with
          ⟨err, herr⟩ | hlist
        · rw [herr] at hjobs
          exact (hreported hjobs).elim
        · rw [hlist] at hjobs
          have hsplit := perm_append_comm.trans (filter_append_perm
            (fun job : DeliveryJob => isEffectivelyPaused job.listenerID) jobs.reduceOption)
          have hlisteners := hsplit.map (·.listenerID)
          rw [buildJobs_eq_ok hjobs, map_map] at hlisteners
          rcases dispatchMessageWithParking_cases txNow message
            (splitPausedJobs isEffectivelyPaused jobs.reduceOption).1
            (splitPausedJobs isEffectivelyPaused jobs.reduceOption).2 db with
            ⟨hvalid, haccepts, hr⟩ | ⟨err, hr⟩ <;> rw [hr]
          · exact .inr ⟨channel, _, _, rfl, hlisteners, hvalid, haccepts.2.2.2, rfl⟩
          · exact .inl rfl

theorem listenerIDs_of_createJobs {db : Db} {jobs : List DeliveryJob}
    (h : createJobs now newID db message = (jobs.map some, none)) :
    jobs.map (·.listenerID) = (db.listing message).map (·.id) := by
  rw [createJobs_eq] at h
  cases herr : (listConsumers db message.broadcastedToID (db.consumer.length + 1)
      (newPagination none none)).2 with
  | some err =>
    rw [herr] at h
    have herr' := congrArg Prod.snd h
    rw [buildJobs_of_error] at herr'
    cases herr'
  | none =>
    rw [herr] at h
    rw [Db.listing, ← buildJobs_eq_ok h, List.reduceOption, filterMap_map]
    exact congrArg _ filterMap_some.symm

/-- In every reachable database, `Dispatch` of an acknowledged message that is loaded from it makes
a job for each consumer of the listing, if nothing fails and the ids of the jobs are new. -/
theorem acknowledged_message_dispatched (r : StorageRun) {n : Nat} (hn : n ≤ r.len)
    {row : MessageRow} (hrow : row ∈ (r.state n).message) (hack : row.status = .acknowledged)
    (hnow : ∀ i, now i ≠ 0) (hinj : Set.InjOn newID (Set.Iio (r.state n).consumer.length))
    (hnew : ∀ i < (r.state n).consumer.length, newID i ∉ (r.state n).stored.map (·.id))
    (txNow : Time) (isEffectivelyPaused : Xid → Bool) :
    ∃ jobs db', dispatch now txNow newID isEffectivelyPaused (row.load (r.state n)) (r.state n) =
        (.ok jobs, db') ∧
      (∀ row' ∈ db'.message, row'.id = row.id → row'.status = .dispatched) ∧
      ((db'.stored.filter fun job => job.messageId == row.id).map (·.consumerId)).Perm
        (((r.state n).listing (row.load (r.state n))).map (·.id)) := by
  have hsound := r.sound hn
  obtain ⟨jobs, hjobs, hvalid, hcount, hdispatch⟩ := hsound.dispatch_load hrow hack hnow hinj hnew
    txNow isEffectivelyPaused
  have hsplit := perm_append_comm.trans (filter_append_perm
    (fun job : DeliveryJob => isEffectivelyPaused job.listenerID) jobs)
  refine ⟨_, _, hdispatch, fun row' hrow' => ?_, ?_⟩
  · exact hsound.integrity.status_dispatched hrow rfl hack hrow'
  · rw [← listenerIDs_of_createJobs hjobs]
    exact (hsound.integrity.stored_dispatched_for txNow
      (fun job hjob => hvalid job (hsplit.mem_iff.1 hjob)) hcount).trans (hsplit.map _)

end

/-- The database after a dispatch of the message in which every listing query has the stream. -/
def Sample.dispatchFrom (stream : ResultStream) (db : Db) : Db :=
  (@dispatchWith netUrl (fun _ => { stream := stream }) none (fun _ => second) second
    (fun i => if i = 0 then jobXid else channelXid) (fun _ => false) message db).2

def Sample.twoConsumers : List StorageOp :=
  storeAll ++ [.storeConsumer 2 producerXid
    { consumer .pull with id := producerXid, consumerID := "e", createdAt := 2 }]

open Sample

theorem acknowledged_message_dispatched_stored :
    ∃ r : @StorageRun netUrl, ∃ jobs db', @dispatch netUrl (fun _ => second) second
      (fun _ => jobXid) (fun _ => false) (message.toRow.load (r.state 4))
      (r.state 4) = (.ok jobs, db') := by
  let r : @StorageRun netUrl := Run.ofActs {} storeAll rfl (by decide +kernel)
  have hrow : message.toRow ∈ (r.state 4).message := by decide +kernel
  have hone : (r.state 4).consumer.length = 1 := by decide +kernel
  have hlen : 4 ≤ r.len := by decide
  have hinj : Set.InjOn (fun _ : Nat => jobXid) (Set.Iio (r.state 4).consumer.length) := by
    intro i hi j hj _
    rw [hone, Set.mem_Iio] at hi hj
    omega
  obtain ⟨jobs, db', hdispatch, -⟩ := @acknowledged_message_dispatched netUrl
    (fun _ => second) (fun _ => jobXid) r 4 hlen _ hrow rfl (fun _ => by decide) hinj
    (by decide +kernel) second (fun _ => false)
  exact ⟨r, jobs, db', hdispatch⟩

end WebhookBroker
