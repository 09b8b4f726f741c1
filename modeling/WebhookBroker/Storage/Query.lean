import WebhookBroker.Storage.Db

/-!
# Reading consumers and jobs

The queries the dispatcher makes: pages of the consumers of a channel
(`storage/consumerrepo.go`, `storage/channelrepo.go`) and of the jobs in a status
(`storage/deliveryjobrepo.go`). A page is ordered newest first and continues from a cursor, which
holds the id and the creation time of a row (`storage/rdbms.go`). Where a query without an order
returns one of several rows, the model takes the first. The caches in front of the consumer and
channel repositories answer as the tables do.
-/

namespace WebhookBroker

open Lib List

/-- The order of ids as text. -/
def idLess (a b : String) : Bool := decide (a.toList < b.toList)

theorem idLess_irrefl (a : String) : idLess a a = false :=
  decide_eq_false (lt_irrefl a.toList)

theorem idLess_trans {a b c : String} (h : idLess a b = true) (h' : idLess b c = true) :
    idLess a c = true :=
  decide_eq_true (lt_trans (of_decide_eq_true h) (of_decide_eq_true h'))

/-- The condition of `getPaginationQueryFragment`: `id < next.id AND createdAt <= next.timestamp`,
and the other way round for `previous`. -/
def Pagination.covers (page : Pagination) (id : String) (createdAt : Time) : Bool :=
  page.next.all (fun c => idLess id c.id && decide (createdAt ≤ c.timestamp)) &&
  page.previous.all (fun c => idLess c.id id && decide (c.timestamp ≤ createdAt))

/-- `baseOrderByClause`: `ORDER BY createdAt desc, id desc`. -/
def newestFirst (a b : String × Time) : Prop :=
  b.2 < a.2 ∨ (b.2 = a.2 ∧ idLess a.1 b.1 = false)

instance : DecidableRel newestFirst := fun _ _ => inferInstanceAs (Decidable (_ ∨ _))

/-- The rows of a page; `key` is a row's id and creation time. -/
def pageQuery {ρ : Type} (key : ρ → String × Time) (page : Pagination) (limit : Nat)
    (rows : List ρ) : List ρ :=
  ((rows.filter fun r => page.covers (key r).1 (key r).2).insertionSort
    fun a b => newestFirst (key a) (key b)).take limit

theorem mem_pageQuery {ρ : Type} {key : ρ → String × Time} {page : Pagination} {limit : Nat}
    {rows : List ρ} {r : ρ} (h : r ∈ pageQuery key page limit rows) :
    r ∈ rows ∧ page.covers (key r).1 (key r).2 = true :=
  mem_filter.1 ((perm_insertionSort _ _).mem_iff.1 (mem_of_mem_take h))

theorem covers_of_next {page : Pagination} (hprev : page.previous = none) {id id' : String}
    {createdAt createdAt' : Time}
    (h : page.covers id createdAt = true)
    (h' : Pagination.covers { next := some ⟨id, createdAt⟩ } id' createdAt' = true) :
    page.covers id' createdAt' = true := by
  simp only [Pagination.covers, hprev, Option.all_none, Option.all_some, Bool.and_true,
    Bool.and_eq_true, decide_eq_true_eq] at h h' ⊢
  rw [Option.all_eq_true] at h ⊢
  intro c hc
  have hrow := h c hc
  simp only [Bool.and_eq_true, decide_eq_true_eq] at hrow ⊢
  exact ⟨idLess_trans h'.1 hrow.1, Int.le_trans h'.2 hrow.2⟩

def ChannelRow.toChannel (row : ChannelRow) : Channel where
  id := row.id
  createdAt := row.createdAt
  updatedAt := row.updatedAt
  name := row.name
  token := row.token
  channelID := row.channelId

/-- The consumer of a row, consuming from the channel that the caller loaded. -/
def ConsumerRow.toConsumer (channel : Channel) (row : ConsumerRow) : Consumer where
  id := row.id
  createdAt := row.createdAt
  updatedAt := row.updatedAt
  name := row.name
  token := row.token
  consumerID := row.consumerId
  callbackURL := row.callbackUrl
  consumingFrom := some channel
  type := row.type

/-- `Get` of the channel repository: `WHERE channelId like ?`. -/
def getChannel (db : Db) (channelID : String) : Except StorageErr Channel :=
  match db.channel.find? fun row => sqlLike channelID row.channelId with
  | some row => .ok row.toChannel
  | none => .error .noRows

def ProducerRow.toProducer (row : ProducerRow) : Producer where
  id := row.id
  createdAt := row.createdAt
  updatedAt := row.updatedAt
  name := row.name
  token := row.token
  producerID := row.producerId

/-- `Get` of the producer repository: `WHERE producerId like ?`. -/
def getProducer (db : Db) (producerID : String) : Except StorageErr Producer :=
  match db.producer.find? fun row => sqlLike producerID row.producerId with
  | some row => .ok row.toProducer
  | none => .error .noRows

theorem find?_sqlLike_of_mem {ρ : Type} {key : ρ → String} {rows : List ρ} {k : String}
    (h : k ∈ rows.map key) : ∃ row, rows.find? (fun r => sqlLike k (key r)) = some row := by
  obtain ⟨row, hrow, rfl⟩ := mem_map.1 h
  cases hfind : rows.find? fun r => sqlLike (key row) (key r) with
  | none => exact absurd (sqlLike_self (key row)) (List.find?_eq_none.1 hfind row hrow)
  | some found => exact ⟨found, rfl⟩

variable {db : Db}

theorem getChannel_of_mem {channelID : String} (h : channelID ∈ db.channel.map (·.channelId)) :
    ∃ row ∈ db.channel, getChannel db channelID = .ok row.toChannel := by
  obtain ⟨row, hrow⟩ := find?_sqlLike_of_mem h
  exact ⟨row, mem_of_find?_eq_some hrow, by rw [getChannel, hrow]⟩

theorem getProducer_of_mem {producerID : String} (h : producerID ∈ db.producer.map (·.producerId)) :
    ∃ row ∈ db.producer, getProducer db producerID = .ok row.toProducer := by
  obtain ⟨row, hrow⟩ := find?_sqlLike_of_mem h
  exact ⟨row, mem_of_find?_eq_some hrow, by rw [getProducer, hrow]⟩

theorem getChannel_eq_ok {channelID : String} {channel : Channel}
    (h : getChannel db channelID = .ok channel) :
    ∃ row ∈ db.channel, sqlLike channelID row.channelId = true ∧ channel = row.toChannel := by
  unfold getChannel at h
  split at h
  · rename_i row hrow
    have hlike := List.find?_some hrow
    exact ⟨row, mem_of_find?_eq_some hrow, hlike, (Except.ok.inj h).symm⟩
  · cases h

theorem getProducer_eq_ok {producerID : String} {producer : Producer}
    (h : getProducer db producerID = .ok producer) :
    ∃ row ∈ db.producer, sqlLike producerID row.producerId = true ∧ producer = row.toProducer := by
  unfold getProducer at h
  split at h
  · rename_i row hrow
    have hlike := List.find?_some hrow
    exact ⟨row, mem_of_find?_eq_some hrow, hlike, (Except.ok.inj h).symm⟩
  · cases h

/-- The row that a lookup by channel id and consumer id finds:
`WHERE channelId like ? and consumerId like ?`. -/
def findConsumer (db : Db) (channelID consumerID : String) : Option ConsumerRow :=
  db.consumer.find? fun row => sqlLike channelID row.channelId && sqlLike consumerID row.consumerId

/-- `Get` of the consumer repository. The consumer consumes from the channel that `channelID` finds,
whatever the channel of its row is. -/
def getConsumer (db : Db) (channelID consumerID : String) : Except StorageErr Consumer := do
  let channel ← getChannel db channelID
  match findConsumer db channelID consumerID with
  | some row => return row.toConsumer channel
  | none => throw .noRows

/-- `GetByID` of the consumer repository. -/
def getConsumerByID (db : Db) (id : String) : Except StorageErr Consumer :=
  match db.consumer.find? fun row => sqlLike id row.id.string with
  | some row => do return row.toConsumer (← getChannel db row.channelId)
  | none => .error .noRows

/-- The rows of a page of `GetList`: `WHERE channelId like ?` and the page, 25 at a time. -/
def consumerPage (db : Db) (channelID : String) (page : Pagination) : List ConsumerRow :=
  pageQuery (fun row => (row.id.string, row.createdAt)) page 25
    (db.consumer.filter fun row => sqlLike channelID row.channelId)

/-- `GetList` of the consumer repository: the consumers of a page, where the next and the previous
page start, and the error. -/
def getConsumerList (db : Db) (channelID : String) (page : Pagination) :
    List Consumer × Pagination × Option StorageErr :=
  if page.next.isSome && page.previous.isSome then
    ([], {}, some .paginationDeadlock)
  else
    match getChannel db channelID with
    | .error e => ([], {}, some e)
    | .ok channel =>
      let consumers := (consumerPage db channelID page).map (·.toConsumer channel)
      let pagination := if consumers.isEmpty then {} else
        newPagination (consumers.getLast?.map (·.toBasePaginateable))
          (consumers.head?.map (·.toBasePaginateable))
      (consumers, pagination, none)

/-- The message of a row as `GetByIDs` fills it: channel and producer carry their id only. -/
def MessageRow.toMessage (row : MessageRow) : Message where
  id := row.id
  createdAt := row.createdAt
  updatedAt := row.updatedAt
  messageID := row.messageId
  payload := row.payload
  contentType := row.contentType
  priority := row.priority
  status := row.status
  broadcastedTo := some { id := Xid.nil, createdAt := 0, updatedAt := 0, name := "", token := ""
                          channelID := row.channelId }
  producedBy := some { id := Xid.nil, createdAt := 0, updatedAt := 0, name := "", token := ""
                       producerID := row.producerId }
  receivedAt := row.receivedAt
  outboxedAt := row.outboxedAt
  headers := row.headers

/-- The job that `getJobs` builds from a row; a message or a consumer that cannot be loaded is
`nil`. -/
def JobRow.toDeliveryJob (db : Db) (row : JobRow) : DeliveryJob where
  id := row.id
  createdAt := row.createdAt
  updatedAt := row.updatedAt
  message := (rowAt (·.id) db.message row.messageId).map (·.toMessage)
  listener := (getConsumerByID db row.consumerId.string).toOption
  status := row.status
  statusChangedAt := row.statusChangedAt
  dispatchReceivedAt := row.dispatchReceivedAt
  earliestNextAttemptAt := row.earliestNextAttemptAt
  retryAttemptCount := row.retryAttemptCount
  priority := row.priority
  incrementalTimeout := row.incrementalTimeout

/-- One page of `getJobsForStatusAndDeltaWithCustomQuery`, 100 at a time. -/
def jobPage (db : Db) (p : JobRow → Bool) (page : Pagination) : List DeliveryJob :=
  (pageQuery (fun row => (row.id.string, row.createdAt)) page 100 (db.job.filter p)).map
    (·.toDeliveryJob db)

/-- `delta` is subtracted from the clock whatever its sign is. -/
def sinceDelta (delta : Duration) : Duration := if delta > 0 then -1 * delta else delta

/-- The rows of `GetJobsInflightSince`. -/
def isInflightSince (now : Time) (delta : Duration) (row : JobRow) : Bool :=
  row.status == .inflight && decide (row.statusChangedAt ≤ now + sinceDelta delta)

/-- The rows of `GetJobsReadyForInflightSince`: due jobs, those of pull consumers only once their
retries are used up. -/
def isReadyForInflightSince (db : Db) (now : Time) (delta : Duration) (retryThreshold : Nat)
    (row : JobRow) : Bool :=
  (decide (row.retryAttemptCount ≥ retryThreshold) ||
    !((db.consumer.filter (·.type == .pull)).map (·.id)).contains row.consumerId) &&
  row.status == .queued && decide (row.earliestNextAttemptAt ≤ now + sinceDelta delta)

/-- One chunk of `GetQueuedJobsByIDs`. -/
def getQueuedJobsByIDs (db : Db) (ids : List String) : List DeliveryJob :=
  (db.job.filter fun row => ids.contains row.id.string && row.status == .queued).map
    (·.toDeliveryJob db)

/-- The job of a parked row, as `loadParkedJobByID` finalizes it. -/
def ParkedJobRow.toDeliveryJob (db : Db) (row : ParkedJobRow) : DeliveryJob where
  id := row.id
  createdAt := row.createdAt
  updatedAt := row.parkedAt
  message := (rowAt (·.id) db.message row.messageId).map (·.toMessage)
  listener := (getConsumerByID db row.consumerId.string).toOption
  status := .parked
  statusChangedAt := row.parkedAt
  dispatchReceivedAt := row.dispatchReceivedAt
  earliestNextAttemptAt := row.earliestNextAttemptAt
  retryAttemptCount := row.retryAttemptCount
  priority := row.priority
  incrementalTimeout := row.incrementalTimeout

/-- The row `GetByID` finds: the one in `job`, or else the parked one. -/
def findJob (db : Db) (id : String) : Option DeliveryJob :=
  match db.job.find? fun row => sqlLike id row.id.string with
  | some row => some (row.toDeliveryJob db)
  | none =>
    match db.jobParking.find? fun row => row.id.string == id with
    | some row => some (row.toDeliveryJob db)
    | none => none

/-- `GetByID` of the job repository, which also has to load the message and the consumer. -/
def getJobByID (db : Db) (id : String) : Except StorageErr DeliveryJob :=
  match findJob db id with
  | some job => if job.message.isSome && job.listener.isSome then .ok job else .error .noRows
  | none => .error .noRows

end WebhookBroker
