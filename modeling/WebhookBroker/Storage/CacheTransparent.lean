import WebhookBroker.Storage.CachedRepo

/-!
# Calls of the cached repositories, one after the other

The three cached repositories of a node with exact lookups, no concurrent calls and no expiry
(`CachedNode`), beside the repositories without caches (`RepoCall.direct`). The delegate of the
cached consumer repository asks the cached channel repository for the channel of a consumer.

The caches make no difference as long as every entry is what the delegate would return
(`CachedNode.Coherent`). Three things break this: two lookups of consumers that have the same key,
such as those of `a:b`, `c` and of `a`, `b:c`; a channel that gets another name or token while one
of its consumers is cached, since the consumer is cached with its channel and `Store` of a channel
deletes the key of the channel only; and a `Delete` of a consumer with another id than the stored
one.
-/

namespace WebhookBroker

open Lib List Function

def forget {α : Type} (cache : String → Option α) (keys : List String) : String → Option α :=
  fun key => if key ∈ keys then none else cache key

namespace CachedRepository
variable {Q α ω : Type} (R : CachedRepository Q α ω)

def cachedGet (cache : String → Option α) (db : Db) (q : Q) :
    Except StorageErr α × (String → Option α) :=
  match cache (R.key q) with
  | some answer => (.ok answer, cache)
  | none =>
    match R.get db q with
    | .ok answer => (.ok answer, update cache (R.key q) (some answer))
    | .error e => (.error e, cache)

def cachedWrite (cache : String → Option α) (db : Db) (w : ω) :
    Except StorageErr Unit × (String → Option α) × Db :=
  match R.write w db with
  | (.ok keys, db) => (.ok (), forget cache keys, db)
  | (.error e, db) => (.error e, cache, db)

/-- Every entry is what the delegate would return for a lookup with that key, of those in `P`. -/
def Coherent (P : Q → Prop) (cache : String → Option α) (db : Db) : Prop :=
  ∀ key answer, cache key = some answer → ∃ q, P q ∧ R.key q = key ∧ R.get db q = .ok answer

namespace Coherent
variable {R} {P : Q → Prop} {cache : String → Option α} {db db' : Db} {q : Q} {answer : α}

section
variable (h : R.Coherent P cache db)
include h

theorem get_of_hit (hkey : ∀ q', P q' → R.key q' = R.key q → q' = q)
    (hhit : cache (R.key q) = some answer) : R.get db q = .ok answer := by
  obtain ⟨q', hq', hsame, hget⟩ := h _ _ hhit
  exact hkey q' hq' hsame ▸ hget

theorem fill (hq : P q) (hget : R.get db q = .ok answer) :
    R.Coherent P (update cache (R.key q) (some answer)) db := by
  intro key answer' hentry
  rcases eq_or_ne key (R.key q) with rfl | hne
  · rw [update_self] at hentry
    cases hentry
    exact ⟨q, hq, rfl, hget⟩
  · rw [update_of_ne hne] at hentry
    exact h key answer' hentry

theorem forget {keys : List String}
    (hcovers : ∀ q, P q → R.get db' q = R.get db q ∨ R.key q ∈ keys) :
    R.Coherent P (forget cache keys) db' := by
  intro key answer hentry
  unfold WebhookBroker.forget at hentry
  split at hentry
  · cases hentry
  · rename_i hkey
    obtain ⟨q, hq, rfl, hget⟩ := h key answer hentry
    exact ⟨q, hq, rfl, ((hcovers q hq).resolve_right hkey).trans hget⟩

theorem keep
    (hget : ∀ key answer q, cache key = some answer → P q → R.get db q = .ok answer → R.get db' q
      = .ok answer) : R.Coherent P cache db' := by
  intro key answer hentry
  obtain ⟨q, hq, hkey, hanswer⟩ := h key answer hentry
  exact ⟨q, hq, hkey, hget key answer q hentry hq hanswer⟩

theorem congr (hget : ∀ q, R.get db' q = R.get db q) : R.Coherent P cache db' :=
  h.keep fun _ _ q _ _ hanswer => (hget q).trans hanswer

theorem cachedGet (hkey : ∀ q', P q' → R.key q' = R.key q → q' = q) (hq : P q) :
    (R.cachedGet cache db q).1 = R.get db q ∧ R.Coherent P (R.cachedGet cache db q).2 db := by
  unfold CachedRepository.cachedGet
  cases hentry : cache (R.key q) with
  | some answer => exact ⟨(h.get_of_hit hkey hentry).symm, h⟩
  | none =>
    cases hget : R.get db q with
    | ok answer => exact ⟨rfl, h.fill hq hget⟩
    | error e => exact ⟨rfl, h⟩

/-- A write whose keys cover what it changes does what the delegate does. -/
theorem cachedWrite {w : ω} (hcovers : ∀ q, P q → R.Covers w db q) :
    (R.cachedWrite cache db w).1 = (R.write w db).1.map (fun _ => ()) ∧
    (R.cachedWrite cache db w).2.2 = (R.write w db).2 ∧
    R.Coherent P (R.cachedWrite cache db w).2.1 (R.write w db).2 := by
  unfold CachedRepository.cachedWrite
  unfold CachedRepository.Covers at hcovers
  cases hwrite : R.write w db with
  | mk result db' =>
    rw [hwrite] at hcovers
    cases result with
    | ok keys =>
      refine ⟨rfl, rfl, h.forget fun q hq => (hcovers q hq).imp_right ?_⟩
      rintro ⟨keys', hkeys', hkey⟩
      exact Except.ok.inj hkeys' ▸ hkey
    | error e =>
      refine ⟨rfl, rfl, h.keep fun key answer q _ hq hget => ?_⟩
      rcases hcovers q hq with hsame | ⟨keys, hkeys, -⟩
      · exact hsame.trans hget
      · cases hkeys

end

end Coherent

end CachedRepository

def exactly (pattern text : String) : Bool := pattern == text

theorem isExact_exactly (pattern : String) : IsExact exactly pattern := isExact_beq pattern

structure CachedNode where
  db : Db
  producers : String → Option Producer
  channels : String → Option Channel
  consumers : String → Option Consumer

inductive RepoCall where
  | getProducer (producerID : String)
  | storeProducer (now : Time) (newID : Xid) (producer : Producer)
  | getChannel (channelID : String)
  | storeChannel (now : Time) (newID : Xid) (channel : Channel)
  | getConsumer (q : ConsumerLookup)
  | writeConsumer (w : ConsumerWrite)

instance : Inhabited RepoCall := ⟨.getProducer ""⟩

/-- What a call returns. Of a write, whether it succeeded. -/
inductive RepoAnswer where
  | producer (answer : Except StorageErr Producer)
  | channel (answer : Except StorageErr Channel)
  | consumer (answer : Except StorageErr Consumer)
  | written (result : Except StorageErr Unit)

def RepoCall.direct [NetUrl] (db : Db) : RepoCall → RepoAnswer × Db
  | .getProducer producerID => (.producer (getProducerBy exactly db producerID), db)
  | .storeProducer now newID producer =>
    let (result, db) := (producerRepository exactly).write (now, newID, producer) db
    (.written (result.map fun _ => ()), db)
  | .getChannel channelID => (.channel (getChannelBy exactly db channelID), db)
  | .storeChannel now newID channel =>
    let (result, db) := (channelRepository exactly).write (now, newID, channel) db
    (.written (result.map fun _ => ()), db)
  | .getConsumer q => (.consumer ((consumerRepository exactly).get db q), db)
  | .writeConsumer w =>
    let (result, db) := (consumerRepository exactly).write w db
    (.written (result.map fun _ => ()), db)

namespace CachedNode

/-- `Get` of the cached producer repository. -/
def getProducer (s : CachedNode) (producerID : String) : Except StorageErr Producer × CachedNode :=
  let (answer, producers) := (producerRepository exactly).cachedGet s.producers s.db producerID
  (answer, { s with producers := producers })

/-- `Get` of the cached channel repository. -/
def getChannel (s : CachedNode) (channelID : String) : Except StorageErr Channel × CachedNode :=
  let (answer, channels) := (channelRepository exactly).cachedGet s.channels s.db channelID
  (answer, { s with channels := channels })

/-- `Get` and `GetByID` of the consumer repository over the cached channel repository. -/
def delegateGet (s : CachedNode) : ConsumerLookup → Except StorageErr Consumer × CachedNode
  | .get channelID consumerID =>
    let (channel, s) := s.getChannel channelID
    (getConsumerFrom exactly s.db channel channelID consumerID, s)
  | .getByID id =>
    match findConsumerByID exactly s.db id with
    | none => (.error .noRows, s)
    | some row =>
      let (channel, s) := s.getChannel row.channelId
      (channel.map fun channel => row.toConsumer channel, s)

/-- `Get` and `GetByID` of the cached consumer repository. -/
def getConsumer (s : CachedNode) (q : ConsumerLookup) : Except StorageErr Consumer × CachedNode :=
  match s.consumers q.key with
  | some consumer => (.ok consumer, s)
  | none =>
    match s.delegateGet q with
    | (.ok consumer, s) =>
      (.ok consumer, { s with consumers := update s.consumers q.key (some consumer) })
    | (.error e, s) => (.error e, s)

variable [NetUrl]

/-- `Store` and `Delete` of the consumer repository over the cached channel repository, with the
keys that are deleted after it. -/
def delegateWrite (s : CachedNode) : ConsumerWrite → Except StorageErr (List String) × CachedNode
  | .store now newID consumer =>
    match s.getChannel consumer.getChannelIDSafely with
    | (.error e, s) => (.error e, s)
    | (.ok inChannel, s) =>
      let (found, s) := s.delegateGet (.get inChannel.channelID consumer.consumerID)
      let (stored, db) := consumerTable.store now newID found consumer s.db
      (stored.map fun consumer => consumer.cacheKeys, { s with db := db })
  | .delete consumer =>
    let (result, db) := deleteConsumer consumer s.db
    (result.map fun _ => consumer.cacheKeys, { s with db := db })

def call (s : CachedNode) : RepoCall → RepoAnswer × CachedNode
  | .getProducer producerID =>
    let (answer, s) := s.getProducer producerID
    (.producer answer, s)
  | .storeProducer now newID producer =>
    let (result, producers, db) :=
      (producerRepository exactly).cachedWrite s.producers s.db (now, newID, producer)
    (.written result, { s with producers := producers, db := db })
  | .getChannel channelID =>
    let (answer, s) := s.getChannel channelID
    (.channel answer, s)
  | .storeChannel now newID channel =>
    let (result, channels, db) :=
      (channelRepository exactly).cachedWrite s.channels s.db (now, newID, channel)
    (.written result, { s with channels := channels, db := db })
  | .getConsumer q =>
    let (answer, s) := s.getConsumer q
    (.consumer answer, s)
  | .writeConsumer w =>
    match s.delegateWrite w with
    | (.ok keys, s) => (.written (.ok ()), { s with consumers := forget s.consumers keys })
    | (.error e, s) => (.written (.error e), s)

def init (s : CachedNode) : Prop :=
  (∀ key, s.producers key = none ∧ s.channels key = none ∧ s.consumers key = none) ∧
    s.db.ConsumerKeys

end CachedNode

abbrev CallRun [NetUrl] :=
  Run CachedNode.init fun s (c : RepoCall) => some (s.call c).2

/-! ## Coherent caches -/

namespace CachedNode
variable [NetUrl]

/-- Every entry of the caches is what the repositories without caches would return. -/
structure Coherent (P : ConsumerLookup → Prop) (s : CachedNode) : Prop where
  producers : (producerRepository exactly).Coherent (fun _ => True) s.producers s.db
  channels : (channelRepository exactly).Coherent (fun _ => True) s.channels s.db
  consumers : (consumerRepository exactly).Coherent P s.consumers s.db
  keys : s.db.ConsumerKeys

/-- A lookup returns the expected answer, and it changes coherent caches only. -/
structure Reads {α : Type} (P : ConsumerLookup → Prop) (s : CachedNode)
    (result : Except StorageErr α × CachedNode) (expected : Except StorageErr α) : Prop where
  answer : result.1 = expected
  db : result.2.db = s.db
  coherent : result.2.Coherent P

variable {P : ConsumerLookup → Prop} {s : CachedNode}

theorem Coherent.getProducer (h : s.Coherent P) (producerID : String) :
    s.Reads P (s.getProducer producerID) (getProducerBy exactly s.db producerID) := by
  obtain ⟨hanswer, hcache⟩ := h.producers.cachedGet (q := producerID) (fun _ _ hkey => hkey) trivial
  exact ⟨hanswer, rfl, { h with producers := hcache }⟩

theorem Coherent.getChannel (h : s.Coherent P) (channelID : String) :
    s.Reads P (s.getChannel channelID) (getChannelBy exactly s.db channelID) := by
  obtain ⟨hanswer, hcache⟩ := h.channels.cachedGet (q := channelID) (fun _ _ hkey => hkey) trivial
  exact ⟨hanswer, rfl, { h with channels := hcache }⟩

theorem Coherent.delegateGet (h : s.Coherent P) (q : ConsumerLookup) :
    s.Reads P (s.delegateGet q) ((consumerRepository exactly).get s.db q) := by
  cases q with
  | get channelID consumerID =>
    have hchannel := h.getChannel channelID
    refine ⟨?_, hchannel.db, hchannel.coherent⟩
    change getConsumerFrom exactly s.db (s.getChannel channelID).1 channelID consumerID = _
    rw [hchannel.answer]
    rfl
  | getByID id =>
    simp only [CachedNode.delegateGet, consumerRepository, getConsumerByIDBy]
    cases findConsumerByID exactly s.db id with
    | none => exact ⟨rfl, rfl, h⟩
    | some row =>
      have hchannel := h.getChannel row.channelId
      refine ⟨?_, hchannel.db, hchannel.coherent⟩
      dsimp only
      rw [hchannel.answer]

theorem Coherent.getConsumer (h : s.Coherent P) {q : ConsumerLookup} (hq : P q)
    (hkey : ∀ q', P q' → q'.key = q.key → q' = q) :
    s.Reads P (s.getConsumer q) ((consumerRepository exactly).get s.db q) := by
  unfold CachedNode.getConsumer
  cases hentry : s.consumers q.key with
  | some consumer => exact ⟨(h.consumers.get_of_hit hkey hentry).symm, rfl, h⟩
  | none =>
    obtain ⟨hanswer, hdb, hcoherent⟩ := h.delegateGet q
    cases hget : s.delegateGet q with
    | mk answer s' =>
      rw [hget] at hanswer hdb hcoherent
      cases answer with
      | error e => exact ⟨hanswer, hdb, hcoherent⟩
      | ok consumer =>
        have hanswer' : (consumerRepository exactly).get s'.db q = .ok consumer :=
          hdb.symm ▸ hanswer.symm
        exact ⟨hanswer, hdb, { hcoherent with consumers := hcoherent.consumers.fill hq hanswer' }⟩

/-! ### Writes -/

/-- A write does what the write of the repository without a cache does, and leaves coherent
caches. -/
structure Writes (P : ConsumerLookup → Prop) (result : RepoAnswer × CachedNode)
    (expected : RepoAnswer × Db) : Prop where
  answer : result.1 = expected.1
  db : result.2.db = expected.2
  coherent : result.2.Coherent P

section
variable {producers : String → Option Producer} {channels : String → Option Channel}
  {consumers : String → Option Consumer} {db db' : Db}

omit [NetUrl] in
theorem producers_congr
    (h : (producerRepository exactly).Coherent (fun _ => True) producers db)
    (hproducer : db'.producer = db.producer) :
    (producerRepository exactly).Coherent (fun _ => True) producers db' :=
  h.congr fun producerID => by simp only [producerRepository, getProducerBy, hproducer]

omit [NetUrl] in
theorem channels_congr (h : (channelRepository exactly).Coherent (fun _ => True) channels db)
    (hchannel : db'.channel = db.channel) :
    (channelRepository exactly).Coherent (fun _ => True) channels db' :=
  h.congr fun channelID => by simp only [channelRepository, getChannelBy, hchannel]

theorem consumers_congr (h : (consumerRepository exactly).Coherent P consumers db)
    (hchannel : db'.channel = db.channel) (hconsumer : db'.consumer = db.consumer) :
    (consumerRepository exactly).Coherent P consumers db' := by
  refine h.congr fun q => ?_
  cases q with
  | get channelID consumerID =>
    exact getConsumerBy_congr hchannel (by rw [findConsumerBy, findConsumerBy, hconsumer])
  | getByID id =>
    exact getConsumerByIDBy_congr hchannel (by rw [findConsumerByID, findConsumerByID, hconsumer])

end

theorem Coherent.storeProducer (h : s.Coherent P) (now : Time) (newID : Xid) (producer : Producer) :
    Writes P (s.call (.storeProducer now newID producer))
      (RepoCall.direct s.db (.storeProducer now newID producer)) := by
  obtain ⟨hresult, hdb, hcache⟩ := h.producers.cachedWrite
    fun producerID _ => producerRepository_covers (isExact_exactly producerID)
      (now, newID, producer) s.db
  obtain ⟨rows, hrows⟩ : ∃ rows,
      ((producerRepository exactly).write (now, newID, producer) s.db).2 =
        { s.db with producer := rows } := StakeholderTable.store_frame producerTable ..
  have hnode : (s.call (.storeProducer now newID producer)).2.db = { s.db with producer := rows } :=
    hdb.trans hrows
  rw [hrows] at hcache
  refine ⟨congrArg RepoAnswer.written hresult, hdb, ⟨?_, ?_, ?_, ?_⟩⟩ <;> rw [hnode]
  · exact hcache
  · exact channels_congr h.channels rfl
  · exact consumers_congr h.consumers rfl rfl
  · exact ⟨h.keys.ids, h.keys.keys⟩

omit [NetUrl] in
theorem storeChannelBy_channelID {now : Time} {newID : Xid} {channel stored : Channel} {db db' : Db}
    (h : storeChannelBy exactly now newID channel db = (.ok stored, db')) :
    stored.channelID = channel.channelID := by
  rcases StakeholderTable.store_eq_ok h with ⟨rfl, -⟩ | ⟨f, hf, rfl, -⟩ | ⟨hf, -⟩
  · rfl
  · have hid : f.channelID = channel.channelID := getChannelBy_channelID (isExact_exactly _) hf
    exact hid
  · exact getChannelBy_channelID (isExact_exactly _) hf

/-- The answer for a consumer has the channel of the consumer in it, and depends on it and on the
table of the consumers. -/
theorem get_consumer_channel {db : Db} {q : ConsumerLookup} {consumer : Consumer}
    (h : (consumerRepository exactly).get db q = .ok consumer) :
    ∃ channel, consumer.consumingFrom = some channel ∧
      getChannelBy exactly db consumer.getChannelIDSafely = .ok channel ∧
      ∀ db' : Db, db'.consumer = db.consumer →
        getChannelBy exactly db' consumer.getChannelIDSafely = .ok channel →
        (consumerRepository exactly).get db' q = .ok consumer := by
  cases q with
  | get channelID consumerID =>
    change getConsumerFrom exactly db (getChannelBy exactly db channelID) channelID consumerID =
      _ at h
    cases hchannel : getChannelBy exactly db channelID with
    | error e =>
      rw [hchannel] at h
      cases h
    | ok channel =>
      rw [hchannel] at h
      have hid := getChannelBy_channelID (isExact_exactly _) hchannel
      obtain ⟨row, hfind, rfl⟩ := getConsumerFrom_eq_ok.1 h
      have hsafely : (row.toConsumer channel).getChannelIDSafely = channelID := hid
      rw [hsafely]
      refine ⟨channel, rfl, hchannel, fun db' hconsumer hchannel' => ?_⟩
      change getConsumerFrom exactly db' (getChannelBy exactly db' channelID) channelID
        consumerID = _
      rw [hchannel', getConsumerFrom_eq_ok]
      exact ⟨row, by rw [← hfind, findConsumerBy, findConsumerBy, hconsumer], rfl⟩
  | getByID id =>
    change getConsumerByIDBy exactly db id = _ at h
    cases hfind : findConsumerByID exactly db id with
    | none =>
      simp only [getConsumerByIDBy, hfind] at h
      cases h
    | some row =>
      simp only [getConsumerByIDBy, hfind] at h
      cases hchannel : getChannelBy exactly db row.channelId with
      | error e =>
        rw [hchannel] at h
        cases h
      | ok channel =>
        rw [hchannel] at h
        cases h
        have hsafely : (row.toConsumer channel).getChannelIDSafely = row.channelId :=
          getChannelBy_channelID (isExact_exactly _) hchannel
        rw [hsafely]
        refine ⟨channel, rfl, hchannel, fun db' hconsumer hchannel' => ?_⟩
        change getConsumerByIDBy exactly db' id = _
        have hfind' : findConsumerByID exactly db' id = some row := by
          rw [← hfind, findConsumerByID, findConsumerByID, hconsumer]
        rw [getConsumerByIDBy, hfind']
        simp only [hchannel', Except.map]

/-- The channel is stored with the name and the token that it has in the consumers in the cache. -/
def KeepsChannel (s : CachedNode) (channel : Channel) : Prop :=
  ∀ key consumer c, s.consumers key = some consumer → consumer.consumingFrom = some c →
    c.channelID = channel.channelID → c.name = channel.name ∧ c.token = channel.token

omit [NetUrl] in
theorem storeChannelBy_same {now : Time} {newID : Xid} {channel found : Channel} {db : Db}
    (hfound : getChannelBy exactly db channel.channelID = .ok found)
    (hvalues : found.name = channel.name ∧ found.token = channel.token) :
    storeChannelBy exactly now newID channel db = (.ok found, db) := by
  have hsame : channelTable.values channel = channelTable.values found :=
    Prod.ext hvalues.1.symm hvalues.2.symm
  rw [storeChannelBy, hfound, StakeholderTable.store, if_neg (not_not.2 hsame)]

/-- What is cached of the consumers is what it was before the channel was stored. -/
theorem Coherent.consumers_storeChannel (h : s.Coherent P) (now : Time) (newID : Xid)
    {channel : Channel} (hkeeps : s.KeepsChannel channel) :
    (consumerRepository exactly).Coherent P s.consumers
      (storeChannelBy exactly now newID channel s.db).2 := by
  refine h.consumers.keep fun key consumer q hentry _ hget => ?_
  obtain ⟨c, hfrom, hc, hdepends⟩ := get_consumer_channel hget
  have hid : c.channelID = consumer.getChannelIDSafely :=
    getChannelBy_channelID (isExact_exactly _) hc
  rcases eq_or_ne c.channelID channel.channelID with hsame | hne
  · rw [hid] at hsame
    rw [hsame] at hc
    rw [storeChannelBy_same hc (hkeeps key consumer c hentry hfrom (hid.trans hsame))]
    exact hget
  · obtain ⟨rows, hrows⟩ : ∃ rows, (storeChannelBy exactly now newID channel s.db).2 =
        { s.db with channel := rows } := StakeholderTable.store_frame channelTable ..
    refine hdepends _ (by rw [hrows]) ?_
    cases hstore : storeChannelBy exactly now newID channel s.db with
    | mk result db' =>
      cases result with
      | error e =>
        rw [StakeholderTable.store_eq_error hstore]
        exact hc
      | ok stored =>
        have hstored : stored.channelID ≠ consumer.getChannelIDSafely := by
          rw [storeChannelBy_channelID hstore, ← hid]
          exact hne.symm
        exact (storeChannelBy_get hstore (isExact_exactly _) hstored).trans hc

theorem Coherent.storeChannel (h : s.Coherent P) (now : Time) (newID : Xid) {channel : Channel}
    (hkeeps : s.KeepsChannel channel) :
    Writes P (s.call (.storeChannel now newID channel))
      (RepoCall.direct s.db (.storeChannel now newID channel)) := by
  obtain ⟨hresult, hdb, hcache⟩ := h.channels.cachedWrite
    fun channelID _ => channelRepository_covers (isExact_exactly channelID)
      (now, newID, channel) s.db
  have hconsumers := h.consumers_storeChannel now newID hkeeps
  obtain ⟨rows, hrows⟩ : ∃ rows, (storeChannelBy exactly now newID channel s.db).2 =
      { s.db with channel := rows } := StakeholderTable.store_frame channelTable ..
  have hnode : (s.call (.storeChannel now newID channel)).2.db = { s.db with channel := rows } :=
    hdb.trans hrows
  rw [show ((channelRepository exactly).write (now, newID, channel) s.db).2 = _
    from hrows] at hcache
  rw [hrows] at hconsumers
  refine ⟨congrArg RepoAnswer.written hresult, hdb, ⟨?_, ?_, ?_, ?_⟩⟩ <;> rw [hnode]
  · exact producers_congr h.producers rfl
  · exact hcache
  · exact hconsumers
  · exact ⟨h.keys.ids, h.keys.keys⟩

/-- A write of the consumer repository over the cached channel repository is one over the channel
repository without a cache, after lookups of channels. -/
theorem Coherent.delegateWrite (h : s.Coherent P) (w : ConsumerWrite) :
    ∃ s₁ : CachedNode, s₁.Coherent P ∧ s₁.db = s.db ∧
      s.delegateWrite w = (((consumerRepository exactly).write w s.db).1,
        { s₁ with db := ((consumerRepository exactly).write w s.db).2 }) := by
  cases w with
  | store now newID consumer =>
    have hchannel := h.getChannel consumer.getChannelIDSafely
    simp only [CachedNode.delegateWrite, consumerRepository, storeConsumerBy]
    cases hget : s.getChannel consumer.getChannelIDSafely with
    | mk answer s₁ =>
      obtain ⟨hanswer, hdb, hcoherent⟩ := hget ▸ hchannel
      rw [← hanswer]
      cases answer with
      | error e => exact ⟨s₁, hcoherent, hdb, by rw [← hdb]; rfl⟩
      | ok inChannel =>
        have hfound := hcoherent.delegateGet (.get inChannel.channelID consumer.consumerID)
        refine ⟨_, hfound.coherent, hfound.db.trans hdb, ?_⟩
        dsimp only
        rw [hfound.answer, hfound.db, hdb]
        rfl
  | delete consumer => exact ⟨s, h, rfl, rfl⟩

theorem consumerRepository_frame (w : ConsumerWrite) (db : Db) :
    ((consumerRepository exactly).write w db).2.producer = db.producer ∧
    ((consumerRepository exactly).write w db).2.channel = db.channel := by
  cases w with
  | store now newID consumer =>
    change (storeConsumerBy exactly now newID consumer db).2.producer = _ ∧
      (storeConsumerBy exactly now newID consumer db).2.channel = _
    unfold storeConsumerBy
    split
    · exact ⟨rfl, rfl⟩
    · obtain ⟨rows, hrows⟩ := StakeholderTable.store_frame consumerTable now newID _ consumer db
      rw [hrows]
      exact ⟨rfl, rfl⟩
  | delete consumer =>
    change (deleteConsumer consumer db).2.producer = _ ∧ (deleteConsumer consumer db).2.channel = _
    cases hdelete : deleteConsumer consumer db with
    | mk result db' =>
      cases result with
      | error e =>
        rw [deleteConsumer_eq_error hdelete]
        exact ⟨rfl, rfl⟩
      | ok _ =>
        obtain ⟨pauses, rfl⟩ := deleteConsumer_eq_ok hdelete
        exact ⟨rfl, rfl⟩

theorem Coherent.writeConsumer (h : s.Coherent P) {w : ConsumerWrite}
    (hproper : w.IsProper exactly s.db) :
    Writes P (s.call (.writeConsumer w)) (RepoCall.direct s.db (.writeConsumer w)) := by
  obtain ⟨s₁, hcoherent, hdb, hwrite⟩ := h.delegateWrite w
  have hkeys := @consumerRepository_keys exactly _ _ h.keys w
  have hcovers : ∀ q : ConsumerLookup, (consumerRepository exactly).Covers w s.db q := by
    intro q
    refine consumerRepository_covers ?_ h.keys hproper
    cases q with
    | get channelID consumerID => exact ⟨isExact_exactly _, isExact_exactly _⟩
    | getByID id => exact isExact_exactly id
  obtain ⟨hproducer, hchannel⟩ := consumerRepository_frame w s.db
  rw [← hdb] at hproducer hchannel
  have hdirect : RepoCall.direct s.db (.writeConsumer w) =
      (.written (((consumerRepository exactly).write w s.db).1.map fun _ => ()),
        ((consumerRepository exactly).write w s.db).2) := rfl
  unfold CachedRepository.Covers at hcovers
  rw [hdirect, CachedNode.call, hwrite]
  cases hresult : (consumerRepository exactly).write w s.db with
  | mk result db' =>
    rw [hdb, hresult] at hproducer hchannel
    rw [hresult] at hkeys hcovers
    rw [← hdb] at hproducer hchannel hcovers
    have hproducers := producers_congr hcoherent.producers hproducer
    have hchannels := channels_congr hcoherent.channels hchannel
    cases result with
    | error e =>
      refine ⟨rfl, rfl, ⟨hproducers, hchannels, hcoherent.consumers.congr fun q => ?_, hkeys⟩⟩
      rcases hcovers q with hsame | ⟨keys, hok, -⟩
      · exact hsame
      · cases hok
    | ok keys =>
      refine ⟨rfl, rfl, ⟨hproducers, hchannels, hcoherent.consumers.forget fun q _ => ?_, hkeys⟩⟩
      exact (hcovers q).imp_right fun ⟨keys', hok, hkey⟩ => Except.ok.inj hok ▸ hkey

/-! ### Runs -/

/-- The call does not break the coherence of the caches: a channel keeps its name and token while
one of its consumers is cached, and a consumer that is deleted has the id of its row. -/
def Admits (s : CachedNode) : RepoCall → Prop
  | .storeChannel _ _ channel => s.KeepsChannel channel
  | .writeConsumer w => w.IsProper exactly s.db
  | .getProducer _ | .storeProducer _ _ _ | .getChannel _ | .getConsumer _ => True

theorem Coherent.call (h : s.Coherent P) {c : RepoCall} (hadmits : s.Admits c)
    (hlookup : ∀ q, c = .getConsumer q → P q ∧ ∀ q', P q' → q'.key = q.key → q' = q) :
    Writes P (s.call c) (c.direct s.db) := by
  cases c with
  | getProducer producerID =>
    obtain ⟨hanswer, hdb, hcoherent⟩ := h.getProducer producerID
    exact ⟨congrArg RepoAnswer.producer hanswer, hdb, hcoherent⟩
  | storeProducer now newID producer => exact h.storeProducer now newID producer
  | getChannel channelID =>
    obtain ⟨hanswer, hdb, hcoherent⟩ := h.getChannel channelID
    exact ⟨congrArg RepoAnswer.channel hanswer, hdb, hcoherent⟩
  | storeChannel now newID channel => exact h.storeChannel now newID hadmits
  | getConsumer q =>
    obtain ⟨hq, hkey⟩ := hlookup q rfl
    obtain ⟨hanswer, hdb, hcoherent⟩ := h.getConsumer hq hkey
    exact ⟨congrArg RepoAnswer.consumer hanswer, hdb, hcoherent⟩
  | writeConsumer w => exact h.writeConsumer hadmits

end CachedNode

section
variable [NetUrl]

/-- The lookups of consumers before `n` with the same key are the same. -/
def CallRun.KeysDiffer (r : CallRun) (n : Nat) : Prop :=
  ∀ i < n, ∀ j < n, ∀ q q', r.act i = .getConsumer q → r.act j = .getConsumer q' →
    q.key = q'.key → q = q'

/-- The channel id, or the id, of the lookup has no colon. -/
def ConsumerLookup.HasNoColon : ConsumerLookup → Prop
  | .get channelID _ => ':' ∉ channelID.toList
  | .getByID id => ':' ∉ id.toList

omit [NetUrl] in
theorem ConsumerLookup.key_injective {q q' : ConsumerLookup} (hq : q.HasNoColon)
    (hq' : q'.HasNoColon) (h : q.key = q'.key) : q = q' := by
  have hsplit : ∀ {x x' y y' : List Char}, ':' ∉ x → ':' ∉ x' → x ++ ':' :: y = x' ++ ':' :: y' →
      x = x' ∧ y = y' := by
    intro x x' y y' hx hx' h
    rcases append_eq_append_iff.1 h with ⟨z, rfl, hz⟩ | ⟨z, rfl, hz⟩
    · cases z with
      | nil => exact ⟨(append_nil x).symm, (List.cons.inj hz).2⟩
      | cons c z =>
        obtain ⟨rfl, -⟩ := List.cons.inj hz
        exact absurd (mem_append_right x mem_cons_self) hx'
    · cases z with
      | nil => exact ⟨append_nil x', (List.cons.inj hz).2.symm⟩
      | cons c z =>
        obtain ⟨rfl, -⟩ := List.cons.inj hz
        exact absurd (mem_append_right x' mem_cons_self) hx
  have hkey : ∀ channelID consumerID : String,
      (channelID ++ ":" ++ consumerID).toList = channelID.toList ++ ':' :: consumerID.toList := by
    intro channelID consumerID
    rw [String.toList_append, String.toList_append, append_assoc]
    rfl
  have hlist := congrArg String.toList h
  cases q with
  | get channelID consumerID =>
    cases q' with
    | get channelID' consumerID' =>
      rw [key, key, hkey, hkey] at hlist
      obtain ⟨hch, hco⟩ := hsplit hq hq' hlist
      rw [String.toList_injective hch, String.toList_injective hco]
    | getByID id =>
      rw [key, key, hkey] at hlist
      exact absurd (hlist ▸ mem_append_right _ mem_cons_self) hq'
  | getByID id =>
    cases q' with
    | get channelID consumerID =>
      rw [key, key, hkey] at hlist
      exact absurd (hlist ▸ mem_append_right _ mem_cons_self) hq
    | getByID id' => exact congrArg getByID h

/-- A series of calls of the cached repositories returns what the repositories without caches would
return, with the same database, if no two lookups of consumers share a key, no channel changes its
name or token while one of its consumers is cached, and a consumer is deleted with the id of its
row. -/
theorem cached_repositories_transparent (r : CallRun) {n : Nat} (hn : n ≤ r.len)
    (hkeys : r.KeysDiffer n) (hadmits : ∀ i < n, (r.state i).Admits (r.act i)) :
    ∀ i < n, ((r.state i).call (r.act i)).1 = ((r.act i).direct (r.state i).db).1 ∧
      (r.state (i + 1)).db = ((r.act i).direct (r.state i).db).2 := by
  let P : ConsumerLookup → Prop := fun q => ∃ i < n, r.act i = .getConsumer q
  have hlookup : ∀ i < n, ∀ q, r.act i = .getConsumer q →
      P q ∧ ∀ q', P q' → q'.key = q.key → q' = q := by
    intro i hi q hact
    refine ⟨⟨i, hi, hact⟩, ?_⟩
    rintro q' ⟨j, hj, hact'⟩ hkey
    exact hkeys j hj i hi q' q hact' hact hkey
  have hcoherent : ∀ i, i ≤ n → (r.state i).Coherent P := by
    intro i hi
    induction i with
    | zero =>
      have hempty := r.start.1
      refine ⟨fun key answer h => ?_, fun key answer h => ?_, fun key answer h => ?_, r.start.2⟩
      · rw [(hempty key).1] at h; cases h
      · rw [(hempty key).2.1] at h; cases h
      · rw [(hempty key).2.2] at h; cases h
    | succ i ih =>
      have hcall := (ih (by omega)).call (hadmits i hi) (hlookup i hi)
      exact Option.some.inj (r.next i (by omega)) ▸ hcall.coherent
  intro i hi
  have hcall := (hcoherent i (by omega)).call (hadmits i hi) (hlookup i hi)
  exact ⟨hcall.answer, Option.some.inj (r.next i (by omega)) ▸ hcall.db⟩

end

/-! ## A channel with a new name, and two lookups with one key -/

namespace Sample

def cachedNode (db : Db) : CachedNode := ⟨db, fun _ => none, fun _ => none, fun _ => none⟩

def consumerDb : Db where
  channel := [channel.toRow]
  consumer := [(consumer .push).toRow]

/-- The consumers `c` of the channel `a:b` and `b:c` of the channel `a`. -/
def colonDb : Db where
  channel := [{ channel with channelID := "a:b" }.toRow,
    { channel with id := producerXid, channelID := "a" }.toRow]
  consumer := [⟨consumerXid, "c", "d", "t", "u", "a:b", .push, 1, 1⟩,
    ⟨jobXid, "b:c", "d", "t", "u", "a", .push, 1, 1⟩]

def renamed : Channel := { channel with name := "n" }

/-- The consumer is looked up before and after its channel gets a new name. -/
def renameCalls : List RepoCall :=
  [.getConsumer (.getByID consumerXid.string), .storeChannel 2 jobXid renamed,
    .getConsumer (.getByID consumerXid.string)]

def colonCalls : List RepoCall := [.getConsumer (.get "a:b" "c"), .getConsumer (.get "a" "b:c")]

/-- The consumer is looked up, and the channel is stored as it is. -/
def quietCalls : List RepoCall :=
  [.getConsumer (.get "c" "d"), .storeChannel 2 jobXid channel, .getConsumer (.get "c" "d")]

def callRun (db : Db) (calls : List RepoCall) (hkeys : db.ConsumerKeys)
    (h : (exec (fun s c => some (@CachedNode.call netUrl s c).2) (cachedNode db) calls).isSome) :
    @CallRun netUrl :=
  Run.ofActs (cachedNode db) calls ⟨fun _ => ⟨rfl, rfl, rfl⟩, hkeys⟩ h

def renameRun : @CallRun netUrl := callRun consumerDb renameCalls ⟨by decide, by decide⟩ rfl

def colonRun : @CallRun netUrl := callRun colonDb colonCalls ⟨by decide, by decide⟩ rfl

def quietRun : @CallRun netUrl := callRun consumerDb quietCalls ⟨by decide, by decide⟩ rfl

end Sample

open Sample

theorem cached_repositories_transparent_quiet :
    (@CachedNode.call netUrl (quietRun.state 2) (.getConsumer (.get "c" "d"))).1 =
      .consumer (.ok (consumer .push)) ∧
    (quietRun.state 3).db = consumerDb := by
  have hkeys : @CallRun.KeysDiffer netUrl quietRun 3 := by
    have hlookup : ∀ i < 3, ∀ q, quietRun.act i = .getConsumer q → q.HasNoColon := by
      intro i hi q hq
      obtain rfl | rfl | rfl : i = 0 ∨ i = 1 ∨ i = 2 := by omega
      · cases hq
        exact (by decide : ':' ∉ "c".toList)
      · cases hq
      · cases hq
        exact (by decide : ':' ∉ "c".toList)
    intro i hi j hj q q' hq hq' hkey
    exact ConsumerLookup.key_injective (hlookup i hi q hq) (hlookup j hj q' hq') hkey
  have hadmits : ∀ i < 3, (quietRun.state i).Admits (quietRun.act i) := by
    intro i hi
    obtain rfl | rfl | rfl : i = 0 ∨ i = 1 ∨ i = 2 := by omega
    · trivial
    · intro key consumer c hentry hfrom _
      have hcached : (quietRun.state 1).consumers =
          update (fun _ => none) "c:d" (some (Sample.consumer .push)) := rfl
      rw [hcached] at hentry
      rcases eq_or_ne key "c:d" with rfl | hne
      · rw [update_self] at hentry
        cases hentry
        cases hfrom
        exact ⟨rfl, rfl⟩
      · rw [update_of_ne hne] at hentry
        cases hentry
    · trivial
  exact @cached_repositories_transparent netUrl quietRun 3 (by decide) hkeys hadmits 2
    (by decide)

/-- A consumer is returned with the old name of its channel, and a lookup returns another consumer,
which has the same key. -/
theorem cached_consumers_differ :
    ((@CachedNode.call netUrl (renameRun.state 2) (renameRun.act 2)).1 =
        .consumer (.ok (consumer .push)) ∧
      (@RepoCall.direct netUrl (renameRun.state 2).db (renameRun.act 2)).1 =
        .consumer (.ok { consumer .push with
          consumingFrom := some { renamed with updatedAt := 2 } })) ∧
    ∃ found expected : Consumer,
      (@CachedNode.call netUrl (colonRun.state 1) (colonRun.act 1)).1 =
        .consumer (.ok found) ∧
      (@RepoCall.direct netUrl (colonRun.state 1).db (colonRun.act 1)).1 =
        .consumer (.ok expected) ∧
      found.consumerID = "c" ∧ expected.consumerID = "b:c" := by
  refine ⟨⟨rfl, rfl⟩, _, _, rfl, rfl, rfl, rfl⟩

end WebhookBroker
