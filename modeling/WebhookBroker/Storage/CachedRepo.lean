import WebhookBroker.Storage.Writes

/-!
# Cached repositories (`producerrepo.go`, `channelrepo.go` and `consumerrepo.go` in `storage`)

The repositories of producers, channels and consumers are decorated with a cache. A lookup is
answered from the cache, or the answer of the delegate is filled in, and a write deletes the keys of
the record that it stored or deleted.

What the decorators rely on is that a write changes no other answers than those of the keys it
deletes. For lookups that match one id only this holds of every `Store` (`storeProducerBy_get`,
`storeChannelBy_get`, `consumerStore_get`), and of a `Delete` if the consumer that it is given has
the id of the stored one (`deleteConsumer_get`).
-/

namespace WebhookBroker

open Lib List

section
variable (like : String → String → Bool) (db : Db)

/-- `Get` of the producer repository, where `like` is the comparison of the database. -/
def getProducerBy (producerID : String) : Except StorageErr Producer :=
  match db.producer.find? fun row => like producerID row.producerId with
  | some row => .ok row.toProducer
  | none => .error .noRows

/-- `Get` of the channel repository. -/
def getChannelBy (channelID : String) : Except StorageErr Channel :=
  match db.channel.find? fun row => like channelID row.channelId with
  | some row => .ok row.toChannel
  | none => .error .noRows

/-- The row that `Get` of the consumer repository finds. -/
def findConsumerBy (channelID consumerID : String) : Option ConsumerRow :=
  db.consumer.find? fun row => like channelID row.channelId && like consumerID row.consumerId

/-- `Get` of the consumer repository, with the answer of the channel repository. -/
def getConsumerFrom (channel : Except StorageErr Channel) (channelID consumerID : String) :
    Except StorageErr Consumer :=
  match channel, findConsumerBy like db channelID consumerID with
  | .error e, _ => .error e
  | .ok channel, some row => .ok (row.toConsumer channel)
  | .ok _, none => .error .noRows

@[inherit_doc getConsumerFrom]
def getConsumerBy (channelID consumerID : String) : Except StorageErr Consumer :=
  getConsumerFrom like db (getChannelBy like db channelID) channelID consumerID

/-- The row that `GetByID` of the consumer repository finds. -/
def findConsumerByID (id : String) : Option ConsumerRow :=
  db.consumer.find? fun row => like id row.id.string

/-- `GetByID` of the consumer repository. -/
def getConsumerByIDBy (id : String) : Except StorageErr Consumer :=
  match findConsumerByID like db id with
  | some row => (getChannelBy like db row.channelId).map fun channel => row.toConsumer channel
  | none => .error .noRows

end

theorem getChannelBy_sqlLike : getChannelBy sqlLike = getChannel := rfl

theorem getConsumerBy_sqlLike (db : Db) (channelID consumerID : String) :
    getConsumerBy sqlLike db channelID consumerID = getConsumer db channelID consumerID := by
  rw [getConsumerBy, getConsumer, getChannelBy_sqlLike]
  unfold getConsumerFrom
  cases getChannel db channelID with
  | error e => rfl
  | ok channel =>
    rw [show findConsumerBy sqlLike db = findConsumer db from rfl]
    cases findConsumer db channelID consumerID <;> rfl

/-- The pattern matches itself only. -/
def IsExact (like : String → String → Bool) (pattern : String) : Prop :=
  ∀ text, like pattern text = true ↔ pattern = text

theorem isExact_beq (pattern : String) : IsExact (· == ·) pattern := fun _ => beq_iff_eq

theorem isExact_sqlLike {pattern : String} (h : ∀ c ∈ pattern.toList, isWildcard c = false) :
    IsExact sqlLike pattern := sqlLike_iff_eq h

section
variable (like : String → String → Bool) (now : Time) (newID : Xid)

/-- `Store` of the producer repository. -/
def storeProducerBy (producer : Producer) (db : Db) : Except StorageErr Producer × Db :=
  producerTable.store now newID (getProducerBy like db producer.producerID) producer db

/-- `Store` of the channel repository. -/
def storeChannelBy (channel : Channel) (db : Db) : Except StorageErr Channel × Db :=
  channelTable.store now newID (getChannelBy like db channel.channelID) channel db

/-- `Store` of the consumer repository. -/
def storeConsumerBy [NetUrl] (consumer : Consumer) (db : Db) : Except StorageErr Consumer × Db :=
  match getChannelBy like db consumer.getChannelIDSafely with
  | .error e => (.error e, db)
  | .ok inChannel =>
    consumerTable.store now newID (getConsumerBy like db inChannel.channelID consumer.consumerID)
      consumer db

end

namespace StakeholderTable
variable {ε ρ κ ν : Type} [DecidableEq ρ] [DecidableEq κ] [DecidableEq ν]
  {T : StakeholderTable ε ρ κ ν} {now : Time} {newID : Xid} {entity stored : ε} {db db' : Db}
  {found : Except StorageErr ε}

theorem store_eq_error {e : StorageErr} (h : T.store now newID found entity db = (.error e, db')) :
    db' = db := by
  have htx : ∀ (q : Tx Nat) (f : Unit → ε),
      ((transactionalSingleRowWriteExec q db).1.map f, (transactionalSingleRowWriteExec q db).2) =
        (.error e, db') → db' = db := by
    intro q f h
    rcases transactionalSingleRowWriteExec_cases q db with ⟨db₁, -, hr⟩ | ⟨e', hr⟩
    · rw [hr] at h
      cases h
    · rw [hr] at h
      exact (Prod.mk.inj h).2.symm
  unfold store at h
  split at h
  · unfold insert at h
    dsimp only at h
    split at h
    · exact (Prod.mk.inj h).2.symm
    · exact htx _ _ h
  · split at h
    · split at h
      · exact (Prod.mk.inj h).2.symm
      · exact htx _ _ h
    · cases h

/-- What a `Store` returns and does: the entity is new, the record that was found is updated, or it
is as it should be. -/
theorem store_eq_ok (h : T.store now newID found entity db = (.ok stored, db')) :
    (stored = T.quickFix now newID entity ∧
      ((T.rows db ++ [T.toRow stored]).map T.id).Nodup ∧
      ((T.rows db ++ [T.toRow stored]).map T.rowKey).Nodup ∧
      db' = T.withRows (T.rows db ++ [T.toRow stored]) db) ∨
    (∃ f, found = .ok f ∧ stored = T.setRecord (T.values entity) now f ∧
      db' = T.withRows (updateWhere (fun row => decide (T.rowKey row = T.key f))
        (T.setRow (T.values entity) now) (T.rows db)) db) ∨
    (found = .ok stored ∧ T.values entity = T.values stored ∧ db' = db) := by
  unfold store at h
  split at h
  · refine .inl ?_
    unfold insert at h
    dsimp only at h
    split at h
    · cases h
    · rcases transactionalSingleRowWriteExec_cases
        (T.insertRow (T.toRow (T.quickFix now newID entity))) db with ⟨db₁, hq, hr⟩ | ⟨e, hr⟩
      · rw [hr] at h
        cases h
        unfold insertRow at hq
        split at hq
        · cases hq
        · rename_i hkeys
          split at hq
          · cases hq
          · cases hq
            obtain ⟨hids, hrowKeys⟩ := not_not.1 hkeys
            exact ⟨rfl, hids, hrowKeys, rfl⟩
      · rw [hr] at h
        cases h
  · rename_i f
    split at h
    · split at h
      · cases h
      · have hset : stored = T.setRecord (T.values entity) now f := by
          unfold update at h
          dsimp only at h
          rcases transactionalSingleRowWriteExec_cases
            (T.updateRow (T.key f) (T.values entity) now) db with ⟨db₁, -, hr⟩ | ⟨e, hr⟩
          · rw [hr] at h
            exact (Except.ok.inj (Prod.mk.inj h).1).symm
          · rw [hr] at h
            cases h
        exact .inr (.inl ⟨f, rfl, hset, (update_eq_ok h).1⟩)
    · rename_i hvalues
      cases h
      exact .inr (.inr ⟨rfl, not_not.1 hvalues, rfl⟩)

/-- A `Store` changes the rows with the key of the record that it returns only. -/
theorem store_keepsOthers (hfix : ∀ now newID e, T.key (T.quickFix now newID e) = T.key e)
    (hset : ∀ v now e, T.key (T.setRecord v now e) = T.key e)
    (h : T.store now newID found entity db = (.ok stored, db')) : T.KeepsOthers stored db db' := by
  rcases store_eq_ok h with ⟨rfl, -, -, rfl⟩ | ⟨f, -, rfl, rfl⟩ | ⟨-, -, rfl⟩
  · simp [KeepsOthers, T.rows_withRows, hfix, T.rowKey_toRow]
  · rw [KeepsOthers, T.rows_withRows, hset,
      filter_updateWhere fun row _ => by rw [T.rowKey_setRow], updateWhere_eq_self]
    refine ⟨rfl, fun row hrow hkey => ?_⟩
    exact absurd (of_decide_eq_true hkey) (of_decide_eq_true (mem_filter.1 hrow).2)
  · exact ⟨(T.withRows_rows db').symm, rfl⟩

theorem store_frame (T : StakeholderTable ε ρ κ ν) (now : Time) (newID : Xid)
    (found : Except StorageErr ε) (entity : ε) (db : Db) :
    ∃ rows, (T.store now newID found entity db).2 = T.withRows rows db := by
  cases hstore : T.store now newID found entity db with
  | mk result db' =>
    cases result with
    | error e => exact ⟨T.rows db, (store_eq_error hstore).trans (T.withRows_rows db).symm⟩
    | ok stored =>
      rcases store_eq_ok hstore with ⟨-, -, -, hdb⟩ | ⟨f, -, -, hdb⟩ | ⟨-, -, hdb⟩
      · exact ⟨_, hdb⟩
      · exact ⟨_, hdb⟩
      · exact ⟨T.rows db, hdb.trans (T.withRows_rows db).symm⟩

omit [DecidableEq ρ] [DecidableEq ν] in
theorem KeepsOthers.find?_eq (h : T.KeepsOthers stored db db') {m : ρ → Bool}
    (hm : ∀ row ∈ T.rows db ++ T.rows db', m row = true → T.rowKey row ≠ T.key stored) :
    (T.rows db').find? m = (T.rows db).find? m := by
  rw [← find?_filter_of_imp fun row hrow hp => decide_eq_true
      (hm row (mem_append_right _ hrow) hp), h.2,
    find?_filter_of_imp fun row hrow hp => decide_eq_true (hm row (mem_append_left _ hrow) hp)]

end StakeholderTable

/-! ## What a write leaves as it is -/

section
variable {like : String → String → Bool} {now : Time} {newID : Xid} {db db' : Db}
variable {id : String}

theorem storeProducerBy_get {producer stored : Producer}
    (h : storeProducerBy like now newID producer db = (.ok stored, db'))
    (hexact : IsExact like id) (hid : stored.producerID ≠ id) :
    getProducerBy like db' id = getProducerBy like db id := by
  have hkeep : producerTable.KeepsOthers stored db db' :=
    StakeholderTable.store_keepsOthers (fun _ _ _ => rfl) (fun _ _ _ => rfl) h
  have hfind : db'.producer.find? (fun row => like id row.producerId) =
      db.producer.find? fun row => like id row.producerId :=
    hkeep.find?_eq fun row _ hlike hkey => hid (((hexact _).1 hlike).trans hkey).symm
  rw [getProducerBy, getProducerBy, hfind]

theorem storeChannelBy_get {channel stored : Channel}
    (h : storeChannelBy like now newID channel db = (.ok stored, db')) (hexact : IsExact like id)
    (hid : stored.channelID ≠ id) : getChannelBy like db' id = getChannelBy like db id := by
  have hkeep : channelTable.KeepsOthers stored db db' :=
    StakeholderTable.store_keepsOthers (fun _ _ _ => rfl) (fun _ _ _ => rfl) h
  have hfind : db'.channel.find? (fun row => like id row.channelId) =
      db.channel.find? fun row => like id row.channelId :=
    hkeep.find?_eq fun row _ hlike hkey => hid (((hexact _).1 hlike).trans hkey).symm
  rw [getChannelBy, getChannelBy, hfind]

structure Db.ConsumerKeys (db : Db) : Prop where
  ids : (db.consumer.map (·.id)).Nodup
  keys : (db.consumer.map fun row => (row.consumerId, row.channelId)).Nodup

variable {channelID consumerID : String}

theorem getConsumerBy_congr (hchannel : db'.channel = db.channel)
    (hfind : findConsumerBy like db' channelID consumerID = findConsumerBy like db channelID
      consumerID) :
    getConsumerBy like db' channelID consumerID = getConsumerBy like db channelID consumerID := by
  unfold getConsumerBy getConsumerFrom getChannelBy
  rw [hfind, hchannel]

theorem getConsumerByIDBy_congr (hchannel : db'.channel = db.channel)
    (hfind : findConsumerByID like db' id = findConsumerByID like db id) :
    getConsumerByIDBy like db' id = getConsumerByIDBy like db id := by
  unfold getConsumerByIDBy getChannelBy
  rw [hfind, hchannel]

variable {channel : Channel}

theorem getChannelBy_channelID {channelID : String} (hexact : IsExact like channelID)
    (h : getChannelBy like db channelID = .ok channel) : channel.channelID = channelID := by
  unfold getChannelBy at h
  cases hfind : db.channel.find? fun row => like channelID row.channelId with
  | none =>
    rw [hfind] at h
    cases h
  | some row =>
    rw [hfind] at h
    cases h
    have hlike := List.find?_some hfind
    exact ((hexact _).1 hlike).symm

theorem getConsumerFrom_eq_ok {f : Consumer} :
    getConsumerFrom like db (.ok channel) channelID consumerID = .ok f ↔
      ∃ row, findConsumerBy like db channelID consumerID = some row ∧
        row.toConsumer channel = f := by
  unfold getConsumerFrom
  cases findConsumerBy like db channelID consumerID with
  | none => simp
  | some row => simp

theorem getConsumerFrom_row {f : Consumer} (hexact : IsExact like channelID)
    (hchannel : channel.channelID = channelID)
    (h : getConsumerFrom like db (.ok channel) channelID consumerID = .ok f) :
    ∃ row ∈ db.consumer, row.id = f.id ∧
      (row.consumerId, row.channelId) = (f.consumerID, f.getChannelIDSafely) := by
  obtain ⟨row, hfind, rfl⟩ := getConsumerFrom_eq_ok.1 h
  have hlike := List.find?_some hfind
  refine ⟨row, mem_of_find?_eq_some hfind, rfl, Prod.ext rfl ?_⟩
  exact ((hexact _).1 (Bool.and_eq_true_iff.1 hlike).1).symm.trans hchannel.symm

section
variable [NetUrl] {found : Except StorageErr Consumer} {consumer stored : Consumer}

theorem consumerStore_keys (hkeys : db.ConsumerKeys)
    (h : consumerTable.store now newID found consumer db = (.ok stored, db')) :
    db'.ConsumerKeys := by
  rcases StakeholderTable.store_eq_ok h with ⟨-, hids, hrowKeys, rfl⟩ | ⟨f, -, -, rfl⟩ | ⟨-, -, rfl⟩
  · exact ⟨hids, hrowKeys⟩
  · have hmap : ∀ {κ : Type} (g : ConsumerRow → κ),
        (∀ row, g (consumerTable.setRow consumer.values now row) = g row) →
        (updateWhere (fun row => decide (consumerTable.rowKey row = consumerTable.key f))
          (consumerTable.setRow consumer.values now) db.consumer).map g = db.consumer.map g :=
      fun g hg => map_updateWhere fun row _ => hg row
    exact ⟨(hmap (·.id) fun _ => rfl) ▸ hkeys.ids,
      (hmap (fun row => (row.consumerId, row.channelId)) fun _ => rfl) ▸ hkeys.keys⟩
  · exact hkeys

theorem consumerStore_id (hkeys : db.ConsumerKeys)
    (hfound : ∀ f, found = .ok f → ∃ row ∈ db.consumer, row.id = f.id ∧
      (row.consumerId, row.channelId) = (f.consumerID, f.getChannelIDSafely))
    (h : consumerTable.store now newID found consumer db = (.ok stored, db')) :
    ∀ row ∈ db.consumer ++ db'.consumer,
      (row.consumerId, row.channelId) = (stored.consumerID, stored.getChannelIDSafely) →
      row.id = stored.id := by
  have hold : ∀ f, found = .ok f → ∀ row ∈ db.consumer,
      (row.consumerId, row.channelId) = (f.consumerID, f.getChannelIDSafely) → row.id = f.id := by
    intro f hf row hrow hkey
    obtain ⟨row', hrow', hid, hkey'⟩ := hfound f hf
    rw [inj_on_of_nodup_map hkeys.keys hrow hrow' (hkey.trans hkey'.symm), hid]
  intro row hrow hkey
  rcases StakeholderTable.store_eq_ok h with
    ⟨-, -, hrowKeys, rfl⟩ | ⟨f, hf, rfl, rfl⟩ | ⟨hf, -, rfl⟩
  · have hmem : row ∈ db.consumer ++ [stored.toRow] := by
      rcases mem_append.1 hrow with hrow | hrow
      · exact mem_append_left _ hrow
      · exact hrow
    exact congrArg ConsumerRow.id (inj_on_of_nodup_map hrowKeys hmem
      (mem_append_right _ (mem_singleton_self _)) hkey)
  · rcases mem_append.1 hrow with hrow | hrow
    · exact hold f hf row hrow hkey
    · obtain ⟨row₀, hrow₀, rfl⟩ := mem_updateWhere.1 hrow
      split at hkey
      · rw [if_pos ‹_›]
        exact hold f hf row₀ hrow₀ hkey
      · rw [if_neg ‹_›]
        exact hold f hf row₀ hrow₀ hkey
  · exact hold stored hf row (by simpa using hrow) hkey

/-- A `Store` of a consumer changes the answers for its own key and its own id only. -/
theorem consumerStore_get (hkeys : db.ConsumerKeys)
    (hfound : ∀ f, found = .ok f → ∃ row ∈ db.consumer, row.id = f.id ∧
      (row.consumerId, row.channelId) = (f.consumerID, f.getChannelIDSafely))
    (h : consumerTable.store now newID found consumer db = (.ok stored, db')) :
    (∀ channelID consumerID, IsExact like channelID → IsExact like consumerID →
      (stored.getChannelIDSafely, stored.consumerID) ≠ (channelID, consumerID) →
      getConsumerBy like db' channelID consumerID = getConsumerBy like db channelID consumerID) ∧
    ∀ id, IsExact like id → stored.id.string ≠ id →
      getConsumerByIDBy like db' id = getConsumerByIDBy like db id := by
  have hkeep : consumerTable.KeepsOthers stored db db' :=
    StakeholderTable.store_keepsOthers (fun _ _ _ => rfl) (fun _ _ _ => rfl) h
  have hchannel : db'.channel = db.channel := by rw [hkeep.1]; rfl
  refine ⟨fun channelID consumerID hch hco hne => ?_, fun id hexact hid => ?_⟩
  · refine getConsumerBy_congr hchannel (hkeep.find?_eq fun row _ hlike hkey => hne ?_)
    obtain ⟨hlikeCh, hlikeCo⟩ := Bool.and_eq_true_iff.1 hlike
    obtain ⟨hcons, hchan⟩ := Prod.mk.inj hkey
    rw [(hch _).1 hlikeCh, (hco _).1 hlikeCo, hcons, hchan]
  · refine getConsumerByIDBy_congr hchannel (hkeep.find?_eq fun row hrow hlike hkey => hid ?_)
    rw [← consumerStore_id hkeys hfound h row hrow hkey, (hexact _).1 hlike]

end

variable {consumer : Consumer}

theorem deleteConsumer_eq_ok (h : deleteConsumer consumer db = (.ok (), db')) :
    ∃ pauses, db' = { db with
      consumer := deleteWhere (fun row => row.channelId == consumer.getChannelIDSafely &&
        row.consumerId == consumer.consumerID) db.consumer
      dispatchPause := pauses } := by
  rcases transactionalSingleRowWriteExec_cases
    (deleteConsumerRow consumer.getChannelIDSafely consumer.consumerID) db with
    ⟨db₁, hq, hr⟩ | ⟨e, hr⟩ <;> rw [deleteConsumer, hr] at h
  · cases h
    unfold deleteConsumerRow at hq
    dsimp only at hq
    split at hq
    · cases hq
    · exact ⟨_, (Prod.mk.inj (Except.ok.inj hq)).2.symm⟩
  · cases h

theorem deleteConsumer_eq_error {e : StorageErr}
    (h : deleteConsumer consumer db = (.error e, db')) : db' = db := by
  rcases transactionalSingleRowWriteExec_cases
    (deleteConsumerRow consumer.getChannelIDSafely consumer.consumerID) db with
    ⟨db₁, -, hr⟩ | ⟨e', hr⟩ <;> rw [deleteConsumer, hr] at h
  · cases h
  · exact (Prod.mk.inj h).2.symm

/-- A `Delete` of a consumer changes the answers for its key and for the id of the deleted row
only. -/
theorem deleteConsumer_get (h : deleteConsumer consumer db = (.ok (), db'))
    (hid : ∀ row ∈ db.consumer, row.channelId = consumer.getChannelIDSafely → row.consumerId =
      consumer.consumerID → row.id = consumer.id) :
    (∀ channelID consumerID, IsExact like channelID → IsExact like consumerID →
      (consumer.getChannelIDSafely, consumer.consumerID) ≠ (channelID, consumerID) →
      getConsumerBy like db' channelID consumerID = getConsumerBy like db channelID consumerID) ∧
    ∀ id, IsExact like id → consumer.id.string ≠ id →
      getConsumerByIDBy like db' id = getConsumerByIDBy like db id := by
  obtain ⟨pauses, rfl⟩ := deleteConsumer_eq_ok h
  refine ⟨fun channelID consumerID hch hco hne => ?_, fun id hexact hne => ?_⟩
  · refine getConsumerBy_congr (by rfl) ?_
    refine find?_filter_of_imp fun row _ hlike => ?_
    obtain ⟨hlikeCh, hlikeCo⟩ := Bool.and_eq_true_iff.1 hlike
    rw [Bool.not_eq_true', Bool.eq_false_iff, ne_eq, Bool.and_eq_true, beq_iff_eq, beq_iff_eq]
    rintro ⟨hchan, hcons⟩
    exact hne (by rw [(hch _).1 hlikeCh, (hco _).1 hlikeCo, hchan, hcons])
  · refine getConsumerByIDBy_congr (by rfl) ?_
    refine find?_filter_of_imp fun row hrow hlike => ?_
    rw [Bool.not_eq_true', Bool.eq_false_iff, ne_eq, Bool.and_eq_true, beq_iff_eq, beq_iff_eq]
    rintro ⟨hchan, hcons⟩
    exact hne (by rw [← hid row hrow hchan hcons, (hexact _).1 hlike])

end

/-- A repository as its decorator sees it. -/
structure CachedRepository (Q α ω : Type) where
  /-- the key under which the answer of a lookup is cached -/
  key : Q → String
  get : Db → Q → Except StorageErr α
  /-- a write of the delegate; if it succeeds, the keys that are deleted from the cache after it -/
  write : ω → Db → Except StorageErr (List String) × Db

section
variable (like : String → String → Bool)

/-- `CachedProducerRepository`. -/
def producerRepository : CachedRepository String Producer (Time × Xid × Producer) where
  key producerID := producerID
  get := getProducerBy like
  write := fun (now, newID, producer) db =>
    let (stored, db) := storeProducerBy like now newID producer db
    (stored.map fun producer => [producer.producerID], db)

/-- `CachedChannelRepository`. -/
def channelRepository : CachedRepository String Channel (Time × Xid × Channel) where
  key channelID := channelID
  get := getChannelBy like
  write := fun (now, newID, channel) db =>
    let (stored, db) := storeChannelBy like now newID channel db
    (stored.map fun channel => [channel.channelID], db)

inductive ConsumerLookup where
  | get (channelID consumerID : String)
  | getByID (id : String)
deriving DecidableEq

def ConsumerLookup.key : ConsumerLookup → String
  | .get channelID consumerID => channelID ++ ":" ++ consumerID
  | .getByID id => id

inductive ConsumerWrite where
  | store (now : Time) (newID : Xid) (consumer : Consumer)
  | delete (consumer : Consumer)

/-- The keys that are deleted after a write of a consumer. -/
def Consumer.cacheKeys (consumer : Consumer) : List String :=
  [consumer.getChannelIDSafely ++ ":" ++ consumer.consumerID, consumer.id.string]

/-- `CachedConsumerRepository`. -/
def consumerRepository [NetUrl] : CachedRepository ConsumerLookup Consumer ConsumerWrite where
  key := ConsumerLookup.key
  get db
    | .get channelID consumerID => getConsumerBy like db channelID consumerID
    | .getByID id => getConsumerByIDBy like db id
  write
    | .store now newID consumer, db =>
      let (stored, db) := storeConsumerBy like now newID consumer db
      (stored.map fun consumer => consumer.cacheKeys, db)
    | .delete consumer, db =>
      let (result, db) := deleteConsumer consumer db
      (result.map fun _ => consumer.cacheKeys, db)

end

/-! ## The keys that a write deletes -/

/-- A write leaves the answer of a lookup as it is, or it deletes the key of the lookup. -/
def CachedRepository.Covers {Q α ω : Type} (R : CachedRepository Q α ω) (w : ω) (db : Db) (q : Q) :
    Prop :=
  R.get (R.write w db).2 q = R.get db q ∨ ∃ keys, (R.write w db).1 = .ok keys ∧ R.key q ∈ keys

section
variable {like : String → String → Bool}

theorem producerRepository_covers {producerID : String} (hexact : IsExact like producerID)
    (w : Time × Xid × Producer) (db : Db) : (producerRepository like).Covers w db producerID := by
  obtain ⟨now, newID, producer⟩ := w
  unfold CachedRepository.Covers producerRepository
  dsimp only
  cases hstore : storeProducerBy like now newID producer db with
  | mk result db' =>
    cases result with
    | error e =>
      rw [StakeholderTable.store_eq_error hstore]
      exact .inl rfl
    | ok stored =>
      by_cases hid : stored.producerID = producerID
      · exact .inr ⟨_, rfl, hid ▸ mem_singleton_self _⟩
      · exact .inl (storeProducerBy_get hstore hexact hid)

theorem channelRepository_covers {channelID : String} (hexact : IsExact like channelID)
    (w : Time × Xid × Channel) (db : Db) : (channelRepository like).Covers w db channelID := by
  obtain ⟨now, newID, channel⟩ := w
  unfold CachedRepository.Covers channelRepository
  dsimp only
  cases hstore : storeChannelBy like now newID channel db with
  | mk result db' =>
    cases result with
    | error e =>
      rw [StakeholderTable.store_eq_error hstore]
      exact .inl rfl
    | ok stored =>
      by_cases hid : stored.channelID = channelID
      · exact .inr ⟨_, rfl, hid ▸ mem_singleton_self _⟩
      · exact .inl (storeChannelBy_get hstore hexact hid)

variable [NetUrl]

/-- The ids in a write of a consumer match exactly, and a consumer that is deleted has the id of its
row. -/
def ConsumerWrite.IsProper (like : String → String → Bool) (db : Db) : ConsumerWrite → Prop
  | .store _ _ consumer =>
    IsExact like consumer.getChannelIDSafely ∧ IsExact like consumer.consumerID
  | .delete consumer => ∀ row ∈ db.consumer, row.channelId = consumer.getChannelIDSafely →
    row.consumerId = consumer.consumerID → row.id = consumer.id

/-- The ids in a lookup of a consumer match exactly. -/
def ConsumerLookup.IsExact (like : String → String → Bool) : ConsumerLookup → Prop
  | .get channelID consumerID =>
    WebhookBroker.IsExact like channelID ∧ WebhookBroker.IsExact like consumerID
  | .getByID id => WebhookBroker.IsExact like id

/-- A `Store` of a consumer that succeeds is a `Store` of its table, and the record that it found is
a row. -/
theorem storeConsumerBy_eq_ok {now : Time} {newID : Xid} {consumer stored : Consumer} {db db' : Db}
    (hexact : IsExact like consumer.getChannelIDSafely)
    (h : storeConsumerBy like now newID consumer db = (.ok stored, db')) :
    ∃ found, consumerTable.store now newID found consumer db = (.ok stored, db') ∧
      ∀ f, found = .ok f → ∃ row ∈ db.consumer, row.id = f.id ∧
        (row.consumerId, row.channelId) = (f.consumerID, f.getChannelIDSafely) := by
  unfold storeConsumerBy at h
  split at h
  · cases h
  · rename_i inChannel hchannel
    have hid := getChannelBy_channelID hexact hchannel
    refine ⟨_, h, fun f hf => ?_⟩
    rw [getConsumerBy, hid, hchannel] at hf
    exact getConsumerFrom_row hexact hid hf

theorem consumerRepository_keys {db : Db} (hkeys : db.ConsumerKeys) (w : ConsumerWrite) :
    ((consumerRepository like).write w db).2.ConsumerKeys := by
  cases w with
  | store now newID consumer =>
    change (storeConsumerBy like now newID consumer db).2.ConsumerKeys
    unfold storeConsumerBy
    split
    · exact hkeys
    · cases hstore : consumerTable.store now newID _ consumer db with
      | mk result db' =>
        cases result with
        | error e => exact (StakeholderTable.store_eq_error hstore).symm ▸ hkeys
        | ok stored => exact consumerStore_keys hkeys hstore
  | delete consumer =>
    change (deleteConsumer consumer db).2.ConsumerKeys
    cases hdelete : deleteConsumer consumer db with
    | mk result db' =>
      cases result with
      | error e => exact (deleteConsumer_eq_error hdelete).symm ▸ hkeys
      | ok _ =>
        obtain ⟨pauses, rfl⟩ := deleteConsumer_eq_ok hdelete
        have hsub := deleteWhere_sublist (fun row : ConsumerRow =>
          row.channelId == consumer.getChannelIDSafely && row.consumerId == consumer.consumerID)
          db.consumer
        exact ⟨hkeys.ids.sublist (hsub.map _), hkeys.keys.sublist (hsub.map _)⟩

/-- The keys that are deleted for a consumer cover the lookups whose answers depend on it only. -/
theorem Consumer.covers_of_get {consumer : Consumer} {db db' : Db} {q : ConsumerLookup}
    (hexact : q.IsExact like)
    (hget : ∀ channelID consumerID, IsExact like channelID → IsExact like consumerID →
      (consumer.getChannelIDSafely, consumer.consumerID) ≠ (channelID, consumerID) →
      getConsumerBy like db' channelID consumerID = getConsumerBy like db channelID consumerID)
    (hgetByID : ∀ id, IsExact like id → consumer.id.string ≠ id →
      getConsumerByIDBy like db' id = getConsumerByIDBy like db id) :
    (consumerRepository like).get db' q = (consumerRepository like).get db q ∨
      q.key ∈ consumer.cacheKeys := by
  cases q with
  | get channelID consumerID =>
    by_cases hkey : (consumer.getChannelIDSafely, consumer.consumerID) = (channelID, consumerID)
    · cases hkey
      exact .inr mem_cons_self
    · exact .inl (hget channelID consumerID hexact.1 hexact.2 hkey)
  | getByID id =>
    by_cases hid : consumer.id.string = id
    · subst hid
      exact .inr (mem_cons_of_mem _ (mem_singleton_self _))
    · exact .inl (hgetByID id hexact hid)

theorem consumerRepository_covers {q : ConsumerLookup} (hexact : q.IsExact like) {db : Db}
    (hkeys : db.ConsumerKeys) {w : ConsumerWrite} (hproper : w.IsProper like db) :
    (consumerRepository like).Covers w db q := by
  cases w with
  | store now newID consumer =>
    cases hstore : storeConsumerBy like now newID consumer db with
    | mk result db' =>
      have hwrite : (consumerRepository like).write (.store now newID consumer) db =
          (result.map fun consumer => consumer.cacheKeys, db') := by
        simp only [consumerRepository, hstore]
      rw [CachedRepository.Covers, hwrite]
      cases result with
      | error e =>
        refine .inl ?_
        unfold storeConsumerBy at hstore
        split at hstore
        · rw [(Prod.mk.inj hstore).2]
        · rw [StakeholderTable.store_eq_error hstore]
      | ok stored =>
        obtain ⟨found, htable, hfound⟩ := storeConsumerBy_eq_ok hproper.1 hstore
        obtain ⟨hget, hgetByID⟩ := consumerStore_get hkeys hfound htable
        rcases stored.covers_of_get hexact hget hgetByID with hsame | hkey
        · exact .inl hsame
        · exact .inr ⟨_, rfl, hkey⟩
  | delete consumer =>
    cases hdelete : deleteConsumer consumer db with
    | mk result db' =>
      have hwrite : (consumerRepository like).write (.delete consumer) db =
          (result.map fun _ => consumer.cacheKeys, db') := by
        simp only [consumerRepository, hdelete]
      rw [CachedRepository.Covers, hwrite]
      cases result with
      | error e => exact .inl (by rw [deleteConsumer_eq_error hdelete])
      | ok _ =>
        obtain ⟨hget, hgetByID⟩ := deleteConsumer_get hdelete hproper
        rcases consumer.covers_of_get hexact hget hgetByID with hsame | hkey
        · exact .inl hsame
        · exact .inr ⟨_, rfl, hkey⟩

end

end WebhookBroker
