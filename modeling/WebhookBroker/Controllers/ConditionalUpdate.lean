import WebhookBroker.Controllers.Job
import WebhookBroker.Storage.CachedRepo

/-!
# Conditional updates (`producer.go`, `channel.go` and `consumer.go` in `controllers`)

A PUT request for a producer, a channel or a consumer reads the record, from the cache of its node
or from the database, compares the second of its last update with the header `If-Unmodified-Since`,
and then stores the new content. `Store` looks the record up again and updates its row without a
condition.

So the header protects an update only if the record that the request has read is the one that is
stored when it writes, and if every update gets a later second than the one before. Two requests
with the same header may both succeed if they overlap, if one of them reads an old record from its
cache, or if they are served in the same second.
-/

namespace WebhookBroker

open Lib List Function

/-- The header `If-Unmodified-Since`: a time in `http.TimeFormat`, which ends with the seconds, or
another text. -/
inductive UnmodifiedSince where
  | missing
  | date (seconds : Int)
  | other
deriving DecidableEq

/-- The headers and the form of a PUT request, with the token that `randomToken` and the id that
`xid.New` would make. -/
structure PutRequest where
  /-- the header `Content-Type`, up to the first semicolon -/
  contentType : String
  unmodifiedSince : UnmodifiedSince
  token : String
  name : String
  /-- the form value, as `url.Parse` and `String` give it -/
  callbackURL : String
  type : String
  randomToken : String
  newID : Xid
deriving DecidableEq

def getLastUpdatedHTTPTimeString (updatedAt : Time) : UnmodifiedSince := .date (updatedAt / second)

def writeBadRequest : Status :=
  ⟨400, "Bad Request: Update is missing `If-Unmodified-Since` header "⟩

def writePreconditionFailed : Status :=
  ⟨412, "Update failed due to mismatch of `If-Unmodified-Since` header value"⟩

def writeUnsupportedMediaType : Status := ⟨415, "Media type not supported"⟩

def isConditionalUpdateCalled (req : PutRequest) (updatedAt : Time) : Except Status Unit :=
  if req.unmodifiedSince = .missing then .error writeBadRequest
  else if req.unmodifiedSince ≠ getLastUpdatedHTTPTimeString updatedAt then
    .error writePreconditionFailed
  else .ok ()

def checkFormContentType (req : PutRequest) : Except Status Unit :=
  if req.contentType ≠ "application/x-www-form-urlencoded" then .error writeUnsupportedMediaType
  else .ok ()

def getUpdateData (req : PutRequest) (defaultName : String) : String × String :=
  (if req.token.isEmpty then req.randomToken else req.token,
    if req.name.isEmpty then defaultName else req.name)

/-- The PUT endpoint of one producer, channel or consumer. -/
structure PutEndpoint (ε ρ κ ν : Type) [DecidableEq ρ] [DecidableEq κ] [DecidableEq ν] where
  table : StakeholderTable ε ρ κ ν
  key : κ
  /-- `Get` of the repository without a cache -/
  get : Db → Except StorageErr ε
  updatedAt : ε → Time
  /-- what is checked before `Get` -/
  validate : Db → PutRequest → Except Status Unit
  entity : Db → PutRequest → Except Status ε
  /-- the lookups of `Store` -/
  find : Db → ε → Except StorageErr (Except StorageErr ε)
  key_entity : ∀ {db req e}, entity db req = .ok e → table.key e = key
  key_find : ∀ {db e f}, table.key e = key → find db e = .ok (.ok f) → table.key f = key
  /-- after a `Store` the record is as it was, then the `Store` failed or had the content that it
  found, or the record was updated then -/
  get_store : ∀ {db now newID found e stored}, table.key e = key →
    (∀ f, found = .ok f → table.key f = key) → get db = .ok stored →
    (get (table.store now newID found e db).2 = .ok stored ∧
      ((table.store now newID found e db).1.isOk = true → ∀ f, found = .ok f →
        table.values e = table.values f)) ∨
      ∃ stored', get (table.store now newID found e db).2 = .ok stored' ∧ updatedAt stored' = now

namespace StakeholderTable
variable {ε ρ κ ν : Type} [DecidableEq ρ] [DecidableEq κ] [DecidableEq ν]
  {T : StakeholderTable ε ρ κ ν} {now : Time} {newID : Xid} {entity : ε} {db : Db}
  {found : Except StorageErr ε} {key : κ} {m : ρ → Bool} {row : ρ}

/-- The row with the key of the entity is as it was after a `Store`, or it is set. -/
theorem find?_store (now : Time) (newID : Xid) (hm : ∀ row, m row = true ↔ T.rowKey row = key)
    (hentity : T.key entity = key) (hfound : ∀ f, found = .ok f → T.key f = key)
    (hrow : (T.rows db).find? m = some row) :
    ((T.rows (T.store now newID found entity db).2).find? m = some row ∧
      ((T.store now newID found entity db).1.isOk = true → ∀ f, found = .ok f →
        T.values entity = T.values f)) ∨
    (T.rows (T.store now newID found entity db).2).find? m =
      some (T.setRow (T.values entity) now row) := by
  have hlike := List.find?_some hrow
  cases hstore : T.store now newID found entity db with
  | mk result db' =>
    cases result with
    | error e =>
      rw [store_eq_error hstore]
      exact .inl ⟨hrow, by rintro ⟨⟩⟩
    | ok stored =>
      rcases store_eq_ok hstore with ⟨rfl, -, hkeys, -⟩ | ⟨f, hf, -, rfl⟩ | ⟨hf, hvalues, rfl⟩
      · rw [map_append, map_singleton, T.rowKey_toRow, hentity,
          nodup_append] at hkeys
        refine absurd rfl (hkeys.2.2 key ?_ key (mem_singleton_self _))
        rw [← (hm row).1 hlike]
        exact mem_map_of_mem (mem_of_find?_eq_some hrow)
      · refine .inr ?_
        have hkey : T.rowKey row = T.key f := ((hm row).1 hlike).trans (hfound f hf).symm
        rw [T.rows_withRows, find?_updateWhere fun r _ => ?_, hrow, Option.map_some,
          if_pos (decide_eq_true hkey)]
        rw [Bool.eq_iff_iff, hm, hm, T.rowKey_setRow]
      · refine .inl ⟨hrow, fun _ f hf' => ?_⟩
        rw [hvalues, Except.ok.inj (hf.symm.trans hf')]

/-- A lookup that reads the row with the key of the entity returns after a `Store` what it returned
before, or a record that was updated then. -/
theorem get_store (get : Db → Except StorageErr ε) (read : ρ → ε) (updatedAt : ε → Time)
    (hm : ∀ row, m row = true ↔ T.rowKey row = key) (hentity : T.key entity = key)
    (hfound : ∀ f, found = .ok f → T.key f = key)
    (hupdatedAt : ∀ v row, updatedAt (read (T.setRow v now row)) = now)
    (hread : ∀ row, (T.rows (T.store now newID found entity db).2).find? m = some row →
      get (T.store now newID found entity db).2 = .ok (read row))
    (hrow : (T.rows db).find? m = some row) :
    (get (T.store now newID found entity db).2 = .ok (read row) ∧
      ((T.store now newID found entity db).1.isOk = true → ∀ f, found = .ok f →
        T.values entity = T.values f)) ∨
      ∃ stored, get (T.store now newID found entity db).2 = .ok stored ∧
        updatedAt stored = now := by
  rcases find?_store now newID hm hentity hfound hrow with ⟨hsame, hvalues⟩ | hset
  · exact .inl ⟨hread _ hsame, hvalues⟩
  · exact .inr ⟨_, hread _ hset, hupdatedAt _ row⟩

end StakeholderTable

section
variable {producerID channelID consumerID : String}

/-- `ProducerController.Put`. -/
def producerPut (producerID : String) (hexact : IsExact sqlLike producerID) :
    PutEndpoint Producer ProducerRow String (String × String) where
  table := producerTable
  key := producerID
  get db := getProducer db producerID
  updatedAt := (·.updatedAt)
  validate _ _ := .ok ()
  entity _ req :=
    let (token, name) := getUpdateData req producerID
    .ok ⟨⟨⟨req.newID, 0, 0⟩, name, token⟩, producerID⟩
  find db producer := .ok (getProducer db producer.producerID)
  key_entity := by
    intro db req e h
    cases h
    rfl
  key_find := by
    rintro db e f rfl hf
    obtain ⟨row, -, hlike, rfl⟩ := getProducer_eq_ok (Except.ok.inj hf)
    exact ((hexact _).1 hlike).symm
  get_store := by
    intro db now newID found e stored he hfound hstored
    unfold getProducer at hstored
    split at hstored
    · rename_i row hrow
      cases hstored
      refine StakeholderTable.get_store (getProducer · producerID) ProducerRow.toProducer
        (·.updatedAt) (fun row => (hexact _).trans eq_comm) he hfound (fun _ _ => rfl)
        (fun row hfind => ?_) hrow
      have hget : ∀ db : Db,
          (db.producer.find? fun row => sqlLike producerID row.producerId) = some row →
          getProducer db producerID = .ok row.toProducer := fun db h => by rw [getProducer, h]
      exact hget _ hfind
    · cases hstored

/-- `ChannelController.Put`. -/
def channelPut (channelID : String) (hexact : IsExact sqlLike channelID) :
    PutEndpoint Channel ChannelRow String (String × String) where
  table := channelTable
  key := channelID
  get db := getChannel db channelID
  updatedAt := (·.updatedAt)
  validate _ _ := .ok ()
  entity _ req :=
    let (token, name) := getUpdateData req channelID
    .ok ⟨⟨⟨req.newID, 0, 0⟩, name, token⟩, channelID⟩
  find db channel := .ok (getChannel db channel.channelID)
  key_entity := by
    intro db req e h
    cases h
    rfl
  key_find := by
    rintro db e f rfl hf
    exact getChannelBy_channelID hexact (Except.ok.inj hf)
  get_store := by
    intro db now newID found e stored he hfound hstored
    unfold getChannel at hstored
    split at hstored
    · rename_i row hrow
      cases hstored
      refine StakeholderTable.get_store (getChannel · channelID) ChannelRow.toChannel (·.updatedAt)
        (fun row => (hexact _).trans eq_comm) he hfound (fun _ _ => rfl) (fun row hfind => ?_) hrow
      have hget : ∀ db : Db,
          (db.channel.find? fun row => sqlLike channelID row.channelId) = some row →
          getChannel db channelID = .ok row.toChannel := fun db h => by rw [getChannel, h]
      exact hget _ hfind
    · cases hstored

theorem matches_consumer_iff (hchannelID : IsExact sqlLike channelID)
    (hconsumerID : IsExact sqlLike consumerID) (row : ConsumerRow) :
    (sqlLike channelID row.channelId && sqlLike consumerID row.consumerId) = true ↔
      (row.consumerId, row.channelId) = (consumerID, channelID) := by
  rw [Bool.and_eq_true, hchannelID, hconsumerID, Prod.mk.injEq, eq_comm, eq_comm (a := consumerID)]
  exact and_comm

/-- `ConsumerController.Put`. -/
def consumerPut [NetUrl] (channelID consumerID : String) (hchannelID : IsExact sqlLike channelID)
    (hconsumerID : IsExact sqlLike consumerID) :
    PutEndpoint Consumer ConsumerRow (String × String)
      (String × String × String × ConsumerType) where
  table := consumerTable
  key := (consumerID, channelID)
  get db := getConsumer db channelID consumerID
  updatedAt := (·.updatedAt)
  validate db req :=
    match checkFormContentType req, getChannel db channelID with
    | .error status, _ => .error status
    | .ok _, .error _ => .error writeNotFound
    | .ok _, .ok _ => .ok ()
  entity db req :=
    let (token, name) := getUpdateData req consumerID
    match getChannel db channelID, getConsumerTypeFromString req.type with
    | .ok channel, some type =>
      if req.callbackURL.isEmpty || !NetUrl.isAbs req.callbackURL then .error writeBadRequest
      else .ok ⟨⟨⟨req.newID, 0, 0⟩, name, token⟩, consumerID, req.callbackURL, some channel, type⟩
    | _, _ => .error writeBadRequest
  find db consumer :=
    (getChannel db consumer.getChannelIDSafely).map fun inChannel =>
      getConsumer db inChannel.channelID consumer.consumerID
  key_entity := by
    intro db req e h
    dsimp only at h
    split at h
    · rename_i channel type hchannel htype
      split at h
      · cases h
      · cases h
        exact Prod.ext rfl (getChannelBy_channelID hchannelID hchannel)
    · cases h
  key_find := by
    intro db e f he hf
    obtain ⟨hco, hch⟩ := Prod.mk.inj he
    rw [hch] at hf
    cases hchannel : getChannel db channelID with
    | error err =>
      rw [hchannel] at hf
      cases hf
    | ok inChannel =>
      have hid := getChannelBy_channelID hchannelID hchannel
      rw [hchannel] at hf
      have hget : getConsumer db inChannel.channelID e.consumerID = .ok f := Except.ok.inj hf
      rw [hid, hco, ← getConsumerBy_sqlLike, getConsumerBy, getChannelBy_sqlLike, hchannel] at hget
      obtain ⟨row, hrow, rfl⟩ := getConsumerFrom_eq_ok.1 hget
      have hlike := List.find?_some hrow
      obtain ⟨hrowCo, -⟩ := Prod.mk.inj ((matches_consumer_iff hchannelID hconsumerID row).1 hlike)
      exact Prod.ext hrowCo hid
  get_store := by
    intro db now newID found e stored he hfound hstored
    rw [← getConsumerBy_sqlLike, getConsumerBy, getChannelBy_sqlLike] at hstored
    cases hchannel : getChannel db channelID with
    | error err =>
      rw [hchannel] at hstored
      cases hstored
    | ok channel =>
      rw [hchannel] at hstored
      obtain ⟨row, hrow, rfl⟩ := getConsumerFrom_eq_ok.1 hstored
      refine StakeholderTable.get_store (getConsumer · channelID consumerID) (·.toConsumer channel)
        (·.updatedAt) (fun row => ?_) he hfound (fun _ _ => rfl) (fun row hfind => ?_) hrow
      · exact matches_consumer_iff hchannelID hconsumerID row
      · obtain ⟨rows, hrows⟩ := StakeholderTable.store_frame consumerTable now newID found e db
        have hchannel' : getChannel (consumerTable.store now newID found e db).2 channelID =
            .ok channel := by
          rw [hrows]
          exact hchannel
        rw [← getConsumerBy_sqlLike, getConsumerBy, getChannelBy_sqlLike, hchannel']
        exact getConsumerFrom_eq_ok.2 ⟨row, hfind, rfl⟩

end

/-! ## The steps of the requests -/

/-- Where a request is. -/
inductive PutThread (ε : Type) where
  | idle
  /-- the record was not in the cache of the node -/
  | missed (node : Nat) (req : PutRequest)
  /-- the record was read from the database, and it is to be cached -/
  | read (node : Nat) (req : PutRequest) (seen : ε)
  | checked (node : Nat) (req : PutRequest) (seen : Except StorageErr ε) (entity : ε)
  /-- `Store` has looked the record up -/
  | storing (node : Nat) (req : PutRequest) (seen : Except StorageErr ε) (entity : ε)
    (found : Except StorageErr ε)
  /-- `Store` has written, and the record is to be deleted from the cache -/
  | wrote (node : Nat) (stored : ε)
  | answered (answer : Except Status ε)

/-- The database and the nodes, with what they have cached of the record. -/
structure PutSys (ε : Type) where
  db : Db
  caches : Nat → Option ε
  threads : Nat → PutThread ε

/-- A step of a request, or the expiry of a cache entry. -/
inductive PutAction where
  | lookup (t node : Nat) (req : PutRequest)
  | read (t : Nat)
  | fill (t : Nat)
  | find (t : Nat)
  | write (t : Nat) (now : Time)
  | invalidate (t : Nat)
  | expire (node : Nat)

instance : Inhabited PutAction := ⟨.expire 0⟩

section
variable {ε ρ κ ν : Type} [DecidableEq ρ] [DecidableEq κ] [DecidableEq ν]

/-- The header is compared with the record that the request has read. Without one, it is not. -/
def PutEndpoint.checkHeader (E : PutEndpoint ε ρ κ ν) (req : PutRequest) :
    Except StorageErr ε → Except Status Unit
  | .ok seen => isConditionalUpdateCalled req (E.updatedAt seen)
  | .error _ => .ok ()

/-- The checks of a request after it has read the record, and the record that it stores. -/
def PutEndpoint.check (E : PutEndpoint ε ρ κ ν) (db : Db) (req : PutRequest)
    (seen : Except StorageErr ε) : Except Status ε :=
  match checkFormContentType req, E.checkHeader req seen with
  | .error status, _ => .error status
  | .ok _, .error status => .error status
  | .ok _, .ok _ => E.entity db req

namespace PutSys
variable (E : PutEndpoint ε ρ κ ν)

def setThread (s : PutSys ε) (t : Nat) (thread : PutThread ε) : PutSys ε :=
  { s with threads := update s.threads t thread }

def setCache (s : PutSys ε) (node : Nat) (entry : Option ε) : PutSys ε :=
  { s with caches := update s.caches node entry }

def afterCheck (s : PutSys ε) (node : Nat) (req : PutRequest) (seen : Except StorageErr ε) :
    PutThread ε :=
  match E.check s.db req seen with
  | .ok entity => .checked node req seen entity
  | .error status => .answered (.error status)

def step (s : PutSys ε) : PutAction → Option (PutSys ε)
  | .lookup t node req =>
    match s.threads t with
    | .idle =>
      match E.validate s.db req, s.caches node with
      | .error status, _ => some (s.setThread t (.answered (.error status)))
      | .ok _, some seen => some (s.setThread t (s.afterCheck E node req (.ok seen)))
      | .ok _, none => some (s.setThread t (.missed node req))
    | _ => none
  | .read t =>
    match s.threads t with
    | .missed node req =>
      match E.get s.db with
      | .ok seen => some (s.setThread t (.read node req seen))
      | .error e => some (s.setThread t (s.afterCheck E node req (.error e)))
    | _ => none
  | .fill t =>
    match s.threads t with
    | .read node req seen =>
      some ((s.setCache node (some seen)).setThread t (s.afterCheck E node req (.ok seen)))
    | _ => none
  | .find t =>
    match s.threads t with
    | .checked node req seen entity =>
      match E.find s.db entity with
      | .ok found => some (s.setThread t (.storing node req seen entity found))
      | .error _ => some (s.setThread t (.answered (.error writeErr)))
    | _ => none
  | .write t now =>
    match s.threads t with
    | .storing node req _ entity found =>
      match E.table.store now req.newID found entity s.db with
      | (.ok stored, db) => some ({ s with db := db }.setThread t (.wrote node stored))
      | (.error _, db) => some ({ s with db := db }.setThread t (.answered (.error writeErr)))
    | _ => none
  | .invalidate t =>
    match s.threads t with
    | .wrote node stored => some ((s.setCache node none).setThread t (.answered (.ok stored)))
    | _ => none
  | .expire node => some (s.setCache node none)

/-- The record exists, the caches are empty, and no request has begun. -/
def init (s : PutSys ε) : Prop :=
  (∃ stored, E.get s.db = .ok stored) ∧ (∀ node, s.caches node = none) ∧ ∀ t, s.threads t = .idle

end PutSys

abbrev PutRun (E : PutEndpoint ε ρ κ ν) := Run (PutSys.init E) (PutSys.step E)

/-- A request that has passed the checks has the header of the record that it has read, and all its
records have the key of the endpoint. -/
def PutThread.Ok (E : PutEndpoint ε ρ κ ν) : PutThread ε → Prop
  | .checked _ req seen entity =>
    (∀ s, seen = .ok s → req.unmodifiedSince = getLastUpdatedHTTPTimeString (E.updatedAt s)) ∧
      E.table.key entity = E.key
  | .storing _ req seen entity found =>
    (∀ s, seen = .ok s → req.unmodifiedSince = getLastUpdatedHTTPTimeString (E.updatedAt s)) ∧
      E.table.key entity = E.key ∧ ∀ f, found = .ok f → E.table.key f = E.key
  | .idle | .missed _ _ | .read _ _ _ | .wrote _ _ | .answered _ => True

theorem isConditionalUpdateCalled_eq_ok {req : PutRequest} {updatedAt : Time}
    (h : isConditionalUpdateCalled req updatedAt = .ok ()) :
    req.unmodifiedSince = getLastUpdatedHTTPTimeString updatedAt := by
  unfold isConditionalUpdateCalled at h
  split at h
  · cases h
  · split at h
    · cases h
    · rename_i hsame
      exact not_not.1 hsame

variable {E : PutEndpoint ε ρ κ ν}

/-- A request that passes the checks has the header of the record that it has read. -/
theorem PutEndpoint.check_eq_ok {db : Db} {req : PutRequest} {seen : Except StorageErr ε}
    {entity : ε} (h : E.check db req seen = .ok entity) :
    (∀ s, seen = .ok s → req.unmodifiedSince = getLastUpdatedHTTPTimeString (E.updatedAt s)) ∧
      E.table.key entity = E.key := by
  unfold PutEndpoint.check at h
  split at h
  · cases h
  · cases h
  · rename_i hheader
    refine ⟨?_, E.key_entity h⟩
    rintro s rfl
    exact isConditionalUpdateCalled_eq_ok hheader

namespace PutSys
variable {s s' : PutSys ε} {a : PutAction}

theorem ok_afterCheck (node : Nat) (req : PutRequest) (seen : Except StorageErr ε) :
    (s.afterCheck E node req seen).Ok E := by
  unfold afterCheck
  split
  · rename_i hcheck
    exact E.check_eq_ok hcheck
  · trivial

def DbStep (E : PutEndpoint ε ρ κ ν) (s : PutSys ε) (a : PutAction) (s' : PutSys ε) : Prop :=
  s'.db = s.db ∨ ∃ t now node req seen entity found, a = .write t now ∧
    s.threads t = .storing node req seen entity found ∧
    s'.db = (E.table.store now req.newID found entity s.db).2

theorem setThread_spec {s₁ : PutSys ε} {t : Nat} {thread : PutThread ε}
    (hok : ∀ u, (s.threads u).Ok E) (hthreads : s₁.threads = s.threads) (hthread : thread.Ok E)
    (hdb : DbStep E s a (s₁.setThread t thread)) :
    (∀ u, ((s₁.setThread t thread).threads u).Ok E) ∧ DbStep E s a (s₁.setThread t thread) := by
  refine ⟨fun u => ?_, hdb⟩
  change (update s₁.threads t thread u).Ok E
  rcases eq_or_ne u t with rfl | hne
  · rw [update_self]
    exact hthread
  · rw [update_of_ne hne, hthreads]
    exact hok u

/-- A step keeps what is known of the requests, and only a write of `Store` changes the database. -/
theorem step_spec (h : step E s a = some s') (hok : ∀ u, (s.threads u).Ok E) :
    (∀ u, (s'.threads u).Ok E) ∧ DbStep E s a s' := by
  cases a with simp only [step] at h
  | lookup t node req =>
    split at h
    · split at h <;> cases h
      · exact setThread_spec hok rfl trivial (.inl rfl)
      · exact setThread_spec hok rfl (ok_afterCheck ..) (.inl rfl)
      · exact setThread_spec hok rfl trivial (.inl rfl)
    · cases h
  | read t =>
    split at h
    · split at h <;> cases h
      · exact setThread_spec hok rfl trivial (.inl rfl)
      · exact setThread_spec hok rfl (ok_afterCheck ..) (.inl rfl)
    · cases h
  | fill t =>
    split at h
    · cases h
      exact setThread_spec hok rfl (ok_afterCheck ..) (.inl rfl)
    · cases h
  | find t =>
    split at h
    · rename_i node req seen entity hthread
      have hchecked := hok t
      rw [hthread] at hchecked
      split at h <;> cases h
      · rename_i found hfind
        refine setThread_spec hok rfl ⟨hchecked.1, hchecked.2, ?_⟩ (.inl rfl)
        rintro f rfl
        exact E.key_find hchecked.2 hfind
      · exact setThread_spec hok rfl trivial (.inl rfl)
    · cases h
  | write t now =>
    split at h
    · rename_i node req seen entity found hthread
      split at h <;> cases h
      · rename_i stored db hstore
        exact setThread_spec hok rfl trivial
          (.inr ⟨t, now, node, req, seen, entity, found, rfl, hthread, by rw [hstore]; rfl⟩)
      · rename_i e db hstore
        exact setThread_spec hok rfl trivial
          (.inr ⟨t, now, node, req, seen, entity, found, rfl, hthread, by rw [hstore]; rfl⟩)
    · cases h
  | invalidate t =>
    split at h
    · cases h
      exact setThread_spec hok rfl trivial (.inl rfl)
    · cases h
  | expire node =>
    cases h
    exact ⟨hok, .inl rfl⟩

theorem get_step (h : step E s a = some s') (hok : ∀ u, (s.threads u).Ok E) {stored : ε}
    (hstored : E.get s.db = .ok stored) :
    E.get s'.db = .ok stored ∨
      ∃ t now stored', a = .write t now ∧ E.get s'.db = .ok stored' ∧
        E.updatedAt stored' = now := by
  rcases (step_spec h hok).2 with hdb | ⟨t, now, node, req, seen, entity, found, rfl, hthread, hdb⟩
  · rw [hdb]
    exact .inl hstored
  · have hstoring := hok t
    rw [hthread] at hstoring
    rw [hdb]
    rcases E.get_store hstoring.2.1 hstoring.2.2 hstored with
      ⟨hsame, -⟩ | ⟨stored', hget, hnow⟩
    · exact .inl hsame
    · exact .inr ⟨t, now, stored', rfl, hget, hnow⟩

end PutSys

namespace PutRun
variable (r : PutRun E) {m n : Nat}

theorem ok : ∀ i, i ≤ r.len → ∀ u, ((r.state i).threads u).Ok E := by
  refine r.invariant (P := fun s => ∀ u, (s.threads u).Ok E) (fun s hs u => ?_)
    fun s a s' hok h => (PutSys.step_spec h hok).1
  rw [hs.2.2 u]
  trivial

/-- Every write before `n` is in a later second than the last update of the record. -/
def LaterSeconds (n : Nat) : Prop :=
  ∀ i < n, ∀ t now, r.act i = .write t now → ∀ stored, E.get (r.state i).db = .ok stored →
    E.updatedAt stored / second < now / second

/-- The request `t` has read the record `seen`, has the header `h`, and its `Store` succeeds in step
`i`. -/
def Succeeds (i t : Nat) (h : UnmodifiedSince) (seen : Except StorageErr ε) : Prop :=
  ∃ now node req entity found stored db, r.act i = .write t now ∧
    (r.state i).threads t = .storing node req seen entity found ∧ req.unmodifiedSince = h ∧
    E.table.store now req.newID found entity (r.state i).db = (.ok stored, db)

variable {r}

theorem LaterSeconds.get (h : r.LaterSeconds n) (hmn : m ≤ n) (hn : n ≤ r.len) {stored : ε}
    (hstored : E.get (r.state m).db = .ok stored) :
    ∃ stored', E.get (r.state n).db = .ok stored' ∧
      (stored' = stored ∨ E.updatedAt stored / second < E.updatedAt stored' / second) := by
  induction n, hmn using Nat.le_induction with
  | base => exact ⟨stored, hstored, .inl rfl⟩
  | succ n hmn ih =>
    obtain ⟨before, hbefore, hle⟩ :=
      ih (fun i hi => h i (Nat.lt_succ_of_lt hi)) (Nat.le_of_succ_le hn)
    rcases PutSys.get_step (r.next n hn) (r.ok n (Nat.le_of_succ_le hn)) hbefore with
      hsame | ⟨t, now, after, hact, hafter, hnow⟩
    · exact ⟨before, hsame, hle⟩
    · have hlater := h n (Nat.lt_succ_self n) t now hact before hbefore
      refine ⟨after, hafter, .inr ?_⟩
      rw [hnow]
      rcases hle with rfl | hlt
      · exact hlater
      · exact hlt.trans hlater

theorem Succeeds.header {i t : Nat} {h : UnmodifiedSince} {seen : ε} (hi : i < r.len)
    (hs : r.Succeeds i t h (.ok seen)) : h = getLastUpdatedHTTPTimeString (E.updatedAt seen) := by
  obtain ⟨now, node, req, entity, found, stored, db, -, hthread, rfl, -⟩ := hs
  have hok := r.ok i (Nat.le_of_lt hi) t
  rw [hthread] at hok
  exact hok.1 seen rfl

end PutRun

namespace PutRun
variable {r : PutRun E} {i t : Nat} {h : UnmodifiedSince} {content : ν}

/-- The request `t` with the header `h` and the content has read the record that is stored in step
`i`, its `Store` has found the same record, and it succeeds in this step. -/
def Overwrites (r : PutRun E) (i t : Nat) (h : UnmodifiedSince) (content : ν) : Prop :=
  ∃ now node req entity stored db, r.act i = .write t now ∧
    (r.state i).threads t =
      .storing node req (E.get (r.state i).db) entity (E.get (r.state i).db) ∧
    req.unmodifiedSince = h ∧ E.table.values entity = content ∧
    E.table.store now req.newID (E.get (r.state i).db) entity (r.state i).db = (.ok stored, db)

theorem Overwrites.succeeds (hs : r.Overwrites i t h content) :
    r.Succeeds i t h (E.get (r.state i).db) := by
  obtain ⟨now, node, req, entity, stored, db, hact, hthread, hheader, -, hstore⟩ := hs
  exact ⟨now, node, req, entity, _, stored, db, hact, hthread, hheader, hstore⟩

/-- A request with another content than the stored record moves it to a later second. -/
theorem Overwrites.later (hs : r.Overwrites i t h content) (hi : i < r.len)
    (hlater : r.LaterSeconds (i + 1)) {stored : ε} (hstored : E.get (r.state i).db = .ok stored)
    (hcontent : content ≠ E.table.values stored) :
    ∃ stored', E.get (r.state (i + 1)).db = .ok stored' ∧
      E.updatedAt stored / second < E.updatedAt stored' / second := by
  obtain ⟨now, node, req, entity, new, db, hact, hthread, -, rfl, hstore⟩ := hs
  have hstoring := r.ok i hi.le t
  rw [hthread] at hstoring
  have hdb : (r.state (i + 1)).db = db := by
    have hstep := r.next i hi
    simp only [hact, PutSys.step, hthread, hstore] at hstep
    exact congrArg PutSys.db (Option.some.inj hstep).symm
  have hget := @PutEndpoint.get_store _ _ _ _ _ _ _ E _ now req.newID _ _ _ hstoring.2.1
    hstoring.2.2 hstored
  rw [hstore] at hget
  rcases hget with ⟨-, hvalues⟩ | ⟨stored', hget, hnow⟩
  · exact absurd (hvalues rfl stored hstored) hcontent
  · refine ⟨stored', hdb ▸ hget, ?_⟩
    rw [hnow]
    exact hlater i (Nat.lt_succ_self i) t now hact stored hstored

end PutRun

/-- Two requests with the same header do not both succeed, if each has read the record that is
stored when it writes, the first one changes its content, and every write is in a later second than
the last update. -/
theorem conditional_updates_exclude (r : PutRun E) {i j t u : Nat} {h : UnmodifiedSince}
    {content content' : ν} {stored : ε} (hij : i < j) (hj : j < r.len)
    (hstored : E.get (r.state i).db = .ok stored) (hcontent : content ≠ E.table.values stored)
    (hlater : r.LaterSeconds j) :
    ¬ (r.Overwrites i t h content ∧ r.Overwrites j u h content') := by
  rintro ⟨hfirst, hsecond⟩
  have hbefore : r.LaterSeconds (i + 1) := fun k hk => hlater k (by omega)
  obtain ⟨new, hnew, hlt⟩ := hfirst.later (by omega) hbefore hstored hcontent
  obtain ⟨last, hlast, hrest⟩ := hlater.get (m := i + 1) hij hj.le hnew
  have hheader := hfirst.succeeds
  have hheader' := hsecond.succeeds
  rw [hstored] at hheader
  rw [hlast] at hheader'
  have hsame := (hheader.header (by omega)).symm.trans (hheader'.header hj)
  have hseconds := UnmodifiedSince.date.inj hsame
  rcases hrest with rfl | hlt'
  · exact hlt.ne hseconds
  · exact (hlt.trans hlt').ne hseconds

/-! ## What a request has read -/

def PutThread.seen : PutThread ε → Option (Except StorageErr ε)
  | .read _ _ seen => some (.ok seen)
  | .checked _ _ seen _ | .storing _ _ seen _ _ => some seen
  | .idle | .missed _ _ | .wrote _ _ | .answered _ => none

namespace PutSys
variable {s s' : PutSys ε} {a : PutAction} {seen : Except StorageErr ε}

/-- A request has read `seen`, or a node has cached it. -/
def Holds (s : PutSys ε) (seen : Except StorageErr ε) : Prop :=
  (∃ t, (s.threads t).seen = some seen) ∨ ∃ node, (s.caches node).map .ok = some seen

theorem Holds.of_setThread {t : Nat} {thread : PutThread ε}
    (h : (s.setThread t thread).Holds seen) : s.Holds seen ∨ thread.seen = some seen := by
  rcases h with ⟨u, hu⟩ | hcache
  · rcases eq_or_ne u t with rfl | hne
    · simp only [setThread, update_self] at hu
      exact .inr hu
    · simp only [setThread, update_of_ne hne] at hu
      exact .inl (.inl ⟨u, hu⟩)
  · exact .inl (.inr hcache)

theorem Holds.of_setCache {node : Nat} {entry : Option ε}
    (h : (s.setCache node entry).Holds seen) : s.Holds seen ∨ entry.map .ok = some seen := by
  rcases h with hthread | ⟨node', hcache⟩
  · exact .inl (.inl hthread)
  · rcases eq_or_ne node' node with rfl | hne
    · simp only [setCache, update_self] at hcache
      exact .inr hcache
    · simp only [setCache, update_of_ne hne] at hcache
      exact .inl (.inr ⟨node', hcache⟩)

theorem seen_afterCheck {node : Nat} {req : PutRequest} {seen' : Except StorageErr ε}
    (h : (s.afterCheck E node req seen').seen = some seen) : seen' = seen := by
  unfold afterCheck at h
  split at h
  · exact Option.some.inj h
  · cases h

/-- What is read or cached after a step was so before, or it is what is stored. -/
theorem Holds.of_step (h : step E s a = some s') (hseen : s'.Holds seen) :
    s.Holds seen ∨ E.get s.db = seen := by
  cases a with simp only [step] at h
  | lookup t node req =>
    split at h
    · split at h <;> cases h
      · exact .inl (hseen.of_setThread.resolve_right (by rintro ⟨⟩))
      · rename_i hcache
        refine .inl (hseen.of_setThread.elim id fun hthread => .inr ⟨node, ?_⟩)
        rw [hcache, ← seen_afterCheck hthread]
        rfl
      · exact .inl (hseen.of_setThread.resolve_right (by rintro ⟨⟩))
    · cases h
  | read t =>
    split at h
    · split at h <;> cases h
      · rename_i hget
        exact hseen.of_setThread.imp_right fun hthread => hget.trans (Option.some.inj hthread)
      · rename_i hget
        exact hseen.of_setThread.imp_right fun hthread => hget.trans (seen_afterCheck hthread)
    · cases h
  | fill t =>
    split at h
    · rename_i hthread
      cases h
      refine .inl (hseen.of_setThread.elim (fun hcached => ?_) fun hchecked => ?_)
      · refine hcached.of_setCache.elim id fun hentry => .inl ⟨t, ?_⟩
        rw [hthread, ← hentry]
        rfl
      · exact .inl ⟨t, by rw [hthread, ← seen_afterCheck hchecked]; rfl⟩
    · cases h
  | find t =>
    split at h
    · rename_i hthread
      split at h <;> cases h
      · refine .inl (hseen.of_setThread.elim id fun hstoring => .inl ⟨t, ?_⟩)
        rw [hthread]
        exact hstoring
      · exact .inl (hseen.of_setThread.resolve_right (by rintro ⟨⟩))
    · cases h
  | write t now =>
    split at h
    · split at h <;> cases h
      · exact .inl (hseen.of_setThread.resolve_right (by rintro ⟨⟩))
      · exact .inl (hseen.of_setThread.resolve_right (by rintro ⟨⟩))
    · cases h
  | invalidate t =>
    split at h
    · cases h
      have hcached := hseen.of_setThread.resolve_right (by rintro ⟨⟩)
      exact .inl (hcached.of_setCache.resolve_right (by rintro ⟨⟩))
    · cases h
  | expire node =>
    cases h
    exact .inl (hseen.of_setCache.resolve_right (by rintro ⟨⟩))

end PutSys

namespace PutRun
variable (r : PutRun E)

theorem read_before : ∀ n, n ≤ r.len → ∀ seen, (r.state n).Holds seen →
    ∃ m < n, E.get (r.state m).db = seen := by
  intro n
  induction n with
  | zero =>
    intro _ seen hseen
    obtain ⟨-, hcaches, hthreads⟩ := r.start
    rcases hseen with ⟨t, ht⟩ | ⟨node, hnode⟩
    · rw [hthreads t] at ht
      cases ht
    · rw [hcaches node] at hnode
      cases hnode
  | succ n ih =>
    intro hn seen hseen
    rcases hseen.of_step (r.next n hn) with hbefore | hget
    · obtain ⟨m, hm, hget⟩ := ih (Nat.le_of_succ_le hn) seen hbefore
      exact ⟨m, Nat.lt_succ_of_lt hm, hget⟩
    · exact ⟨n, Nat.lt_succ_self n, hget⟩

theorem exists_stored : ∀ n, n ≤ r.len → ∃ stored, E.get (r.state n).db = .ok stored := by
  intro n
  induction n with
  | zero => exact fun _ => r.start.1
  | succ n ih =>
    intro hn
    have hle := Nat.le_of_succ_le hn
    obtain ⟨stored, hstored⟩ := ih hle
    rcases PutSys.get_step (r.next n hn) (r.ok n hle) hstored with hsame | ⟨_, _, stored', -, h, -⟩
    · exact ⟨stored, hsame⟩
    · exact ⟨stored', h⟩

end PutRun

/-- No request changes a record that it has not seen: the header of an accepted one is that of a
record that was stored before, though perhaps no longer. -/
theorem accepted_update_saw_stored (r : PutRun E) {i t : Nat} {h : UnmodifiedSince}
    {seen : Except StorageErr ε} (hi : i < r.len) (hs : r.Succeeds i t h seen) :
    ∃ m < i, ∃ stored, E.get (r.state m).db = .ok stored ∧ seen = .ok stored ∧
      h = getLastUpdatedHTTPTimeString (E.updatedAt stored) := by
  have hseen : (r.state i).Holds seen := by
    obtain ⟨now, node, req, entity, found, stored, db, -, hthread, -⟩ := hs
    exact .inl ⟨t, by rw [hthread]; rfl⟩
  obtain ⟨m, hm, hget⟩ := r.read_before i hi.le seen hseen
  obtain ⟨stored, hstored⟩ := r.exists_stored m (by omega)
  obtain rfl : seen = .ok stored := hget.symm.trans hstored
  exact ⟨m, hm, stored, hstored, rfl, hs.header hi⟩

end

/-! ## Two requests with the same header -/

namespace Sample

theorem isExact_p : IsExact sqlLike "p" := isExact_sqlLike (by simp [isWildcard])

def putRequest (token : String) : PutRequest :=
  ⟨"application/x-www-form-urlencoded", .date 0, token, "p", "", "", "", jobXid⟩

def putSys : PutSys Producer := ⟨producerDb "p", fun _ => none, fun _ => .idle⟩

/-- The steps of a request that reads from the database, up to its answer. -/
def putSteps (t : Nat) (req : PutRequest) (now : Time) : List PutAction :=
  [.lookup t 0 req, .read t, .fill t, .find t, .write t now, .invalidate t]

/-- The second request is checked before the first one writes. -/
def overlappingPuts : List PutAction :=
  [.lookup 0 0 (putRequest "a"), .read 0, .fill 0, .lookup 1 0 (putRequest "b"), .find 0,
    .write 0 (2 * second), .invalidate 0, .find 1, .write 1 (4 * second), .invalidate 1]

def putRun (acts : List PutAction)
    (h : (exec (PutSys.step (producerPut "p" isExact_p)) putSys acts).isSome) :
    PutRun (producerPut "p" isExact_p) :=
  Run.ofActs putSys acts ⟨⟨_, rfl⟩, fun _ => rfl, fun _ => rfl⟩ h

def overlappingRun : PutRun (producerPut "p" isExact_p) := putRun overlappingPuts rfl

/-- The requests are served one after the other in the same second. -/
def sameSecondRun : PutRun (producerPut "p" isExact_p) :=
  putRun (putSteps 0 (putRequest "a") 5 ++ putSteps 1 (putRequest "b") 7) rfl

/-- The second request has the header of what the first one has stored. -/
def afterwardsRun : PutRun (producerPut "p" isExact_p) :=
  putRun (putSteps 0 (putRequest "a") (2 * second) ++
    putSteps 1 { putRequest "b" with unmodifiedSince := .date 2 } (4 * second)) rfl

end Sample

open Sample

theorem conditional_updates_exclude_afterwards :
    let r := afterwardsRun
    r.Overwrites 4 0 (.date 0) ("p", "a") ∧ r.Overwrites 10 1 (.date 2) ("p", "b") ∧
      ¬ r.Overwrites 10 1 (.date 0) ("p", "b") := by
  intro r
  have hfirst : r.Overwrites 4 0 (.date 0) ("p", "a") :=
    ⟨_, _, putRequest "a", _, _, _, rfl, rfl, rfl, rfl, rfl⟩
  have hsecond : r.Overwrites 10 1 (.date 2) ("p", "b") :=
    ⟨_, _, { putRequest "b" with unmodifiedSince := .date 2 }, _, _, _, rfl, rfl, rfl, rfl,
      rfl⟩
  refine ⟨hfirst, hsecond, fun h => conditional_updates_exclude r (by decide) (by decide) rfl
    (by decide) ?_ ⟨hfirst, h⟩⟩
  intro i hi t now hact stored hstored
  obtain rfl | hne := eq_or_ne i 4
  · cases hact
    cases hstored
    decide
  · have hnone : ∀ i < 10, i ≠ 4 → ∀ t now, r.act i ≠ .write t now := by
      intro i hi hne t now hact
      rcases i with _ | _ | _ | _ | _ | _ | _ | _ | _ | _ | i
      all_goals first | omega | cases hact
    exact absurd hact (hnone i hi hne t now)

theorem accepted_update_saw_stored_overlapping :
    let E := producerPut "p" isExact_p
    ∃ m < 8, ∃ stored, E.get (overlappingRun.state m).db = .ok stored ∧
      .date 0 = getLastUpdatedHTTPTimeString stored.updatedAt := by
  intro E
  have hs : overlappingRun.Succeeds 8 1 (.date 0) (E.get (producerDb "p")) :=
    ⟨_, _, putRequest "b", _, _, _, _, rfl, rfl, rfl, rfl⟩
  obtain ⟨m, hm, stored, hget, -, hheader⟩ := accepted_update_saw_stored _ (by decide) hs
  exact ⟨m, hm, stored, hget, hheader⟩

/-- Both requests have the same header and succeed with different tokens: they overlap, or they are
served in the same second. -/
theorem conditional_updates_both_succeed :
    (∃ first second, (overlappingRun.state 10).threads 0 = .answered (.ok first) ∧
      (overlappingRun.state 10).threads 1 = .answered (.ok second) ∧
      first.token = "a" ∧ second.token = "b") ∧
    ∃ first second, (sameSecondRun.state 12).threads 0 = .answered (.ok first) ∧
      (sameSecondRun.state 12).threads 1 = .answered (.ok second) ∧
      first.token = "a" ∧ second.token = "b" :=
  ⟨⟨_, _, rfl, rfl, rfl, rfl⟩, _, _, rfl, rfl, rfl, rfl⟩

end WebhookBroker
