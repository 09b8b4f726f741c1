import WebhookBroker.Storage.Query

/-!
# Storing producers, channels and consumers

`Store` of the three repositories (`storage/producerrepo.go`, `storage/channelrepo.go`,
`storage/consumerrepo.go`) looks the entity up by its key, inserts it if it is not there, and
otherwise updates the row that it found if a value differs. The lookup is a `LIKE` with the key as
its pattern, the update compares with `=`. So `Store` keeps to the entity's own row exactly when the
row that the lookup finds is the entity's own, or needs no update.
-/

namespace WebhookBroker

open Lib

/-! ## One `Store` for the three repositories -/

/-- A table of stakeholders: records `ε` with keys `κ`, stored as rows `ρ`, with the values `ν` that
`Store` compares and updates. -/
structure StakeholderTable (ε ρ κ ν : Type) where
  rows : Db → List ρ
  withRows : List ρ → Db → Db
  rows_withRows : ∀ l db, rows (withRows l db) = l
  withRows_rows : ∀ db, withRows (rows db) db = db
  id : ρ → Xid
  toRow : ε → ρ
  key : ε → κ
  rowKey : ρ → κ
  values : ε → ν
  rowValues : ρ → ν
  /-- `SET … , updatedAt = ?` -/
  setRow : ν → Time → ρ → ρ
  rowKey_setRow : ∀ v now row, rowKey (setRow v now row) = rowKey row
  rowValues_setRow : ∀ v now row, rowValues (setRow v now row) = v
  setRecord : ν → Time → ε → ε
  quickFix : Time → Xid → ε → ε
  isInValidState : ε → Bool
  /-- the foreign keys of a row -/
  hasReferences : Db → ρ → Bool
  rowKey_toRow : ∀ now newID e, rowKey (toRow (quickFix now newID e)) = key e
  rowValues_toRow : ∀ now newID e, isInValidState e = true →
    rowValues (toRow (quickFix now newID e)) = values e

namespace StakeholderTable
variable {ε ρ κ ν : Type} [DecidableEq ρ] [DecidableEq κ] [DecidableEq ν]
  (T : StakeholderTable ε ρ κ ν)

/-- `INSERT INTO …`, with the primary key `id`, the unique key and the foreign keys. -/
def insertRow (row : ρ) : Tx Nat := fun db =>
  if ¬ (((T.rows db ++ [row]).map T.id).Nodup ∧ ((T.rows db ++ [row]).map T.rowKey).Nodup) then
    .error .duplicateKey
  else if !T.hasReferences db row then .error .foreignKey
  else .ok (1, T.withRows (T.rows db ++ [row]) db)

/-- `UPDATE … SET … WHERE` the key is the given one. The driver counts the rows that change. -/
def updateRow (key : κ) (v : ν) (now : Time) : Tx Nat := fun db =>
  .ok ((T.rows db).countP fun row => decide (T.rowKey row = key ∧ T.setRow v now row ≠ row),
    T.withRows
      (updateWhere (fun row => decide (T.rowKey row = key)) (T.setRow v now) (T.rows db)) db)

/-- `insertProducer`, `insertChannel` and `insertConsumer`. -/
def insert (now : Time) (newID : Xid) (entity : ε) (db : Db) : Except StorageErr ε × Db :=
  let entity := T.quickFix now newID entity
  if !T.isInValidState entity then (.error .invalidStateToSave, db)
  else
    let (err, db) := transactionalSingleRowWriteExec (T.insertRow (T.toRow entity)) db
    (err.map fun _ => entity, db)

/-- `updateProducer`, `updateChannel` and `updateConsumer` of the record that was found. -/
def update (now : Time) (found : ε) (v : ν) (db : Db) : Except StorageErr ε × Db :=
  let (err, db) := transactionalSingleRowWriteExec (T.updateRow (T.key found) v now) db
  (err.map fun _ => T.setRecord v now found, db)

/-- `Store`, from the answer of the lookup on. -/
def store (now : Time) (newID : Xid) (found : Except StorageErr ε) (entity : ε) (db : Db) :
    Except StorageErr ε × Db :=
  match found with
  | .error _ => T.insert now newID entity db
  | .ok found =>
    if T.values entity ≠ T.values found then
      if !T.isInValidState entity then (.error .invalidStateToSave, db)
      else T.update now found (T.values entity) db
    else (.ok found, db)

/-- Only the row with the key of the entity may have changed or be new. -/
def KeepsOthers (entity : ε) (db db' : Db) : Prop :=
  db' = T.withRows (T.rows db') db ∧
  (T.rows db').filter (fun row => decide (T.rowKey row ≠ T.key entity)) =
    (T.rows db).filter fun row => decide (T.rowKey row ≠ T.key entity)

/-- The row that a lookup by `m` finds before `Store` makes it keep to the entity's own row and
leave its values where the lookup finds them. -/
def FindsOwn (m : ρ → Bool) (found : Except StorageErr ε) (entity : ε) (db : Db) : Prop :=
  match found with
  | .error _ => ∀ row, (T.rows db).find? m = some row → T.rowValues row = T.values entity
  | .ok found =>
    if T.values entity = T.values found then
      ∃ row, (T.rows db).find? m = some row ∧ T.rowValues row = T.values entity
    else
      T.key found = T.key entity ∧ ∀ row, (T.rows db).find? m = some row →
        T.rowKey row = T.key entity ∨ T.rowValues row = T.values entity

section
variable {T} {now : Time} {newID : Xid} {entity found : ε} {db db' : Db} {stored : ε}

omit [DecidableEq ρ] [DecidableEq ν] in
theorem insert_eq_ok (h : T.insert now newID entity db = (.ok stored, db')) :
    db' = T.withRows (T.rows db ++ [T.toRow (T.quickFix now newID entity)]) db := by
  unfold insert at h
  dsimp only at h
  split at h
  · cases h
  · rcases transactionalSingleRowWriteExec_cases
      (T.insertRow (T.toRow (T.quickFix now newID entity))) db with ⟨db₁, hq, hr⟩ | ⟨e, hr⟩
    · rw [hr] at h
      cases h
      unfold insertRow at hq
      split at hq
      · cases hq
      · split at hq
        · cases hq
        · cases hq
          rfl
    · rw [hr] at h
      cases h

omit [DecidableEq ν] in
theorem update_eq_ok {v : ν} (h : T.update now found v db = (.ok stored, db')) :
    db' = T.withRows (updateWhere (fun row => decide (T.rowKey row = T.key found)) (T.setRow v now)
      (T.rows db)) db ∧
    ∃ row ∈ T.rows db, T.rowKey row = T.key found ∧ T.setRow v now row ≠ row := by
  unfold update at h
  dsimp only at h
  rcases transactionalSingleRowWriteExec_cases (T.updateRow (T.key found) v now) db with
    ⟨db₁, hq, hr⟩ | ⟨e, hr⟩
  · rw [hr] at h
    cases h
    simp only [updateRow, Except.ok.injEq, Prod.mk.injEq] at hq
    obtain ⟨row, hrow, hp⟩ := List.countP_pos_iff.1 (hq.1 ▸ Nat.one_pos)
    exact ⟨hq.2.symm, row, hrow, of_decide_eq_true hp⟩
  · rw [hr] at h
    cases h

omit [DecidableEq ρ] [DecidableEq ν] in
theorem insert_db_cases (T : StakeholderTable ε ρ κ ν) (now : Time) (newID : Xid) (entity : ε)
    (db : Db) :
    (T.insert now newID entity db).2 = db ∨
    T.isInValidState (T.quickFix now newID entity) = true ∧
      ((T.rows db ++ [T.toRow (T.quickFix now newID entity)]).map T.id).Nodup ∧
      T.hasReferences db (T.toRow (T.quickFix now newID entity)) = true ∧
      (T.insert now newID entity db).2 =
        T.withRows (T.rows db ++ [T.toRow (T.quickFix now newID entity)]) db := by
  unfold insert
  dsimp only
  split
  · exact .inl rfl
  · rename_i hvalid
    rcases transactionalSingleRowWriteExec_cases
      (T.insertRow (T.toRow (T.quickFix now newID entity))) db with ⟨db₁, hq, hr⟩ | ⟨e, hr⟩
    · rw [hr]
      unfold insertRow at hq
      split at hq
      · cases hq
      · rename_i hkeys
        split at hq
        · cases hq
        · rename_i hrefs
          cases hq
          exact .inr ⟨by simpa using hvalid, (not_not.1 hkeys).1, by simpa using hrefs, rfl⟩
    · rw [hr]
      exact .inl rfl

/-- `Store` inserts a valid entity, gives some rows the values of a valid entity, or changes
nothing. -/
theorem store_db_cases (T : StakeholderTable ε ρ κ ν) (now : Time) (newID : Xid)
    (found : Except StorageErr ε) (entity : ε) (db : Db) :
    (T.store now newID found entity db).2 = db ∨
    (T.isInValidState (T.quickFix now newID entity) = true ∧
      ((T.rows db ++ [T.toRow (T.quickFix now newID entity)]).map T.id).Nodup ∧
      T.hasReferences db (T.toRow (T.quickFix now newID entity)) = true ∧
      (T.store now newID found entity db).2 =
        T.withRows (T.rows db ++ [T.toRow (T.quickFix now newID entity)]) db) ∨
    T.isInValidState entity = true ∧ ∃ p, (T.store now newID found entity db).2 =
      T.withRows (updateWhere p (T.setRow (T.values entity) now) (T.rows db)) db := by
  unfold store
  split
  · rcases T.insert_db_cases now newID entity db with h | h
    · exact .inl h
    · exact .inr (.inl h)
  · rename_i found
    split
    · split
      · exact .inl rfl
      · rename_i hvalid
        unfold update
        dsimp only
        rcases transactionalSingleRowWriteExec_cases
          (T.updateRow (T.key found) (T.values entity) now) db with ⟨db₁, hq, hr⟩ | ⟨e, hr⟩
        · rw [hr]
          simp only [updateRow, Except.ok.injEq, Prod.mk.injEq] at hq
          exact .inr (.inr ⟨by simpa using hvalid, _, hq.2.symm⟩)
        · rw [hr]
          exact .inl rfl
    · exact .inl rfl

omit [DecidableEq ρ] [DecidableEq ν] in
theorem keepsOthers_update_iff {v : ν} {key : κ}
    (hrow : ∃ row ∈ T.rows db, T.rowKey row = key ∧ T.setRow v now row ≠ row) :
    T.KeepsOthers entity db (T.withRows (updateWhere (fun row => decide (T.rowKey row = key))
      (T.setRow v now) (T.rows db)) db) ↔ key = T.key entity := by
  rw [KeepsOthers, T.rows_withRows, filter_updateWhere fun row _ => by rw [T.rowKey_setRow],
    updateWhere_eq_self]
  constructor
  · rintro ⟨-, hkeep⟩
    obtain ⟨row, hmem, hkey, hne⟩ := hrow
    by_contra hother
    refine hne (hkeep row (List.mem_filter.2 ⟨hmem, ?_⟩) (decide_eq_true hkey))
    rw [hkey]
    exact decide_eq_true hother
  · rintro rfl
    refine ⟨rfl, fun row hrow hkey => ?_⟩
    have hother := of_decide_eq_true (List.mem_filter.1 hrow).2
    exact absurd (of_decide_eq_true hkey) hother

/-- A successful `Store` keeps to the entity's own row, and the lookup `m` by the entity's key then
finds its values, if and only if the lookups found the entity's own row before. -/
theorem store_iff {m : ρ → Bool} {found : Except StorageErr ε}
    (h : T.store now newID found entity db = (.ok stored, db'))
    (hvalid : T.isInValidState entity = true)
    (hm : ∀ row row', T.rowKey row = T.rowKey row' → m row = m row')
    (hself : ∀ row, T.rowKey row = T.key entity → m row = true) :
    (T.KeepsOthers entity db db' ∧
      ((T.rows db').find? m).map T.rowValues = some (T.values entity)) ↔
    T.FindsOwn m found entity db := by
  cases found with
  | error e =>
    obtain rfl := insert_eq_ok h
    have hkey := T.rowKey_toRow now newID entity
    have hkeep : T.KeepsOthers entity db
        (T.withRows (T.rows db ++ [T.toRow (T.quickFix now newID entity)]) db) := by
      simp [KeepsOthers, T.rows_withRows, hkey]
    simp only [hkeep, true_and, T.rows_withRows, List.find?_append, FindsOwn]
    cases (T.rows db).find? m with
    | none => simp [hself _ hkey, T.rowValues_toRow now newID entity hvalid]
    | some row => simp
  | ok found =>
    rw [store] at h
    rw [FindsOwn]
    split at h
    case isTrue hne =>
      rw [if_neg hne]
      rw [hvalid, Bool.not_true, if_neg Bool.false_ne_true] at h
      obtain ⟨rfl, hrow⟩ := update_eq_ok h
      rw [keepsOthers_update_iff hrow, T.rows_withRows,
        find?_updateWhere fun row _ => hm _ _ (T.rowKey_setRow _ _ row)]
      refine and_congr_right fun hkey => ?_
      obtain ⟨own, hown, hownKey, -⟩ := hrow
      cases hfind : (T.rows db).find? m with
      | none =>
        have hno := List.find?_eq_none.1 hfind own hown
        exact absurd (hself own (hownKey.trans hkey)) hno
      | some row =>
        simp only [Option.map_some, Option.some.injEq, hkey, forall_eq']
        split
        case isTrue hrowKey => simp [T.rowValues_setRow, of_decide_eq_true hrowKey]
        case isFalse hrowKey => simp [of_decide_eq_false (Bool.eq_false_of_not_eq_true hrowKey)]
    case isFalse heq =>
      rw [if_pos (not_not.1 heq)]
      cases h
      have hkeep : T.KeepsOthers entity db db := ⟨(T.withRows_rows db).symm, rfl⟩
      simp only [hkeep, true_and]
      cases (T.rows db).find? m <;> simp

end

end StakeholderTable

/-! ## Producers and channels -/

def Producer.toRow (prod : Producer) : ProducerRow where
  id := prod.id
  producerId := prod.producerID
  name := prod.name
  token := prod.token
  createdAt := prod.createdAt
  updatedAt := prod.updatedAt

theorem setValIfBothNotEmpty_of_ne {src : String} (h : src.isEmpty = false) (fallback : String) :
    setValIfBothNotEmpty src fallback = src := by
  rw [setValIfBothNotEmpty, h]
  rfl

def producerTable : StakeholderTable Producer ProducerRow String (String × String) where
  rows := Db.producer
  withRows rows db := { db with producer := rows }
  rows_withRows _ _ := rfl
  withRows_rows _ := rfl
  id := ProducerRow.id
  toRow := Producer.toRow
  key := Producer.producerID
  rowKey := ProducerRow.producerId
  values prod := (prod.name, prod.token)
  rowValues row := (row.name, row.token)
  setRow v now row := { row with name := v.1, token := v.2, updatedAt := now }
  rowKey_setRow _ _ _ := rfl
  rowValues_setRow _ _ _ := rfl
  setRecord v now prod := { prod with name := v.1, token := v.2, updatedAt := now }
  quickFix := Producer.quickFix
  isInValidState := Producer.isInValidState
  hasReferences _ _ := true
  rowKey_toRow _ _ _ := rfl
  rowValues_toRow now newID prod hvalid := by
    have hname : prod.name.isEmpty = false := by
      simp only [Producer.isInValidState, Bool.not_eq_true', Bool.or_eq_false_iff] at hvalid
      exact hvalid.1.2
    simp [Producer.quickFix, Producer.toRow, setValIfBothNotEmpty_of_ne hname]

/-- `ProducerDBRepository.Store`. -/
def storeProducer (now : Time) (newID : Xid) (producer : Producer) (db : Db) :
    Except StorageErr Producer × Db :=
  producerTable.store now newID (getProducer db producer.producerID) producer db

def Channel.toRow (channel : Channel) : ChannelRow where
  id := channel.id
  channelId := channel.channelID
  name := channel.name
  token := channel.token
  createdAt := channel.createdAt
  updatedAt := channel.updatedAt

def channelTable : StakeholderTable Channel ChannelRow String (String × String) where
  rows := Db.channel
  withRows rows db := { db with channel := rows }
  rows_withRows _ _ := rfl
  withRows_rows _ := rfl
  id := ChannelRow.id
  toRow := Channel.toRow
  key := Channel.channelID
  rowKey := ChannelRow.channelId
  values channel := (channel.name, channel.token)
  rowValues row := (row.name, row.token)
  setRow v now row := { row with name := v.1, token := v.2, updatedAt := now }
  rowKey_setRow _ _ _ := rfl
  rowValues_setRow _ _ _ := rfl
  setRecord v now channel := { channel with name := v.1, token := v.2, updatedAt := now }
  quickFix := Channel.quickFix
  isInValidState := Channel.isInValidState
  hasReferences _ _ := true
  rowKey_toRow _ _ _ := rfl
  rowValues_toRow now newID channel hvalid := by
    have hname : channel.name.isEmpty = false := by
      simp only [Channel.isInValidState, Bool.not_eq_true', Bool.or_eq_false_iff] at hvalid
      exact hvalid.1.2
    simp [Channel.quickFix, Channel.toRow, setValIfBothNotEmpty_of_ne hname]

/-- `ChannelDBRepository.Store`. -/
def storeChannel (now : Time) (newID : Xid) (channel : Channel) (db : Db) :
    Except StorageErr Channel × Db :=
  channelTable.store now newID (getChannel db channel.channelID) channel db

def Consumer.toRow (consumer : Consumer) : ConsumerRow where
  id := consumer.id
  consumerId := consumer.consumerID
  name := consumer.name
  token := consumer.token
  callbackUrl := consumer.callbackURL
  channelId := consumer.getChannelIDSafely
  type := consumer.type
  createdAt := consumer.createdAt
  updatedAt := consumer.updatedAt

/-- The values of a consumer that `Store` compares: name, token, callback URL and type. -/
def Consumer.values (consumer : Consumer) : String × String × String × ConsumerType :=
  (consumer.name, consumer.token, consumer.callbackURL, consumer.type)

@[inherit_doc Consumer.values]
def ConsumerRow.values (row : ConsumerRow) : String × String × String × ConsumerType :=
  (row.name, row.token, row.callbackUrl, row.type)

section
variable [NetUrl]

/-- The table `consumer`. Its key is the consumer id and the channel id. -/
def consumerTable :
    StakeholderTable Consumer ConsumerRow (String × String)
      (String × String × String × ConsumerType) where
  rows := Db.consumer
  withRows rows db := { db with consumer := rows }
  rows_withRows _ _ := rfl
  withRows_rows _ := rfl
  id := ConsumerRow.id
  toRow := Consumer.toRow
  key consumer := (consumer.consumerID, consumer.getChannelIDSafely)
  rowKey row := (row.consumerId, row.channelId)
  values := Consumer.values
  rowValues := ConsumerRow.values
  setRow v now row :=
    { row with
      name := v.1, token := v.2.1, callbackUrl := v.2.2.1, type := v.2.2.2, updatedAt := now }
  rowKey_setRow _ _ _ := rfl
  rowValues_setRow _ _ _ := rfl
  setRecord v now consumer :=
    { consumer with
      name := v.1, token := v.2.1, callbackURL := v.2.2.1, type := v.2.2.2, updatedAt := now }
  quickFix := Consumer.quickFix
  isInValidState := Consumer.isInValidState
  -- `channelConsumerRef`
  hasReferences db row := (db.channel.map (·.channelId)).contains row.channelId
  rowKey_toRow _ _ _ := rfl
  rowValues_toRow now newID consumer hvalid := by
    have hname : consumer.name.isEmpty = false := by
      cases h : consumer.name.isEmpty with
      | false => rfl
      | true => simp [Consumer.isInValidState, h] at hvalid
    simp [Consumer.quickFix, Consumer.toRow, Consumer.values, ConsumerRow.values,
      setValIfBothNotEmpty_of_ne hname]

/-- `ConsumerDBRepository.Store`. The channel is looked up first, and the consumer by the id of the
channel that was found. -/
def storeConsumer (now : Time) (newID : Xid) (consumer : Consumer) (db : Db) :
    Except StorageErr Consumer × Db :=
  match getChannel db consumer.getChannelIDSafely with
  | .error e => (.error e, db)
  | .ok inChannel =>
    consumerTable.store now newID (getConsumer db inChannel.channelID consumer.consumerID) consumer
      db

end

/-- After `db` became `db'`, only the row with the entity's key has changed or is new, and a `Get`
of the key returns the entity's name and token. -/
def StoresOwnProducer (producer : Producer) (db db' : Db) : Prop :=
  producerTable.KeepsOthers producer db db' ∧
  ∃ found, getProducer db' producer.producerID = .ok found ∧
    found.name = producer.name ∧ found.token = producer.token

@[inherit_doc StoresOwnProducer]
def StoresOwnChannel (channel : Channel) (db db' : Db) : Prop :=
  channelTable.KeepsOthers channel db db' ∧
  ∃ found, getChannel db' channel.channelID = .ok found ∧
    found.name = channel.name ∧ found.token = channel.token

/-- After `db` became `db'`, only the row with the consumer's key has changed or is new, and a `Get`
of the key returns the consumer's name, token, callback URL and type. -/
def StoresOwnConsumer [NetUrl] (consumer : Consumer) (db db' : Db) : Prop :=
  consumerTable.KeepsOthers consumer db db' ∧
  ∃ found, getConsumer db' consumer.getChannelIDSafely consumer.consumerID = .ok found ∧
    found.values = consumer.values

section
variable {ε ρ κ ν : Type} [DecidableEq ρ] [DecidableEq κ] [DecidableEq ν]
  {T : StakeholderTable ε ρ κ ν} {m : ρ → Bool} {entity stored : ε} {db db' : Db} {now : Time}
  {newID : Xid}

/-- A `Get` answers with the row that the lookup `m` finds. -/
structure StakeholderTable.Reads (T : StakeholderTable ε ρ κ ν) (m : ρ → Bool) (db : Db)
    (get : Except StorageErr ε) : Prop where
  missing : (T.rows db).find? m = none → ∃ e, get = .error e
  found : ∀ row, (T.rows db).find? m = some row →
    ∃ f, get = .ok f ∧ T.key f = T.rowKey row ∧ T.values f = T.rowValues row

omit [DecidableEq ρ] [DecidableEq κ] [DecidableEq ν] in
theorem StakeholderTable.Reads.values_iff {get : Except StorageErr ε} (h : T.Reads m db get)
    (v : ν) :
    (∃ f, get = .ok f ∧ T.values f = v) ↔ ((T.rows db).find? m).map T.rowValues = some v := by
  cases hfind : (T.rows db).find? m with
  | none =>
    obtain ⟨e, rfl⟩ := h.missing hfind
    simp
  | some row =>
    obtain ⟨f, rfl, -, hvalues⟩ := h.found row hfind
    simp [hvalues]

omit [DecidableEq ρ] [DecidableEq κ] in
/-- Where `Store` and the lookup by the key find the same row, it has to be the entity's own or to
have the entity's values. -/
theorem StakeholderTable.Reads.findsOwn_iff {found : Except StorageErr ε} (h : T.Reads m db found) :
    T.FindsOwn m found entity db ↔
      ∀ f, found = .ok f → T.key f = T.key entity ∨ T.values f = T.values entity := by
  cases hfind : (T.rows db).find? m with
  | none =>
    obtain ⟨e, rfl⟩ := h.missing hfind
    simp [FindsOwn, hfind]
  | some row =>
    obtain ⟨f, rfl, hkey, hvalues⟩ := h.found row hfind
    simp only [FindsOwn, hfind, Option.some.injEq, exists_eq_left', forall_eq', Except.ok.injEq,
      ← hkey, ← hvalues]
    split
    case isTrue heq => simp [heq]
    case isFalse hne => simp [Ne.symm hne]

theorem StakeholderTable.store_iff_of_reads {found get : Except StorageErr ε}
    (h : T.store now newID found entity db = (.ok stored, db'))
    (hvalid : T.isInValidState entity = true)
    (hm : ∀ row row', T.rowKey row = T.rowKey row' → m row = m row')
    (hself : ∀ row, T.rowKey row = T.key entity → m row = true)
    (hfound : T.Reads m db found) (hget : T.Reads m db' get) :
    (T.KeepsOthers entity db db' ∧ ∃ f, get = .ok f ∧ T.values f = T.values entity) ↔
      ∀ f, found = .ok f → T.key f = T.key entity ∨ T.values f = T.values entity := by
  rw [hget.values_iff, store_iff h hvalid hm hself, hfound.findsOwn_iff]

end

theorem getProducer_reads (db : Db) (producerID : String) :
    producerTable.Reads (fun row => sqlLike producerID row.producerId) db
      (getProducer db producerID) where
  missing h := by
    rw [getProducer, show db.producer.find? _ = none from h]
    exact ⟨.noRows, rfl⟩
  found row h := by
    rw [getProducer, show db.producer.find? _ = some row from h]
    exact ⟨row.toProducer, rfl, rfl, rfl⟩

theorem getChannel_reads (db : Db) (channelID : String) :
    channelTable.Reads (fun row => sqlLike channelID row.channelId) db
      (getChannel db channelID) where
  missing h := by
    rw [getChannel, show db.channel.find? _ = none from h]
    exact ⟨.noRows, rfl⟩
  found row h := by
    rw [getChannel, show db.channel.find? _ = some row from h]
    exact ⟨row.toChannel, rfl, rfl, rfl⟩

section
variable {db db' : Db} {now : Time} {newID : Xid}

theorem storeProducer_iff {producer stored : Producer} (hvalid : producer.isInValidState = true)
    (h : storeProducer now newID producer db = (.ok stored, db')) :
    StoresOwnProducer producer db db' ↔
      ∀ found, getProducer db producer.producerID = .ok found →
        found.producerID = producer.producerID ∨
          (found.name = producer.name ∧ found.token = producer.token) := by
  have hiff := StakeholderTable.store_iff_of_reads h hvalid
    (fun row row' hkey => by rw [show row.producerId = row'.producerId from hkey])
    (fun row hkey => by
      rw [show row.producerId = producer.producerID from hkey]
      exact sqlLike_self _)
    (getProducer_reads db producer.producerID) (getProducer_reads db' producer.producerID)
  simpa [StoresOwnProducer, producerTable] using hiff

theorem storeChannel_iff {channel stored : Channel} (hvalid : channel.isInValidState = true)
    (h : storeChannel now newID channel db = (.ok stored, db')) :
    StoresOwnChannel channel db db' ↔
      ∀ found, getChannel db channel.channelID = .ok found →
        found.channelID = channel.channelID ∨
          (found.name = channel.name ∧ found.token = channel.token) := by
  have hiff := StakeholderTable.store_iff_of_reads h hvalid
    (fun row row' hkey => by rw [show row.channelId = row'.channelId from hkey])
    (fun row hkey => by
      rw [show row.channelId = channel.channelID from hkey]
      exact sqlLike_self _)
    (getChannel_reads db channel.channelID) (getChannel_reads db' channel.channelID)
  simpa [StoresOwnChannel, channelTable] using hiff

end

/-- The lookups of `Store` find the consumer's own row. `Store` looks for it under the id of the
channel that it found, `Get` under the consumer's channel id. -/
def Db.findsOwnConsumer [NetUrl] (db : Db) (consumer : Consumer) : Prop :=
  ∀ inChannel, getChannel db consumer.getChannelIDSafely = .ok inChannel →
    consumerTable.FindsOwn
      (fun row => sqlLike consumer.getChannelIDSafely row.channelId &&
        sqlLike consumer.consumerID row.consumerId)
      (getConsumer db inChannel.channelID consumer.consumerID) consumer db

theorem storeConsumer_iff [NetUrl] {db db' : Db} {now : Time} {newID : Xid}
    {consumer stored : Consumer} (hvalid : consumer.isInValidState = true)
    (h : storeConsumer now newID consumer db = (.ok stored, db')) :
    StoresOwnConsumer consumer db db' ↔ db.findsOwnConsumer consumer := by
  unfold storeConsumer at h
  cases hchannel : getChannel db consumer.getChannelIDSafely with
  | error e =>
    rw [hchannel] at h
    cases h
  | ok inChannel =>
    rw [hchannel] at h
    have hiff := @StakeholderTable.store_iff _ _ _ _ _ _ _ _ _ _ _ _ _ _
      (fun row => sqlLike consumer.getChannelIDSafely row.channelId &&
        sqlLike consumer.consumerID row.consumerId) _ h hvalid
      (fun row row' hkey => by
        obtain ⟨hid, hch⟩ := Prod.mk.inj hkey
        rw [hid, hch])
      (fun row hkey => by
        obtain ⟨hid, hch⟩ := Prod.mk.inj hkey
        rw [hid, hch, sqlLike_self, sqlLike_self]
        rfl)
    rw [StoresOwnConsumer, Db.findsOwnConsumer]
    simp only [hchannel, Except.ok.injEq, forall_eq', ← hiff]
    refine and_congr_right fun hkeep => ?_
    have hchannels : db'.channel = db.channel := by rw [hkeep.1]; rfl
    have hchannel' : getChannel db' consumer.getChannelIDSafely = .ok inChannel := by
      rw [getChannel, hchannels]
      exact hchannel
    show _ ↔ (findConsumer db' consumer.getChannelIDSafely consumer.consumerID).map _ = _
    simp only [getConsumer, hchannel', bind, Except.bind]
    cases findConsumer db' consumer.getChannelIDSafely consumer.consumerID with
    | none => simp [throw, throwThe, MonadExceptOf.throw]
    | some row => simp [pure, Except.pure, ConsumerRow.toConsumer, Consumer.values,
        ConsumerRow.values, consumerTable]

/-- A successful `Store` of a valid producer, channel or consumer touches only the row with its key,
and a following `Get` returns the stored values, if and only if the lookups of `Store` and `Get`
find no other row, or one that needs no update. -/
theorem store_own_row_iff [NetUrl] (db : Db) (now : Time) (newID : Xid) :
    (∀ producer stored db', producer.isInValidState = true →
      storeProducer now newID producer db = (.ok stored, db') →
      (StoresOwnProducer producer db db' ↔
        ∀ found, getProducer db producer.producerID = .ok found →
          found.producerID = producer.producerID ∨
            (found.name = producer.name ∧ found.token = producer.token))) ∧
    (∀ channel stored db', channel.isInValidState = true →
      storeChannel now newID channel db = (.ok stored, db') →
      (StoresOwnChannel channel db db' ↔
        ∀ found, getChannel db channel.channelID = .ok found →
          found.channelID = channel.channelID ∨
            (found.name = channel.name ∧ found.token = channel.token))) ∧
    (∀ consumer stored db', consumer.isInValidState = true →
      storeConsumer now newID consumer db = (.ok stored, db') →
      (StoresOwnConsumer consumer db db' ↔ db.findsOwnConsumer consumer)) := by
  refine ⟨?_, ?_, ?_⟩
  · intro producer stored db' hvalid h
    exact storeProducer_iff hvalid h
  · intro channel stored db' hvalid h
    exact storeChannel_iff hvalid h
  · intro consumer stored db' hvalid h
    exact storeConsumer_iff hvalid h

namespace Sample

def producerDb (producerID : String) : Db where
  producer := [{ producer with producerID := producerID }.toRow]

def renewed (producerID : String) : Producer :=
  { producer with id := jobXid, producerID := producerID, token := "u" }

end Sample

open Sample

theorem store_own_row_iff_update :
    ∃ stored db', storeProducer 2 jobXid (renewed "p") (producerDb "p") =
      (.ok stored, db') ∧ StoresOwnProducer (renewed "p") (producerDb "p") db' := by
  refine ⟨_, _, rfl, ?_⟩
  refine ((@store_own_row_iff netUrl (producerDb "p") 2 jobXid).1 _ _ _
    (by decide) rfl).2 fun found hfound => ?_
  cases hfound
  exact .inl rfl

/-- The producer `a_c` is new, and `Store` gives the producer `abc` its token. -/
theorem store_updates_other_producer :
    ∃ stored db', storeProducer 2 jobXid (renewed "a_c") (producerDb "abc") =
      (.ok stored, db') ∧ (renewed "a_c").isInValidState = true ∧
      db'.producer.map (fun row => (row.producerId, row.token)) = [("abc", "u")] ∧
      ¬ StoresOwnProducer (renewed "a_c") (producerDb "abc") db' := by
  refine ⟨_, _, rfl, by decide, by decide, fun hown => ?_⟩
  exact absurd hown.1.2 (by decide)

end WebhookBroker
