import WebhookBroker.Lib.Chunks
import WebhookBroker.Storage.QueryText
import WebhookBroker.Storage.Transaction

/-!
# Statements over many ids (`storage/deliveryjobrepo.go`, `storage/messagerepo.go`)

`GetJobsForMessages`, `GetQueuedJobsByIDs` and `DeleteMessagesAndJobs` cut a list of ids into chunks
and execute a statement, or two, for each of them. They are modelled with the texts and arguments of
their statements, any of which may fail. A `SELECT` without `ORDER BY` returns its rows in any
order, so what is read is compared with one statement over all the ids up to the order.

A chunk has at least one id, so `placeholders` never panics, and a statement has a placeholder for
each of its arguments. The jobs of two chunks differ because an id stands in one chunk only.
-/

namespace WebhookBroker

open List

open Lib Lib.SqlText

inductive SqlArg where
  | id (text : String)
  | status (status : JobStatus)
deriving DecidableEq

structure Statement where
  query : String
  args : List SqlArg
deriving DecidableEq

def Statement.placeholders (st : Statement) (d : Dialect) : Nat :=
  (tokens d st.query.toList).count .placeholder

/-- `x IN (?, …)`. -/
def Statement.idIn (st : Statement) (id : Xid) : Bool := st.args.contains (.id id.string)

/-- `status = ?`. -/
def Statement.statusIs (st : Statement) (status : JobStatus) : Bool :=
  st.args.contains (.status status)

/-- `placeholders`; `strings.Repeat` panics if the count is negative. -/
def placeholders (n : Int) : Option String :=
  if n - 1 < 0 then none else some (String.join (List.replicate (n - 1).toNat "?,") ++ "?")

def jobCommonProjection : String :=
  "SELECT id, messageId, consumerId, status, dispatchReceivedAt, retryAttemptCount, " ++
  "statusChangedAt, earliestNextAttemptAt, createdAt, updatedAt, priority, incrementalTimeout"

def jobCommonSelectQuery : String := jobCommonProjection ++ " FROM job WHERE"

def messageSelectRowCommonQuery : String :=
  "SELECT id, messageId, producerId, channelId, payload, contentType, priority, status, " ++
  "receivedAt, outboxedAt, headers, createdAt, updatedAt FROM message WHERE"

def inStatement (head tail : String) (rest : List SqlArg) (ids : List String) : Option Statement :=
  (placeholders ids.length).map fun marks => ⟨head ++ marks ++ tail, ids.map .id ++ rest⟩

/-- The statement of `GetJobsForMessages`. -/
def jobsForMessagesStatement (chunk : List String) : Option Statement :=
  inStatement (jobCommonSelectQuery ++ " messageId IN (") ")" [] chunk

/-- The statement of `GetQueuedJobsByIDs`. -/
def queuedJobsStatement (chunk : List String) : Option Statement :=
  inStatement (jobCommonSelectQuery ++ " id IN (") ") AND status = ?" [.status .queued] chunk

/-- The statement of `GetByIDs` of the message repository. -/
def messagesStatement (ids : List String) : Statement :=
  ⟨messageSelectRowCommonQuery ++ " id IN (" ++ ", ".intercalate (ids.map fun _ => "?") ++ ")",
    ids.map .id⟩

/-- The first statement of `DeleteMessagesAndJobs`. -/
def deleteJobsStatement (batch : List String) : Option Statement :=
  inStatement "DELETE FROM job WHERE messageId IN (" ")" [] batch

/-- The second statement of `DeleteMessagesAndJobs`. -/
def deleteMessagesStatement (batch : List String) : Option Statement :=
  inStatement "DELETE FROM message WHERE id IN (" ")" [] batch

/-! ## The functions of the repositories -/

/-- The errors of the repositories, for a driver with errors `ε`. -/
inductive RepoErr (ε : Type) where
  /-- a panic that nobody recovers -/
  | panicked
  | driver (err : ε)
  | storage (err : StorageErr)
  /-- `failed to delete jobs: %w` -/
  | deleteJobs (err : RepoErr ε)
  /-- `failed to delete messages: %w` -/
  | deleteMessages (err : RepoErr ε)
  /-- `failed to delete batch of messages and jobs: %w` -/
  | deleteBatch (err : RepoErr ε)

/-- What the driver makes of a statement: it may fail, and the rows come in any order. -/
structure Conn (ε : Type) where
  fails : Statement → Option ε
  order : Statement → List JobRow → List JobRow
  perm : ∀ st rows, (order st rows).Perm rows

def Conn.Quiet {ε : Type} (conn : Conn ε) : Prop := ∀ st, conn.fails st = none

def getJobsForMessagesChunkSize : Nat := 200

/-- The job that `GetJobsForMessages` builds from a row: the message has only its id, and so has a
listener that cannot be loaded. -/
def JobRow.toJobOfMessage (db : Db) (row : JobRow) : DeliveryJob where
  id := row.id
  createdAt := row.createdAt
  updatedAt := row.updatedAt
  message := some {
    id := row.messageId, createdAt := 0, updatedAt := 0, messageID := "", payload := ""
    contentType := "", priority := 0, status := .other 0, broadcastedTo := none, producedBy := none
    receivedAt := 0, outboxedAt := 0 }
  listener :=
    match getConsumerByID db row.consumerId.string with
    | .ok listener => some listener
    | .error _ => some {
        id := row.consumerId, createdAt := 0, updatedAt := 0, name := "", token := ""
        consumerID := "", callbackURL := "", consumingFrom := none, type := .pull }
  status := row.status
  statusChangedAt := row.statusChangedAt
  dispatchReceivedAt := row.dispatchReceivedAt
  earliestNextAttemptAt := row.earliestNextAttemptAt
  retryAttemptCount := row.retryAttemptCount
  priority := row.priority
  incrementalTimeout := row.incrementalTimeout

/-- `jobsByMessage[msgID] = append(jobsByMessage[msgID], job)`; a key that is not in the map has the
empty list. -/
def appendByMessage (db : Db) (jobsByMessage : String → List DeliveryJob) (row : JobRow) :
    String → List DeliveryJob :=
  let msgID := row.messageId.string
  Function.update jobsByMessage msgID (jobsByMessage msgID ++ [row.toJobOfMessage db])

namespace Fault

variable {ε : Type}

/-- `queryRows` over rows of `job`. -/
def queryRows (conn : Conn ε) (st : Statement) (rows : List JobRow) :
    Except (RepoErr ε) (List JobRow) :=
  match conn.fails st with
  | some err => .error (.driver err)
  | none => .ok (conn.order st rows)

/-- The rows of a chunk of `GetJobsForMessages`. -/
def jobsForMessagesChunk (conn : Conn ε) (db : Db) (chunk : List String) :
    Except (RepoErr ε) (List JobRow) :=
  match jobsForMessagesStatement chunk with
  | none => .error .panicked
  | some st => queryRows conn st (db.job.filter fun row => st.idIn row.messageId)

def getJobsForMessages (conn : Conn ε) (db : Db) (messageIDs : List String) :
    Except (RepoErr ε) (String → List DeliveryJob) :=
  if messageIDs.length = 0 then .ok fun _ => []
  else
    foldRows (jobsForMessagesChunk conn db) (appendByMessage db)
      (chunks getJobsForMessagesChunkSize messageIDs) fun _ => []

/-- The rows of a chunk of `GetQueuedJobsByIDs`, for which `getJobs` also loads the messages. -/
def queuedJobsChunk (conn : Conn ε) (db : Db) (chunk : List String) :
    Except (RepoErr ε) (List JobRow) :=
  match queuedJobsStatement chunk with
  | none => .error .panicked
  | some st =>
    match queryRows conn st
        (db.job.filter fun row => st.idIn row.id && st.statusIs row.status) with
    | .error err => .error err
    | .ok rows =>
      -- without jobs, `GetByIDs` executes no statement
      if rows.isEmpty then .ok rows
      else
        match conn.fails (messagesStatement (rows.map (·.messageId.string))) with
        | some err => .error (.driver err)
        | none => .ok rows

def getQueuedJobsByIDs (conn : Conn ε) (db : Db) (ids : List String) :
    Except (RepoErr ε) (List DeliveryJob) :=
  foldRows (queuedJobsChunk conn db) (fun result row => result ++ [row.toDeliveryJob db])
    (chunks getJobsForMessagesChunkSize ids) []

/-- `tx.ExecContext` with a statement that deletes rows, and the error that is returned. -/
def execDelete (conn : Conn ε) (st : Option Statement) (delete : Statement → Tx Nat)
    (errorf : RepoErr ε → RepoErr ε) (db : Db) : OpResult Db (RepoErr ε) :=
  match st with
  | none => .panicked db
  | some st =>
    match conn.fails st with
    | some err => .returned (some (errorf (.driver err))) db
    | none =>
      match delete st db with
      | .error err => .returned (some (errorf (.storage err))) db
      | .ok (_, db') => .returned none db'

/-- The loop over the batches, each with two deletes, jobs first. -/
def deleteBatches (conn : Conn ε) : List (List String) → Db → OpResult Db (RepoErr ε)
  | [], db => .returned none db
  | batch :: batches, db =>
    match execDelete conn (deleteJobsStatement batch)
        (fun st => deleteJob fun r => st.idIn r.messageId) .deleteJobs db with
    | .returned none db =>
      match execDelete conn (deleteMessagesStatement batch)
          (fun st => deleteMessage fun m => st.idIn m.id) .deleteMessages db with
      | .returned none db => deleteBatches conn batches db
      | result => result
    | result => result

/-- `DeleteMessagesAndJobs`: the error and the database. -/
def deleteMessagesAndJobs (conn : Conn ε) (faults : TxFaults (RepoErr ε))
    (messageIDs : List String) (db : Db) : Option (RepoErr ε) × Db :=
  if messageIDs.length = 0 then (none, db)
  else
    let batchSize := 100
    let result := transactionalWrites faults [deleteBatches conn (chunks batchSize messageIDs)] db
    (result.err.map .deleteBatch, result.db)

end Fault

/-- What one statement `… WHERE messageId IN (…)` over all the ids reads, grouped by message. -/
def jobsForMessages (db : Db) (messageIDs : List String) (messageID : String) : List DeliveryJob :=
  ((db.job.filter fun row => messageIDs.contains row.messageId.string).filter
    fun row => row.messageId.string == messageID).map (·.toJobOfMessage db)

/-! ## As many placeholders as arguments -/

section
variable {d : Dialect} {head sep tail : List Char} {k : Nat}

theorem run_marks (hsep : run d .text ('?' :: sep) = (.text, [.placeholder, .symbol ','])) :
    (run d .text (List.replicate k ('?' :: sep)).flatten).1 = .text ∧
    (run d .text (List.replicate k ('?' :: sep)).flatten).2.count .placeholder = k := by
  induction k with
  | zero => exact ⟨rfl, rfl⟩
  | succ k ih =>
    rw [replicate_succ, flatten_cons, run_append, hsep]
    refine ⟨ih.1, ?_⟩
    rw [count_append, ih.2, Nat.add_comm]
    rfl

theorem count_marks (hhead : (run d .text head).1 = .text)
    (hcount : (run d .text head).2.count .placeholder = 0)
    (hsep : run d .text ('?' :: sep) = (.text, [.placeholder, .symbol ','])) :
    (tokens d (head ++ ((List.replicate k ('?' :: sep)).flatten ++ '?' :: tail))).count
        .placeholder =
      k + 1 + (tokensFrom d .text tail).count .placeholder := by
  obtain ⟨hmode, hmarks⟩ := run_marks (k := k) hsep
  have hmark : tokensFrom d .text ('?' :: tail) = .placeholder :: tokensFrom d .text tail := by
    cases d <;> rfl
  rw [tokens, tokensFrom_append, hhead, tokensFrom_append, hmode, hmark, count_append, hcount,
    count_append, hmarks, count_cons_self]
  omega

end

theorem placeholders_length {chunk : List String} (hchunk : chunk ≠ []) :
    ∃ marks k, placeholders chunk.length = some marks ∧ chunk.length = k + 1 ∧
      marks.toList = (List.replicate k ['?', ',']).flatten ++ ['?'] := by
  have hlength := length_pos_iff.2 hchunk
  refine ⟨_, chunk.length - 1, if_neg (by omega), by omega, ?_⟩
  rw [String.toList_append, String.toList_join, flatMap_replicate,
    show ((chunk.length : Int) - 1).toNat = chunk.length - 1 by omega]
  rfl

/-- The arguments of a statement are the ids and what follows them, each with its placeholder. -/
structure Statement.Binds (st : Statement) (ids : List String) (rest : List SqlArg) : Prop where
  args : st.args = ids.map .id ++ rest
  placeholders : ∀ d, st.placeholders d = st.args.length

section
variable {chunk : List String} (hchunk : chunk ≠ [])
include hchunk

theorem inStatement_binds {head tail : String} {rest : List SqlArg}
    (hhead : ∀ d, (run d .text head.toList).1 = .text)
    (hcount : ∀ d, (run d .text head.toList).2.count .placeholder = 0)
    (htail : ∀ d, (tokensFrom d .text tail.toList).count .placeholder = rest.length) :
    ∃ st, inStatement head tail rest chunk = some st ∧ st.Binds chunk rest := by
  obtain ⟨marks, k, hplaceholders, hlength, hmarks⟩ := placeholders_length hchunk
  rw [inStatement, hplaceholders]
  refine ⟨_, rfl, rfl, fun d => ?_⟩
  rw [Statement.placeholders, String.toList_append, String.toList_append, hmarks, append_assoc,
    append_assoc, singleton_append, count_marks (hhead d) (hcount d) (by cases d <;> rfl), htail,
    length_append, length_map, hlength]

theorem jobsForMessagesStatement_binds :
    ∃ st, jobsForMessagesStatement chunk = some st ∧ st.Binds chunk [] :=
  inStatement_binds hchunk (fun d => by cases d <;> decide +kernel)
    (fun d => by cases d <;> decide +kernel) fun d => by cases d <;> rfl

theorem queuedJobsStatement_binds :
    ∃ st, queuedJobsStatement chunk = some st ∧ st.Binds chunk [.status .queued] :=
  inStatement_binds hchunk (fun d => by cases d <;> decide +kernel)
    (fun d => by cases d <;> decide +kernel) fun d => by cases d <;> rfl

theorem deleteJobsStatement_binds :
    ∃ st, deleteJobsStatement chunk = some st ∧ st.Binds chunk [] :=
  inStatement_binds hchunk (fun d => by cases d <;> decide +kernel)
    (fun d => by cases d <;> decide +kernel) fun d => by cases d <;> rfl

theorem deleteMessagesStatement_binds :
    ∃ st, deleteMessagesStatement chunk = some st ∧ st.Binds chunk [] :=
  inStatement_binds hchunk (fun d => by cases d <;> decide +kernel)
    (fun d => by cases d <;> decide +kernel) fun d => by cases d <;> rfl

/-- `GetByIDs` writes its marks in another way. -/
theorem messagesStatement_placeholders (d : Dialect) :
    (messagesStatement chunk).placeholders d = (messagesStatement chunk).args.length := by
  have hmarks : ∀ (id : String) (ids : List String),
      (", ".intercalate ((id :: ids).map fun _ => "?")).toList =
        (List.replicate ids.length ['?', ',', ' ']).flatten ++ ['?'] := by
    intro id ids
    rw [String.toList_intercalate]
    induction ids generalizing id with
    | nil => simp
    | cons id' ids ih =>
      have hstep := ih id'
      simp only [map_cons, map_map] at hstep ⊢
      rw [intercalate_cons_cons, hstep, length_cons, replicate_succ,
        flatten_cons, append_assoc]
      rfl
  cases chunk with
  | nil => exact absurd rfl hchunk
  | cons id ids =>
    rw [Statement.placeholders, messagesStatement, String.toList_append, String.toList_append,
      hmarks, append_assoc, append_assoc, singleton_append,
      count_marks (by cases d <;> decide +kernel) (by cases d <;> decide +kernel)
        (by cases d <;> rfl), length_map, length_cons]
    cases d <;> rfl

end

/-! ## Reading in chunks -/

def Conn.Failed {ε : Type} (conn : Conn ε) (err : RepoErr ε) : Prop :=
  ∃ st e, conn.fails st = some e ∧ err = .driver e

section
variable {ε : Type} {conn : Conn ε} {db : Db} {chunk ids : List String} {st : Statement}
  {rest : List SqlArg}

theorem Statement.Binds.idIn (h : st.Binds chunk rest) (hrest : ∀ text, SqlArg.id text ∉ rest)
    (id : Xid) : st.idIn id = chunk.contains id.string := by
  rw [Statement.idIn, h.args, Bool.eq_iff_iff, contains_iff_mem, contains_iff_mem]
  simp [hrest]

theorem Statement.Binds.statusIs (h : st.Binds chunk [.status .queued]) (status : JobStatus) :
    st.statusIs status = (status == .queued) := by
  rw [Statement.statusIs, h.args, Bool.eq_iff_iff, contains_iff_mem]
  simp

theorem queryRows_returns (conn : Conn ε) (st : Statement) (rows : List JobRow) :
    Returns conn.Failed (·.Perm rows) (Fault.queryRows conn st rows) := by
  unfold Fault.queryRows
  cases hfails : conn.fails st with
  | none => exact conn.perm st rows
  | some e => exact ⟨st, e, hfails, rfl⟩

theorem jobsForMessagesChunk_returns (conn : Conn ε) (db : Db) (hchunk : chunk ≠ []) :
    Returns conn.Failed (·.Perm (db.job.filter fun row => chunk.contains row.messageId.string))
      (Fault.jobsForMessagesChunk conn db chunk) := by
  obtain ⟨st, hst, hbinds⟩ := jobsForMessagesStatement_binds hchunk
  simp only [Fault.jobsForMessagesChunk, hst, hbinds.idIn fun _ => not_mem_nil]
  exact queryRows_returns conn st _

theorem queuedJobsChunk_returns (conn : Conn ε) (db : Db) (hchunk : chunk ≠ []) :
    Returns conn.Failed
      (·.Perm (db.job.filter fun row => chunk.contains row.id.string && row.status == .queued))
      (Fault.queuedJobsChunk conn db chunk) := by
  obtain ⟨st, hst, hbinds⟩ := queuedJobsStatement_binds hchunk
  simp only [Fault.queuedJobsChunk, hst, hbinds.idIn (by simp), hbinds.statusIs]
  have hrows := queryRows_returns conn st (db.job.filter fun row =>
    chunk.contains row.id.string && row.status == .queued)
  split
  · rename_i herr
    rw [herr] at hrows
    exact hrows
  · rename_i hok
    rw [hok] at hrows
    split
    · exact hrows
    · split
      · rename_i e hfails
        exact ⟨_, e, hfails, rfl⟩
      · exact hrows

/-- The rows for the ids of the chunks are those for all the ids, if no id is there twice. -/
theorem chunked_rows_perm (hids : ids.Nodup) {size : Nat} (hsize : 0 < size) (key : JobRow → String)
    (rows : List JobRow) :
    ((chunks size ids).flatMap fun c => rows.filter fun row => c.contains (key row)).Perm
      (rows.filter fun row => ids.contains (key row)) := by
  have hperm := flatMap_filter_perm (fun id row => key row == id) rows (chunks size ids) (by
    rw [flatten_chunks hsize]
    refine hids.imp fun hne row _ ha => ?_
    rw [beq_iff_eq] at ha
    rw [ha]
    exact beq_false_of_ne hne)
  rw [flatten_chunks hsize] at hperm
  simpa only [contains_eq_any_beq] using hperm

theorem foldl_appendByMessage (db : Db) (rows : List JobRow)
    (jobsByMessage : String → List DeliveryJob) (messageID : String) :
    rows.foldl (appendByMessage db) jobsByMessage messageID = jobsByMessage messageID ++
      (rows.filter fun row => row.messageId.string == messageID).map (·.toJobOfMessage db) := by
  induction rows generalizing jobsByMessage with
  | nil => simp
  | cons row rows ih =>
    rw [foldl_cons, ih, appendByMessage]
    by_cases hrow : row.messageId.string = messageID
    · rw [← hrow, Function.update_self, filter_cons_of_pos (by simp), map_cons,
        append_assoc, singleton_append]
    · rw [Function.update_of_ne fun heq => hrow heq.symm,
        filter_cons_of_neg (by simpa using hrow)]

/-- `GetJobsForMessages` gives each job of the messages once, under its message, or the error of a
statement. -/
theorem getJobsForMessages_returns (conn : Conn ε) (db : Db) (hids : ids.Nodup) :
    Returns conn.Failed
      (fun jobs => ∀ messageID, (jobs messageID).Perm (jobsForMessages db ids messageID))
      (Fault.getJobsForMessages conn db ids) := by
  unfold Fault.getJobsForMessages
  split
  · rename_i hlength
    rw [length_eq_zero_iff] at hlength
    intro messageID
    simp [hlength, jobsForMessages]
  · refine (foldRows_returns (fun c hc => jobsForMessagesChunk_returns conn db
      (ne_nil_of_mem_chunks (by decide) hc)) (appendByMessage db) _).imp ?_
    rintro _ ⟨rs, hrs, rfl⟩ messageID
    rw [foldl_appendByMessage, nil_append, jobsForMessages]
    have hperm := hrs.trans (chunked_rows_perm hids (by decide) (·.messageId.string) db.job)
    exact (hperm.filter _).map _

/-- `GetQueuedJobsByIDs` gives each queued job with one of the ids once, or the error of a
statement. -/
theorem getQueuedJobsByIDs_returns (conn : Conn ε) (db : Db) (hids : ids.Nodup) :
    Returns conn.Failed (·.Perm (getQueuedJobsByIDs db ids))
      (Fault.getQueuedJobsByIDs conn db ids) := by
  have happend : ∀ (rows : List JobRow) (result : List DeliveryJob),
      rows.foldl (fun result row => result ++ [row.toDeliveryJob db]) result =
        result ++ rows.map (·.toDeliveryJob db) := by
    intro rows
    induction rows with
    | nil => simp
    | cons row rows ih => simp [ih]
  refine (foldRows_returns (fun c hc => queuedJobsChunk_returns conn db
    (ne_nil_of_mem_chunks (by decide) hc)) _ []).imp ?_
  rintro _ ⟨rs, hrs, rfl⟩
  simp only [← filter_filter] at hrs
  have hperm := hrs.trans (chunked_rows_perm hids (by decide) (·.id.string) _)
  rw [filter_filter] at hperm
  rw [happend, nil_append]
  exact hperm.map _

end

/-! ## Deleting in batches -/

variable {ε : Type}

/-- A delete is made, or an error is returned; it is that of the driver, or the rows cannot be
deleted. -/
theorem execDelete_cases (conn : Conn ε) (st : Statement) (delete : Statement → Tx Nat)
    (errorf : RepoErr ε → RepoErr ε) {op : Tx Nat} (hop : delete st = op) (db : Db) :
    (∃ n db', Fault.execDelete conn (some st) delete errorf db = .returned none db' ∧
      op db = .ok (n, db')) ∨
    ∃ err db', Fault.execDelete conn (some st) delete errorf db = .returned (some err) db' ∧
      (conn.Quiet → ∃ err, op db = .error err) := by
  subst hop
  simp only [Fault.execDelete]
  cases hfails : conn.fails st with
  | some err => exact .inr ⟨_, _, rfl, fun hquiet => nomatch (hquiet st).symm.trans hfails⟩
  | none =>
    cases delete st db with
    | error err => exact .inr ⟨_, _, rfl, fun _ => ⟨err, rfl⟩⟩
    | ok p => exact .inl ⟨p.1, p.2, rfl, rfl⟩

/-- The batches are deleted one after the other, or an error is returned; where no statement fails,
one of the batches cannot be deleted then. -/
theorem deleteBatches_cases (conn : Conn ε) {css : List (List String)} (hcss : ∀ c ∈ css, c ≠ [])
    (db : Db) :
    (∃ db', Fault.deleteBatches conn css db = .returned none db' ∧
      (css.forM deleteMessagesAndJobsBatch) db = .ok ((), db')) ∨
    ∃ err db', Fault.deleteBatches conn css db = .returned (some err) db' ∧
      (conn.Quiet → ∀ db', (css.forM deleteMessagesAndJobsBatch) db ≠ .ok ((), db')) := by
  induction css generalizing db with
  | nil => exact .inl ⟨db, rfl, rfl⟩
  | cons c css ih =>
    obtain ⟨hc, hcss⟩ := forall_mem_cons.1 hcss
    obtain ⟨st₁, hst₁, hbinds₁⟩ := deleteJobsStatement_binds hc
    obtain ⟨st₂, hst₂, hbinds₂⟩ := deleteMessagesStatement_binds hc
    have hjobs : (deleteJob fun r => st₁.idIn r.messageId) =
        deleteJob fun r => c.contains r.messageId.string := by
      simp only [hbinds₁.idIn fun _ => not_mem_nil]
    have hmessages : (deleteMessage fun m => st₂.idIn m.id) =
        deleteMessage fun m => c.contains m.id.string := by
      simp only [hbinds₂.idIn fun _ => not_mem_nil]
    rw [Fault.deleteBatches, hst₁, hst₂]
    have hends : ∀ {err} {op : Tx Nat} {db₁ : Db}, op db₁ = .error err →
        ∀ n db₂, op db₁ ≠ .ok (n, db₂) :=
      fun herr _ _ hok => nomatch herr.symm.trans hok
    rcases execDelete_cases conn st₁ (fun st => deleteJob fun r => st.idIn r.messageId) .deleteJobs
      hjobs db with
      ⟨n, db₁, hrun₁, hop₁⟩ | ⟨err, db₁, hrun₁, herr⟩
    · rcases execDelete_cases conn st₂ (fun st => deleteMessage fun m => st.idIn m.id)
        .deleteMessages hmessages db₁ with
        ⟨m, db₂, hrun₂, hop₂⟩ | ⟨err, db₂, hrun₂, herr⟩
      · have hbatch : deleteMessagesAndJobsBatch c db = .ok ((), db₂) :=
          Tx.bind_eq_ok.2 ⟨n, db₁, hop₁, Tx.bind_eq_ok.2 ⟨m, db₂, hop₂, rfl⟩⟩
        simp only [hrun₁, hrun₂]
        refine (ih hcss db₂).imp ?_ ?_
        · rintro ⟨db', hrun, hrest⟩
          exact ⟨db', hrun, Tx.bind_eq_ok.2 ⟨(), db₂, hbatch, hrest⟩⟩
        · rintro ⟨err, db', hrun, hrest⟩
          refine ⟨err, db', hrun, fun hquiet db' hall => ?_⟩
          obtain ⟨_, db₃, hbatch', hrest'⟩ := Tx.bind_eq_ok.1 hall
          cases hbatch.symm.trans hbatch'
          exact hrest hquiet db' hrest'
      · simp only [hrun₁, hrun₂]
        refine .inr ⟨err, db₂, rfl, fun hquiet db' hall => ?_⟩
        obtain ⟨err', herr'⟩ := herr hquiet
        obtain ⟨_, db₃, hbatch, -⟩ := Tx.bind_eq_ok.1 hall
        obtain ⟨n', db₁', hop₁', hrest⟩ := Tx.bind_eq_ok.1 hbatch
        cases hop₁.symm.trans hop₁'
        obtain ⟨m, db₂', hop₂, -⟩ := Tx.bind_eq_ok.1 hrest
        exact hends herr' m db₂' hop₂
    · simp only [hrun₁]
      refine .inr ⟨err, db₁, rfl, fun hquiet db' hall => ?_⟩
      obtain ⟨err', herr'⟩ := herr hquiet
      obtain ⟨_, db₃, hbatch, -⟩ := Tx.bind_eq_ok.1 hall
      obtain ⟨n, db₁', hop₁, -⟩ := Tx.bind_eq_ok.1 hbatch
      exact hends herr' n db₁' hop₁

section
variable {db : Db} {batch : List String}

/-- None of the messages with the ids has a parked job. -/
def Db.NoneParked (db : Db) (ids : List String) : Prop :=
  ∀ m ∈ db.message, ids.contains m.id.string = true → m.id ∉ db.jobParking.map (·.messageId)

/-- The database without the messages with the ids and their jobs. -/
def Db.withoutMessages (db : Db) (ids : List String) : Db :=
  { db with
    job := deleteWhere (fun r => ids.contains r.messageId.string) db.job
    message := deleteWhere (fun m => ids.contains m.id.string) db.message }

/-- A batch succeeds if none of its messages is parked: its jobs are deleted first. -/
theorem deleteMessagesAndJobsBatch_of_noneParked (h : db.NoneParked batch) :
    deleteMessagesAndJobsBatch batch db = .ok ((), db.withoutMessages batch) := by
  refine Tx.bind_eq_ok.2 ⟨_, _, rfl, Tx.bind_eq_ok.2 ⟨_, _, if_neg ?_, rfl⟩⟩
  rintro ⟨m, hm, hmem, hjob | hparked⟩
  · obtain ⟨r, hr, heq⟩ := mem_map.1 hjob
    have hkept : batch.contains r.messageId.string = false := (mem_deleteWhere.1 hr).2
    rw [show r.messageId = m.id from heq, show batch.contains m.id.string = true from hmem] at hkept
    cases hkept
  · exact h m hm hmem hparked

theorem forM_deleteMessagesAndJobsBatch_of_noneParked {css : List (List String)}
    (h : db.NoneParked css.flatten) :
    (css.forM deleteMessagesAndJobsBatch) db = .ok ((), db.withoutMessages css.flatten) := by
  have hok : ∃ db', (css.forM deleteMessagesAndJobsBatch) db = .ok ((), db') := by
    induction css generalizing db with
    | nil => exact ⟨db, rfl⟩
    | cons c css ih =>
      simp only [Db.NoneParked, flatten_cons, contains_append, Bool.or_eq_true] at h
      have hc : db.NoneParked c := fun m hm hmem => h m hm (.inl hmem)
      have hcss : (db.withoutMessages c).NoneParked css.flatten := fun m hm hmem =>
        h m (mem_of_mem_filter hm) (.inr hmem)
      obtain ⟨db', hdb'⟩ := ih hcss
      have hc := deleteMessagesAndJobsBatch_of_noneParked hc
      exact ⟨db', Tx.bind_eq_ok.2 ⟨(), _, hc, hdb'⟩⟩
  obtain ⟨db', hdb'⟩ := hok
  have heffect := (forM_deleteMessagesAndJobsBatch_eq_ok hdb').1
  rw [hdb', show db' = _ from heffect]
  rfl

theorem transactionalWrites_singleton {op : Tx Unit} {db' : Db} :
    transactionalWrites [op] db = (.ok (), db') ↔ op db = .ok ((), db') := by
  have hsingle : transactionalWrites [op] db = transactionalOperations op db := by
    simp [transactionalWrites]
  rw [hsingle]
  rcases transactionalOperations_cases op db with ⟨_, db₁, hok, heq⟩ | ⟨err, herr, heq⟩
  · rw [heq, hok]
    simp
  · rw [heq, herr]
    simp

/-- `DeleteMessagesAndJobs` deletes what one batch of all the ids would delete, or it returns an
error and deletes nothing; if nothing else fails, it does so only where that batch fails too. -/
def Deletes {ε : Type} (conn : Conn ε) (faults : TxFaults (RepoErr ε)) (db : Db)
    (ids : List String) : Option (RepoErr ε) × Db → Prop
  | (none, db') => db' = db.withoutMessages ids ∧
      transactionalWrites [deleteMessagesAndJobsBatch ids] db = (.ok (), db')
  | (some _, db') => db' = db ∧ (conn.Quiet → faults.begins = none → faults.commits = none →
      ∃ err, transactionalWrites [deleteMessagesAndJobsBatch ids] db = (.error err, db))

theorem deleteMessagesAndJobs_deletes (conn : Conn ε) (faults : TxFaults (RepoErr ε)) (db : Db)
    (ids : List String) :
    Deletes conn faults db ids (Fault.deleteMessagesAndJobs conn faults ids db) := by
  rw [Fault.deleteMessagesAndJobs]
  split
  · rename_i hlength
    have hids := length_eq_zero_iff.1 hlength
    have hnone : db.withoutMessages ids = db := by simp [hids, Db.withoutMessages, deleteWhere]
    have hparked : db.NoneParked ids := by simp [hids, Db.NoneParked]
    have hbatch := deleteMessagesAndJobsBatch_of_noneParked hparked
    rw [hnone] at hbatch
    exact ⟨hnone.symm, transactionalWrites_singleton.2 hbatch⟩
  · have hne : ∀ c ∈ chunks 100 ids, c ≠ [] := fun c hc => ne_nil_of_mem_chunks (by decide) hc
    have hflatten : (chunks 100 ids).flatten = ids := flatten_chunks (by decide) ids
    have hrunOps : Fault.runOps [Fault.deleteBatches conn (chunks 100 ids)] db =
        Fault.deleteBatches conn (chunks 100 ids) db := by
      rw [Fault.runOps]
      split <;> rename_i hrun <;> exact hrun.symm
    simp only [Fault.transactionalWrites, Fault.transactionalOperations, hrunOps]
    have hsucceeds :
        (∀ db', ((chunks 100 ids).forM deleteMessagesAndJobsBatch) db ≠ .ok ((), db')) →
        ∃ err, transactionalWrites [deleteMessagesAndJobsBatch ids] db = (.error err, db) := by
      intro hfails
      rcases transactionalOperations_cases ([deleteMessagesAndJobsBatch ids].forM id) db with
        ⟨_, db', -, heq⟩ | ⟨err, -, heq⟩
      · have hparked := (deleteMessagesAndJobsBatch_eq_ok (transactionalWrites_singleton.1 heq)).2
        rw [← hflatten] at hparked
        exact absurd (forM_deleteMessagesAndJobsBatch_of_noneParked hparked) (hfails _)
      · exact ⟨err, heq⟩
    cases hbegins : faults.begins with
    | some err => exact ⟨rfl, fun _ hnone => by cases hnone.symm.trans hbegins⟩
    | none =>
      rcases deleteBatches_cases conn hne db with ⟨db', hrun, hbatches⟩ | ⟨err, db', hrun, hfails⟩
      · obtain ⟨rfl, hparked⟩ := forM_deleteMessagesAndJobsBatch_eq_ok hbatches
        rw [hrun]
        cases hcommits : faults.commits with
        | some err => exact ⟨rfl, fun _ _ hnone => by cases hnone.symm.trans hcommits⟩
        | none =>
          rw [hflatten] at hparked ⊢
          exact ⟨rfl, transactionalWrites_singleton.2
            (deleteMessagesAndJobsBatch_of_noneParked hparked)⟩
      · rw [hrun]
        exact ⟨rfl, fun hquiet _ _ => hsucceeds (hfails hquiet)⟩

end

theorem batches_eq_chunks {size : Nat} (hsize : 0 < size) (ids : List String) :
    batches size ids.length ids = chunks size ids := by
  have hfrom : ∀ fuel start, ids.length ≤ start + fuel →
      batches size fuel (ids.drop start) = chunksFrom size ids fuel start := by
    intro fuel
    induction fuel with
    | zero => exact fun _ _ => rfl
    | succ fuel ih =>
      intro start hfuel
      rw [chunksFrom]
      split
      · rename_i hlt
        obtain ⟨id, rest, hrest⟩ := exists_cons_of_ne_nil
          (length_pos_iff.1 (by rw [length_drop]; omega : 0 < (ids.drop start).length))
        rw [slice_min, ← ih (start + size) (by omega), ← drop_drop, hrest, batches]
      · rw [drop_eq_nil_of_le (by omega)]
        rfl
  rw [chunks, ← hfrom ids.length 0 (by omega), drop_zero]

/-- Where nothing fails but the deletes themselves, this is the `DeleteMessagesAndJobs` of
`Storage.MessageRepo`. -/
theorem deleteMessagesAndJobs_eq_fault {conn : Conn ε} (hconn : conn.Quiet) (db : Db)
    (ids : List String) :
    (deleteMessagesAndJobs ids db).2 = (Fault.deleteMessagesAndJobs conn {} ids db).2 ∧
    ((deleteMessagesAndJobs ids db).1 = .ok () ↔
      (Fault.deleteMessagesAndJobs conn {} ids db).1 = none) := by
  have hdeletes := deleteMessagesAndJobs_deletes conn {} db ids
  generalize Fault.deleteMessagesAndJobs conn {} ids db = result at hdeletes ⊢
  rcases result with ⟨- | err, db'⟩
  · obtain ⟨rfl, hbatch⟩ := hdeletes
    have hparked := (deleteMessagesAndJobsBatch_eq_ok (transactionalWrites_singleton.1 hbatch)).2
    have hok : deleteMessagesAndJobs ids db = (.ok (), db.withoutMessages ids) := by
      rcases deleteMessagesAndJobs_cases ids db with ⟨hok, -⟩ | ⟨err, herror⟩
      · exact hok
      · exfalso
        rw [deleteMessagesAndJobs] at herror
        split at herror
        · cases herror
        · rw [batches_eq_chunks (by decide), transactionalWrites_singleton.2
            (forM_deleteMessagesAndJobsBatch_of_noneParked
              (by rwa [flatten_chunks (by decide)]))] at herror
          cases herror
    simp [hok]
  · obtain ⟨rfl, hbatch⟩ := hdeletes
    obtain ⟨err', herror⟩ := hbatch hconn rfl rfl
    rcases deleteMessagesAndJobs_cases ids db' with ⟨-, hparked⟩ | ⟨err', hfail⟩
    · rw [transactionalWrites_singleton.2 (deleteMessagesAndJobsBatch_of_noneParked hparked)]
        at herror
      cases herror
    · simp [hfail]

/-- The statements that the functions generate for a list of ids; a panic is `none`. -/
inductive Generated (ids : List String) : Option Statement → Prop
  | jobsForMessages {c} (hc : c ∈ chunks getJobsForMessagesChunkSize ids) :
      Generated ids (jobsForMessagesStatement c)
  | queuedJobs {c} (hc : c ∈ chunks getJobsForMessagesChunkSize ids) :
      Generated ids (queuedJobsStatement c)
  | messages {rows : List JobRow} (hrows : rows ≠ []) :
      Generated ids (some (messagesStatement (rows.map (·.messageId.string))))
  | deleteJobs {c} (hc : c ∈ chunks 100 ids) : Generated ids (deleteJobsStatement c)
  | deleteMessages {c} (hc : c ∈ chunks 100 ids) : Generated ids (deleteMessagesStatement c)

/-- Every statement is generated without a panic, with a placeholder for each argument. -/
theorem Generated.wellFormed {ids : List String} {o : Option Statement} (h : Generated ids o) :
    ∃ st, o = some st ∧ ∀ d, st.placeholders d = st.args.length := by
  have hbinds : ∀ {ids rest}, (∃ st, o = some st ∧ st.Binds ids rest) →
      ∃ st, o = some st ∧ ∀ d, st.placeholders d = st.args.length :=
    fun ⟨st, hst, h⟩ => ⟨st, hst, h.placeholders⟩
  cases h with
  | jobsForMessages hc =>
    exact hbinds (jobsForMessagesStatement_binds (ne_nil_of_mem_chunks (by decide) hc))
  | queuedJobs hc => exact hbinds (queuedJobsStatement_binds (ne_nil_of_mem_chunks (by decide) hc))
  | messages hrows => exact ⟨_, rfl, messagesStatement_placeholders (by simpa using hrows)⟩
  | deleteJobs hc => exact hbinds (deleteJobsStatement_binds (ne_nil_of_mem_chunks (by decide) hc))
  | deleteMessages hc =>
    exact hbinds (deleteMessagesStatement_binds (ne_nil_of_mem_chunks (by decide) hc))

/-- For every database and list of ids without repetitions, the functions that work in chunks do
what one statement over the list would do: they read each job once, in any order, or return the
error of a statement; they delete exactly the messages with the ids and their jobs, or nothing.
Their statements have as many placeholders as arguments. -/
theorem chunked_eq_unchunked {ε : Type} (conn : Conn ε) (faults : TxFaults (RepoErr ε)) (db : Db)
    (ids : List String) (hids : ids.Nodup) :
    Returns conn.Failed
      (fun jobs => ∀ messageID, (jobs messageID).Perm (jobsForMessages db ids messageID))
      (Fault.getJobsForMessages conn db ids) ∧
    Returns conn.Failed (·.Perm (getQueuedJobsByIDs db ids))
      (Fault.getQueuedJobsByIDs conn db ids) ∧
    Deletes conn faults db ids (Fault.deleteMessagesAndJobs conn faults ids db) ∧
    ∀ o, Generated ids o → ∃ st, o = some st ∧ ∀ d, st.placeholders d = st.args.length :=
  ⟨getJobsForMessages_returns conn db hids, getQueuedJobsByIDs_returns conn db hids,
    deleteMessagesAndJobs_deletes conn faults db ids, fun _ h => h.wellFormed⟩

namespace Sample

/-- A driver that never fails and returns the rows backwards. -/
def backwards : Conn Unit := ⟨fun _ => none, fun _ rows => rows.reverse, fun _ => reverse_perm⟩

def twoJobsDb : Db :=
  { messageDb "m" with
    job := [⟨jobXid, messageXid, consumerXid, .queued, 0, 1, 1, 1, 1, 1, 1, 0⟩,
      ⟨channelXid, messageXid, producerXid, .queued, 0, 1, 1, 1, 1, 1, 1, 0⟩] }

end Sample

open Sample

theorem chunked_eq_unchunked_backwards :
    (getQueuedJobsByIDs twoJobsDb [jobXid.string, channelXid.string]).length =
      2 ∧
    ∃ jobs, Fault.getQueuedJobsByIDs backwards twoJobsDb
        [jobXid.string, channelXid.string] = .ok jobs ∧
      jobs.Perm (getQueuedJobsByIDs twoJobsDb
        [jobXid.string, channelXid.string]) := by
  obtain ⟨-, hqueued, -⟩ := chunked_eq_unchunked backwards {} twoJobsDb
    [jobXid.string, channelXid.string] (by decide +kernel)
  exact ⟨by decide +kernel, _, rfl, hqueued⟩

theorem deleteMessagesAndJobs_eq_fault_backwards :
    (deleteMessagesAndJobs [messageXid.string] twoJobsDb).2 =
      (Fault.deleteMessagesAndJobs backwards {} [messageXid.string]
        twoJobsDb).2 :=
  (@deleteMessagesAndJobs_eq_fault _ backwards (fun _ => rfl) _ _).1

end WebhookBroker
