import WebhookBroker.Lib.Tally
import WebhookBroker.Storage.Query

/-!
# The summary of the dead letter queue (`storage/dlqsummaryrepo.go`)

`dlq_summary` has one row for each consumer with the number of its dead jobs and the time up to
which they were counted. The latest of these times over all rows is the checkpoint: a count only
takes the jobs that died after it. The statements here are the ones of the repository and the two
counts of dead jobs.

A point in time loses precision twice: when a `DATETIME` column stores it (`Precision`), and when
`GetLastCheckedAt` cuts the text of the checkpoint to whole seconds.
-/

namespace WebhookBroker

open Lib List

/-- A row of `dlq_summary`, and the record `data.DLQSummary`. -/
structure DlqSummary where
  consumerID : Xid
  consumerName : String
  channelID : String
  channelName : String
  deadCount : Nat
  lastCheckedAt : Time
deriving DecidableEq

/-- The time that the first 19 characters of a text hold. -/
def wholeSecond (t : Time) : Time := t / second * second

theorem second_pos : 0 < second := by decide

theorem wholeSecond_le (t : Time) : wholeSecond t ≤ t := Int.ediv_mul_le t second_pos.ne'

theorem lt_wholeSecond_add (t : Time) : t < wholeSecond t + second := by
  have h := Int.lt_ediv_add_one_mul_self t second_pos
  rwa [Int.add_mul, Int.one_mul] at h

theorem wholeSecond_mono : Monotone wholeSecond := fun _ _ h =>
  Int.mul_le_mul_of_nonneg_right (Int.ediv_le_ediv second_pos h) second_pos.le

/-- What a dialect keeps of a point in time in a `DATETIME` column. It is at most half a second off,
and an earlier time is not kept as a later one. -/
structure Precision where
  keep : Time → Time
  mono : Monotone keep
  near : ∀ t, t ≤ keep t + second / 2 ∧ keep t ≤ t + second / 2

/-- MySQL rounds to whole seconds. -/
def Precision.mysql : Precision where
  keep t := wholeSecond (t + second / 2)
  mono t t' h := wholeSecond_mono (Int.add_le_add_right h _)
  near t := by
    have hhalf : second = second / 2 + second / 2 := by decide
    have hlt := lt_wholeSecond_add (t + second / 2)
    have hle := wholeSecond_le (t + second / 2)
    exact ⟨by linarith, hle⟩

/-! ## Counts of dead jobs -/

def Db.deadJobs (db : Db) : List JobRow := db.job.filter (·.status == .dead)

/-- The dead jobs that a count takes: all of them, or those after a checkpoint. -/
def Db.deadJobsSince (db : Db) : Option Time → List JobRow
  | none => db.deadJobs
  | some since => db.deadJobs.filter fun row => decide (row.statusChangedAt > since)

/-- The jobs that a checkpoint has behind it. -/
def Covers (checkpoint : Option Time) (row : JobRow) : Prop :=
  checkpoint.any fun t => decide (row.statusChangedAt ≤ t)

instance (checkpoint : Option Time) (row : JobRow) : Decidable (Covers checkpoint row) :=
  inferInstanceAs (Decidable (_ = true))

variable {row : JobRow}

@[simp] theorem covers_none : ¬ Covers none row := nofun

@[simp] theorem covers_some {t : Time} :
    Covers (some t) row ↔ row.statusChangedAt ≤ t := decide_eq_true_iff

variable {checkpoint : Option Time}
variable {db : Db}

theorem Db.mem_deadJobsSince :
    row ∈ db.deadJobsSince checkpoint ↔ row ∈ db.deadJobs ∧ ¬ Covers checkpoint row := by
  cases checkpoint with
  | none => simp [Db.deadJobsSince]
  | some t => rw [Db.deadJobsSince, mem_filter, decide_eq_true_iff, covers_some, not_le]

def Db.deadJobsUpTo (db : Db) (checkpoint : Option Time) : List JobRow :=
  db.deadJobs.filter fun row => decide (Covers checkpoint row)

/-- A count takes the jobs that the checkpoint does not have behind it. -/
theorem Db.deadJobsSince_eq_filter :
    db.deadJobsSince checkpoint =
      db.deadJobs.filter fun row => !decide (Covers checkpoint row) := by
  cases checkpoint with
  | none => simp [Db.deadJobsSince]
  | some t =>
    refine filter_congr fun row _ => ?_
    rw [← decide_not]
    exact decide_eq_decide.2 (by rw [covers_some, not_le])

theorem groupSize_upTo_add_since {c : Xid} :
    groupSize (·.consumerId) (db.deadJobsUpTo checkpoint) c +
      groupSize (·.consumerId) (db.deadJobsSince checkpoint) c =
      groupSize (·.consumerId) db.deadJobs c := by
  rw [Db.deadJobsSince_eq_filter, Db.deadJobsUpTo]
  exact groupSize_filter_add _

/-- The number of rows with status `DEAD` of a consumer. -/
def Db.deadJobsOf (db : Db) (c : Xid) : Nat := groupSize (·.consumerId) db.deadJobs c

/-- `GetDeadJobCountsSinceCheckpoint`, and without a checkpoint the count of `BootstrapCounts`. -/
def getDeadJobCounts (db : Db) (since : Option Time) : List (Xid × Nat) :=
  groupCount (·.consumerId) (db.deadJobsSince since)

/-- `GetLastCheckedAt`, `none` for the zero time. The text of the maximum is parsed without its
fraction and its zone: all times are taken to be in UTC, as the broker writes them. -/
def getLastCheckedAt (table : List DlqSummary) : Option Time :=
  (table.map (·.lastCheckedAt)).max?.map wholeSecond

/-- The transaction for one row of `UpsertCounts`: an `UPDATE`, and an `INSERT` if it affects no
row. -/
def upsertCount (summary : DlqSummary) (table : List DlqSummary) : List DlqSummary :=
  if summary.consumerID ∈ table.map (·.consumerID) then
    updateWhere (fun row => decide (row.consumerID = summary.consumerID))
      (fun row => { summary with deadCount := row.deadCount + summary.deadCount }) table
  else table ++ [summary]

/-- `UpsertCounts`, one transaction after the other up to the first one that fails. -/
def upsertCounts (fails : Xid → Bool) :
    List DlqSummary → List DlqSummary → Bool × List DlqSummary
  | [], table => (true, table)
  | summary :: summaries, table =>
    if fails summary.consumerID then (false, table)
    else upsertCounts fails summaries (upsertCount summary table)

def decrementCount (consumerID : Xid) (count : Nat) (table : List DlqSummary) : List DlqSummary :=
  if count = 0 then table
  else updateWhere (fun row => decide (row.consumerID = consumerID))
    (fun row => { row with
      deadCount := if row.deadCount ≥ count then row.deadCount - count else 0 }) table

/-- What a summary names beside the consumer's id. -/
structure ConsumerNames where
  consumerName : String
  channelID : String
  channelName : String
deriving DecidableEq

/-- The names that `BootstrapCounts` looks up for a consumer. -/
def joinedNames (db : Db) (consumerID : Xid) : Option ConsumerNames := do
  let consumer ← rowAt (·.id) db.consumer consumerID
  let channel ← rowAt (·.channelId) db.channel consumer.channelId
  return ⟨consumer.name, consumer.channelId, channel.name⟩

/-- The loop over the counts in `BootstrapCounts` and in `processUpdate`: a consumer whose names are
not found is left out. -/
def summariesOf (names : Xid → Option ConsumerNames) (now : Time) (counts : List (Xid × Nat)) :
    List DlqSummary :=
  counts.filterMap fun count => (names count.1).map fun n =>
    ⟨count.1, n.consumerName, n.channelID, n.channelName, count.2, now⟩

/-! ## The count of a consumer -/

def deadCount (table : List DlqSummary) (c : Xid) : Nat :=
  ((rowAt (·.consumerID) table c).map (·.deadCount)).getD 0

section
variable {table : List DlqSummary} {c : Xid}

theorem deadCount_upsertCount (summary : DlqSummary) :
    deadCount (upsertCount summary table) c =
      deadCount table c + if summary.consumerID = c then summary.deadCount else 0 := by
  unfold upsertCount
  split
  · rename_i hmem
    unfold deadCount
    rw [rowAt_updateWhere fun row hrow => (of_decide_eq_true hrow).symm]
    cases hrow : rowAt (·.consumerID) table c with
    | none =>
      have hne : summary.consumerID ≠ c := fun heq => rowAt_eq_none.1 hrow (heq ▸ hmem)
      simp [hne]
    | some row =>
      obtain rfl := (mem_of_rowAt hrow).2
      by_cases heq : row.consumerID = summary.consumerID
      · simp [heq]
      · simp [heq, Ne.symm heq]
  · rename_i hmem
    unfold deadCount rowAt
    rw [List.find?_append]
    by_cases heq : summary.consumerID = c
    · have hnone : table.find? (fun row => decide (row.consumerID = c)) = none :=
        rowAt_eq_none.2 (heq ▸ hmem)
      simp [hnone, heq]
    · cases table.find? (fun row => decide (row.consumerID = c)) <;> simp [heq]

theorem deadCount_decrementCount (consumerID : Xid) (count : Nat) :
    deadCount (decrementCount consumerID count table) c =
      deadCount table c - if consumerID = c then count else 0 := by
  unfold decrementCount
  split
  · simp [*]
  · unfold deadCount
    rw [rowAt_updateWhere (by intros; rfl)]
    cases hrow : rowAt (·.consumerID) table c with
    | none => simp
    | some row =>
      obtain rfl := (mem_of_rowAt hrow).2
      by_cases heq : row.consumerID = consumerID
      · simp only [Option.map_some, Option.getD_some, heq, decide_true, if_true]
        split <;> omega
      · simp [heq, Ne.symm heq]

end

/-! ## Writes of several rows -/

section
variable {table summaries : List DlqSummary} {c : Xid} {t : Time}

def upsertAll (summaries table : List DlqSummary) : List DlqSummary :=
  summaries.foldl (fun table summary => upsertCount summary table) table

theorem upsertCounts_eq (fails : Xid → Bool) :
    upsertCounts fails summaries table =
      (summaries.all fun s => !fails s.consumerID,
        upsertAll (summaries.takeWhile fun s => !fails s.consumerID) table) := by
  induction summaries generalizing table with
  | nil => rfl
  | cons summary summaries ih =>
    rw [upsertCounts]
    cases hfails : fails summary.consumerID with
    | true => simp [hfails, upsertAll]
    | false => simp [hfails, ih, upsertAll]

theorem upsertCounts_of_forall {fails : Xid → Bool}
    (h : ∀ s ∈ summaries, fails s.consumerID = false) :
    upsertCounts fails summaries table = (true, upsertAll summaries table) := by
  induction summaries generalizing table with
  | nil => rfl
  | cons summary summaries ih =>
    rw [upsertCounts, h summary mem_cons_self, if_neg Bool.false_ne_true,
      ih fun s hs => h s (mem_cons_of_mem _ hs)]
    rfl

def DlqSummary.count (summary : DlqSummary) : Xid × Nat := (summary.consumerID, summary.deadCount)

theorem deadCount_upsertAll : deadCount (upsertAll summaries table) c =
    deadCount table c + countAt (summaries.map (·.count)) c := by
  induction summaries generalizing table with
  | nil => rfl
  | cons summary summaries ih =>
    rw [upsertAll, foldl_cons, ← upsertAll, ih, deadCount_upsertCount, map_cons,
      countAt_cons, DlqSummary.count, Nat.add_assoc]

theorem map_count_summariesOf_sublist (names : Xid → Option ConsumerNames) (now : Time)
    (counts : List (Xid × Nat)) :
    ((summariesOf names now counts).map (·.count)).Sublist counts := by
  induction counts with
  | nil => exact .slnil
  | cons count counts ih =>
    rw [summariesOf, filterMap_cons, ← summariesOf]
    cases names count.1 with
    | none => exact ih.cons count
    | some _ => exact ih.cons_cons count

theorem lastCheckedAt_of_mem_summariesOf {names : Xid → Option ConsumerNames} {now : Time}
    {counts : List (Xid × Nat)} :
    ∀ summary ∈ summariesOf names now counts, summary.lastCheckedAt = now := by
  intro summary hmem
  obtain ⟨count, -, heq⟩ := mem_filterMap.1 hmem
  obtain ⟨_, -, rfl⟩ := Option.map_eq_some_iff.1 heq
  rfl

theorem map_count_summariesOf {names : Xid → Option ConsumerNames} {now : Time}
    {counts : List (Xid × Nat)} (h : ∀ count ∈ counts, (names count.1).isSome) :
    (summariesOf names now counts).map (·.count) = counts := by
  induction counts with
  | nil => rfl
  | cons count counts ih =>
    obtain ⟨_, hnames⟩ := Option.isSome_iff_exists.1 (h count mem_cons_self)
    have ih := ih fun count hcount => h count (mem_cons_of_mem _ hcount)
    rw [summariesOf, filterMap_cons, ← summariesOf, hnames, Option.map_some]
    exact congrArg (count :: ·) ih

theorem upsertAll_append (hkeys : ((table ++ summaries).map (·.consumerID)).Nodup) :
    upsertAll summaries table = table ++ summaries := by
  induction summaries generalizing table with
  | nil => exact (append_nil table).symm
  | cons summary summaries ih =>
    have hnot : summary.consumerID ∉ table.map (·.consumerID) := by
      rw [map_append, nodup_append] at hkeys
      intro hmem
      exact hkeys.2.2 _ hmem _ mem_cons_self rfl
    have happend : table ++ summary :: summaries = (table ++ [summary]) ++ summaries :=
      (append_assoc table [summary] summaries).symm
    rw [upsertAll, foldl_cons, ← upsertAll, upsertCount, if_neg hnot, happend]
    exact ih (happend ▸ hkeys)

theorem deadCount_eq_countAt (hkeys : (table.map (·.consumerID)).Nodup) :
    deadCount table c = countAt (table.map (·.count)) c := by
  have htable : upsertAll table [] = table := upsertAll_append hkeys
  calc deadCount table c
    _ = deadCount (upsertAll table []) c := by rw [htable]
    _ = deadCount [] c + countAt (table.map (·.count)) c := deadCount_upsertAll
    _ = countAt (table.map (·.count)) c := Nat.zero_add _

def CheckedBy (t : Time) (table : List DlqSummary) : Prop := ∀ row ∈ table, row.lastCheckedAt ≤ t

instance : Decidable (CheckedBy t table) := inferInstanceAs (Decidable (∀ _ ∈ _, _))

theorem CheckedBy.mono {t' : Time} (h : CheckedBy t table) (ht : t ≤ t') : CheckedBy t' table :=
  fun row hrow => (h row hrow).trans ht

theorem CheckedBy.getLastCheckedAt (h : CheckedBy t table)
    (hmem : t ∈ table.map (·.lastCheckedAt)) :
    getLastCheckedAt table = some (wholeSecond t) := by
  have hmax : (table.map (·.lastCheckedAt)).max? = some t := by
    refine List.max?_eq_some_iff.2 ⟨hmem, fun t' ht' => ?_⟩
    obtain ⟨row, hrow, rfl⟩ := mem_map.1 ht'
    exact h row hrow
  rw [WebhookBroker.getLastCheckedAt, hmax, Option.map_some]

theorem getLastCheckedAt_eq_none : getLastCheckedAt table = none ↔ table = [] := by
  rw [getLastCheckedAt, Option.map_eq_none_iff, List.max?_eq_none_iff, map_eq_nil_iff]

theorem CheckedBy.checkpoint_le (h : CheckedBy t table) {since : Time}
    (hsince : WebhookBroker.getLastCheckedAt table = some since) : since ≤ wholeSecond t := by
  obtain ⟨t', ht', rfl⟩ := Option.map_eq_some_iff.1 hsince
  obtain ⟨row, hrow, rfl⟩ := mem_map.1 (List.max?_mem ht')
  exact wholeSecond_mono (h row hrow)

theorem CheckedBy.decrementCount (h : CheckedBy t table) (count : Nat) :
    CheckedBy t (decrementCount c count table) := by
  unfold WebhookBroker.decrementCount
  split
  · exact h
  · intro row hrow
    obtain ⟨row₀, hrow₀, rfl⟩ := mem_updateWhere.1 hrow
    split <;> exact h row₀ hrow₀

theorem getLastCheckedAt_decrementCount (count : Nat) :
    getLastCheckedAt (decrementCount c count table) = getLastCheckedAt table := by
  unfold decrementCount
  split
  · rfl
  · rw [getLastCheckedAt, map_updateWhere (by intros; rfl), getLastCheckedAt]

theorem CheckedBy.upsertCount {summary : DlqSummary} (h : CheckedBy t table)
    (hs : summary.lastCheckedAt ≤ t) : CheckedBy t (upsertCount summary table) := by
  unfold WebhookBroker.upsertCount
  split
  · intro row hrow
    obtain ⟨row₀, hrow₀, rfl⟩ := mem_updateWhere.1 hrow
    split
    · exact hs
    · exact h row₀ hrow₀
  · intro row hrow
    rcases mem_append.1 hrow with hrow | hrow
    · exact h row hrow
    · exact mem_singleton.1 hrow ▸ hs

theorem lastCheckedAt_mem_upsertCount (summary : DlqSummary) :
    summary.lastCheckedAt ∈ (upsertCount summary table).map (·.lastCheckedAt) := by
  unfold upsertCount
  split
  · rename_i hmem
    obtain ⟨row, hrow, heq⟩ := mem_map.1 hmem
    refine mem_map.2 ⟨_, mem_updateWhere.2 ⟨row, hrow, rfl⟩, ?_⟩
    rw [if_pos (decide_eq_true heq)]
  · exact mem_map_of_mem (mem_append_right _ (mem_singleton_self summary))

theorem CheckedBy.upsertAll (h : CheckedBy t table)
    (hs : ∀ summary ∈ summaries, summary.lastCheckedAt ≤ t) :
    CheckedBy t (upsertAll summaries table) := by
  induction summaries generalizing table with
  | nil => exact h
  | cons summary summaries ih =>
    exact ih (h.upsertCount (hs summary mem_cons_self))
      fun s hs' => hs s (mem_cons_of_mem _ hs')

/-- The checkpoint after rows were written at `t`: as before if there were none. -/
theorem CheckedBy.getLastCheckedAt_upsertAll (h : CheckedBy t table)
    (hs : ∀ summary ∈ summaries, summary.lastCheckedAt = t) :
    WebhookBroker.getLastCheckedAt (WebhookBroker.upsertAll summaries table) =
      if summaries = [] then WebhookBroker.getLastCheckedAt table else some (wholeSecond t) := by
  rcases eq_nil_or_concat summaries with rfl | ⟨init, last, rfl⟩
  · rfl
  · rw [concat_eq_append] at hs ⊢
    have hlast : last.lastCheckedAt = t := hs last (by simp)
    rw [if_neg (by simp)]
    refine (h.upsertAll fun s hs' => (hs s hs').le).getLastCheckedAt ?_
    rw [WebhookBroker.upsertAll, foldl_concat, ← hlast]
    exact lastCheckedAt_mem_upsertCount last

end

end WebhookBroker
