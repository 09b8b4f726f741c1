import WebhookBroker.Storage.DlqSummaryRepo

/-!
# One cycle of the updater (`dlq/updater.go`)

`processUpdate` counts the jobs that died since the checkpoint and adds the counts to `dlq_summary`,
one transaction for each consumer. A consumer whose lookup fails is left out with a warning, and a
transaction that fails ends the cycle. The counts that are not written are meant for the next cycle,
but the checkpoint is the latest time of any row: the first count that is written moves it past the
deaths of every other consumer.
-/

namespace WebhookBroker

open Lib List

/-- The order in which a `range` visits the entries of a map. -/
structure MapOrder where
  list : List (Xid × Nat) → List (Xid × Nat)
  perm : ∀ counts, (list counts).Perm counts

/-- A cycle: what it finds, what it reads from the clock in `processUpdate` and in
`BootstrapCounts`, and which of its lookups and writes fail. -/
structure UpdateCycle where
  interval : Duration
  db : Db
  table : List DlqSummary
  now : Time
  bootNow : Time := now
  order : MapOrder := ⟨id, fun _ => .rfl⟩
  lookupFails : Xid → Bool := fun _ => false
  writeFails : Xid → Bool := fun _ => false

inductive CycleOutcome where
  | skipped
  | failed
  | done
deriving DecidableEq

/-- The names that `processUpdate` looks up with `ConsumerRepo.GetByID`. -/
def consumerNames (db : Db) (consumerID : Xid) : Option ConsumerNames :=
  match getConsumerByID db consumerID.string with
  | .ok consumer => consumer.consumingFrom.map fun channel =>
    ⟨consumer.name, channel.channelID, channel.name⟩
  | .error _ => none

/-- The lookups for the consumers of the dead jobs succeed. -/
def Db.NamesFound (db : Db) : Prop := ∀ row ∈ db.deadJobs,
  (joinedNames db row.consumerId).isSome ∧ (consumerNames db row.consumerId).isSome

instance (db : Db) : Decidable db.NamesFound := inferInstanceAs (Decidable (∀ _ ∈ _, _))

namespace UpdateCycle
variable (u : UpdateCycle) (prec : Precision)

def bootstrapRows : List DlqSummary :=
  summariesOf (fun c => if u.lookupFails c then none else joinedNames u.db c)
    (prec.keep u.bootNow) (getDeadJobCounts u.db none)

def summaries (lastChecked : Time) : List DlqSummary :=
  summariesOf (fun c => if u.lookupFails c then none else consumerNames u.db c)
    (prec.keep u.now) (u.order.list (getDeadJobCounts u.db (some lastChecked)))

end UpdateCycle

/-- `processUpdate` while it holds the lock. -/
def processUpdate (prec : Precision) (u : UpdateCycle) : CycleOutcome × List DlqSummary :=
  match getLastCheckedAt u.table with
  | none =>
    -- all rows of `BootstrapCounts` are one transaction
    if (u.bootstrapRows prec).any (u.writeFails ·.consumerID) then (.failed, u.table)
    else (.done, u.bootstrapRows prec)
  | some lastChecked =>
    if u.now - lastChecked < u.interval then (.skipped, u.table)
    else match upsertCounts u.writeFails (u.summaries prec lastChecked) u.table with
      | (true, table) => (.done, table)
      | (false, table) => (.failed, table)

namespace UpdateCycle
variable {u : UpdateCycle} {prec : Precision}

/-! ## What a cycle writes -/

def checkTime (u : UpdateCycle) : Time :=
  if u.table = [] then u.bootNow else u.now

def counted (u : UpdateCycle) : List JobRow := u.db.deadJobsSince (getLastCheckedAt u.table)

def committed (u : UpdateCycle) (prec : Precision) : List DlqSummary :=
  match getLastCheckedAt u.table with
  | none =>
    if (u.bootstrapRows prec).any (u.writeFails ·.consumerID) then [] else u.bootstrapRows prec
  | some lastChecked =>
    if u.now - lastChecked < u.interval then []
    else (u.summaries prec lastChecked).takeWhile fun s => !u.writeFails s.consumerID

theorem committed_counts : ((u.committed prec).map (·.count)).Subperm
    (groupCount (·.consumerId) u.counted) := by
  unfold committed counted
  cases hlast : getLastCheckedAt u.table with
  | none =>
    simp only
    split
    · exact nil_subperm
    · exact (map_count_summariesOf_sublist _ _ _).subperm
  | some lastChecked =>
    simp only
    split
    · exact nil_subperm
    · have hwritten := ((u.summaries prec lastChecked).takeWhile_sublist
        fun s => !u.writeFails s.consumerID).map (·.count)
      have hall := map_count_summariesOf_sublist (fun c => if u.lookupFails c then none
        else consumerNames u.db c) (prec.keep u.now)
        (u.order.list (getDeadJobCounts u.db (some lastChecked)))
      exact (hwritten.trans hall).subperm.trans (u.order.perm _).subperm

theorem lastCheckedAt_of_mem_committed :
    ∀ s ∈ u.committed prec, s.lastCheckedAt = prec.keep u.checkTime := by
  unfold committed checkTime
  cases hlast : getLastCheckedAt u.table with
  | none =>
    rw [if_pos (getLastCheckedAt_eq_none.1 hlast)]
    simp only
    split
    · exact fun s hs => absurd hs not_mem_nil
    · exact lastCheckedAt_of_mem_summariesOf
  | some lastChecked =>
    have hne : u.table ≠ [] := fun h => by rw [getLastCheckedAt_eq_none.2 h] at hlast; cases hlast
    rw [if_neg hne]
    simp only
    split
    · exact fun s hs => absurd hs not_mem_nil
    · exact fun s hs => lastCheckedAt_of_mem_summariesOf s ((takeWhile_sublist _).subset hs)

theorem nodup_committed : ((u.committed prec).map (·.consumerID)).Nodup := by
  have hkeys : (((u.committed prec).map (·.count)).map (·.1)).Nodup := by
    obtain ⟨counts, hperm, hsub⟩ := @committed_counts u prec
    have hcounts : (counts.map (·.1)).Nodup := nodup_groupCount_keys.sublist (hsub.map _)
    exact ((hperm.map (·.1)).nodup_iff).1 hcounts
  rwa [map_map] at hkeys

/-- A cycle writes the committed rows, whether it bootstraps the table or adds to it. -/
theorem processUpdate_table :
    (processUpdate prec u).2 = upsertAll (u.committed prec) u.table := by
  have hnodup := @nodup_committed u prec
  unfold processUpdate
  cases hlast : getLastCheckedAt u.table with
  | none =>
    have htable := getLastCheckedAt_eq_none.1 hlast
    rw [htable, upsertAll_append (by rwa [nil_append]), nil_append, committed, hlast]
    simp only
    split <;> rfl
  | some lastChecked =>
    rw [committed, hlast]
    simp only
    split
    · rfl
    · rw [upsertCounts_eq]
      split <;> simp_all

def Adds (u : UpdateCycle) (prec : Precision) (c : Xid) : Prop :=
  deadCount u.table c < deadCount (processUpdate prec u).2 c

theorem deadCount_processUpdate {c : Xid} : deadCount (processUpdate prec u).2 c =
    deadCount u.table c + countAt ((u.committed prec).map (·.count)) c := by
  rw [processUpdate_table, deadCount_upsertAll]

theorem countAt_committed {c : Xid} (hc : c ∈ (u.committed prec).map (·.consumerID)) :
    countAt ((u.committed prec).map (·.count)) c = groupSize (·.consumerId) u.counted c ∧
      c ∈ u.counted.map (·.consumerId) := by
  obtain ⟨s, hs, rfl⟩ := mem_map.1 hc
  have hcount : s.count ∈ (u.committed prec).map (·.count) := mem_map_of_mem hs
  have hkeys : (((u.committed prec).map (·.count)).map (·.1)).Nodup := by
    rw [map_map]
    exact u.nodup_committed
  obtain ⟨hmem, hsize⟩ := mem_groupCount.1 (u.committed_counts.subset hcount)
  exact ⟨(countAt_of_mem hkeys hcount).trans hsize, hmem⟩

theorem adds_iff {c : Xid} : u.Adds prec c ↔ c ∈ (u.committed prec).map (·.consumerID) := by
  rw [Adds, deadCount_processUpdate, Nat.lt_add_right_iff_pos]
  constructor
  · intro hpos
    by_contra hnot
    rw [countAt_of_not_mem (by rwa [map_map])] at hpos
    exact Nat.lt_irrefl 0 hpos
  · intro hc
    obtain ⟨hcount, hmem⟩ := countAt_committed hc
    rw [hcount]
    exact Nat.pos_of_ne_zero fun h0 => groupSize_eq_zero.1 h0 hmem

instance {c : Xid} : Decidable (u.Adds prec c) := inferInstanceAs (Decidable (_ < _))

/-- The lookup for a consumer succeeds. -/
def found (u : UpdateCycle) (c : Xid) : Bool :=
  !u.lookupFails c &&
    (if u.table = [] then joinedNames u.db c else consumerNames u.db c).isSome

/-- The consumers whose rows are written up to that of `c`: all of them in the one transaction of
`BootstrapCounts`, else `c` and those that the `range` over the counts visits before it. -/
def upTo (u : UpdateCycle) (c : Xid) : List Xid :=
  if u.table = [] then u.counted.map (·.consumerId)
  else ((u.order.list (groupCount (·.consumerId) u.counted)).map (·.1)).takeWhile (· ≠ c) ++ [c]

/-- The cycle writes the count of a consumer: it is due, the lookup for the consumer succeeds, and
so does every write up to its own. -/
def Writes (u : UpdateCycle) (c : Xid) : Prop :=
  (∀ lastChecked ∈ getLastCheckedAt u.table, u.interval ≤ u.now - lastChecked) ∧
    u.found c = true ∧ ∀ c' ∈ u.upTo c, u.found c' = true → u.writeFails c' = false

instance {c : Xid} : Decidable (u.Writes c) := inferInstanceAs (Decidable (_ ∧ _ ∧ _))

/-- What a loop visits before it ends: an item for which it goes on at all items up to it. -/
theorem mem_takeWhile_filter {α : Type} [DecidableEq α] {l : List α} {f p : α → Bool} {a : α} :
    a ∈ (l.filter f).takeWhile p ↔
      a ∈ l ∧ f a = true ∧ ∀ b ∈ l.takeWhile (· ≠ a) ++ [a], f b = true → p b = true := by
  induction l with
  | nil => simp
  | cons b l ih =>
    rcases eq_or_ne b a with rfl | hne
    · cases hf : f b with
      | false =>
        refine iff_of_false (fun hmem => ?_) (by simp)
        have hb := (mem_filter.1 ((takeWhile_sublist _).subset hmem)).2
        rw [hf] at hb
        cases hb
      | true => cases hp : p b <;> simp [hf, hp]
    · cases hf : f b with
      | false => simp [hf, hne, hne.symm, ih]
      | true => cases hp : p b <;> simp [hf, hp, hne, hne.symm, ih]

theorem map_consumerID_summariesOf (names : Xid → Option ConsumerNames) (now : Time)
    (counts : List (Xid × Nat)) : (summariesOf names now counts).map (·.consumerID) =
      (counts.map (·.1)).filter fun c => (names c).isSome := by
  induction counts with
  | nil => rfl
  | cons count counts ih =>
    rw [summariesOf, filterMap_cons, ← summariesOf]
    cases hnames : names count.1 <;> simp [hnames, ih]

/-- A consumer with counted deaths gets them added exactly if its count is written. -/
theorem adds_iff_writes (prec : Precision) {c : Xid} (hc : c ∈ u.counted.map (·.consumerId)) :
    u.Adds prec c ↔ u.Writes c := by
  have hkeys : ∀ c', c' ∈ (groupCount (·.consumerId) u.counted).map (·.1) ↔
      c' ∈ u.counted.map (·.consumerId) := fun c' => by rw [groupCount_keys, mem_dedup]
  have hisSome : ∀ (c' : Xid) (o : Option ConsumerNames),
      (if u.lookupFails c' = true then none else o).isSome = (!u.lookupFails c' && o.isSome) := by
    intro c' o
    cases u.lookupFails c' <;> rfl
  rw [adds_iff, committed]
  cases hlast : getLastCheckedAt u.table with
  | none =>
    have htable := getLastCheckedAt_eq_none.1 hlast
    have hrows : (u.bootstrapRows prec).map (·.consumerID) =
        ((groupCount (·.consumerId) u.counted).map (·.1)).filter u.found := by
      rw [bootstrapRows, map_consumerID_summariesOf, counted, hlast]
      exact filter_congr fun c' _ => by rw [hisSome, found, if_pos htable]
    have hany : (u.bootstrapRows prec).any (u.writeFails ·.consumerID) = true ↔
        ∃ c' ∈ u.counted.map (·.consumerId), u.found c' = true ∧ u.writeFails c' = true := by
      have hmap : (u.bootstrapRows prec).any (u.writeFails ·.consumerID) =
          ((u.bootstrapRows prec).map (·.consumerID)).any u.writeFails := by
        rw [any_map]
        rfl
      rw [hmap, hrows, any_eq_true]
      simp only [mem_filter, hkeys, and_assoc]
    simp only [Writes, hlast, upTo, if_pos htable]
    split
    · rename_i hfails
      obtain ⟨c', hc', hfound, hwrite⟩ := hany.1 hfails
      refine iff_of_false not_mem_nil fun h => ?_
      rw [h.2.2 c' hc' hfound] at hwrite
      cases hwrite
    · rename_i hfails
      rw [hrows, mem_filter, hkeys]
      refine ⟨fun h => ⟨by simp, h.2, fun c' hc' hfound => ?_⟩, fun h => ⟨hc, h.2.1⟩⟩
      by_contra hwrite
      exact hfails (hany.2 ⟨c', hc', hfound, by simpa using hwrite⟩)
  | some lastChecked =>
    have hne : u.table ≠ [] := fun h => by rw [getLastCheckedAt_eq_none.2 h] at hlast; cases hlast
    have hrows : (u.summaries prec lastChecked).map (·.consumerID) =
        ((u.order.list (groupCount (·.consumerId) u.counted)).map (·.1)).filter u.found := by
      rw [summaries, map_consumerID_summariesOf, counted, hlast]
      exact filter_congr fun c' _ => by rw [hisSome, found, if_neg hne]
    have hmem : c ∈ (u.order.list (groupCount (·.consumerId) u.counted)).map (·.1) :=
      (((u.order.perm _).map _).mem_iff).2 ((hkeys c).2 hc)
    simp only [Writes, hlast, upTo, if_neg hne, Option.mem_some_iff, forall_eq']
    split
    · rename_i hskip
      exact iff_of_false not_mem_nil fun h => absurd hskip (not_lt.2 h.1)
    · rename_i hdue
      have htake : ((u.summaries prec lastChecked).takeWhile
          fun s => !u.writeFails s.consumerID).map (·.consumerID) =
          ((u.summaries prec lastChecked).map (·.consumerID)).takeWhile
            fun c' => !u.writeFails c' := by
        rw [takeWhile_map]
        rfl
      rw [htake, hrows, mem_takeWhile_filter]
      simp only [hmem, true_and, Bool.not_eq_true']
      exact ⟨fun h => ⟨not_lt.1 hdue, h⟩, fun h => h.2⟩

/-- A cycle adds all counted deaths of a consumer or none. -/
theorem deadCount_processUpdate_cases (c : Xid) : deadCount (processUpdate prec u).2 c =
    deadCount u.table c + if u.Writes c then groupSize (·.consumerId) u.counted c else 0 := by
  by_cases hc : c ∈ u.counted.map (·.consumerId)
  · rw [← if_congr (u.adds_iff_writes prec hc) rfl rfl]
    split
    · rename_i hadds
      rw [deadCount_processUpdate, (countAt_committed (adds_iff.1 hadds)).1]
    · rename_i hadds
      rw [adds_iff] at hadds
      rw [deadCount_processUpdate, countAt_of_not_mem (by rwa [map_map])]
  · have hnot : c ∉ (u.committed prec).map (·.consumerID) := fun h => hc (countAt_committed h).2
    rw [deadCount_processUpdate, countAt_of_not_mem (by rwa [map_map]),
      groupSize_eq_zero.2 hc, ite_self]

theorem getLastCheckedAt_processUpdate (hclock : CheckedBy (prec.keep u.checkTime) u.table) :
    getLastCheckedAt (processUpdate prec u).2 = if u.committed prec = [] then
      getLastCheckedAt u.table else some (wholeSecond (prec.keep u.checkTime)) := by
  rw [processUpdate_table]
  exact hclock.getLastCheckedAt_upsertAll lastCheckedAt_of_mem_committed

/-! ## Cycles without failures -/

structure Complete (u : UpdateCycle) : Prop where
  lookups : ∀ c, u.lookupFails c = false
  writes : ∀ c, u.writeFails c = false
  names : u.db.NamesFound

theorem processUpdate_of_skipped (h : (processUpdate prec u).1 = .skipped) :
    (processUpdate prec u).2 = u.table := by
  revert h
  unfold processUpdate
  split <;> split
  · exact nofun
  · exact nofun
  · exact fun _ => rfl
  · split <;> exact nofun

theorem mem_deadJobs_of_count {since : Option Time} {count : Xid × Nat}
    (h : count ∈ getDeadJobCounts u.db since) :
    ∃ row ∈ u.db.deadJobs, row.consumerId = count.1 := by
  obtain ⟨row, hrow, hid⟩ := mem_map.1 (mem_groupCount.1 h).1
  exact ⟨row, (Db.mem_deadJobsSince.1 hrow).1, hid⟩

section
variable (h : u.Complete) (hrun : (processUpdate prec u).1 ≠ .skipped)
include h hrun

theorem Complete.committed_perm :
    ((u.committed prec).map (·.count)).Perm (groupCount (·.consumerId) u.counted) := by
  unfold processUpdate at hrun
  unfold committed counted
  cases hlast : getLastCheckedAt u.table with
  | none =>
    have hwrites : (u.bootstrapRows prec).any (u.writeFails ·.consumerID) = false := by
      simp [h.writes]
    simp only [hwrites, Bool.false_eq_true, if_false]
    refine .of_eq (map_count_summariesOf fun count hcount => ?_)
    obtain ⟨row, hrow, hid⟩ := mem_deadJobs_of_count hcount
    rw [h.lookups, ← hid]
    exact (h.names row hrow).1
  | some lastChecked =>
    simp only [hlast] at hrun ⊢
    have hdue : ¬ u.now - lastChecked < u.interval := fun hskip => by
      rw [if_pos hskip] at hrun
      exact hrun rfl
    have hall : ((u.summaries prec lastChecked).takeWhile fun s => !u.writeFails s.consumerID) =
        u.summaries prec lastChecked :=
      takeWhile_eq_self_iff.2 fun s _ => by rw [h.writes, Bool.not_false]
    rw [if_neg hdue, hall]
    refine (List.Perm.of_eq (map_count_summariesOf fun count hcount => ?_)).trans (u.order.perm _)
    obtain ⟨row, hrow, hid⟩ := mem_deadJobs_of_count ((u.order.perm _).mem_iff.1 hcount)
    rw [h.lookups, ← hid]
    exact (h.names row hrow).2

theorem Complete.deadCount_eq (c : Xid) : deadCount (processUpdate prec u).2 c =
      deadCount u.table c + groupSize (·.consumerId) u.counted c := by
  rw [deadCount_processUpdate, countAt_perm (h.committed_perm hrun), countAt_groupCount]

theorem Complete.committed_eq_nil : u.committed prec = [] ↔ u.counted = [] := by
  have hperm := h.committed_perm hrun
  have hnil : (u.committed prec).map (·.count) = [] ↔
      groupCount (·.consumerId) u.counted = [] := by
    rw [← length_eq_zero_iff, ← length_eq_zero_iff, hperm.length_eq]
  rwa [map_eq_nil_iff, groupCount_eq_nil] at hnil

end

/-- The next cycle counts what this one has counted and not added, and none of the other jobs that
were dead before, as long as they stay dead. -/
def HandsOver (u : UpdateCycle) (prec : Precision) : Prop :=
  ∀ row ∈ u.db.deadJobs, ∀ db : Db, row ∈ db.deadJobs →
    (row ∈ db.deadJobsSince (getLastCheckedAt (processUpdate prec u).2) ↔
      row ∈ u.counted ∧ ¬ u.Adds prec row.consumerId)

theorem handsOver_of_committed_nil (h : u.committed prec = []) : u.HandsOver prec := by
  intro row hdead db hrow
  have hadds : ¬ u.Adds prec row.consumerId := by
    rw [adds_iff, h]
    exact not_mem_nil
  rw [processUpdate_table, h, counted, Db.mem_deadJobsSince, Db.mem_deadJobsSince]
  exact ⟨fun hnew => ⟨⟨hdead, hnew.2⟩, hadds⟩, fun hold => ⟨hrow, hold.1.2⟩⟩

theorem covers_checkTime (hclock : CheckedBy (prec.keep u.checkTime) u.table) {row : JobRow}
    (h : Covers (getLastCheckedAt u.table) row) :
    row.statusChangedAt ≤ wholeSecond (prec.keep u.checkTime) := by
  cases hlast : getLastCheckedAt u.table with
  | none =>
    rw [hlast] at h
    exact absurd h covers_none
  | some since =>
    rw [hlast, covers_some] at h
    exact h.trans (hclock.checkpoint_le hlast)

/-- A cycle that writes has to add exactly what the time it writes covers. -/
theorem handsOver_iff_of_committed (hclock : CheckedBy (prec.keep u.checkTime) u.table)
    (h : u.committed prec ≠ []) : u.HandsOver prec ↔ ∀ row ∈ u.counted,
      (u.Adds prec row.consumerId ↔
        row.statusChangedAt ≤ wholeSecond (prec.keep u.checkTime)) := by
  have hnext : getLastCheckedAt (processUpdate prec u).2 =
      some (wholeSecond (prec.keep u.checkTime)) := by
    rw [getLastCheckedAt_processUpdate hclock, if_neg h]
  constructor
  · intro hands row hrow
    have hdead := (Db.mem_deadJobsSince.1 hrow).1
    have hiff := hands row hdead u.db hdead
    rw [hnext, Db.mem_deadJobsSince, covers_some] at hiff
    tauto
  · intro hadds row hdead db hrow
    rw [hnext, Db.mem_deadJobsSince, covers_some]
    constructor
    · rintro ⟨-, hlate⟩
      have hrow : row ∈ u.counted :=
        Db.mem_deadJobsSince.2 ⟨hdead, fun hcov => hlate (covers_checkTime hclock hcov)⟩
      exact ⟨hrow, fun hadd => hlate ((hadds row hrow).1 hadd)⟩
    · rintro ⟨hcounted, hnot⟩
      exact ⟨hrow, fun hle => hnot ((hadds row hcounted).2 hle)⟩

end UpdateCycle

/-- A cycle adds all counted deaths of a consumer or none, whatever fails. The next one counts
exactly the deaths that this one did not add, if and only if this one writes no count, or it writes
the counts of the deaths that its check time covers. -/
theorem next_cycle_counts_rest_iff (prec : Precision) (u : UpdateCycle)
    (hclock : CheckedBy (prec.keep u.checkTime) u.table) :
    (∀ c, deadCount (processUpdate prec u).2 c = deadCount u.table c +
      if u.Writes c then groupSize (·.consumerId) u.counted c else 0) ∧
    (u.HandsOver prec ↔ (∀ row ∈ u.counted, ¬ u.Writes row.consumerId) ∨
      ∀ row ∈ u.counted, (u.Writes row.consumerId ↔
        row.statusChangedAt ≤ wholeSecond (prec.keep u.checkTime))) := by
  refine ⟨UpdateCycle.deadCount_processUpdate_cases, ?_⟩
  have hwrites : ∀ row ∈ u.counted, (u.Writes row.consumerId ↔ u.Adds prec row.consumerId) :=
    fun row hrow => (u.adds_iff_writes prec (mem_map_of_mem hrow)).symm
  by_cases hnone : u.committed prec = []
  · refine iff_of_true (UpdateCycle.handsOver_of_committed_nil hnone) (.inl fun row hrow => ?_)
    rw [hwrites row hrow, UpdateCycle.adds_iff, hnone]
    exact not_mem_nil
  · rw [UpdateCycle.handsOver_iff_of_committed hclock hnone]
    constructor
    · exact fun h => .inr fun row hrow => (hwrites row hrow).trans (h row hrow)
    · rintro (hno | h)
      · obtain ⟨s, hs⟩ := exists_mem_of_ne_nil _ hnone
        have hc : s.consumerID ∈ (u.committed prec).map (·.consumerID) := mem_map_of_mem hs
        obtain ⟨row, hrow, hid⟩ := mem_map.1 (UpdateCycle.countAt_committed hc).2
        exact absurd ((hwrites row hrow).2 (UpdateCycle.adds_iff.2 (hid ▸ hc))) (hno row hrow)
      · exact fun row hrow => (hwrites row hrow).symm.trans (h row hrow)

namespace Sample

def secondConsumerXid : Xid := ⟨"0000000000000000000f", by decide, all_eq_true.1 (by decide)⟩
def secondJobXid : Xid := ⟨"0000000000000000000k", by decide, all_eq_true.1 (by decide)⟩

def deadJob (id consumerId : Xid) (diedAt : Time) : JobRow :=
  ⟨id, messageXid, consumerId, .dead, 5, diedAt, 1, 1, 1, diedAt, 0, 0⟩

/-- A cycle ten seconds after the start. Each of two consumers has a job that died at second five,
and the last check was at second one. -/
def cycle : UpdateCycle where
  interval := second
  db :=
    { channel := [⟨channelXid, "c", "c", "t", 1, 1⟩]
      consumer := [⟨consumerXid, "d", "d", "t", "u", "c", .push, 1, 1⟩,
        ⟨secondConsumerXid, "f", "f", "t", "u", "c", .push, 1, 1⟩]
      job := [deadJob jobXid consumerXid (5 * second),
        deadJob secondJobXid secondConsumerXid (5 * second)] }
  table := [⟨consumerXid, "d", "c", "c", 0, second⟩]
  now := 10 * second

end Sample

open Sample

/-- Without failures, the next cycle counts none of the deaths again. -/
theorem next_cycle_counts_rest_no_failure : cycle.HandsOver .mysql :=
  (next_cycle_counts_rest_iff .mysql cycle (by decide)).2.2 (.inr (by decide +kernel))

/-- If the lookup of the second consumer fails, or the write of its row, then its death is neither
added nor counted by the next cycle. -/
theorem next_cycle_misses_death :
    let death := deadJob secondJobXid secondConsumerXid (5 * second)
    ∀ u ∈ [{ cycle with lookupFails := (· == secondConsumerXid) },
        { cycle with writeFails := (· == secondConsumerXid) }],
      death ∈ u.counted ∧ ¬ u.Adds .mysql secondConsumerXid ∧
        death ∉ u.db.deadJobsSince (getLastCheckedAt (processUpdate .mysql u).2) := by
  decide +kernel

end WebhookBroker
