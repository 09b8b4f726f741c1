import WebhookBroker.Storage.JobStep
import WebhookBroker.Dlq.Deaths
import WebhookBroker.Dlq.Updater

/-!
# Deaths around the steps of a cycle

A cycle of `processUpdate` holds a lock, so there is one at a time, but jobs die between any two of
its steps. It reads the checkpoint, reads the clock, counts the dead jobs after the checkpoint and
writes the clock reading as the new checkpoint, consumer by consumer. `BootstrapCounts` counts first
and reads the clock afterwards.

Nothing makes the count and the clock reading agree: a death that is counted may be stored with a
later time than the checkpoint, and is counted again, and one that commits after the count may be
stored with an earlier time, and is never counted. A death is added once if and only if each count
has seen it exactly if the next one starts after it.

The state has two components for the proofs: the counts so far, and the jobs whose counts were
added.
-/

namespace WebhookBroker

open Lib List

/-- A count of dead jobs: the checkpoint it starts from and the jobs that are dead. -/
structure Pass where
  since : Option Time
  dead : List JobRow

def Pass.selected (p : Pass) : List JobRow :=
  p.dead.filter fun row => !decide (Covers p.since row)

/-- How far the cycle that holds the lock has come. -/
inductive CyclePhase where
  | idle
  /-- after `GetLastCheckedAt` -/
  | checked (since : Option Time)
  /-- after `time.Now()` in `processUpdate` -/
  | timed (since : Option Time) (now : Time)
  /-- after the count of `BootstrapCounts` -/
  | counted (rows : List JobRow)
  /-- after `time.Now()` in `BootstrapCounts` -/
  | inserting (rows : List JobRow) (now : Time)
  /-- in `UpsertCounts`, with the consumers that are left -/
  | upserting (now : Time) (rows : List JobRow) (remaining : List Xid)
deriving DecidableEq

structure CycleSys where
  db : Db
  table : List DlqSummary
  clock : Time
  phase : CyclePhase
  passes : List Pass := []
  added : List JobRow := []

/-- The actions: the clock, an operation on jobs by a node that read the clock at `t`, and the steps
of a cycle. -/
inductive CycleAction where
  | tick (t : Time)
  | job (t : Time) (op : DbOp)
  | check
  | readClock
  | skip
  | count
  | insert
  | upsert (c : Xid)
  | finish

instance : Inhabited CycleAction := ⟨.check⟩

namespace CycleSys

/-- One action. No lookup and no write fails, and no job leaves `DEAD`. -/
def step [NetUrl] (prec : Precision) (interval : Duration) (s : CycleSys) :
    CycleAction → Option CycleSys
  | .tick t => if s.clock ≤ t then some { s with clock := t } else none
  | .job t op =>
    if t ≤ s.clock ∧ op.revives = false ∧ op.deathTime?.all (· == prec.keep t) then
      (op.step s.db).map fun db => { s with db := db }
    else none
  | .check =>
    match s.phase with
    | .idle => some { s with phase := .checked (getLastCheckedAt s.table) }
    | _ => none
  | .readClock =>
    match s.phase with
    | .checked since => some { s with phase := .timed since s.clock }
    | .counted rows => some { s with phase := .inserting rows s.clock }
    | _ => none
  | .skip =>
    match s.phase with
    | .timed (some since) now =>
      if now - since < interval then some { s with phase := .idle } else none
    | _ => none
  | .count =>
    match s.phase with
    | .timed none _ => some { s with
        phase := .counted (s.db.deadJobsSince none)
        passes := s.passes ++ [⟨none, s.db.deadJobs⟩] }
    | .timed (some since) now =>
      if now - since < interval then none
      else
        let rows := s.db.deadJobsSince (some since)
        some { s with
          phase := .upserting now rows (rows.map (·.consumerId)).dedup
          passes := s.passes ++ [⟨some since, s.db.deadJobs⟩] }
    | _ => none
  | .insert =>
    match s.phase with
    | .inserting rows now =>
      if rows.all fun row => (joinedNames s.db row.consumerId).isSome then
        some { s with
          phase := .idle
          table := summariesOf (joinedNames s.db) (prec.keep now) (groupCount (·.consumerId) rows)
          added := s.added ++ rows }
      else none
    | _ => none
  | .upsert c =>
    match s.phase with
    | .upserting now rows remaining =>
      if c ∈ remaining then
        (consumerNames s.db c).map fun n => { s with
          phase := .upserting now rows (remaining.erase c)
          table := upsertCount ⟨c, n.consumerName, n.channelID, n.channelName,
            groupSize (·.consumerId) rows c, prec.keep now⟩ s.table
          added := s.added ++ rows.filter fun row => decide (row.consumerId = c) }
      else none
    | _ => none
  | .finish =>
    match s.phase with
    | .upserting _ _ [] => some { s with phase := .idle }
    | _ => none

structure Initial (s : CycleSys) : Prop where
  integrity : s.db.Integrity
  table : s.table = []
  phase : s.phase = .idle
  passes : s.passes = []
  added : s.added = []

end CycleSys

abbrev CycleRun [NetUrl] (prec : Precision) (interval : Duration) :=
  Run CycleSys.Initial (CycleSys.step prec interval)

/-! ## The steps of one cycle

Undisturbed, they are `processUpdate`. -/

/-- The steps of a cycle, with the writes in the order of the map. -/
def CycleSys.cycleActions (interval : Duration) (s : CycleSys) (order : MapOrder) :
    List CycleAction :=
  match getLastCheckedAt s.table with
  | none => [.check, .readClock, .count, .readClock, .insert]
  | some since =>
    if s.clock - since < interval then [.check, .readClock, .skip]
    else .check :: .readClock :: .count ::
      ((order.list (getDeadJobCounts s.db (some since))).map (.upsert ·.1) ++ [.finish])

section
variable [NetUrl] {prec : Precision} {interval : Duration}

theorem exec_upserts {s : CycleSys} {now : Time} {rows : List JobRow} {remaining : List Xid}
    {counts : List (Xid × Nat)} (hphase : s.phase = .upserting now rows remaining)
    (hkeys : remaining.Perm (counts.map (·.1)))
    (hcounts : ∀ count ∈ counts, count.2 = groupSize (·.consumerId) rows count.1)
    (hnames : ∀ count ∈ counts, (consumerNames s.db count.1).isSome) :
    ∃ s', exec (CycleSys.step prec interval) s (counts.map (.upsert ·.1)) = some s' ∧
      s'.phase = .upserting now rows [] ∧ s'.db = s.db ∧
      s'.table = upsertAll (summariesOf (consumerNames s.db) (prec.keep now) counts) s.table := by
  induction counts generalizing s remaining with
  | nil =>
    obtain rfl := hkeys.eq_nil
    exact ⟨s, rfl, hphase, rfl, rfl⟩
  | cons count counts ih =>
    obtain ⟨names, hname⟩ := Option.isSome_iff_exists.1 (hnames count mem_cons_self)
    have hmem : count.1 ∈ remaining := hkeys.mem_iff.2 mem_cons_self
    have herase : (remaining.erase count.1).Perm (counts.map (·.1)) := by
      have herase := hkeys.erase count.1
      rwa [map_cons, erase_cons_head] at herase
    have hstep : ∃ s₁, CycleSys.step prec interval s (.upsert count.1) = some s₁ ∧
        s₁.phase = .upserting now rows (remaining.erase count.1) ∧ s₁.db = s.db ∧
        s₁.table = upsertCount ⟨count.1, names.consumerName, names.channelID, names.channelName,
          count.2, prec.keep now⟩ s.table := by
      simp only [CycleSys.step, hphase, if_pos hmem, hname, Option.map_some]
      exact ⟨_, rfl, rfl, rfl, by rw [hcounts count mem_cons_self]⟩
    obtain ⟨s₁, hs₁, hphase₁, hdb₁, htable₁⟩ := hstep
    obtain ⟨s', hs', hphase', hdb', htable'⟩ := ih hphase₁ herase
      (fun count hcount => hcounts count (mem_cons_of_mem _ hcount))
      (fun count hcount => hdb₁ ▸ hnames count (mem_cons_of_mem _ hcount))
    refine ⟨s', ?_, hphase', hdb'.trans hdb₁, ?_⟩
    · rw [map_cons, exec, hs₁]
      exact hs'
    · rw [htable', htable₁, hdb₁]
      conv_rhs => rw [summariesOf, filterMap_cons, hname]
      rfl

theorem exec_incremental {s : CycleSys} (hidle : s.phase = .idle) (hnames : s.db.NamesFound)
    (order : MapOrder) {since : Time} (hlast : getLastCheckedAt s.table = some since)
    (hdue : ¬ s.clock - since < interval) :
    ∃ s', exec (CycleSys.step prec interval) s ([.check, .readClock, .count] ++
        ((order.list (getDeadJobCounts s.db (some since))).map (.upsert ·.1) ++ [.finish])) =
        some s' ∧ s'.phase = .idle ∧ s'.db = s.db ∧
      s'.table = upsertAll (summariesOf (consumerNames s.db) (prec.keep s.clock)
        (order.list (getDeadJobCounts s.db (some since)))) s.table := by
  have hcounts : ∀ count ∈ order.list (getDeadJobCounts s.db (some since)),
      count ∈ groupCount (·.consumerId) (s.db.deadJobsSince (some since)) :=
    fun count hcount => (order.perm _).mem_iff.1 hcount
  let s₁ : CycleSys := { s with
    phase := .upserting s.clock (s.db.deadJobsSince (some since))
      ((s.db.deadJobsSince (some since)).map (·.consumerId)).dedup
    passes := s.passes ++ [⟨some since, s.db.deadJobs⟩] }
  have hstart : exec (CycleSys.step prec interval) s [.check, .readClock, .count] = some s₁ := by
    simp only [exec, CycleSys.step, hidle, hlast, if_neg hdue, Option.bind_some]
    rfl
  have hkeys : ((s.db.deadJobsSince (some since)).map (·.consumerId)).dedup.Perm
      ((order.list (getDeadJobCounts s.db (some since))).map (·.1)) := by
    rw [← groupCount_keys]
    exact ((order.perm _).map (·.1)).symm
  obtain ⟨s', hs', hphase', hdb', htable'⟩ := @exec_upserts _ prec interval s₁ _ _ _ _ rfl hkeys
    (fun count hcount => (mem_groupCount.1 (hcounts count hcount)).2) fun count hcount => by
      obtain ⟨row, hrow, hid⟩ := mem_map.1 (mem_groupCount.1 (hcounts count hcount)).1
      exact hid ▸ (hnames row (Db.mem_deadJobsSince.1 hrow).1).2
  refine ⟨{ s' with phase := .idle }, ?_, rfl, hdb', htable'⟩
  rw [exec_append, hstart, Option.bind_some, exec_append, hs', Option.bind_some]
  simp only [exec, CycleSys.step, hphase', Option.bind_some]

/-- A cycle whose steps follow each other without a failure is a run of `processUpdate`. -/
theorem exec_cycleActions {s : CycleSys} (hidle : s.phase = .idle) (hnames : s.db.NamesFound)
    (order : MapOrder) :
    ∃ s', exec (CycleSys.step prec interval) s (s.cycleActions interval order) = some s' ∧
      s'.phase = .idle ∧ s'.db = s.db ∧
      s'.table = (processUpdate prec { interval := interval, db := s.db, table := s.table
                                       now := s.clock, order := order }).2 := by
  unfold CycleSys.cycleActions processUpdate
  cases hlast : getLastCheckedAt s.table with
  | none =>
    have hjoined : ((s.db.deadJobsSince none).all fun row =>
        (joinedNames s.db row.consumerId).isSome) = true :=
      all_eq_true.2 fun row hrow => (hnames row hrow).1
    refine ⟨{ s with
      phase := .idle
      table := summariesOf (joinedNames s.db) (prec.keep s.clock)
        (groupCount (·.consumerId) (s.db.deadJobsSince none))
      passes := s.passes ++ [⟨none, s.db.deadJobs⟩]
      added := s.added ++ s.db.deadJobsSince none }, ?_, rfl, rfl, ?_⟩
    · simp only [exec, CycleSys.step, hidle, hlast, hjoined, if_true, Option.bind_some]
    · simp [UpdateCycle.bootstrapRows, getDeadJobCounts]
  | some since =>
    simp only
    split
    · rename_i hskip
      refine ⟨{ s with phase := .idle }, ?_, rfl, rfl, rfl⟩
      simp only [exec, CycleSys.step, hidle, hlast, if_pos hskip, Option.bind_some]
    · rename_i hdue
      obtain ⟨s', hs', hphase', hdb', htable'⟩ :=
        @exec_incremental _ prec interval s hidle hnames order since hlast hdue
      refine ⟨s', hs', hphase', hdb', ?_⟩
      rw [htable', upsertCounts_of_forall fun _ _ => rfl]
      rfl

end

inductive CycleStep [NetUrl] (prec : Precision) (s : CycleSys) : CycleSys → Prop
  | tick {t : Time} (hclock : s.clock ≤ t) : CycleStep prec s { s with clock := t }
  | job {op : DbOp} {db : Db} (hop : op.revives = false) (heffect : DbEffect s.db op db) :
      CycleStep prec s { s with db := db }
  | check (hphase : s.phase = .idle) :
      CycleStep prec s { s with phase := .checked (getLastCheckedAt s.table) }
  | readClock {since : Option Time} (hphase : s.phase = .checked since) :
      CycleStep prec s { s with phase := .timed since s.clock }
  | readBootClock {rows : List JobRow} (hphase : s.phase = .counted rows) :
      CycleStep prec s { s with phase := .inserting rows s.clock }
  | skip {since : Time} {now : Time} (hphase : s.phase = .timed (some since) now) :
      CycleStep prec s { s with phase := .idle }
  | countAll {now : Time} (hphase : s.phase = .timed none now) :
      CycleStep prec s { s with
        phase := .counted (s.db.deadJobsSince none)
        passes := s.passes ++ [⟨none, s.db.deadJobs⟩] }
  | countSince {since now : Time} (hphase : s.phase = .timed (some since) now) :
      CycleStep prec s { s with
        phase := .upserting now (s.db.deadJobsSince (some since))
          ((s.db.deadJobsSince (some since)).map (·.consumerId)).dedup
        passes := s.passes ++ [⟨some since, s.db.deadJobs⟩] }
  | insert {rows : List JobRow} {now : Time} (hphase : s.phase = .inserting rows now)
      (hnames : ∀ row ∈ rows, (joinedNames s.db row.consumerId).isSome) :
      CycleStep prec s { s with
        phase := .idle
        table := summariesOf (joinedNames s.db) (prec.keep now) (groupCount (·.consumerId) rows)
        added := s.added ++ rows }
  | upsert {now : Time} {rows : List JobRow} {remaining : List Xid} {summary : DlqSummary}
      (hphase : s.phase = .upserting now rows remaining) (hc : summary.consumerID ∈ remaining)
      (hcount : summary.deadCount = groupSize (·.consumerId) rows summary.consumerID)
      (htime : summary.lastCheckedAt = prec.keep now) :
      CycleStep prec s { s with
        phase := .upserting now rows (remaining.erase summary.consumerID)
        table := upsertCount summary s.table
        added := s.added ++ rows.filter fun row => decide (row.consumerId = summary.consumerID) }
  | finish {now : Time} {rows : List JobRow} (hphase : s.phase = .upserting now rows []) :
      CycleStep prec s { s with phase := .idle }

section
variable {prec : Precision} {interval : Duration} {s s' : CycleSys}

theorem CycleSys.step_cycleStep [NetUrl] {a : CycleAction}
    (h : CycleSys.step prec interval s a = some s') :
    CycleStep prec s s' := by
  cases a with simp only [CycleSys.step] at h
  | tick t =>
    split at h
    · cases h
      exact .tick ‹_›
    · cases h
  | job t op =>
    split at h
    · rename_i hop
      obtain ⟨db, hdb, rfl⟩ := Option.map_eq_some_iff.1 h
      exact .job hop.2.1 (DbOp.step_effect hdb)
    · cases h
  | check =>
    split at h
    · cases h
      exact .check ‹_›
    · cases h
  | readClock =>
    split at h
    · cases h
      exact .readClock ‹_›
    · cases h
      exact .readBootClock ‹_›
    · cases h
  | skip =>
    split at h
    · split at h
      · cases h
        exact .skip ‹_›
      · cases h
    · cases h
  | count =>
    split at h
    · cases h
      exact .countAll ‹_›
    · split at h
      · cases h
      · cases h
        exact .countSince ‹_›
    · cases h
  | insert =>
    split at h
    · split at h
      · cases h
        exact .insert ‹_› (all_eq_true.1 ‹_›)
      · cases h
    · cases h
  | upsert c =>
    split at h
    · split at h
      · obtain ⟨n, -, rfl⟩ := Option.map_eq_some_iff.1 h
        exact .upsert ‹_› ‹_› rfl rfl
      · cases h
    · cases h
  | finish =>
    split at h
    · cases h
      exact .finish ‹_›
    · cases h

/-! ## The checkpoint only moves forward -/

/-- No check is later than the clock, and none but the current one is later than the time that a
cycle has read; a cycle goes on with the checkpoint that is stored. -/
structure CycleSys.Timely (prec : Precision) (s : CycleSys) : Prop where
  checks : CheckedBy (prec.keep s.clock) s.table
  checked : ∀ since, s.phase = .checked since → since = getLastCheckedAt s.table
  timed : ∀ since now, s.phase = .timed since now →
    since = getLastCheckedAt s.table ∧ CheckedBy (prec.keep now) s.table ∧ now ≤ s.clock
  counted : ∀ rows, s.phase = .counted rows → s.table = []
  inserting : ∀ rows now, s.phase = .inserting rows now → s.table = [] ∧ now ≤ s.clock
  upserting : ∀ now rows remaining, s.phase = .upserting now rows remaining →
    CheckedBy (prec.keep now) s.table ∧ now ≤ s.clock ∧ remaining.Nodup

theorem CycleSys.Initial.timely (h : s.Initial) : s.Timely prec := by
  have hphase := h.phase
  refine ⟨?_, ?_, ?_, ?_, ?_, ?_⟩
  · rw [h.table]
    exact fun row hrow => absurd hrow not_mem_nil
  all_goals simp [hphase]

theorem CycleStep.timely [NetUrl] (h : CycleStep prec s s') (ht : s.Timely prec) :
    s'.Timely prec := by
  cases h with
  | @tick t hclock =>
    refine ⟨ht.checks.mono (prec.mono hclock), ht.checked, fun since now hphase => ?_, ht.counted,
      fun rows now hphase => ?_, fun now rows remaining hphase => ?_⟩
    · obtain ⟨hsince, hchecks, hnow⟩ := ht.timed since now hphase
      exact ⟨hsince, hchecks, hnow.trans hclock⟩
    · obtain ⟨htable, hnow⟩ := ht.inserting rows now hphase
      exact ⟨htable, hnow.trans hclock⟩
    · obtain ⟨hchecks, hnow, hnodup⟩ := ht.upserting now rows remaining hphase
      exact ⟨hchecks, hnow.trans hclock, hnodup⟩
  | job => exact ⟨ht.checks, ht.checked, ht.timed, ht.counted, ht.inserting, ht.upserting⟩
  | check =>
    refine ⟨ht.checks, fun since hphase => ?_, nofun, nofun, nofun, nofun⟩
    cases hphase
    rfl
  | readClock hphase =>
    refine ⟨ht.checks, nofun, fun since now hphase' => ?_, nofun, nofun, nofun⟩
    cases hphase'
    exact ⟨ht.checked _ hphase, ht.checks, le_rfl⟩
  | readBootClock hphase =>
    refine ⟨ht.checks, nofun, nofun, nofun, fun rows now hphase' => ?_, nofun⟩
    cases hphase'
    exact ⟨ht.counted _ hphase, le_rfl⟩
  | skip | finish => exact ⟨ht.checks, nofun, nofun, nofun, nofun, nofun⟩
  | countAll hphase =>
    refine ⟨ht.checks, nofun, nofun, fun rows _ => ?_, nofun, nofun⟩
    exact getLastCheckedAt_eq_none.1 (ht.timed _ _ hphase).1.symm
  | countSince hphase =>
    refine ⟨ht.checks, nofun, nofun, nofun, nofun, fun now rows remaining hphase' => ?_⟩
    cases hphase'
    obtain ⟨-, hchecks, hnow⟩ := ht.timed _ _ hphase
    exact ⟨hchecks, hnow, nodup_dedup _⟩
  | insert hphase =>
    refine ⟨fun summary hmem => ?_, nofun, nofun, nofun, nofun, nofun⟩
    rw [lastCheckedAt_of_mem_summariesOf summary hmem]
    exact prec.mono (ht.inserting _ _ hphase).2
  | upsert hphase hc hcount htime =>
    obtain ⟨hchecks, hnow, hnodup⟩ := ht.upserting _ _ _ hphase
    refine ⟨ht.checks.upsertCount (htime.trans_le (prec.mono hnow)), nofun, nofun, nofun, nofun,
      fun now rows remaining hphase' => ?_⟩
    cases hphase'
    exact ⟨hchecks.upsertCount htime.le, hnow, hnodup.erase _⟩

/-- What the checkpoint has behind it stays behind it. -/
theorem CycleStep.covers_mono [NetUrl] (h : CycleStep prec s s') (ht : s.Timely prec) {row : JobRow}
    (hcovers : Covers (getLastCheckedAt s.table) row) : Covers (getLastCheckedAt s'.table) row := by
  cases h with
  | tick | job | check | readClock | readBootClock | skip | countAll | countSince | finish =>
    exact hcovers
  | insert hphase =>
    rw [(ht.inserting _ _ hphase).1] at hcovers
    exact absurd hcovers covers_none
  | @upsert now rows remaining summary hphase hc hcount htime =>
    obtain ⟨hchecks, -, -⟩ := ht.upserting _ _ _ hphase
    have hnext := (hchecks.upsertCount htime.le).getLastCheckedAt
        (htime ▸ lastCheckedAt_mem_upsertCount summary)
    rw [hnext, covers_some]
    cases hlast : getLastCheckedAt s.table with
    | none =>
      rw [hlast] at hcovers
      exact absurd hcovers covers_none
    | some since =>
      rw [hlast, covers_some] at hcovers
      exact hcovers.trans (hchecks.checkpoint_le hlast)

/-! ## The counts so far -/

theorem CycleStep.dead_subset [NetUrl] (h : CycleStep prec s s') :
    s.db.deadJobs ⊆ s'.db.deadJobs := by
  cases h with
  | @job op db hop heffect =>
    cases heffect.deathStep with
    | keeps heq => exact heq ▸ List.Subset.refl _
    | dies _ hperm => exact fun row hrow => hperm.mem_iff.2 (mem_append_right _ hrow)
    | leaves hrevives => exact absurd (hop.symm.trans hrevives) Bool.false_ne_true
  | tick | check | readClock | readBootClock | skip | countAll | countSince | insert | upsert
  | finish => exact List.Subset.refl _

/-- The cycle has counted and not yet written everything. -/
def CyclePhase.afterCount : CyclePhase → Bool
  | .counted _ | .inserting .. | .upserting .. => true
  | _ => false

/-- The counts see more and more jobs, from later and later checkpoints. -/
structure CycleSys.Ordered (s : CycleSys) : Prop where
  integrity : s.db.Integrity
  first : s.passes = [] → s.table = [] ∧ s.phase.afterCount = false
  head : ∀ p ∈ s.passes.head?, p.since = none
  nodup : ∀ p ∈ s.passes, p.dead.Nodup
  dead : s.passes.Pairwise fun p q => p.dead ⊆ q.dead
  dead_now : ∀ p ∈ s.passes, p.dead ⊆ s.db.deadJobs
  since : s.passes.Pairwise fun p q => ∀ row, Covers p.since row → Covers q.since row
  since_now : ∀ p ∈ s.passes, ∀ row, Covers p.since row → Covers (getLastCheckedAt s.table) row

theorem CycleSys.Initial.ordered (h : s.Initial) : s.Ordered := by
  have hpasses := h.passes
  have hphase := h.phase
  refine ⟨h.integrity, fun _ => ⟨h.table, by rw [hphase]; rfl⟩, ?_, ?_, ?_, ?_, ?_, ?_⟩
  all_goals simp [hpasses]

theorem CycleSys.Ordered.count (ho : s.Ordered) {phase : CyclePhase} :
    CycleSys.Ordered { s with
      phase := phase
      passes := s.passes ++ [⟨getLastCheckedAt s.table, s.db.deadJobs⟩] } where
  integrity := ho.integrity
  first h := absurd h (by simp)
  head p hp := by
    rw [List.head?_append] at hp
    cases hhead : s.passes.head? with
    | none =>
      rw [hhead] at hp
      cases hp
      exact getLastCheckedAt_eq_none.2 (ho.first (List.head?_eq_none_iff.1 hhead)).1
    | some p' =>
      rw [hhead] at hp
      obtain rfl := Option.some.inj hp
      exact ho.head p' hhead
  nodup p hp := by
    rcases mem_append.1 hp with hp | hp
    · exact ho.nodup p hp
    · obtain rfl := mem_singleton.1 hp
      exact (List.Nodup.of_map _ ho.integrity.job_ids).filter _
  dead := by
    refine pairwise_append.2 ⟨ho.dead, pairwise_singleton _ _, fun p hp q hq => ?_⟩
    obtain rfl := mem_singleton.1 hq
    exact ho.dead_now p hp
  dead_now p hp := by
    rcases mem_append.1 hp with hp | hp
    · exact ho.dead_now p hp
    · obtain rfl := mem_singleton.1 hp
      exact List.Subset.refl _
  since := by
    refine pairwise_append.2 ⟨ho.since, pairwise_singleton _ _, fun p hp q hq => ?_⟩
    obtain rfl := mem_singleton.1 hq
    exact ho.since_now p hp
  since_now p hp := by
    rcases mem_append.1 hp with hp | hp
    · exact ho.since_now p hp
    · obtain rfl := mem_singleton.1 hp
      exact fun _ => id

theorem CycleSys.Ordered.keep (ho : s.Ordered) (hpasses : s'.passes = s.passes)
    (hintegrity : s'.db.Integrity)
    (hfirst : s.table = [] ∧ s.phase.afterCount = false →
      s'.table = [] ∧ s'.phase.afterCount = false)
    (hdead : s.db.deadJobs ⊆ s'.db.deadJobs)
    (hcovers : ∀ row, Covers (getLastCheckedAt s.table) row →
      Covers (getLastCheckedAt s'.table) row) : s'.Ordered where
  integrity := hintegrity
  first h := hfirst (ho.first (hpasses ▸ h))
  head := hpasses ▸ ho.head
  nodup := hpasses ▸ ho.nodup
  dead := hpasses ▸ ho.dead
  dead_now p hp := List.Subset.trans (ho.dead_now p (hpasses ▸ hp)) hdead
  since := hpasses ▸ ho.since
  since_now p hp row h := hcovers row (ho.since_now p (hpasses ▸ hp) row h)

theorem CycleStep.ordered [NetUrl] (h : CycleStep prec s s') (ht : s.Timely prec)
    (ho : s.Ordered) : s'.Ordered := by
  have hcovers := fun row => @CycleStep.covers_mono prec s s' _ h ht row
  have hdead := h.dead_subset
  cases h with
  | tick => exact ho.keep rfl ho.integrity id hdead hcovers
  | job _ heffect => exact ho.keep rfl (ho.integrity.effect heffect) id hdead hcovers
  | check | readClock | skip | finish =>
    exact ho.keep rfl ho.integrity (fun hfirst => ⟨hfirst.1, rfl⟩) hdead hcovers
  | readBootClock hphase | insert hphase | upsert hphase =>
    refine ho.keep rfl ho.integrity (fun hfirst => ?_) hdead hcovers
    rw [hphase] at hfirst
    exact absurd hfirst.2 Bool.true_eq_false.mp
  | countAll hphase | countSince hphase =>
    rw [(ht.timed _ _ hphase).1]
    exact ho.count

/-- The jobs of the current count that are not added yet. -/
def CycleSys.pending (s : CycleSys) : List JobRow :=
  match s.phase with
  | .counted rows | .inserting rows _ => rows
  | .upserting _ rows remaining => rows.filter fun row => decide (row.consumerId ∈ remaining)
  | _ => []

/-- What was added and what is pending is what was counted, and `dead_count` is the number of added
jobs of a consumer. -/
structure CycleSys.Accounted (s : CycleSys) : Prop where
  perm : (s.added ++ s.pending).Perm (s.passes.flatMap (·.selected))
  counts : ∀ c, deadCount s.table c = groupSize (·.consumerId) s.added c

theorem CycleSys.Initial.accounted (h : s.Initial) : s.Accounted where
  perm := by
    rw [CycleSys.pending, h.phase, h.passes, h.added]
    exact .nil
  counts c := by
    rw [h.table, h.added]
    rfl

theorem filter_erase_perm {rows : List JobRow} {remaining : List Xid} {c : Xid}
    (hnodup : remaining.Nodup) (hc : c ∈ remaining) :
    ((rows.filter fun row => decide (row.consumerId = c)) ++
      rows.filter fun row => decide (row.consumerId ∈ remaining.erase c)).Perm
      (rows.filter fun row => decide (row.consumerId ∈ remaining)) := by
  have hsplit := filter_append_perm (fun row => decide (row.consumerId = c))
    (rows.filter fun row => decide (row.consumerId ∈ remaining))
  rw [filter_filter, filter_filter] at hsplit
  refine .trans (.of_eq ?_) hsplit
  congr 1
  · refine filter_congr fun row _ => ?_
    by_cases hrow : row.consumerId = c
    · simp [hrow, hc]
    · simp [hrow]
  · refine filter_congr fun row _ => ?_
    simp [hnodup.mem_erase_iff]

theorem deadCount_summariesOf {names : Xid → Option ConsumerNames} {now : Time} {rows : List JobRow}
    (hnames : ∀ row ∈ rows, (names row.consumerId).isSome) (c : Xid) :
    deadCount (summariesOf names now (groupCount (·.consumerId) rows)) c =
      groupSize (·.consumerId) rows c := by
  have hcounts : (summariesOf names now (groupCount (·.consumerId) rows)).map (·.count) =
      groupCount (·.consumerId) rows := by
    refine map_count_summariesOf fun count hcount => ?_
    obtain ⟨row, hrow, hid⟩ := mem_map.1 (mem_groupCount.1 hcount).1
    exact hid ▸ hnames row hrow
  have hkeys : ((summariesOf names now (groupCount (·.consumerId) rows)).map
      (·.consumerID)).Nodup := by
    have hnodup : ((groupCount (·.consumerId) rows).map (·.1)).Nodup := nodup_groupCount_keys
    rwa [← hcounts, map_map] at hnodup
  rw [deadCount_eq_countAt hkeys, hcounts, countAt_groupCount]

theorem CycleSys.Accounted.keep (ha : s.Accounted) (hadded : s'.added = s.added)
    (hpasses : s'.passes = s.passes) (htable : s'.table = s.table)
    (hpending : s'.pending = s.pending) : s'.Accounted where
  perm := by
    rw [hadded, hpasses, hpending]
    exact ha.perm
  counts c := by
    rw [htable, hadded]
    exact ha.counts c

theorem CycleSys.Accounted.count (ha : s.Accounted) (hnone : s.pending = []) {since : Option Time}
    {phase : CyclePhase} (hpending : CycleSys.pending { s with phase := phase } =
      s.db.deadJobsSince since) :
    CycleSys.Accounted { s with
      phase := phase, passes := s.passes ++ [⟨since, s.db.deadJobs⟩] } where
  perm := by
    have hperm := ha.perm
    rw [hnone, append_nil] at hperm
    have hselected : [(⟨since, s.db.deadJobs⟩ : Pass)].flatMap (·.selected) =
        s.db.deadJobsSince since := by
      rw [flatMap_singleton, Pass.selected, Db.deadJobsSince_eq_filter]
    rw [flatMap_append, hselected]
    exact .trans (.of_eq (congrArg (s.added ++ ·) hpending)) (hperm.append_right _)
  counts := ha.counts

theorem CycleStep.accounted [NetUrl] (h : CycleStep prec s s') (ht : s.Timely prec)
    (ha : s.Accounted) : s'.Accounted := by
  cases h with
  | tick | job => exact ha.keep rfl rfl rfl rfl
  | check hphase | readClock hphase | skip hphase | readBootClock hphase =>
    refine ha.keep rfl rfl rfl ?_
    rw [CycleSys.pending, CycleSys.pending, hphase]
  | finish hphase =>
    refine ha.keep rfl rfl rfl ?_
    rw [CycleSys.pending, CycleSys.pending, hphase]
    exact (filter_eq_nil_iff.2 fun row _ => by simp).symm
  | countAll hphase =>
    refine ha.count ?_ rfl
    rw [CycleSys.pending, hphase]
  | countSince hphase =>
    refine ha.count ?_ ?_
    · rw [CycleSys.pending, hphase]
    · refine filter_eq_self.2 fun row hrow => decide_eq_true ?_
      exact mem_dedup.2 (mem_map_of_mem hrow)
  | @insert rows now hphase hnames =>
    have hpending : s.pending = rows := by rw [CycleSys.pending, hphase]
    constructor
    · refine .trans (.of_eq (append_nil _)) ?_
      exact hpending ▸ ha.perm
    · intro c
      have hzero := ha.counts c
      rw [(ht.inserting _ _ hphase).1] at hzero
      rw [groupSize_append, ← hzero, deadCount_summariesOf hnames]
      exact (Nat.zero_add _).symm
  | @upsert now rows remaining summary hphase hc hcount =>
    obtain ⟨-, -, hnodup⟩ := ht.upserting _ _ _ hphase
    have hpending : s.pending = rows.filter fun row => decide (row.consumerId ∈ remaining) := by
      rw [CycleSys.pending, hphase]
    constructor
    · have hperm := ha.perm
      rw [hpending] at hperm
      refine .trans (.of_eq (append_assoc _ _ _)) (.trans ?_ hperm)
      exact (filter_erase_perm hnodup hc).append_left _
    · intro c
      rw [deadCount_upsertCount, ha.counts c, groupSize_append, groupSize_filter_group, hcount]

/-! ## How often a death is added -/

/-- A job is taken once by each count that sees it from a checkpoint before it. -/
theorem count_selected {passes : List Pass} {row : JobRow} (hnodup : ∀ p ∈ passes, p.dead.Nodup) :
    (passes.flatMap (·.selected)).count row =
      passes.countP fun p => decide (row ∈ p.dead) && !decide (Covers p.since row) := by
  induction passes with
  | nil => rfl
  | cons p passes ih =>
    have ih := ih fun q hq => hnodup q (mem_cons_of_mem _ hq)
    have hp : p.selected.Nodup := (hnodup p mem_cons_self).filter _
    have hcount : p.selected.count row =
        if decide (row ∈ p.dead) && !decide (Covers p.since row) then 1 else 0 := by
      rw [hp.count]
      simp [Pass.selected]
    rw [flatMap_cons, count_append, ih, hcount, countP_cons, Nat.add_comm]

def CycleSys.lastDead (s : CycleSys) : List JobRow := (s.passes.getLast?.map (·.dead)).getD []

/-- Each count has seen the job exactly if the next one starts after it. -/
def CycleSys.Aligned (s : CycleSys) (row : JobRow) : Prop :=
  s.passes.IsChain fun p q => row ∈ p.dead ↔ Covers q.since row

theorem CycleSys.Accounted.count_added (ha : s.Accounted) (ho : s.Ordered)
    (hidle : s.phase = .idle) (row : JobRow) : s.added.count row =
      s.passes.countP fun p => decide (row ∈ p.dead) && !decide (Covers p.since row) := by
  have hperm := ha.perm
  rw [CycleSys.pending, hidle, append_nil] at hperm
  rw [hperm.count_eq, count_selected ho.nodup]

theorem CycleSys.Ordered.dead_subset_lastDead (ho : s.Ordered) :
    ∀ p ∈ s.passes, p.dead ⊆ s.lastDead := by
  intro p hp
  rcases eq_nil_or_concat s.passes with hnil | ⟨init, last, hpasses⟩
  · rw [hnil] at hp
    exact absurd hp not_mem_nil
  · rw [concat_eq_append] at hpasses
    have hlast : s.lastDead = last.dead := by
      rw [CycleSys.lastDead, hpasses, List.getLast?_concat]
      rfl
    have hdead := ho.dead
    rw [hpasses] at hp hdead
    rw [hlast]
    rcases mem_append.1 hp with hp | hp
    · exact (pairwise_append.1 hdead).2.2 p hp last (mem_singleton_self last)
    · obtain rfl := mem_singleton.1 hp
      exact List.Subset.refl _

/-- A job that the last count has seen is added once if and only if the counts are aligned. -/
theorem CycleSys.Accounted.count_eq_one_iff (ha : s.Accounted) (ho : s.Ordered)
    (hidle : s.phase = .idle) {row : JobRow} (hrow : row ∈ s.lastDead) :
    s.added.count row = 1 ↔ s.Aligned row := by
  rw [ha.count_added ho hidle, CycleSys.Aligned]
  cases hpasses : s.passes with
  | nil =>
    rw [CycleSys.lastDead, hpasses] at hrow
    exact absurd hrow not_mem_nil
  | cons p ps =>
    have hfirst : p.since = none := ho.head p (by rw [hpasses]; rfl)
    have hdead := ho.dead
    have hsince := ho.since
    rw [hpasses] at hdead hsince
    rw [countP_fresh_eq_one_iff]
    · refine iff_of_eq (congrArg (List.IsChain · (p :: ps)) ?_)
      funext q q'
      rw [decide_eq_decide]
    · exact hdead.imp fun hsub hq => decide_eq_true (hsub (of_decide_eq_true hq))
    · exact hsince.imp fun hcov hq => decide_eq_true (hcov row (of_decide_eq_true hq))
    · rw [hfirst]
      exact decide_eq_false covers_none
    · intro q hq
      rw [CycleSys.lastDead, hpasses, hq] at hrow
      exact decide_eq_true hrow

end

theorem CycleRun.invariants [NetUrl] {prec : Precision} {interval : Duration}
    (r : CycleRun prec interval) {n : Nat} (hn : n ≤ r.len) :
    (r.state n).Timely prec ∧ (r.state n).Ordered ∧ (r.state n).Accounted := by
  refine r.invariant (P := fun s => s.Timely prec ∧ s.Ordered ∧ s.Accounted) ?_ ?_ n hn
  · exact fun s h => ⟨h.timely, h.ordered, h.accounted⟩
  · rintro s a s' ⟨ht, ho, ha⟩ hstep
    have h := CycleSys.step_cycleStep hstep
    exact ⟨h.timely ht, h.ordered ht ho, h.accounted ht ha⟩

/-- Between two cycles, `dead_count` is the number of added deaths of a consumer, and no death is
added before it is counted. All counted deaths are added once if and only if every count has seen
each of them exactly if the next one starts after it. -/
theorem deaths_added_once_iff [NetUrl] {prec : Precision} {interval : Duration}
    (r : CycleRun prec interval) {n : Nat} (hn : n ≤ r.len) (hidle : (r.state n).phase = .idle) :
    (∀ c, deadCount (r.state n).table c = groupSize (·.consumerId) (r.state n).added c) ∧
    (∀ row, row ∉ (r.state n).lastDead → (r.state n).added.count row = 0) ∧
    ((∀ row ∈ (r.state n).lastDead, (r.state n).added.count row = 1) ↔
      ∀ row ∈ (r.state n).lastDead, (r.state n).Aligned row) := by
  obtain ⟨-, ho, ha⟩ := r.invariants hn
  refine ⟨ha.counts, fun row hrow => ?_, ?_⟩
  · rw [ha.count_added ho hidle, countP_eq_zero]
    intro p hp hseen
    rw [Bool.and_eq_true, decide_eq_true_iff] at hseen
    exact hrow (ho.dead_subset_lastDead p hp hseen.1)
  · exact forall₂_congr fun row hrow => ha.count_eq_one_iff ho hidle hrow

namespace Sample

def cycleStart : CycleSys where
  db :=
    { channel := [⟨channelXid, "c", "c", "t", 1, 1⟩]
      consumer := [⟨consumerXid, "d", "d", "t", "u", "c", .push, 1, 1⟩,
        ⟨secondConsumerXid, "f", "f", "t", "u", "c", .push, 1, 1⟩]
      message := [⟨messageXid, "m", "x", "y", 0, .dispatched, "c", "p", 1, 1, 1, 1, []⟩]
      job := [deadJob jobXid consumerXid second,
        ⟨secondJobXid, messageXid, secondConsumerXid, .inflight, 5, 1, 1, 1, 1, 1, 0, 0⟩] }
  table := []
  clock := second
  phase := .idle

theorem cycleStart_initial : cycleStart.Initial where
  integrity := ⟨by decide, by decide, by decide, by decide, by decide, by decide⟩
  table := rfl
  phase := rfl
  passes := rfl
  added := rfl

def secondDeath (t : Time) : CycleAction :=
  .job t (.mark .dead (Precision.mysql.keep t) { job .push 1 with id := secondJobXid })

/-- The first cycle writes the table at second five. The second one reads the clock at 10.4 seconds,
and the second job dies at 10.6 seconds, before the count. -/
def earlyClock : List CycleAction :=
  [.tick (5 * second), .check, .readClock, .count, .readClock, .insert,
    .tick (104 * second / 10), .check, .readClock,
    .tick (106 * second / 10), secondDeath (106 * second / 10),
    .count, .upsert secondConsumerXid, .finish,
    .tick (20 * second), .check, .readClock, .count, .upsert secondConsumerXid, .finish]

/-- The second job dies at second six, between the count of the first cycle and its reading of the
clock at second seven. -/
def lateClock : List CycleAction :=
  [.tick (5 * second), .check, .readClock, .count,
    .tick (6 * second), secondDeath (6 * second),
    .tick (7 * second), .readClock, .insert,
    .tick (20 * second), .check, .readClock, .count, .finish]

def earlyClockRun : @CycleRun netUrl .mysql second :=
  Run.ofActs cycleStart earlyClock cycleStart_initial (by decide +kernel)

def lateClockRun : @CycleRun netUrl .mysql second :=
  Run.ofActs cycleStart lateClock cycleStart_initial (by decide +kernel)

end Sample

open Sample

theorem exec_cycleActions_first : ∃ s',
    exec (@CycleSys.step netUrl .mysql second) cycleStart
      (cycleStart.cycleActions second cycle.order) = some s' ∧ s'.phase = .idle := by
  obtain ⟨s', hs', hphase, -⟩ := @exec_cycleActions netUrl .mysql second
    cycleStart rfl (by decide +kernel) cycle.order
  exact ⟨s', hs', hphase⟩

theorem deaths_added_once_first_cycle :
    (earlyClockRun.state 6).lastDead ≠ [] ∧
    ∀ row ∈ (earlyClockRun.state 6).lastDead,
      (earlyClockRun.state 6).added.count row = 1 := by
  refine ⟨by decide +kernel, ?_⟩
  exact (@deaths_added_once_iff netUrl _ _ earlyClockRun 6 (by decide)
    (by decide +kernel)).2.2.2 fun _ _ => isChain_singleton _

/-- A death between the clock reading and the count is added twice, one between the count and the
clock reading of a bootstrap is never added. -/
theorem death_added_twice_or_never :
    ((earlyClockRun.state 20).phase = .idle ∧
      ∃ row ∈ (earlyClockRun.state 20).lastDead,
        (earlyClockRun.state 20).added.count row = 2) ∧
    (lateClockRun.state 14).phase = .idle ∧
      ∃ row ∈ (lateClockRun.state 14).lastDead,
        (lateClockRun.state 14).added.count row = 0 := by
  decide +kernel

end WebhookBroker
