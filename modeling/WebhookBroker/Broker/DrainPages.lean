import WebhookBroker.Broker.DrainOrder

/-!
# Concurrent calls of `DrainPage` (`storage/jobparkingrepo.go`)

Any number of nodes may drain the same consumer at once. `DrainSys.step` interleaves the calls
statement by statement: the start of the transaction, which fixes what its `SELECT` sees, the
`SELECT`, the `DELETE`, the `INSERT` and the commit. Every other operation of the broker on jobs
runs in between, so that a job of a page may have been drained by another call, worked on and parked
again.

A `DELETE` works on the committed rows, locks the ones it removes until its transaction ends, and
waits for a call that has locked one of them. The commit applies the two writes as they are and
checks nothing again: that it does no harm rests on the row locks, on the count that the `DELETE`
insists on, and on sequence numbers that are never used twice (`DrainSys.Inv`).
-/

namespace WebhookBroker

open Lib List

structure DrainArgs extends DrainCall where
  consumerInternalID : String

def DrainArgs.jobs (args : DrainArgs) (rows : List ParkedJobRow) : List JobRow :=
  rows.map (·.drain args.now args.earliestNextAttemptAt)

/-- Where a call of `DrainPage` is, with the rows of its page. -/
inductive DrainTx where
  /-- before the `SELECT`, which sees the given database -/
  | begun (args : DrainArgs) (snapshot : Db)
  /-- before the `DELETE` -/
  | selected (args : DrainArgs) (rows : List ParkedJobRow)
  /-- before the `INSERT` -/
  | deleted (args : DrainArgs) (rows : List ParkedJobRow)
  /-- before the commit -/
  | inserted (args : DrainArgs) (rows : List ParkedJobRow)
  | committed (rows : List ParkedJobRow)
  | rolledBack (rows : List ParkedJobRow)

def DrainTx.locked : DrainTx → List ParkedJobRow
  | .deleted _ rows | .inserted _ rows => rows
  | _ => []

/-- The committed database and the calls, in the order in which they were made. -/
structure DrainSys where
  db : Db
  calls : List DrainTx

/-- What happens in a step; the number is that of the call. -/
inductive DrainAction where
  | call (args : DrainArgs)
  /-- the next statement of the transaction, or its commit -/
  | exec (t : Nat) (fault : Bool)
  /-- another operation on jobs -/
  | op (op : DbOp)

instance : Inhabited DrainAction := ⟨.op default⟩

def DrainSys.setCall (s : DrainSys) (t : Nat) (c : DrainTx) : DrainSys :=
  { s with calls := s.calls.set t c }

/-- Another call has locked one of the rows. -/
def DrainSys.waits (s : DrainSys) (t : Nat) (rows : List ParkedJobRow) : Prop :=
  ∃ u < s.calls.length, u ≠ t ∧
    (s.calls[u]?.any fun c => c.locked.any fun q => (rows.map (·.seq)).contains q.seq) = true

instance (s : DrainSys) (t : Nat) (rows : List ParkedJobRow) : Decidable (s.waits t rows) :=
  inferInstanceAs (Decidable (∃ u < s.calls.length, _))

def DbOp.isDrain : DbOp → Bool
  | .drainPage .. => true
  | _ => false

section
variable [NetUrl]

/-- The next statement of a call; the result is where the call is then and the committed database.
-/
def DrainSys.exec (s : DrainSys) (t : Nat) (fault : Bool) : DrainTx → Option (DrainTx × Db)
  | .begun args snapshot =>
    if fault then some (.rolledBack [], s.db)
    else
      match drainPageQuery snapshot args.consumerInternalID args.pageSize.toNat with
      | [] => some (.committed [], s.db)
      | row :: rows => some (.selected args (row :: rows), s.db)
  | .selected args rows =>
    if fault then some (.rolledBack rows, s.db)
    else if s.waits t rows then none
    else
      match inTransactionExec (deleteParkedJob fun p => (rows.map (·.seq)).contains p.seq)
          rows.length s.db with
      | .ok _ => some (.deleted args rows, s.db)
      | .error _ => some (.rolledBack rows, s.db)
  | .deleted args rows =>
    if fault then some (.rolledBack rows, s.db)
    else
      match inTransactionExec (insertJob (args.jobs rows)) rows.length (s.db.afterPage rows []) with
      | .ok _ => some (.inserted args rows, s.db)
      | .error _ => some (.rolledBack rows, s.db)
  | .inserted args rows =>
    if fault then some (.rolledBack rows, s.db)
    else some (.committed rows, s.db.afterPage rows (args.jobs rows))
  | .committed _ | .rolledBack _ => none

def DrainSys.step (s : DrainSys) : DrainAction → Option DrainSys
  | .call args =>
    -- a page size that is not positive returns before the transaction
    some { s with calls := s.calls ++
      [if args.pageSize ≤ 0 then .committed [] else .begun args s.db] }
  | .exec t fault =>
    match s.calls[t]? with
    | some c => (s.exec t fault c).map fun (c, db) => { s.setCall t c with db }
    | none => none
  | .op op =>
    if op.isDrain then none
    else (DbOp.step s.db op).map fun db => { s with db }

def DrainSys.isInitial (s : DrainSys) : Prop := s.db.Integrity ∧ s.calls = []

abbrev DrainRun := Run DrainSys.isInitial DrainSys.step

end

/-- The call that the step commits, with its arguments and its page. -/
def DrainSys.commits (s : DrainSys) : DrainAction → Option (Nat × DrainArgs × List ParkedJobRow)
  | .exec t false =>
    match s.calls[t]? with
    | some (.inserted args rows) => some (t, args, rows)
    | _ => none
  | _ => none

section
variable [NetUrl] {s s' : DrainSys} {a : DrainAction}

inductive DrainGoes (s : DrainSys) : DrainAction → DrainSys → Prop
  | called {args c} (hc : c = .committed [] ∨ c = .begun args s.db) :
      DrainGoes s (.call args) { s with calls := s.calls ++ [c] }
  | failed {t fault c rows} (hc : s.calls[t]? = some c)
      (hcommits : s.commits (.exec t fault) = none) :
      DrainGoes s (.exec t fault) (s.setCall t (.rolledBack rows))
  | found {t args snapshot rows} (hc : s.calls[t]? = some (.begun args snapshot))
      (hrows : rows = drainPageQuery snapshot args.consumerInternalID args.pageSize.toNat) :
      DrainGoes s (.exec t false) (s.setCall t (.selected args rows))
  | nothing {t args snapshot} (hc : s.calls[t]? = some (.begun args snapshot)) :
      DrainGoes s (.exec t false) (s.setCall t (.committed []))
  | deleted {t args rows} (hc : s.calls[t]? = some (.selected args rows))
      (hwaits : ¬ s.waits t rows)
      (hcount : s.db.jobParking.countP (fun p => (rows.map (·.seq)).contains p.seq) =
        rows.length) :
      DrainGoes s (.exec t false) (s.setCall t (.deleted args rows))
  | inserted {t args rows} (hc : s.calls[t]? = some (.deleted args rows)) :
      DrainGoes s (.exec t false) (s.setCall t (.inserted args rows))
  | committed {t args rows} (hc : s.calls[t]? = some (.inserted args rows)) :
      DrainGoes s (.exec t false) { s.setCall t (.committed rows) with
        db := s.db.afterPage rows (args.jobs rows) }
  | other {op db} (hop : op.isDrain = false) (he : DbEffect s.db op db) :
      DrainGoes s (.op op) { s with db }

omit [NetUrl] in
theorem delete_page_eq_ok {db : Db} {rows : List ParkedJobRow} {r : Unit × Db}
    (h : inTransactionExec (deleteParkedJob fun p => (rows.map (·.seq)).contains p.seq)
      rows.length db = .ok r) :
    db.jobParking.countP (fun p => (rows.map (·.seq)).contains p.seq) = rows.length := by
  obtain ⟨deleted, hq, hdeleted⟩ := inTransactionExec_eq_ok.1 h
  simp only [deleteParkedJob, Except.ok.injEq, Prod.mk.injEq] at hq
  cases rows with
  | nil => exact countP_eq_zero.2 fun p _ => Bool.false_ne_true
  | cons row rows => exact hq.1.trans (hdeleted (Nat.succ_pos _))

omit [NetUrl] in
theorem DrainSys.commits_eq_none {t : Nat} {c : DrainTx} (hc : s.calls[t]? = some c)
    (hne : ∀ args rows, c ≠ .inserted args rows) (fault : Bool) :
    s.commits (.exec t fault) = none := by
  cases fault with
  | true => rfl
  | false =>
    rw [DrainSys.commits, hc]
    split
    · rename_i args rows heq
      exact absurd (Option.some.inj heq) (hne args rows)
    · rfl

theorem DrainSys.exec_goes {t : Nat} {fault : Bool} {c c' : DrainTx} {db : Db}
    (hc : s.calls[t]? = some c) (h : s.exec t fault c = some (c', db)) :
    DrainGoes s (.exec t fault) { s.setCall t c' with db } := by
  cases c with
  | begun args snapshot =>
    have hcommits := DrainSys.commits_eq_none hc nofun
    rw [DrainSys.exec] at h
    split at h
    · cases h
      exact .failed hc (hcommits fault)
    · rename_i hfault
      obtain rfl := Bool.eq_false_of_not_eq_true hfault
      split at h
      · cases h
        exact .nothing hc
      · rename_i row rows hrows
        cases h
        exact .found hc hrows.symm
  | selected args rows =>
    have hcommits := DrainSys.commits_eq_none hc nofun
    rw [DrainSys.exec] at h
    split at h
    · cases h
      exact .failed hc (hcommits fault)
    · rename_i hfault
      obtain rfl := Bool.eq_false_of_not_eq_true hfault
      rw [Option.ite_none_left_eq_some] at h
      obtain ⟨hwaits, h⟩ := h
      split at h
      · rename_i hok
        cases h
        exact .deleted hc hwaits (delete_page_eq_ok hok)
      · cases h
        exact .failed hc (hcommits false)
  | deleted args rows =>
    have hcommits := DrainSys.commits_eq_none hc nofun
    rw [DrainSys.exec] at h
    split at h
    · cases h
      exact .failed hc (hcommits fault)
    · rename_i hfault
      obtain rfl := Bool.eq_false_of_not_eq_true hfault
      split at h
      · cases h
        exact .inserted hc
      · cases h
        exact .failed hc (hcommits false)
  | inserted args rows =>
    rw [DrainSys.exec] at h
    split at h
    · rename_i hfault
      cases h
      exact .failed hc (by rw [hfault]; rfl)
    · rename_i hfault
      obtain rfl := Bool.eq_false_of_not_eq_true hfault
      cases h
      exact .committed hc
  | committed | rolledBack => cases h

theorem DrainSys.step_goes (h : DrainSys.step s a = some s') : DrainGoes s a s' := by
  cases a with
  | call args =>
    cases h
    refine .called ?_
    split
    · exact .inl rfl
    · exact .inr rfl
  | exec t fault =>
    rw [DrainSys.step] at h
    split at h
    · rename_i c hc
      obtain ⟨⟨c', db⟩, hexec, rfl⟩ := Option.map_eq_some_iff.1 h
      exact DrainSys.exec_goes hc hexec
    · cases h
  | op op =>
    rw [DrainSys.step, Option.ite_none_left_eq_some] at h
    obtain ⟨hop, h⟩ := h
    obtain ⟨db, hdb, rfl⟩ := Option.map_eq_some_iff.1 h
    exact .other (Bool.eq_false_of_not_eq_true hop) (DbOp.step_effect hdb)

/-! ## What holds between the calls -/

omit [NetUrl] in
/-- Rows that were parked once, in a database before `db`: no later row has their numbers. -/
structure Db.Knew (db : Db) (rows : List ParkedJobRow) : Prop where
  seqs : (rows.map (·.seq)).Nodup
  lt : ∀ p ∈ rows, p.seq < db.nextSeq
  same : ∀ p ∈ rows, ∀ q ∈ db.jobParking, q.seq = p.seq → q = p

/-- Parked rows are only removed, or added with new numbers. -/
structure ParkingStep (db db' : Db) : Prop where
  nextSeq_le : db.nextSeq ≤ db'.nextSeq
  new : ∀ q ∈ db'.jobParking, q ∈ db.jobParking ∨ db.nextSeq ≤ q.seq

/-- What the position of a call says about the committed database. -/
def DrainTx.Ok (db : Db) : DrainTx → Prop
  | .begun _ snapshot => db.Knew snapshot.jobParking
  | .selected _ rows => db.Knew rows
  | .deleted _ rows | .inserted _ rows => db.Knew rows ∧ ∀ p ∈ rows, p ∈ db.jobParking
  | .committed _ | .rolledBack _ => True

structure DrainSys.Inv (s : DrainSys) : Prop where
  integrity : s.db.Integrity
  calls : ∀ (t : Nat) (c : DrainTx), s.calls[t]? = some c → c.Ok s.db
  /-- no two calls have locked the same row -/
  locked : ∀ (t u : Nat) (c d : DrainTx), t ≠ u → s.calls[t]? = some c → s.calls[u]? = some d →
    ∀ p ∈ c.locked, ∀ q ∈ d.locked, p.seq ≠ q.seq

section
variable {db db' : Db} {rows : List ParkedJobRow} {c : DrainTx}

omit [NetUrl]

theorem Db.Integrity.knew (h : db.Integrity) : db.Knew db.jobParking :=
  ⟨h.seqs, h.seqs_lt, fun _ hp _ hq heq => inj_on_of_nodup_map h.seqs hq hp heq⟩

theorem Db.Knew.step (h : db.Knew rows) (hstep : ParkingStep db db') : db'.Knew rows := by
  refine ⟨h.seqs, fun p hp => (h.lt p hp).trans_le hstep.nextSeq_le, fun p hp q hq heq => ?_⟩
  rcases hstep.new q hq with hq | hge
  · exact h.same p hp q hq heq
  · exact absurd (heq ▸ h.lt p hp) (Nat.not_lt.2 hge)

theorem Db.Knew.select {snapshot : Db} (h : db.Knew snapshot.jobParking) (c : String)
    (limit : Nat) : db.Knew (drainPageQuery snapshot c limit) := by
  obtain ⟨hmem, hnodup⟩ := drainPageQuery_mem_nodup h.seqs c limit
  refine ⟨?_, fun p hp => h.lt p (hmem p hp), fun p hp => h.same p (hmem p hp)⟩
  exact hnodup.map_on fun p hp q hq heq =>
    inj_on_of_nodup_map h.seqs (hmem p hp) (hmem q hq) heq

/-- A `DELETE` that removes as many rows as the page has finds every row of the page, unchanged. -/
theorem Db.Knew.mem_of_count (h : db.Knew rows) (hseqs : (db.jobParking.map (·.seq)).Nodup)
    (hcount : db.jobParking.countP (fun p => (rows.map (·.seq)).contains p.seq) = rows.length) :
    ∀ p ∈ rows, p ∈ db.jobParking := by
  have hsub : (db.jobParking.filter fun p => (rows.map (·.seq)).contains p.seq) ⊆ rows := by
    intro q hq
    obtain ⟨hq, hc⟩ := mem_filter.1 hq
    obtain ⟨p, hp, heq⟩ := mem_map.1 (contains_iff_mem.1 hc)
    rwa [h.same p hp q hq heq.symm]
  have hnodup : (db.jobParking.filter fun p => (rows.map (·.seq)).contains p.seq).Nodup :=
    (List.Nodup.of_map _ hseqs).filter _
  rw [countP_eq_length_filter] at hcount
  have hperm := (subperm_of_subset hnodup hsub).perm_of_length_le hcount.ge
  exact fun p hp => (mem_filter.1 (hperm.mem_iff.2 hp)).1

theorem DrainTx.Ok.step (h : c.Ok db) (hstep : ParkingStep db db')
    (hlocked : ∀ p ∈ c.locked, p ∈ db'.jobParking) : c.Ok db' := by
  cases c with
  | begun | selected => exact Db.Knew.step h hstep
  | deleted | inserted => exact ⟨h.1.step hstep, hlocked⟩
  | committed | rolledBack => trivial

theorem DrainTx.Ok.locked_mem (h : c.Ok db) : ∀ p ∈ c.locked, p ∈ db.jobParking := by
  cases c with
  | deleted | inserted => exact h.2
  | begun | selected | committed | rolledBack => exact nofun

theorem seq_ne_of_mem_afterPage {jobs : List JobRow} {p q : ParkedJobRow} (hp : p ∈ rows)
    (hq : q ∈ (db.afterPage rows jobs).jobParking) : q.seq ≠ p.seq := by
  intro heq
  have hleft := (mem_deleteWhere.1 hq).2
  rw [contains_iff_mem.2 (heq ▸ mem_map_of_mem hp)] at hleft
  cases hleft

theorem parkingStep_afterPage {jobs : List JobRow} : ParkingStep db (db.afterPage rows jobs) :=
  ⟨Nat.le_refl _, fun _ hq => .inl (mem_deleteWhere.1 hq).1⟩

theorem Db.Integrity.afterPage (h : db.Integrity) (args : DrainArgs)
    (hmem : ∀ p ∈ rows, p ∈ db.jobParking) (hseqs : (rows.map (·.seq)).Nodup) :
    (db.afterPage rows (args.jobs rows)).Integrity := by
  have hperm := filter_seq_perm h.seqs hmem (List.Nodup.of_map _ hseqs)
  exact h.transport (stored_drain hperm fun _ => rfl).subperm (fun m hm _ => hm) h.messages
    (h.seqs.sublist ((deleteWhere_sublist _ _).map _))
    fun p hp => h.seqs_lt p (mem_deleteWhere.1 hp).1

theorem le_seq_of_mem_numberFrom {n : Nat} {q : ParkedJobRow} (hq : q ∈ numberFrom n rows) :
    n ≤ q.seq := by
  have hseq := mem_map_of_mem (f := (·.seq)) hq
  rw [map_seq_numberFrom] at hseq
  exact (mem_range'_1.1 hseq).1

end

theorem DbEffect.parkingStep {db db' : Db} {op : DbOp} (he : DbEffect db op db')
    (hop : op.isDrain = false) : ParkingStep db db' ∧ db.jobParking ⊆ db'.jobParking := by
  cases he with
  | dispatched =>
    refine ⟨⟨Nat.le_add_right _ _, fun q hq => ?_⟩, subset_append_left _ _⟩
    exact (mem_append.1 hq).imp_right le_seq_of_mem_numberFrom
  | reparked =>
    refine ⟨⟨Nat.le_succ _, fun q hq => ?_⟩, subset_append_left _ _⟩
    refine (mem_append.1 hq).imp_right fun hq => ?_
    rw [mem_singleton.1 hq]
  | drained => cases hop
  | unchanged | marked | requeued | requeuedForConsumer | deleted | deletedForConsumer
  | deletedMessages | paused | resumed | locked =>
    exact ⟨⟨Nat.le_refl _, fun _ hq => .inl hq⟩, List.Subset.refl _⟩

omit [NetUrl] in
/-- The calls have locked different rows after a step of one that locks no row of another. -/
theorem DrainSys.Inv.locked_set (h : s.Inv) {t : Nat} {c : DrainTx}
    (hfree : ∀ u d, u ≠ t → s.calls[u]? = some d → ∀ p ∈ c.locked, ∀ q ∈ d.locked,
      p.seq ≠ q.seq) {u v : Nat} {d e : DrainTx} (huv : u ≠ v)
    (hd : (s.calls.set t c)[u]? = some d) (he : (s.calls.set t c)[v]? = some e) :
    ∀ p ∈ d.locked, ∀ q ∈ e.locked, p.seq ≠ q.seq := by
  rcases getElem?_set_cases hd with ⟨rfl, rfl⟩ | ⟨hu, hd'⟩
  · rcases getElem?_set_cases he with ⟨rfl, rfl⟩ | ⟨hv, he'⟩
    · exact absurd rfl huv
    · exact hfree v e hv he'
  · rcases getElem?_set_cases he with ⟨rfl, rfl⟩ | ⟨-, he'⟩
    · exact fun p hp q hq => (hfree u d hu hd' q hq p hp).symm
    · exact h.locked u v d e huv hd' he'

omit [NetUrl] in
/-- A call that moves on to a position that holds, and locks no row of another call, keeps the
invariant. -/
theorem DrainSys.Inv.setCall (h : s.Inv) {t : Nat} {c : DrainTx} (hc : c.Ok s.db)
    (hfree : ∀ u d, u ≠ t → s.calls[u]? = some d → ∀ p ∈ c.locked, ∀ q ∈ d.locked,
      p.seq ≠ q.seq) : (s.setCall t c).Inv := by
  refine ⟨h.integrity, fun u d hd => ?_, fun u v d e huv hd he => h.locked_set hfree huv hd he⟩
  rcases getElem?_set_cases hd with ⟨-, rfl⟩ | ⟨-, hd⟩
  · exact hc
  · exact h.calls u d hd

omit [NetUrl] in
theorem DrainSys.seq_ne_of_not_waits {t : Nat} {rows : List ParkedJobRow}
    (hwaits : ¬ s.waits t rows) {u : Nat} {d : DrainTx} (hu : u ≠ t)
    (hd : s.calls[u]? = some d) : ∀ p ∈ rows, ∀ q ∈ d.locked, p.seq ≠ q.seq := by
  intro p hp q hq heq
  refine hwaits ⟨u, (List.getElem?_eq_some_iff.1 hd).1, hu, ?_⟩
  rw [hd, Option.any_some, any_eq_true]
  exact ⟨q, hq, contains_iff_mem.2 (heq ▸ mem_map_of_mem hp)⟩

omit [NetUrl] in
/-- A commit removes the rows of its page and none that another call has locked. -/
theorem DrainSys.Inv.commit (h : s.Inv) {t : Nat} {args : DrainArgs} {rows : List ParkedJobRow}
    (hc : s.calls[t]? = some (.inserted args rows)) :
    ({ s.setCall t (.committed rows) with db := s.db.afterPage rows (args.jobs rows) } :
      DrainSys).Inv := by
  obtain ⟨hknew, hmem⟩ := h.calls t _ hc
  refine ⟨h.integrity.afterPage args hmem hknew.seqs, fun u d hd => ?_, ?_⟩
  · rcases getElem?_set_cases hd with ⟨-, rfl⟩ | ⟨hu, hd⟩
    · trivial
    · refine (h.calls u d hd).step parkingStep_afterPage fun q hq => ?_
      refine mem_deleteWhere.2 ⟨(h.calls u d hd).locked_mem q hq, Bool.eq_false_iff.2 fun hin => ?_⟩
      obtain ⟨p, hp, heq⟩ := mem_map.1 (contains_iff_mem.1 hin)
      exact h.locked t u _ d hu.symm hc hd p hp q hq heq
  · intro u v d e huv hd he
    exact h.locked_set (c := .committed rows)
      (fun _ _ _ _ _ hp => absurd hp not_mem_nil) huv hd he

theorem DrainGoes.inv (hg : DrainGoes s a s') (h : s.Inv) : s'.Inv := by
  cases hg with
  | @called args c hc =>
    have hok : c.Ok s.db ∧ c.locked = [] := by
      rcases hc with rfl | rfl
      · exact ⟨trivial, rfl⟩
      · exact ⟨h.integrity.knew, rfl⟩
    refine ⟨h.integrity, fun u d hd => ?_, fun u v d e huv hd he => ?_⟩
    · rcases getElem?_concat_cases hd with ⟨-, rfl⟩ | hd
      · exact hok.1
      · exact h.calls u d hd
    · rcases getElem?_concat_cases hd with ⟨-, rfl⟩ | hd
      · rw [hok.2]
        exact nofun
      · rcases getElem?_concat_cases he with ⟨-, rfl⟩ | he
        · rw [hok.2]
          exact nofun
        · exact h.locked u v d e huv hd he
  | failed => exact h.setCall trivial fun _ _ _ _ _ hp => absurd hp not_mem_nil
  | @found t args snapshot rows hc hrows =>
    refine h.setCall ?_ fun _ _ _ _ _ hp => absurd hp not_mem_nil
    rw [hrows]
    exact Db.Knew.select (h.calls t _ hc) _ _
  | nothing =>
    exact h.setCall trivial fun _ _ _ _ _ hp => absurd hp not_mem_nil
  | @deleted t args rows hc hwaits hcount =>
    have hknew : s.db.Knew rows := h.calls t _ hc
    have hmem := hknew.mem_of_count h.integrity.seqs hcount
    exact h.setCall ⟨hknew, hmem⟩ fun u d hu hd => DrainSys.seq_ne_of_not_waits hwaits hu hd
  | @inserted t args rows hc =>
    exact h.setCall (h.calls t (.deleted args rows) hc) fun u d hu hd =>
      h.locked t u (.deleted args rows) d hu.symm hc hd
  | committed hc => exact h.commit hc
  | other hop he =>
    obtain ⟨hstep, hsub⟩ := he.parkingStep hop
    refine ⟨h.integrity.effect he, fun u d hd => ?_, h.locked⟩
    exact (h.calls u d hd).step hstep fun p hp => hsub ((h.calls u d hd).locked_mem p hp)

theorem DrainRun.inv (r : DrainRun) {n : Nat} (hn : n ≤ r.len) : (r.state n).Inv := by
  refine r.invariant (fun s hs => ?_) (fun s a s' h hs => (DrainSys.step_goes hs).inv h) n hn
  obtain ⟨hi, hcalls⟩ := hs
  refine ⟨hi, fun t c hc => ?_, fun t u c d _ hc => ?_⟩
  · simp [hcalls] at hc
  · simp [hcalls] at hc

omit [NetUrl] in
theorem DrainSys.commits_eq_some {t : Nat} {args : DrainArgs} {rows : List ParkedJobRow} :
    s.commits a = some (t, args, rows) ↔
      a = .exec t false ∧ s.calls[t]? = some (.inserted args rows) := by
  constructor
  · intro h
    unfold DrainSys.commits at h
    split at h
    · split at h
      · rename_i hc
        cases h
        exact ⟨rfl, hc⟩
      · cases h
    · cases h
  · rintro ⟨rfl, hc⟩
    rw [DrainSys.commits, hc]

theorem DrainGoes.db_eq (hg : DrainGoes s a s') (hcommits : s.commits a = none)
    (hop : ∀ op, a ≠ .op op) : s'.db = s.db := by
  cases hg with
  | called | failed | found | nothing | deleted | inserted => rfl
  | committed hc =>
    rw [DrainSys.commits_eq_some.2 ⟨rfl, hc⟩] at hcommits
    cases hcommits
  | other => exact absurd rfl (hop _)

theorem DrainGoes.ends_parking (hg : DrainGoes s a s') {p : ParkedJobRow}
    (hp : p ∈ s.db.jobParking) (hp' : p ∉ s'.db.jobParking) (h : s.Inv) :
    ∃ t args rows, s.commits a = some (t, args, rows) ∧ p ∈ rows := by
  cases hg with
  | called | failed | found | nothing | deleted | inserted => exact absurd hp hp'
  | @committed t args rows hc =>
    refine ⟨t, args, rows, DrainSys.commits_eq_some.2 ⟨rfl, hc⟩, ?_⟩
    have hin : (rows.map (·.seq)).contains p.seq = true := by
      refine Bool.of_not_eq_false fun hfalse => hp' (mem_deleteWhere.2 ⟨hp, hfalse⟩)
    obtain ⟨q, hq, heq⟩ := mem_map.1 (contains_iff_mem.1 hin)
    obtain ⟨hknew, -⟩ := h.calls t (.inserted args rows) hc
    rwa [hknew.same q hq p hp heq.symm]
  | other hop he => exact absurd ((he.parkingStep hop).2 hp) hp'

/-- A commit of a page: its rows leave `job_parking`, and each becomes the one row of its job in
`job`. -/
structure DrainSys.Moves (s s' : DrainSys) (args : DrainArgs) (rows : List ParkedJobRow) :
    Prop where
  seqs : (rows.map (·.seq)).Nodup
  parked : ∀ p ∈ rows, p ∈ s.db.jobParking ∧ ∀ q ∈ s'.db.jobParking, q.seq ≠ p.seq
  inserted : s'.db.job = s.db.job ++ args.jobs rows
  once : ∀ p ∈ rows, s.db.job.filter (·.id == p.id) = [] ∧
    s'.db.job.filter (·.id == p.id) = [p.drain args.now args.earliestNextAttemptAt]

theorem DrainGoes.moves (hg : DrainGoes s a s') (h : s.Inv) {t : Nat} {args : DrainArgs}
    {rows : List ParkedJobRow} (hcommits : s.commits a = some (t, args, rows)) :
    s.Moves s' args rows := by
  obtain ⟨rfl, hc⟩ := DrainSys.commits_eq_some.1 hcommits
  have h' := hg.inv h
  cases hg with
  | failed _ hnone => cases hcommits.symm.trans hnone
  | found hc' | nothing hc' | deleted hc' | inserted hc' => cases hc.symm.trans hc'
  | committed hc' =>
    cases hc.symm.trans hc'
    obtain ⟨hknew, hmem⟩ := h.calls t (.inserted args rows) hc
    refine ⟨hknew.seqs, fun p hp => ⟨hmem p hp, fun q hq => seq_ne_of_mem_afterPage hp hq⟩, rfl,
      fun p hp => ⟨filter_eq_nil_iff.2 fun row hrow => ?_, ?_⟩⟩
    · rw [beq_iff_eq]
      exact h.integrity.disjoint hrow (hmem p hp)
    · have hrow : p.drain args.now args.earliestNextAttemptAt ∈
          (s.db.afterPage rows (args.jobs rows)).job :=
        mem_append_right _ (mem_map_of_mem hp)
      exact filter_of_rowAt h'.integrity.job_ids (fun r _ hr => beq_iff_eq.1 hr)
        ((rowAt_eq_some h'.integrity.job_ids).2 ⟨hrow, rfl⟩) (beq_self_eq_true _)

theorem DrainGoes.parkingStep (hg : DrainGoes s a s') : ParkingStep s.db s'.db := by
  cases hg with
  | called | failed | found | nothing | deleted | inserted =>
    exact ⟨Nat.le_refl _, fun _ hq => .inl hq⟩
  | committed => exact parkingStep_afterPage
  | other hop he => exact (he.parkingStep hop).1

theorem DrainRun.not_parked_again (r : DrainRun) {seq m n : Nat} (hmn : m ≤ n) (hn : n ≤ r.len)
    (hlt : seq < (r.state m).db.nextSeq) (hnot : ∀ q ∈ (r.state m).db.jobParking, q.seq ≠ seq) :
    seq < (r.state n).db.nextSeq ∧ ∀ q ∈ (r.state n).db.jobParking, q.seq ≠ seq := by
  induction n, hmn using Nat.le_induction with
  | base => exact ⟨hlt, hnot⟩
  | succ n hmn ih =>
    obtain ⟨hlt, hnot⟩ := ih (by omega)
    have hstep := (DrainSys.step_goes (r.next n (by omega))).parkingStep
    refine ⟨hlt.trans_le hstep.nextSeq_le, fun q hq => ?_⟩
    rcases hstep.new q hq with hq | hge
    · exact hnot q hq
    · exact (hlt.trans_le hge).ne'

theorem DrainRun.seq_ne_of_lt (r : DrainRun) {i j : Nat} (hij : i < j) (hj : j < r.len)
    {t u : Nat} {args args' : DrainArgs} {rows rows' : List ParkedJobRow}
    (hi : (r.state i).commits (r.act i) = some (t, args, rows))
    (hj' : (r.state j).commits (r.act j) = some (u, args', rows')) :
    ∀ p ∈ rows, ∀ q ∈ rows', p.seq ≠ q.seq := by
  intro p hp q hq heq
  have hg := DrainSys.step_goes (r.next i (by omega))
  have hmoves := hg.moves (r.inv (by omega)) hi
  have hmoves' := (DrainSys.step_goes (r.next j hj)).moves (r.inv (by omega)) hj'
  have hlt : p.seq < (r.state (i + 1)).db.nextSeq :=
    ((r.inv (by omega)).integrity.seqs_lt p (hmoves.parked p hp).1).trans_le
      hg.parkingStep.nextSeq_le
  have hnot := (r.not_parked_again hij (by omega) hlt (hmoves.parked p hp).2).2
  exact hnot q (hmoves'.parked q hq).1 heq.symm

/-- Concurrent calls of `DrainPage`, with any other operations on jobs in between. A parking ends
only by a committed page that has its row, and by at most one; a commit moves the rows of its page;
every other statement of a call leaves the database as it is. -/
theorem drain_pages_move_each_parking_once (r : DrainRun) :
    (∀ i < r.len, ∀ j < r.len, ∀ t u args args' rows rows',
      (r.state i).commits (r.act i) = some (t, args, rows) →
      (r.state j).commits (r.act j) = some (u, args', rows') →
      ∀ p ∈ rows, ∀ q ∈ rows', p.seq = q.seq → i = j) ∧
    (∀ i < r.len, ∀ p ∈ (r.state i).db.jobParking, p ∉ (r.state (i + 1)).db.jobParking →
      ∃ t args rows, (r.state i).commits (r.act i) = some (t, args, rows) ∧ p ∈ rows) ∧
    (∀ i < r.len, ∀ t args rows, (r.state i).commits (r.act i) = some (t, args, rows) →
      (r.state i).Moves (r.state (i + 1)) args rows) ∧
    ∀ i < r.len, ∀ t fault, r.act i = .exec t fault → (r.state i).commits (r.act i) = none →
      (r.state (i + 1)).db = (r.state i).db ∧
      ∀ c, (r.state i).calls[t]? = some c → ∀ p ∈ c.locked,
        p ∈ (r.state (i + 1)).db.jobParking := by
  refine ⟨?_, ?_, ?_, ?_⟩
  · intro i hi j hj t u args args' rows rows' hci hcj p hp q hq heq
    rcases Nat.lt_trichotomy i j with hij | hij | hij
    · exact absurd heq (r.seq_ne_of_lt hij hj hci hcj p hp q hq)
    · exact hij
    · exact absurd heq.symm (r.seq_ne_of_lt hij hi hcj hci q hq p hp)
  · intro i hi p hp hp'
    exact (DrainSys.step_goes (r.next i hi)).ends_parking hp hp' (r.inv (by omega))
  · intro i hi t args rows hcommits
    exact (DrainSys.step_goes (r.next i hi)).moves (r.inv (by omega)) hcommits
  · intro i hi t fault hact hcommits
    have hdb := (DrainSys.step_goes (r.next i hi)).db_eq hcommits
      fun op hop => by rw [hact] at hop; cases hop
    refine ⟨hdb, fun c hc p hp => ?_⟩
    rw [hdb]
    exact ((r.inv (by omega)).calls t c hc).locked_mem p hp

end

def Sample.parkedRow : ParkedJobRow where
  seq := 0
  id := jobXid
  messageId := messageXid
  consumerId := consumerXid
  dispatchReceivedAt := 1
  retryAttemptCount := 0
  earliestNextAttemptAt := 1
  priority := 0
  incrementalTimeout := 0
  createdAt := 1
  parkedAt := 1

/-- The small broker with its message dispatched and its job parked. -/
def Sample.parkedDb : Db :=
  { db .push with
    message := [⟨messageXid, "m", "x", "y", 0, .dispatched, "c", "p", 1, 1, 1, 1, []⟩]
    jobParking := [parkedRow]
    nextSeq := 1 }

theorem Sample.parkedDb_integrity : parkedDb.Integrity where
  ids := nodup_singleton _
  pairs := nodup_singleton _
  dispatched r hr := by
    obtain rfl := mem_singleton.1 (show r ∈ [parkedRow.ref] from hr)
    exact ⟨_, mem_singleton.2 rfl, rfl, rfl⟩
  messages := nodup_singleton _
  seqs := nodup_singleton _
  seqs_lt p hp := by
    obtain rfl := mem_singleton.1 (show p ∈ [parkedRow] from hp)
    exact Nat.one_pos

/-- Two calls select the same page, and the first one commits before the second one deletes. -/
def Sample.drainRace : List DrainAction :=
  let args : DrainArgs := ⟨⟨second, 1, second⟩, consumerXid.string⟩
  [.call args, .call args, .exec 0 false, .exec 1 false, .exec 0 false, .exec 0 false,
   .exec 0 false, .exec 1 false]

def Sample.drainRaceRun : @DrainRun netUrl :=
  Run.ofActs ⟨parkedDb, []⟩ drainRace ⟨parkedDb_integrity, rfl⟩ (by decide +kernel)

theorem drain_pages_move_each_parking_once_race :
    let r := Sample.drainRaceRun
    (∃ args rows, (r.state 6).commits (r.act 6) = some (0, args, rows) ∧ rows ≠ [] ∧
      (r.state 6).Moves (r.state 7) args rows) ∧ (r.state 8).db = (r.state 7).db := by
  intro r
  have hlen : r.len = 8 := rfl
  have hcommit : ((r.state 6).commits (r.act 6)).any
      (fun x => x.1 == 0 && !x.2.2.isEmpty) = true := by decide +kernel
  have hfails : ((r.state 7).commits (r.act 7)).isNone = true := by decide +kernel
  have hact : r.act 7 = .exec 1 false := rfl
  obtain ⟨-, -, hmoves, hrollback⟩ := @drain_pages_move_each_parking_once Sample.netUrl r
  obtain ⟨⟨t, args, rows⟩, hsome, hx⟩ := (Option.any_eq_true _ _).1 hcommit
  rw [Bool.and_eq_true, beq_iff_eq] at hx
  obtain ⟨rfl, hne⟩ := hx
  refine ⟨⟨args, rows, hsome, fun hnil => ?_, hmoves 6 (by omega) _ _ _ hsome⟩, ?_⟩
  · subst hnil
    cases hne
  · exact (hrollback 7 (by omega) 1 false hact (Option.isNone_iff_eq_none.1 hfails)).1

end WebhookBroker
