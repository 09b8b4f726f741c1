import WebhookBroker.Broker.DrainOrder
import WebhookBroker.Lib.RoundRobin

/-!
# Draining the consumers in turn (`parking/drainer.go`)

`drainRoundRobin` moves one page per consumer and round until every consumer is drained, the run is
stopped, the hand-off is saturated or the lock is lost. A step of `DrainLoop` is a round of its
inner loop, or the end of a round of the outer one; what the loop learns from outside the tables is
in `DrainEnv`. The hand-over of a page to `handoff.Submit` is left out: its answer is only logged.

While nothing fails and the consumers are not paused, the loop is a `Lib.RoundRobin` over the parked
jobs (`DrainLoop.Ready.toRoundRobin_run`).
-/

namespace WebhookBroker

open Lib List Function

/-- What a round of the inner loop learns from outside the tables. -/
structure DrainEnv where
  stopping : Bool
  saturated : Bool
  /-- `ConsumerRepo.GetByID` -/
  getByID : String → Except StorageErr Consumer
  now : Time
  /-- `DrainPage` fails before its commit -/
  drainErr : Bool
  /-- `DrainPage` cannot load what belongs to the jobs of the page -/
  populateErr : Bool
  renewLock : Bool

/-- Nothing fails, and nobody asks the loop to stop. -/
structure DrainEnv.Quiet (env : DrainEnv) : Prop where
  stopping : env.stopping = false
  saturated : env.saturated = false
  getByID : ∀ c, ∃ consumer, env.getByID c = .ok consumer
  drainErr : env.drainErr = false
  populateErr : env.populateErr = false

structure DrainLoop where
  db : Db
  /-- the consumers of `active` that the inner loop has not reached yet -/
  active : List String
  remaining : List String
  /-- the number of pages with jobs that were moved, by consumer -/
  pages : String → Nat
  /-- how the calls of `RenewLock` ended -/
  renewals : List Bool
  result : Option Bool

namespace DrainLoop

def start (consumerIDs : List String) (db : Db) : DrainLoop where
  db
  active := consumerIDs
  remaining := []
  pages _ := 0
  renewals := []
  result := none

/-- A round of the inner loop, with the consumers after this one. -/
def drain (pageSize : Int) (lease : Duration) (env : DrainEnv) (consumerID : String)
    (active : List String) (s : DrainLoop) : DrainLoop :=
  if env.stopping || env.saturated then { s with result := some true }
  else
    match env.getByID consumerID with
    | .error _ => { s with active }
    | .ok consumer =>
      let earliestNextAttemptAt :=
        if consumer.type = .push then env.now + lease else env.now
      if env.drainErr then { s with active }
      else
        match drainPage env.now consumerID pageSize earliestNextAttemptAt s.db with
        | (.error _, db) => { s with db, active }
        | (.ok jobs, db) =>
          if env.populateErr then { s with db, active }
          else if jobs.isEmpty then { s with db, active }
          else
            let s := { s with
              db
              active
              pages := update s.pages consumerID (s.pages consumerID + 1)
              renewals := s.renewals ++ [env.renewLock] }
            if env.renewLock then { s with remaining := s.remaining ++ [consumerID] }
            else { s with result := some false }

/-- A round of the inner loop, or the end of a round of the outer one. -/
def step (pageSize : Int) (lease : Duration) (env : DrainEnv) (s : DrainLoop) : DrainLoop :=
  match s.result with
  | some _ => s
  | none =>
    match s.active with
    | [] =>
      if s.remaining.isEmpty then { s with result := some true }
      else { s with active := s.remaining, remaining := [] }
    | consumerID :: active => s.drain pageSize lease env consumerID active

def run (pageSize : Int) (lease : Duration) (env : Nat → DrainEnv) (s : DrainLoop) :
    Nat → DrainLoop
  | 0 => s
  | n + 1 => (s.run pageSize lease env n).step pageSize lease (env n)

/-- The loop as a server of the consumers: the backlog of a consumer is its parked jobs. -/
def toRoundRobin (s : DrainLoop) : RoundRobin String where
  waiting := s.active
  served := s.remaining
  backlog consumerID := (s.db.parkedOf consumerID).length
  turns := s.pages
  answers := s.renewals
  result := s.result

end DrainLoop

section
variable {db : Db} {c : String}

theorem parkedOf_afterPage_of_ne {page : List ParkedJobRow} {jobs : List JobRow} {d : String}
    (hseq : (db.jobParking.map (·.seq)).Nodup) (hpage : ∀ p ∈ page, p ∈ db.parkedOf c)
    (hd : d ≠ c) : (db.afterPage page jobs).parkedOf d = db.parkedOf d := by
  have hfilter : (db.afterPage page jobs).parkedOf d =
      deleteWhere (fun p => (page.map (·.seq)).contains p.seq) (db.parkedOf d) :=
    filter_comm _ _ _
  rw [hfilter]
  refine filter_eq_self.2 fun p hp => ?_
  rw [Bool.not_eq_true', Bool.eq_false_iff, ne_eq, contains_iff_mem]
  rintro hmem
  obtain ⟨q, hq, heq⟩ := mem_map.1 hmem
  obtain ⟨hqmem, hqc⟩ := mem_filter.1 (hpage q hq)
  obtain ⟨hpmem, hpd⟩ := mem_filter.1 hp
  obtain rfl := inj_on_of_nodup_map hseq hqmem hpmem heq
  exact hd ((beq_iff_eq.1 hpd).symm.trans (beq_iff_eq.1 hqc))

theorem Db.JobTables.afterPage (h : db.JobTables) {page : List ParkedJobRow}
    (hmem : ∀ p ∈ page, p ∈ db.jobParking) (hnodup : page.Nodup) (now earliest : Time) :
    (db.afterPage page (page.map (·.drain now earliest))).JobTables := by
  have hstored : (db.afterPage page (page.map (·.drain now earliest))).stored.Perm db.stored :=
    stored_drain (filter_seq_perm h.seqs hmem hnodup) fun _ => rfl
  exact ⟨(hstored.map _).nodup_iff.2 h.ids, (hstored.map _).nodup_iff.2 h.pairs,
    h.seqs.sublist (filter_sublist.map _),
    fun r hr => h.references r (hstored.mem_iff.1 hr)⟩

/-- A page of a consumer that is not paused takes up to `pageSize` of its parked jobs, and leaves
all others where they are. -/
theorem Db.JobTables.drainPage_spec (h : db.JobTables) (hpaused : db.effectivelyPaused c = false)
    {pageSize : Int} (hsize : 0 < pageSize) (now earliest : Time) :
    ∃ jobs db', drainPage now c pageSize earliest db = (.ok jobs, db') ∧
      (jobs = [] ↔ (db.parkedOf c).length = 0) ∧ db'.JobTables ∧
      db'.dispatchPause = db.dispatchPause ∧
      (fun d => (db'.parkedOf d).length) = update (fun d => (db.parkedOf d).length) c
        ((db.parkedOf c).length - pageSize.toNat) := by
  have hperm := perm_insertionSort drainOrder (db.parkedOf c)
  have hpage : drainPageQuery db c pageSize.toNat =
      ((db.parkedOf c).insertionSort drainOrder).take pageSize.toNat := by
    rw [drainPageQuery, hpaused]
    simp only [Bool.not_false, Bool.and_true, Db.parkedOf]
  have hlength : (drainPageQuery db c pageSize.toNat).length =
      min pageSize.toNat (db.parkedOf c).length := by
    rw [hpage, length_take, hperm.length_eq]
  by_cases hnil : drainPageQuery db c pageSize.toNat = []
  · rw [hnil, length_nil] at hlength
    have hzero : (db.parkedOf c).length = 0 := by omega
    refine ⟨[], db, drainPage_of_nil hnil, by simp [hzero], h, rfl, ?_⟩
    rw [hzero, Nat.zero_sub, ← hzero, update_eq_self]
  · obtain ⟨hmem, hnodup⟩ := drainPageQuery_mem_nodup h.seqs c pageSize.toNat
    have hpos : (drainPageQuery db c pageSize.toNat).length ≠ 0 :=
      fun h0 => hnil (length_eq_zero_iff.1 h0)
    refine ⟨_, _, h.drainPage_ok now c pageSize earliest hnil, ?_, h.afterPage hmem hnodup ..,
      rfl, funext fun d => ?_⟩
    · rw [map_eq_nil_iff]
      exact iff_of_false hnil fun h0 => hpos (by omega)
    · change ((db.afterPage (drainPageQuery db c pageSize.toNat) _).parkedOf d).length = _
      by_cases hdc : d = c
      · subst hdc
        rw [update_self, ← hperm.length_eq, ← length_drop]
        refine (List.Perm.length_eq (parkedOf_afterPage h.seqs ?_)).symm
        rwa [hpage, take_append_drop]
      · rw [update_of_ne hdc, parkedOf_afterPage_of_ne h.seqs (fun p hp => ?_) hdc]
        rw [hpage] at hp
        exact hperm.mem_iff.1 (mem_of_mem_take hp)

end

/-! ## The loop serves its consumers in turn -/

namespace DrainLoop

/-- The tables are as the schema asks, and the consumers to be drained are not paused. -/
structure Ready (s : DrainLoop) : Prop where
  tables : s.db.JobTables
  notPaused : ∀ c ∈ s.active ++ s.remaining, s.db.effectivelyPaused c = false

section
variable {s : DrainLoop} {pageSize : Int} {env : DrainEnv}

theorem Ready.drain_spec (h : s.Ready) (henv : env.Quiet) (hsize : 0 < pageSize)
    (lease : Duration) {c : String} {cs : List String} (hactive : s.active = c :: cs) :
    (s.drain pageSize lease env c cs).toRoundRobin =
      s.toRoundRobin.serve pageSize.toNat env.renewLock c cs ∧
    (s.drain pageSize lease env c cs).Ready := by
  obtain ⟨htables, hpaused⟩ := h
  rw [hactive, cons_append] at hpaused
  obtain ⟨consumer, hconsumer⟩ := henv.getByID c
  obtain ⟨jobs, db', hpage, hjobs, htables', hpauses, hbacklog⟩ :=
    htables.drainPage_spec (hpaused c mem_cons_self) hsize env.now
      (if consumer.type = .push then env.now + lease else env.now)
  have hpaused' : ∀ d ∈ c :: (cs ++ s.remaining), db'.effectivelyPaused d = false := by
    intro d hd
    rw [Db.effectivelyPaused, hpauses]
    exact hpaused d hd
  simp only [drain, henv.stopping, henv.saturated, henv.drainErr, henv.populateErr, hconsumer,
    hpage, Bool.or_false, Bool.false_eq_true, if_false, List.isEmpty_iff, RoundRobin.serve]
  rw [show s.toRoundRobin.backlog c = (s.db.parkedOf c).length from rfl]
  by_cases hzero : (s.db.parkedOf c).length = 0
  · have hsame : (fun d => (db'.parkedOf d).length) = fun d => (s.db.parkedOf d).length := by
      rw [hbacklog, hzero, Nat.zero_sub, ← hzero, update_eq_self]
    rw [if_pos (hjobs.2 hzero), if_pos hzero]
    exact ⟨by simp only [toRoundRobin, hsame], htables',
      fun d hd => hpaused' d (mem_cons_of_mem _ hd)⟩
  · rw [if_neg fun hnil => hzero (hjobs.1 hnil), if_neg hzero]
    cases env.renewLock with
    | false =>
      exact ⟨by simp [toRoundRobin, RoundRobin.take, hbacklog], htables',
        fun d hd => hpaused' d (mem_cons_of_mem _ hd)⟩
    | true =>
      refine ⟨by simp [toRoundRobin, RoundRobin.take, hbacklog], htables', fun d hd => ?_⟩
      refine hpaused' d ?_
      simp only [if_true, mem_append, mem_cons, not_mem_nil, or_false] at hd ⊢
      tauto

theorem Ready.step_spec (h : s.Ready) (henv : env.Quiet) (hsize : 0 < pageSize)
    (lease : Duration) :
    (s.step pageSize lease env).toRoundRobin =
      s.toRoundRobin.step pageSize.toNat env.renewLock ∧ (s.step pageSize lease env).Ready := by
  have hresult' : s.toRoundRobin.result = s.result := rfl
  have hactive' : s.toRoundRobin.waiting = s.active := rfl
  unfold DrainLoop.step RoundRobin.step
  rw [hresult', hactive']
  cases hresult : s.result with
  | some b => exact ⟨rfl, h⟩
  | none =>
    cases hactive : s.active with
    | nil =>
      simp only [RoundRobin.endRound, show s.toRoundRobin.served = s.remaining from rfl]
      split
      · exact ⟨by simp only [toRoundRobin, hactive], h.tables, by simpa [hactive] using h.notPaused⟩
      · refine ⟨by simp only [toRoundRobin, hresult], h.tables, fun c hc => h.notPaused c ?_⟩
        rwa [hactive, nil_append, ← append_nil s.remaining]
    | cons c cs => exact h.drain_spec henv hsize lease hactive

end

section
variable {s : DrainLoop} {pageSize : Int} {lease : Duration} {env : Nat → DrainEnv}

theorem Ready.toRoundRobin_run (h : s.Ready) (henv : ∀ n, (env n).Quiet) (hsize : 0 < pageSize)
    (lease : Duration) (n : Nat) :
    (s.run pageSize lease env n).toRoundRobin =
      s.toRoundRobin.run pageSize.toNat (fun n => (env n).renewLock) n := by
  have hrun : (s.run pageSize lease env n).toRoundRobin =
      s.toRoundRobin.run pageSize.toNat (fun n => (env n).renewLock) n ∧
      (s.run pageSize lease env n).Ready := by
    induction n with
    | zero => exact ⟨rfl, h⟩
    | succ n ih =>
      obtain ⟨heq, hready⟩ := ih
      obtain ⟨hstep, hready'⟩ := hready.step_spec (henv n) hsize lease
      exact ⟨by rw [run, hstep, heq, RoundRobin.run], hready'⟩
  exact hrun.1

theorem run_of_result {n : Nat} {b : Bool} (hresult : (s.run pageSize lease env n).result = some b)
    {m : Nat} (hm : n ≤ m) : s.run pageSize lease env m = s.run pageSize lease env n := by
  induction hm with
  | refl => rfl
  | @step m _ ih => rw [run, ih, step, hresult]

end

end DrainLoop

/-- While nothing fails but the renewal of the lock, `drainRoundRobin` on consumers that are not
paused comes to an end and never moves two pages more for one consumer than for another with parked
jobs; it returns `true` with nothing left if the lock is held, and `false` at once if it is lost. -/
theorem drainRoundRobin_fair (consumerIDs : List String) (hnodup : consumerIDs.Nodup) (db : Db)
    (htables : db.JobTables) (hpaused : ∀ c ∈ consumerIDs, db.effectivelyPaused c = false)
    (pageSize : Int) (hsize : 0 < pageSize) (lease : Duration) (env : Nat → DrainEnv)
    (henv : ∀ n, (env n).Quiet) :
    (∃ n, ((DrainLoop.start consumerIDs db).run pageSize lease env n).result ≠ none) ∧
    ∀ n s, (DrainLoop.start consumerIDs db).run pageSize lease env n = s →
      (∀ c ∈ consumerIDs, ∀ d ∈ consumerIDs, s.db.parkedOf c ≠ [] → s.db.parkedOf d ≠ [] →
        s.pages c ≤ s.pages d + 1) ∧
      (s.result ≠ none → (∀ renewed ∈ s.renewals, renewed = true) →
        s.result = some true ∧ ∀ c ∈ consumerIDs, s.db.parkedOf c = []) ∧
      (false ∈ s.renewals → s.result = some false ∧
        ∀ m, n ≤ m → (DrainLoop.start consumerIDs db).run pageSize lease env m = s) := by
  have hready : (DrainLoop.start consumerIDs db).Ready :=
    ⟨htables, by simpa [DrainLoop.start] using hpaused⟩
  have hinv : (DrainLoop.start consumerIDs db).toRoundRobin.Inv consumerIDs :=
    RoundRobin.Inv.start hnodup _
  have hrun := hready.toRoundRobin_run henv hsize lease
  have hpos : 0 < pageSize.toNat := by omega
  constructor
  · obtain ⟨n, hn⟩ := hinv.exists_result hpos fun n => (env n).renewLock
    rw [← hrun n] at hn
    exact ⟨n, hn⟩
  · rintro n s rfl
    have hn := hinv.run pageSize.toNat (fun n => (env n).renewLock) n
    rw [← hrun n] at hn
    refine ⟨fun c hc d hd hcs hds => ?_, fun hdone hall => ?_, fun hlost => ?_⟩
    · obtain ⟨k, hk⟩ := hn.fair
      have hkc := hk c hc (length_pos_iff.2 hcs)
      have hkd := hk d hd (length_pos_iff.2 hds)
      simp only [DrainLoop.toRoundRobin] at hkc hkd
      omega
    · have htrue : ((DrainLoop.start consumerIDs db).run pageSize lease env n).result =
          some true := by
        obtain ⟨b, hb⟩ := Option.ne_none_iff_exists'.1 hdone
        cases b with
        | true => exact hb
        | false => exact absurd (hall false (hn.stopped.1 hb)) (by decide)
      exact ⟨htrue, fun c hc => length_eq_zero_iff.1 (hn.done htrue c hc)⟩
    · have hfalse := hn.stopped.2 hlost
      exact ⟨hfalse, fun m hm => DrainLoop.run_of_result hfalse hm⟩

namespace Sample

/-- Two consumers, one with two parked jobs and one with one. -/
def parkedForBoth : Db :=
  { db .push with
    consumer := [⟨consumerXid, "d", "d", "t", "u", "c", .push, 1, 1⟩,
      ⟨channelXid, "e", "e", "t", "u", "c", .push, 1, 1⟩]
    message := [⟨messageXid, "m", "x", "y", 0, .dispatched, "c", "p", 1, 1, 1, 1, []⟩,
      ⟨producerXid, "n", "x", "y", 0, .dispatched, "c", "p", 1, 1, 1, 1, []⟩]
    jobParking := [⟨1, messageXid, messageXid, consumerXid, 1, 0, 1, 0, 0, 1, 1⟩,
      ⟨2, producerXid, producerXid, consumerXid, 1, 0, 1, 0, 0, 1, 1⟩,
      ⟨3, channelXid, messageXid, channelXid, 1, 0, 1, 0, 0, 1, 1⟩]
    nextSeq := 4 }

def drainEnv : DrainEnv where
  stopping := false
  saturated := false
  getByID _ := .ok (consumer .push)
  now := 9
  drainErr := false
  populateErr := false
  renewLock := true

def drainedBoth : DrainLoop :=
  (DrainLoop.start [consumerXid.string, channelXid.string] parkedForBoth).run 1 60
    (fun _ => drainEnv) 8

end Sample

open Sample

theorem drainRoundRobin_fair_drained :
    (∀ c ∈ [consumerXid.string, channelXid.string],
      parkedForBoth.parkedOf c ≠ []) ∧
    drainedBoth.result = some true ∧
    ∀ c ∈ [consumerXid.string, channelXid.string],
      drainedBoth.db.parkedOf c = [] := by
  have hrun : drainedBoth.result ≠ none ∧
      ∀ renewed ∈ drainedBoth.renewals, renewed = true := by
    decide +kernel
  have htables : parkedForBoth.JobTables :=
    ⟨by decide +kernel, by decide +kernel, by decide +kernel, by decide +kernel⟩
  obtain ⟨-, hstates⟩ := drainRoundRobin_fair [consumerXid.string, channelXid.string]
    (by decide +kernel) parkedForBoth htables (by decide +kernel) 1 (by decide) 60
    (fun _ => drainEnv) fun _ => ⟨rfl, rfl, fun _ => ⟨_, rfl⟩, rfl, rfl⟩
  exact ⟨by decide +kernel, (hstates 8 _ rfl).2.1 hrun.1 hrun.2⟩

end WebhookBroker
