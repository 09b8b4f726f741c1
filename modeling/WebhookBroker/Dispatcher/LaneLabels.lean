import WebhookBroker.Dispatcher.LaneRun

/-!
# Lanes and the consumers they belong to

A lane has the channel id and the consumer id of the job it was created for, and other jobs find it
by the key `channelID/consumerID`. Two consumers have the same key if and only if they clash: the
channel id of the one continues the channel id of the other with a slash and a text that its
consumer id lacks (`laneKey_eq_iff`). As long as no two of the enqueued jobs clash, the jobs of a
lane are jobs of the consumer of the lane (`LanesIsolated`); `Labelled` is the invariant for it.
-/

namespace WebhookBroker

open Lib List Function

/-- The channel id and the consumer id of a job, which are the labels of its gauges. -/
def laneLabels (job : Job) : String × String := ((laneIdentity job).1, (laneIdentity job).2.1)

/-- The key for a channel id and a consumer id. -/
def laneKey (l : String × String) : String := l.1 ++ "/" ++ l.2

def ConsumerLane.labels (lane : ConsumerLane) : String × String := (lane.channelID, lane.consumerID)

def LaneScheduler.labelsOf (s : LaneScheduler) (p : JobPtr) : String × String :=
  laneLabels (s.jobAt p)

theorem LaneScheduler.keyOf_eq (s : LaneScheduler) (p : JobPtr) :
    s.keyOf p = laneKey (s.labelsOf p) := rfl

/-- The ids differ by a text that is the end of the one channel id and the start of the other
consumer id. -/
def LabelsClash (a b : String × String) : Prop :=
  ∃ x, b.1 = a.1 ++ "/" ++ x ∧ a.2 = x ++ "/" ++ b.2

variable {a b : String × String}

theorem LabelsClash.laneKey_eq (h : LabelsClash a b) : laneKey a = laneKey b := by
  obtain ⟨x, hchannel, hconsumer⟩ := h
  rw [laneKey, laneKey, hchannel, hconsumer]
  simp only [String.append_assoc]

theorem toList_laneKey (l : String × String) :
    (laneKey l).toList = l.1.toList ++ '/' :: l.2.toList := by
  simp [laneKey]

/-- One key stands for two consumers only if they clash. -/
theorem laneKey_eq_iff : laneKey a = laneKey b ↔ a = b ∨ LabelsClash a b ∨ LabelsClash b a := by
  have hclash : ∀ {a b : String × String} {x : List Char}, b.1.toList = a.1.toList ++ x →
      '/' :: a.2.toList = x ++ '/' :: b.2.toList → a = b ∨ LabelsClash a b := by
    intro a b x hchannel hconsumer
    cases x with
    | nil =>
      rw [append_nil] at hchannel
      rw [nil_append, List.cons.injEq] at hconsumer
      exact .inl (Prod.ext (String.toList_injective hchannel.symm)
        (String.toList_injective hconsumer.2))
    | cons c x =>
      rw [cons_append, List.cons.injEq] at hconsumer
      obtain ⟨rfl, hconsumer⟩ := hconsumer
      refine .inr ⟨String.ofList x, String.toList_injective ?_, String.toList_injective ?_⟩
      · simp [hchannel]
      · simp [hconsumer]
  constructor
  · intro h
    have hlist := congrArg String.toList h
    rw [toList_laneKey, toList_laneKey, append_eq_append_iff] at hlist
    rcases hlist with ⟨x, hchannel, hconsumer⟩ | ⟨x, hchannel, hconsumer⟩
    · exact (hclash hchannel hconsumer).imp_right .inl
    · rcases hclash hchannel hconsumer with rfl | hclash
      · exact .inl rfl
      · exact .inr (.inr hclash)
  · rintro (rfl | h | h)
    · rfl
    · exact h.laneKey_eq
    · exact h.laneKey_eq.symm

def SlashFree (l : String × String) : Prop := '/' ∉ l.1.toList ∧ '/' ∉ l.2.toList

theorem SlashFree.not_clash (hb : SlashFree b) : ¬ LabelsClash a b := by
  rintro ⟨x, hchannel, -⟩
  refine hb.1 ?_
  rw [hchannel]
  simp

instance (l : String × String) : Decidable (SlashFree l) := inferInstanceAs (Decidable (_ ∧ _))

/-- The key tells the consumers of a set apart. -/
def KeysApart (U : String × String → Prop) : Prop :=
  ∀ a b, U a → U b → laneKey a = laneKey b → a = b

theorem keysApart_slashFree : KeysApart SlashFree := by
  intro a b ha hb hkey
  rcases laneKey_eq_iff.1 hkey with rfl | hclash | hclash
  · rfl
  · exact absurd hclash hb.not_clash
  · exact absurd hclash ha.not_clash

/-! ## The lanes keep their consumers -/

/-- A call that accepts no job: no lane and no tracked job is new, and the lanes keep their ids and
limits. -/
structure Narrows (s s' : LaneScheduler) : Prop where
  limitFor : s'.limitFor = s.limitFor
  jobAt : s'.jobAt = s.jobAt
  lanes : ∀ key ptr, s'.lanes.lookup key = some ptr → s.lanes.lookup key = some ptr
  labels : ∀ ptr, (s'.laneAt ptr).labels = (s.laneAt ptr).labels
  limit : ∀ ptr, (s'.laneAt ptr).limit = (s.laneAt ptr).limit
  tracked : ∀ id held, s'.tracked.lookup id = some held →
    ∃ held₀, s.tracked.lookup id = some held₀ ∧ held₀.job = held.job

section
variable {s t u : LaneScheduler} {out : List JobPtr} {ptr : LanePtr} {p : JobPtr} {key : String}

theorem Narrows.refl (s : LaneScheduler) : Narrows s s :=
  ⟨rfl, rfl, fun _ _ h => h, fun _ => rfl, fun _ => rfl, fun _ held h => ⟨held, h, rfl⟩⟩

theorem Narrows.trans (h : Narrows s t) (h' : Narrows t u) : Narrows s u where
  limitFor := h'.limitFor.trans h.limitFor
  jobAt := h'.jobAt.trans h.jobAt
  lanes key ptr hk := h.lanes key ptr (h'.lanes key ptr hk)
  labels ptr := (h'.labels ptr).trans (h.labels ptr)
  limit ptr := (h'.limit ptr).trans (h.limit ptr)
  tracked id held hheld := by
    obtain ⟨held₁, h₁, hjob₁⟩ := h'.tracked id held hheld
    obtain ⟨held₀, h₀, hjob₀⟩ := h.tracked id held₁ h₁
    exact ⟨held₀, h₀, hjob₀.trans hjob₁⟩

theorem Narrows.write {lane : ConsumerLane} (hlimitFor : t.limitFor = s.limitFor)
    (hjobAt : t.jobAt = s.jobAt) (hlanes : ∀ key q, t.lanes.lookup key = some q →
      s.lanes.lookup key = some q)
    (hlane : t.laneAt = update s.laneAt ptr lane)
    (hlabels : lane.labels = (s.laneAt ptr).labels) (hlimit : lane.limit = (s.laneAt ptr).limit)
    (htracked : ∀ id held, t.tracked.lookup id = some held →
      ∃ held₀, s.tracked.lookup id = some held₀ ∧ held₀.job = held.job) : Narrows s t := by
  refine ⟨hlimitFor, hjobAt, hlanes, fun q => ?_, fun q => ?_, htracked⟩
  · by_cases hq : q = ptr
    · rw [hlane, hq, update_self, hlabels]
    · rw [hlane, update_of_ne hq]
  · by_cases hq : q = ptr
    · rw [hlane, hq, update_self, hlimit]
    · rw [hlane, update_of_ne hq]

theorem narrows_markReadyLocked (s : LaneScheduler) (ptr : LanePtr) :
    Narrows s (s.markReadyLocked ptr) := by
  rcases markReadyLocked_cases s ptr with ⟨-, -, heq⟩ | ⟨-, heq⟩
  · rw [heq]
    exact .write rfl rfl (fun _ _ h => h) rfl rfl rfl fun _ held h => ⟨held, h, rfl⟩
  · rw [heq]
    exact .refl s

theorem dequeueFrom_eq (h : s.dequeueFrom ptr = some (p, t)) :
    ∃ queue, (s.laneAt ptr).queue.dequeue s.jobAt = some (p, queue) ∧
      t.limitFor = s.limitFor ∧ t.jobAt = s.jobAt ∧ t.lanes = s.lanes ∧
      t.laneAt = update s.laneAt ptr { s.laneAt ptr with
        queue := queue, ready := false, inflight := (s.laneAt ptr).inflight + 1 } ∧
      t.metrics = { queuedJobCount := s.metrics.queuedJobCount - 1
                    consumerQueuedJobCount := addGauge s.metrics.consumerQueuedJobCount
                      (s.laneAt ptr).channelID (s.laneAt ptr).consumerID (-1)
                    consumerInflightJobCount := addGauge s.metrics.consumerInflightJobCount
                      (s.laneAt ptr).channelID (s.laneAt ptr).consumerID 1 } ∧
      ∀ id held, t.tracked.lookup id = some held →
        ∃ held₀, s.tracked.lookup id = some held₀ ∧ held₀.job = held.job := by
  obtain ⟨⟨p', queue⟩, hpop, heq⟩ := Option.map_eq_some_iff.1 h
  cases heq
  refine ⟨queue, hpop, rfl, rfl, rfl, rfl, rfl, fun id held hheld => ?_⟩
  simp only at hheld
  split at hheld
  · rename_i held' hheld'
    by_cases hid : id = s.idOf p
    · subst hid
      rw [AList.lookup_insert, Option.some.injEq] at hheld
      exact ⟨held', hheld', by rw [← hheld]⟩
    · rw [AList.lookup_insert_ne hid] at hheld
      exact ⟨held, hheld, rfl⟩
  · exact ⟨held, hheld, rfl⟩

theorem narrows_tryNext (h : ReadyInv s) : Narrows s s.tryNext.2 := by
  have hcases := tryNext_scanned s
  rw [h.scanned] at hcases
  rcases hcases with ⟨-, heq⟩ | ⟨i, best, ptr, p, t, -, -, hdeq, heq⟩
  · rw [heq]
    exact .refl s
  · rw [heq]
    obtain ⟨queue, -, hlimitFor, hjobAt, hlanes, hlane, -, htracked⟩ := dequeueFrom_eq hdeq
    refine Narrows.trans (t := t) ?_ (narrows_markReadyLocked t ptr)
    exact .write hlimitFor hjobAt (fun _ _ hk => hlanes ▸ hk) hlane rfl rfl htracked

theorem lookup_of_erase {β : Type*} {l : AList fun _ : String => β} {k k' : String} {v : β}
    (h : (l.erase k).lookup k' = some v) : l.lookup k' = some v :=
  (lookup_erase_eq_some.1 h).2

theorem narrows_done (h : JobsInv s out) (hp : p ∈ out) : Narrows s (s.done p) := by
  obtain ⟨-, ptr, hk⟩ := h.out_held p hp
  have hpos : (s.laneAt ptr).inflight > 0 := by
    rw [(h.lanes _ _ hk).2.inflight]
    exact countP_pos_iff.2 ⟨p, hp, beq_self_eq_true _⟩
  obtain ⟨t, ht, -, -, -, hends⟩ := done_of_lookup hk
  obtain rfl := ht hpos
  have hrelease : Narrows s (s.release ptr p) :=
    .write rfl rfl (fun _ _ h => h) rfl rfl rfl fun _ held h => ⟨held, lookup_of_erase h, rfl⟩
  rcases hends with ⟨-, -, -, heq⟩ | ⟨-, heq⟩
  · rw [heq]
    exact ⟨hrelease.limitFor, hrelease.jobAt, fun key q hq => hrelease.lanes key q
      (lookup_of_erase hq), hrelease.labels, hrelease.limit, hrelease.tracked⟩
  · rw [heq]
    exact hrelease.trans (narrows_markReadyLocked _ ptr)

theorem narrows_discardJob (s : LaneScheduler) (ptr : LanePtr) (p : JobPtr)
    (queue : PriorityQueue) : Narrows s (s.discardJob ptr p queue) :=
  .write rfl rfl (fun _ _ h => h) rfl rfl rfl fun _ held h => ⟨held, lookup_of_erase h, rfl⟩

theorem narrows_discardJobs (ptr : LanePtr) (n : Nat) (s : LaneScheduler) :
    Narrows s (LaneScheduler.discardJobs ptr n s) := by
  induction n generalizing s with
  | zero => exact .refl s
  | succ n ih =>
    rw [LaneScheduler.discardJobs]
    split
    · exact .refl s
    · exact (narrows_discardJob s ptr _ _).trans (ih _)

theorem narrows_discardLane (s : LaneScheduler) (key : String) (ptr : LanePtr) :
    Narrows s (s.discardLane key ptr) := by
  have hjobs := narrows_discardJobs ptr (s.laneAt ptr).queue.length s
  simp only [LaneScheduler.discardLane]
  generalize LaneScheduler.discardJobs ptr (s.laneAt ptr).queue.length s = t at *
  have hunmark : Narrows t (t.setLane ptr { t.laneAt ptr with ready := false }) :=
    .write rfl rfl (fun _ _ h => h) rfl rfl rfl fun _ held h => ⟨held, h, rfl⟩
  have hlane := hjobs.trans hunmark
  split
  · exact ⟨hlane.limitFor, hlane.jobAt, fun key q hq => hlane.lanes key q (lookup_of_erase hq),
      hlane.labels, hlane.limit, hlane.tracked⟩
  · exact hlane

theorem narrows_discardQueued (s : LaneScheduler) : Narrows s s.discardQueued := by
  have hfold : ∀ (l : List (Sigma fun _ : String => LanePtr)) (s : LaneScheduler),
      Narrows s (l.foldl (fun s e => s.discardLane e.1 e.2) s) := by
    intro l
    induction l with
    | nil => exact Narrows.refl
    | cons e l ih => exact fun s => (narrows_discardLane s e.1 e.2).trans (ih _)
  have h := hfold s.lanes.entries s
  exact ⟨h.limitFor, h.jobAt, h.lanes, h.labels, h.limit, h.tracked⟩

/-- The lanes belong to consumers of `U`, and so do the tracked jobs. -/
structure Labelled (U : String × String → Prop) (s : LaneScheduler) : Prop where
  lanes : ∀ key ptr, s.lanes.lookup key = some ptr → U (s.laneAt ptr).labels ∧
    laneKey (s.laneAt ptr).labels = key ∧
    (s.laneAt ptr).limit = s.limitFor (s.laneAt ptr).channelID (s.laneAt ptr).consumerID
  held : ∀ id held, s.tracked.lookup id = some held → U (s.labelsOf held.job)

variable {U : String × String → Prop}

theorem labelled_newLaneScheduler (limitFor : String → String → Nat) (jobAt : JobPtr → Job)
    (metrics : Metrics) : Labelled U (newLaneScheduler limitFor jobAt metrics) :=
  ⟨fun _ _ hk => absurd hk.symm (Option.some_ne_none _),
    fun _ _ hheld => absurd hheld.symm (Option.some_ne_none _)⟩

theorem Labelled.narrows (h : Labelled U s) (hs : Narrows s t) : Labelled U t := by
  refine ⟨fun key ptr hk => ?_, fun id held hheld => ?_⟩
  · obtain ⟨hU, hkey, hlimit⟩ := h.lanes key ptr (hs.lanes key ptr hk)
    have hlabels := hs.labels ptr
    rw [hs.limit, hs.limitFor, hlabels]
    rw [ConsumerLane.labels, ConsumerLane.labels, Prod.mk.injEq] at hlabels
    rw [hlabels.1, hlabels.2]
    exact ⟨hU, hkey, hlimit⟩
  · obtain ⟨held₀, hheld₀, hjob⟩ := hs.tracked id held hheld
    rw [LaneScheduler.labelsOf, hs.jobAt, ← hjob]
    exact h.held id held₀ hheld₀

theorem Labelled.laneFor (h : Labelled U s) (hj : JobsInv s out) (hp : U (s.labelsOf p)) :
    Labelled U (s.laneFor (s.labelsOf p).1 (s.labelsOf p).2 (s.keyOf p)).2 := by
  rcases laneFor_cases s (s.labelsOf p).1 (s.labelsOf p).2 (s.keyOf p) with
    ⟨ptr, -, heq⟩ | ⟨-, heq⟩
  · rw [heq]
    exact h
  · rw [heq]
    refine ⟨fun key q hq => ?_, h.held⟩
    simp only [LaneScheduler.setLane] at hq ⊢
    by_cases hkey : key = s.keyOf p
    · subst hkey
      rw [AList.lookup_insert, Option.some.injEq] at hq
      subst hq
      rw [update_self]
      exact ⟨hp, rfl, rfl⟩
    · rw [AList.lookup_insert_ne hkey] at hq
      rw [update_of_ne (hj.lanes key q hq).1.ne]
      exact h.lanes key q hq

theorem labelsOf_update {job : Job} (hlabels : laneLabels job = s.labelsOf p) (q : JobPtr) :
    laneLabels (update s.jobAt p job q) = s.labelsOf q := by
  by_cases hq : q = p
  · rw [hq, update_self, hlabels]
  · rw [update_of_ne hq]
    rfl

theorem Labelled.accept (h : Labelled U s) (hp : U (s.labelsOf p)) (ptr : LanePtr) :
    Labelled U (s.accept ptr p) := by
  have hlabels : ∀ q, (s.accept ptr p).labelsOf q = s.labelsOf q := labelsOf_update rfl
  have hlane : ∀ q, ((s.accept ptr p).laneAt q).labels = (s.laneAt q).labels ∧
      ((s.accept ptr p).laneAt q).limit = (s.laneAt q).limit := by
    intro q
    by_cases hq : q = ptr
    · rw [hq, (accept_write s ptr p).self]
      exact ⟨rfl, rfl⟩
    · rw [(accept_write s ptr p).of_ne hq]
      exact ⟨rfl, rfl⟩
  refine ⟨fun key q hq => ?_, fun id held hheld => ?_⟩
  · obtain ⟨hids, hlimit⟩ := hlane q
    obtain ⟨hU, hkey, hlimit'⟩ := h.lanes key q hq
    rw [hids, hlimit]
    rw [ConsumerLane.labels, ConsumerLane.labels, Prod.mk.injEq] at hids
    rw [hids.1, hids.2]
    exact ⟨hU, hkey, hlimit'⟩
  · rw [hlabels]
    by_cases hid : id = s.idOf p
    · subst hid
      have hnew : (s.accept ptr p).tracked.lookup (s.idOf p) =
          some { job := p, running := false } := AList.lookup_insert _
      cases hnew.symm.trans hheld
      exact hp
    · have hold : (s.accept ptr p).tracked.lookup id = s.tracked.lookup id :=
        AList.lookup_insert_ne hid
      exact h.held id held (hold ▸ hheld)

theorem Labelled.setJob (h : Labelled U s) (hp : U (s.labelsOf p)) (q : JobPtr) :
    Labelled U (s.setJob q { s.jobAt q with data := (s.jobAt p).data }) := by
  refine ⟨h.lanes, fun id held hheld => ?_⟩
  simp only [LaneScheduler.labelsOf, LaneScheduler.setJob]
  by_cases hq : held.job = q
  · rw [hq, update_self]
    exact hp
  · rw [update_of_ne hq]
    exact h.held id held hheld

theorem Labelled.enqueue (h : Labelled U s) (hj : JobsInv s out) (hp : U (s.labelsOf p)) :
    Labelled U (s.enqueue p).2 := by
  cases htracked : s.tracked.lookup (s.idOf p) with
  | some held =>
    have hlookup : s.tracked.lookup (s.jobAt p).data.id.string = some held := htracked
    simp only [LaneScheduler.enqueue, hlookup]
    split
    · exact h.setJob hp held.job
    · exact h
  | none =>
    rw [enqueue_eq_accept htracked]
    refine Labelled.narrows ?_ (narrows_markReadyLocked _ _)
    have hl := laneFor_hasLane s (s.labelsOf p).1 (s.labelsOf p).2 (s.keyOf p)
    refine (h.laneFor hj hp).accept ?_ _
    rw [LaneScheduler.labelsOf, hl.jobAt]
    exact hp

end

def LaneRun.OffersIn (r : LaneRun) (U : String × String → Prop) (n : Nat) : Prop :=
  ∀ i p, i < n → r.act i = .enqueue p → U ((r.state i).sched.labelsOf p)

theorem LaneState.step_labelled {U : String × String → Prop} {σ σ' : LaneState} {a : LaneAction}
    (h : Labelled U σ.sched) (hinv : SchedInv σ.sched σ.out)
    (hoffer : ∀ p, a = .enqueue p → U (σ.sched.labelsOf p)) (hstep : σ.step a = some σ') :
    Labelled U σ'.sched := by
  cases a with
  | enqueue p =>
    cases hstep
    exact h.enqueue hinv.jobs (hoffer p rfl)
  | tryNext =>
    cases hstep
    exact h.narrows (narrows_tryNext hinv.ready)
  | isHeld job =>
    cases hstep
    exact h
  | done p =>
    simp only [LaneState.step] at hstep
    split at hstep
    · rename_i hp
      cases hstep
      exact h.narrows (narrows_done hinv.jobs hp)
    · cases hstep
  | discardQueued =>
    cases hstep
    exact h.narrows (narrows_discardQueued _)

theorem LaneRun.labelled (r : LaneRun) {U : String × String → Prop} {n : Nat} (hn : n ≤ r.len)
    (hoffers : r.OffersIn U n) : Labelled U (r.state n).sched := by
  induction n with
  | zero =>
    obtain ⟨⟨limitFor, jobAt, metrics, hs⟩, -, -⟩ := r.start
    rw [hs]
    exact labelled_newLaneScheduler limitFor jobAt metrics
  | succ n ih =>
    refine LaneState.step_labelled (ih (Nat.le_of_succ_le hn) fun i p hi => ?_)
      (r.schedInv (Nat.le_of_succ_le hn)) (fun p hp => hoffers n p (Nat.lt_succ_self n) hp)
      (r.next n hn)
    exact hoffers i p (Nat.lt_succ_of_lt hi)

/-! ## Lanes are isolated -/

/-- The job waits in the lane, or it runs and `done` releases its slot there. -/
def LaneScheduler.InLane (s : LaneScheduler) (out : List JobPtr) (ptr : LanePtr) (p : JobPtr) :
    Prop :=
  ∃ key, s.lanes.lookup key = some ptr ∧ (p ∈ (s.laneAt ptr).queue ∨ p ∈ out ∧ s.keyOf p = key)

def LaneScheduler.running (s : LaneScheduler) (out : List JobPtr) (l : String × String) : Nat :=
  out.countP fun p => s.labelsOf p == l

/-- The consumer has a limit and runs that many jobs. -/
def LaneScheduler.AtLimit (s : LaneScheduler) (out : List JobPtr) (l : String × String) : Prop :=
  s.limitFor l.1 l.2 ≠ 0 ∧ s.limitFor l.1 l.2 ≤ s.running out l

structure LanesIsolated (s : LaneScheduler) (out : List JobPtr) : Prop where
  share : ∀ ptr p q, s.InLane out ptr p → s.InLane out ptr q → s.labelsOf p = s.labelsOf q
  /-- the lane has the limit and the gauges of the consumer of its jobs -/
  own : ∀ ptr p, s.InLane out ptr p → (s.laneAt ptr).labels = s.labelsOf p
  /-- it counts the running jobs of this consumer -/
  counted : ∀ ptr p, s.InLane out ptr p → (s.laneAt ptr).inflight = s.running out (s.labelsOf p)
  /-- its jobs are held back only when this consumer is at its limit -/
  room : ∀ ptr p, s.InLane out ptr p →
    ((s.laneAt ptr).hasRoom = false ↔ s.AtLimit out (s.labelsOf p))

section
variable {U : String × String → Prop} {s : LaneScheduler} {out : List JobPtr} {ptr : LanePtr}
  {p : JobPtr} {key : String}

theorem JobsInv.keyOf_inLane (h : JobsInv s out) (hk : s.lanes.lookup key = some ptr)
    (hp : s.InLane out ptr p) : s.keyOf p = key := by
  obtain ⟨key', hk', hp⟩ := hp
  obtain rfl := h.key_inj hk hk'
  rcases hp with hqueue | ⟨-, hkey⟩
  · exact ((h.lanes key ptr hk).2.queued p hqueue).1
  · exact hkey

theorem JobsInv.tracked_inLane (h : JobsInv s out) (hp : s.InLane out ptr p) :
    ∃ id held, s.tracked.lookup id = some held ∧ held.job = p := by
  obtain ⟨key, hk, hqueue | ⟨hout, -⟩⟩ := hp
  · exact ⟨_, _, ((h.lanes key ptr hk).2.queued p hqueue).2, rfl⟩
  · exact ⟨_, _, (h.out_held p hout).1, rfl⟩

section
variable (h : Labelled U s) (hU : KeysApart U) (hj : JobsInv s out)
include h hU hj

theorem Labelled.labels_eq (hp : s.InLane out ptr p) : (s.laneAt ptr).labels = s.labelsOf p := by
  obtain ⟨key, hk, -⟩ := id hp
  obtain ⟨hlane, hkey, -⟩ := h.lanes key ptr hk
  obtain ⟨id, held, hheld, rfl⟩ := hj.tracked_inLane hp
  refine hU _ _ hlane (h.held id held hheld) ?_
  rw [hkey, ← LaneScheduler.keyOf_eq, hj.keyOf_inLane hk hp]

theorem Labelled.inflight_eq (hk : s.lanes.lookup key = some ptr) :
    (s.laneAt ptr).inflight = s.running out (s.laneAt ptr).labels := by
  rw [(hj.lanes key ptr hk).2.inflight]
  refine countP_congr fun q hq => ?_
  rw [beq_iff_eq, beq_iff_eq]
  constructor
  · intro hkey
    exact (h.labels_eq hU hj ⟨key, hk, .inr ⟨hq, hkey⟩⟩).symm
  · intro hlabels
    rw [LaneScheduler.keyOf_eq, hlabels]
    exact (h.lanes key ptr hk).2.1

theorem Labelled.lanesIsolated : LanesIsolated s out := by
  refine ⟨fun ptr p q hp hq => ?_, fun ptr p hp => h.labels_eq hU hj hp, fun ptr p hp => ?_,
    fun ptr p hp => ?_⟩
  · rw [← h.labels_eq hU hj hp, h.labels_eq hU hj hq]
  · obtain ⟨key, hk, -⟩ := id hp
    rw [← h.labels_eq hU hj hp]
    exact h.inflight_eq hU hj hk
  · obtain ⟨key, hk, -⟩ := id hp
    obtain ⟨-, -, hlimit⟩ := h.lanes key ptr hk
    rw [← h.labels_eq hU hj hp, LaneScheduler.AtLimit, ← h.inflight_eq hU hj hk,
      show s.limitFor (s.laneAt ptr).labels.1 (s.laneAt ptr).labels.2 = (s.laneAt ptr).limit from
        hlimit.symm]
    simp [ConsumerLane.hasRoom]

end

end

/-- No two of the jobs of the first `n` calls clash. -/
def LaneRun.NoClash (r : LaneRun) (n : Nat) : Prop :=
  ∀ i j p q, i < n → j < n → r.act i = .enqueue p → r.act j = .enqueue q →
    ¬ LabelsClash ((r.state i).sched.labelsOf p) ((r.state j).sched.labelsOf q)

theorem LaneRun.OffersIn.noClash {r : LaneRun} {n : Nat} (h : r.OffersIn SlashFree n) :
    r.NoClash n :=
  fun _ j _ q _ hj _ hq => (h j q hj hq).not_clash

def Sample.serveRun : LaneRun :=
  Run.ofActs lanes serveInTurn lanes_isInitial (by decide +kernel)

theorem Sample.serveRun_offersIn : serveRun.OffersIn SlashFree 9 := by
  have hlabels : ∀ i < 9, (match serveRun.act i with
      | .enqueue p => decide (SlashFree ((serveRun.state i).sched.labelsOf p))
      | _ => true) = true := by
    decide +kernel
  intro i p hi hact
  have h := hlabels i hi
  rw [hact] at h
  exact of_decide_eq_true h

open Sample

namespace Sample

def jobOf (id : Xid) (channelID consumerID : String) : Job :=
  newJob { job .push second with
    id := id
    listener := some { consumer .push with
      consumerID := consumerID, consumingFrom := some { channel with channelID := channelID } } }

/-- A job of the consumer `c` of the channel `a/b`, and one of the consumer `b/c` of the channel
`a`. -/
def clashingJobs : JobPtr → Job
  | 0 => jobOf jobXid "a/b" "c"
  | _ => jobOf messageXid "a" "b/c"

def clashingLanes : LaneState :=
  { sched := newLaneScheduler (fun _ _ => 1) clashingJobs laneMetrics, out := [] }

theorem clashingLanes_isInitial : clashingLanes.isInitial := by
  refine ⟨⟨_, _, _, rfl⟩, rfl, fun p q _ => ?_⟩
  have hkey : ∀ p, clashingLanes.sched.keyOf p = "a/b/c"
    | 0 => rfl
    | _ + 1 => rfl
  rw [hkey, hkey]

end Sample

end WebhookBroker
