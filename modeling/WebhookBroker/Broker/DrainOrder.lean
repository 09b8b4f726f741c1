import WebhookBroker.Broker.Recoverable

/-!
# Draining all of a consumer (`storage/jobparkingrepo.go`)

`DrainPage` moves the oldest parked jobs of a consumer, as many as fit on a page. Called until it
returns an empty page, it moves all of them, each once and in the order of `(createdAt, seq)`, with
whatever page sizes (`Db.Sound.drainUntilEmpty`). What a job is does not depend on how often it was
parked and drained: the three statements that copy it list the same columns (`Place.columns`), and
only the times of the last change and of the next attempt are new.
-/

namespace WebhookBroker

open Lib List

theorem exists_of_forall₂_of_mem {α β : Type*} {R : α → β → Prop} {as : List α} {bs : List β}
    (h : List.Forall₂ R as bs) {a : α} (ha : a ∈ as) : ∃ b ∈ bs, R a b := by
  induction h with
  | nil => cases ha
  | @cons a' b' as bs hab _ ih =>
    rcases mem_cons.1 ha with rfl | ha
    · exact ⟨b', mem_cons_self, hab⟩
    · obtain ⟨b, hb, hR⟩ := ih ha
      exact ⟨b, mem_cons_of_mem _ hb, hR⟩

/-! ## Pages until there is none -/

/-- The arguments of a call of `DrainPage`, and the time of the call. -/
structure DrainCall where
  now : Time
  pageSize : Int
  earliestNextAttemptAt : Time

/-- At most `n` calls of `DrainPage`, from the `i`-th on, until one returns an empty page: the pages
and the database after them; `none` if a call fails or the calls are used up. -/
def drainUntilEmpty (consumerInternalID : String) (calls : Nat → DrainCall) :
    Nat → Nat → Db → Option (List (List JobRow) × Db)
  | 0, _, _ => none
  | n + 1, i, db =>
    match drainPage (calls i).now consumerInternalID (calls i).pageSize
        (calls i).earliestNextAttemptAt db with
    | (.error _, _) => none
    | (.ok [], db) => some ([], db)
    | (.ok (row :: rows), db) =>
      (drainUntilEmpty consumerInternalID calls n (i + 1) db).map fun (pages, db) =>
        ((row :: rows) :: pages, db)

def Db.parkedOf (db : Db) (consumerInternalID : String) : List ParkedJobRow :=
  db.jobParking.filter fun p => p.consumerId.string == consumerInternalID

section
variable {db : Db} {c : String}

theorem drainOrder_trans {a b d : ParkedJobRow} (h : drainOrder a b) (h' : drainOrder b d) :
    drainOrder a d := by
  unfold drainOrder at *
  rcases h with h | ⟨h, hs⟩ <;> rcases h' with h' | ⟨h', hs'⟩
  · exact .inl (Int.lt_trans h h')
  · exact .inl (h' ▸ h)
  · exact .inl (h ▸ h')
  · exact .inr ⟨h.trans h', hs.trans hs'⟩

theorem drainOrder_total (a b : ParkedJobRow) : drainOrder a b ∨ drainOrder b a := by
  unfold drainOrder
  rcases Int.lt_trichotomy a.createdAt b.createdAt with h | h | h
  · exact .inl (.inl h)
  · exact (Nat.le_total a.seq b.seq).imp (fun hs => .inr ⟨h, hs⟩) fun hs => .inr ⟨h.symm, hs⟩
  · exact .inr (.inl h)

theorem seq_eq_of_drainOrder {a b : ParkedJobRow} (h : drainOrder a b) (h' : drainOrder b a) :
    a.seq = b.seq := by
  unfold drainOrder at *
  rcases h with h | ⟨h, hs⟩ <;> rcases h' with h' | ⟨h', hs'⟩
  · exact absurd h' (Int.not_lt.2 (Int.le_of_lt h))
  · exact absurd h (h' ▸ Int.lt_irrefl _)
  · exact absurd h' (h ▸ Int.lt_irrefl _)
  · exact Nat.le_antisymm hs hs'

theorem insertionSort_drainOrder_eq {rows sorted : List ParkedJobRow}
    (hseq : (rows.map (·.seq)).Nodup) (hperm : sorted.Perm rows)
    (hsorted : sorted.Pairwise drainOrder) : rows.insertionSort drainOrder = sorted := by
  have hmem : ∀ {a}, a ∈ rows.insertionSort drainOrder → a ∈ rows :=
    (perm_insertionSort _ _).mem_iff.1
  have : Std.Total drainOrder := ⟨drainOrder_total⟩
  have : IsTrans ParkedJobRow drainOrder := ⟨fun _ _ _ => drainOrder_trans⟩
  refine List.Perm.eq_of_pairwise (fun a b ha hb h h' => ?_)
    (pairwise_insertionSort drainOrder rows) hsorted
    ((perm_insertionSort _ _).trans hperm.symm)
  exact inj_on_of_nodup_map hseq (hmem ha) (hperm.mem_iff.1 hb) (seq_eq_of_drainOrder h h')

theorem drainPageQuery_eq_take (hpaused : db.effectivelyPaused c = false)
    (hseq : (db.jobParking.map (·.seq)).Nodup) {sorted : List ParkedJobRow}
    (hperm : sorted.Perm (db.parkedOf c)) (hsorted : sorted.Pairwise drainOrder) (limit : Nat) :
    drainPageQuery db c limit = sorted.take limit := by
  have hseq' : ((db.parkedOf c).map (·.seq)).Nodup := hseq.sublist (filter_sublist.map _)
  rw [drainPageQuery, hpaused]
  simp only [Bool.not_false, Bool.and_true]
  rw [show (db.jobParking.filter fun p => p.consumerId.string == c) = db.parkedOf c from rfl,
    insertionSort_drainOrder_eq hseq' hperm hsorted]

theorem deleteWhere_seq_append {first rest : List ParkedJobRow}
    (hseq : ((first ++ rest).map (·.seq)).Nodup) :
    deleteWhere (fun p => (first.map (·.seq)).contains p.seq) (first ++ rest) = rest := by
  rw [map_append] at hseq
  obtain ⟨-, -, hdisjoint⟩ := nodup_append.1 hseq
  have hfirst : deleteWhere (fun p => (first.map (·.seq)).contains p.seq) first = [] := by
    refine filter_eq_nil_iff.2 fun p hp => ?_
    have hmem : (first.map (·.seq)).contains p.seq = true :=
      contains_iff_mem.2 (mem_map_of_mem hp)
    simp only [hmem, Bool.not_true, Bool.false_eq_true, not_false_eq_true]
  have hrest : deleteWhere (fun p => (first.map (·.seq)).contains p.seq) rest = rest := by
    refine filter_eq_self.2 fun p hp => ?_
    rw [Bool.not_eq_true', Bool.eq_false_iff, ne_eq, contains_iff_mem]
    exact fun hmem => hdisjoint _ hmem _ (mem_map_of_mem hp) rfl
  rw [deleteWhere, filter_append]
  change deleteWhere _ first ++ deleteWhere _ rest = rest
  rw [hfirst, hrest, nil_append]

/-- The database after a page: the rows `page` have become `jobs`. -/
def Db.afterPage (db : Db) (page : List ParkedJobRow) (jobs : List JobRow) : Db :=
  { db with
    jobParking := deleteWhere (fun p => (page.map (·.seq)).contains p.seq) db.jobParking
    job := db.job ++ jobs }

def Db.afterPages (db : Db) (consumerInternalID : String) (jobs : List JobRow) : Db :=
  { db with
    jobParking := deleteWhere (fun p => p.consumerId.string == consumerInternalID) db.jobParking
    job := db.job ++ jobs }

theorem parkedOf_afterPage {page rest : List ParkedJobRow} {jobs : List JobRow}
    (hseq : (db.jobParking.map (·.seq)).Nodup) (hperm : (page ++ rest).Perm (db.parkedOf c)) :
    rest.Perm ((db.afterPage page jobs).parkedOf c) := by
  have hseq' : ((page ++ rest).map (·.seq)).Nodup :=
    (hperm.map _).nodup_iff.2 (hseq.sublist (filter_sublist.map _))
  have hfilter : (db.afterPage page jobs).parkedOf c =
      deleteWhere (fun p => (page.map (·.seq)).contains p.seq) (db.parkedOf c) :=
    filter_comm _ _ _
  rw [hfilter, ← deleteWhere_seq_append hseq']
  exact hperm.filter _

theorem afterPages_nil (hparked : db.parkedOf c = []) : db.afterPages c [] = db := by
  have hdelete : deleteWhere (fun p => p.consumerId.string == c) db.jobParking =
      db.jobParking := by
    refine filter_eq_self.2 fun p hp => ?_
    rw [Bool.not_eq_true']
    exact Bool.eq_false_iff.2 (filter_eq_nil_iff.1 hparked p hp)
  rw [Db.afterPages, hdelete, append_nil]

/-- The rows of a page belong to the consumer, so removing all of the consumer removes them too. -/
theorem afterPages_afterPage {page rest : List ParkedJobRow} {jobs jobs' : List JobRow}
    (hseq : (db.jobParking.map (·.seq)).Nodup) (hperm : (page ++ rest).Perm (db.parkedOf c)) :
    (db.afterPage page jobs).afterPages c jobs' = db.afterPages c (jobs ++ jobs') := by
  have hdelete : deleteWhere (fun p => p.consumerId.string == c)
      (deleteWhere (fun p => (page.map (·.seq)).contains p.seq) db.jobParking) =
      deleteWhere (fun p => p.consumerId.string == c) db.jobParking := by
    rw [deleteWhere_deleteWhere]
    refine filter_congr fun p hp => ?_
    cases hpage : (page.map (·.seq)).contains p.seq with
    | false => simp only [hpage, Bool.false_or]
    | true =>
      obtain ⟨p', hp', hseq'⟩ := mem_map.1 (contains_iff_mem.1 hpage)
      obtain ⟨hmem, hc⟩ := mem_filter.1 (hperm.mem_iff.1 (mem_append_left _ hp'))
      obtain rfl := inj_on_of_nodup_map hseq hmem hp hseq'
      simp only [hc, Bool.or_true]
  simp only [Db.afterPages, Db.afterPage, hdelete, append_assoc]

end

section
variable [NetUrl] {db : Db} {c : String}

/-- A page of a consumer that is not paused moves the first of its jobs in order. -/
theorem Db.Sound.drainPage_sorted (h : db.Sound) (hpaused : db.effectivelyPaused c = false)
    {sorted : List ParkedJobRow} (hperm : sorted.Perm (db.parkedOf c))
    (hsorted : sorted.Pairwise drainOrder) (hne : sorted ≠ []) (call : DrainCall)
    (hpos : 0 < call.pageSize) :
    drainPage call.now c call.pageSize call.earliestNextAttemptAt db =
      (.ok ((sorted.take call.pageSize.toNat).map (·.drain call.now call.earliestNextAttemptAt)),
        db.afterPage (sorted.take call.pageSize.toNat)
          ((sorted.take call.pageSize.toNat).map
            (·.drain call.now call.earliestNextAttemptAt))) := by
  have hquery := drainPageQuery_eq_take hpaused h.integrity.seqs hperm hsorted call.pageSize.toNat
  have hpage : drainPageQuery db c call.pageSize.toNat ≠ [] := by
    rw [hquery, ne_eq, take_eq_nil_iff, not_or]
    exact ⟨by omega, hne⟩
  rw [h.jobTables.drainPage_ok call.now c call.pageSize call.earliestNextAttemptAt hpage, hquery]
  rfl

theorem Db.Sound.drainPage (h : db.Sound) (now : Time) (pageSize : Int)
    (earliestNextAttemptAt : Time) :
    (WebhookBroker.drainPage now c pageSize earliestNextAttemptAt db).2.Sound :=
  h.effect (@DbOp.step_effect _ _ _ (.drainPage now c pageSize earliestNextAttemptAt) rfl)

/-- Calls that are as many as the parked jobs and one more end with an empty page. They move all
jobs, in order. -/
theorem Db.Sound.drainUntilEmpty (calls : Nat → DrainCall) (hpos : ∀ i, 0 < (calls i).pageSize) :
    ∀ {sorted : List ParkedJobRow} {db : Db} (i : Nat), db.Sound →
      db.effectivelyPaused c = false → sorted.Perm (db.parkedOf c) →
      sorted.Pairwise drainOrder →
      ∃ pages, (∀ n, sorted.length < n →
          WebhookBroker.drainUntilEmpty c calls n i db =
            some (pages, db.afterPages c pages.flatten)) ∧
        (db.afterPages c pages.flatten).Sound ∧
        List.Forall₂ (fun p row => ∃ k, row =
          ParkedJobRow.drain (calls k).now (calls k).earliestNextAttemptAt p)
          sorted pages.flatten := by
  intro sorted
  induction hlen : sorted.length using Nat.strong_induction_on generalizing sorted with
  | _ len ih =>
    intro db i h hpaused hperm hsorted
    cases hrows : sorted with
    | nil =>
      have hparked : db.parkedOf c = [] := nil_perm.1 (hrows ▸ hperm)
      have hquery : drainPageQuery db c (calls i).pageSize.toNat = [] := by
        rw [drainPageQuery_eq_take hpaused h.integrity.seqs hperm hsorted, hrows, take_nil]
      refine ⟨[], fun n hn => ?_, (afterPages_nil hparked).symm ▸ h, .nil⟩
      obtain ⟨n, rfl⟩ := Nat.exists_eq_add_of_lt hn
      rw [flatten_nil, afterPages_nil hparked, WebhookBroker.drainUntilEmpty,
        drainPage_of_nil hquery]
    | cons row rows =>
      have hne : sorted ≠ [] := hrows ▸ cons_ne_nil row rows
      have hdrain := h.drainPage_sorted hpaused hperm hsorted hne (calls i) (hpos i)
      have hsound := @Db.Sound.drainPage _ _ c h (calls i).now (calls i).pageSize
        (calls i).earliestNextAttemptAt
      rw [hdrain] at hsound
      obtain ⟨k, hk⟩ : ∃ k, (calls i).pageSize.toNat = k + 1 :=
        Nat.exists_eq_succ_of_ne_zero (by have := hpos i; omega)
      rw [← take_append_drop (k + 1) sorted] at hperm
      rw [hk] at hdrain hsound
      obtain ⟨pages, hpages, hafter, hforall⟩ := ih (sorted.drop (k + 1)).length
        (by rw [length_drop, ← hlen, hrows, length_cons]; omega) rfl (i + 1) hsound
        hpaused (parkedOf_afterPage h.integrity.seqs hperm)
        (hsorted.sublist (drop_sublist _ _))
      refine ⟨(sorted.take (k + 1)).map
        (·.drain (calls i).now (calls i).earliestNextAttemptAt) :: pages, fun n hn => ?_, ?_, ?_⟩
      · obtain ⟨n, rfl⟩ : ∃ m, n = m + 1 := Nat.exists_eq_succ_of_ne_zero (by omega)
        have hlen' : rows.length + 1 = len := by rw [← hlen, hrows, length_cons]
        have hn' : (sorted.drop (k + 1)).length < n := by
          rw [length_drop, hlen]
          omega
        rw [WebhookBroker.drainUntilEmpty, hdrain, flatten_cons,
          ← afterPages_afterPage h.integrity.seqs hperm]
        simp only [hrows, take_succ_cons, map_cons] at *
        rw [hpages n hn']
        rfl
      · rw [flatten_cons, ← afterPages_afterPage h.integrity.seqs hperm]
        exact hafter
      · have hpage : List.Forall₂ (fun p row => ∃ k, row =
            ParkedJobRow.drain (calls k).now (calls k).earliestNextAttemptAt p)
            (sorted.take (k + 1)) ((sorted.take (k + 1)).map
              (·.drain (calls i).now (calls i).earliestNextAttemptAt)) :=
          forall₂_map_right_iff.2 (forall₂_same.2 fun p _ => ⟨i, rfl⟩)
        have hall : List.Forall₂ _ (sorted.take (k + 1) ++ sorted.drop (k + 1)) (_ ++ _) :=
          rel_append hpage hforall
        rw [take_append_drop] at hall
        rw [← hrows, flatten_cons]
        exact hall

end

/-! ## What parking and draining keep -/

/-- The columns of a job that the statements of parking and draining copy. -/
structure JobColumns where
  id : Xid
  messageId : Xid
  consumerId : Xid
  dispatchReceivedAt : Time
  retryAttemptCount : Nat
  priority : Nat
  incrementalTimeout : Nat
  createdAt : Time
deriving DecidableEq

def JobRow.columns (row : JobRow) : JobColumns where
  id := row.id
  messageId := row.messageId
  consumerId := row.consumerId
  dispatchReceivedAt := row.dispatchReceivedAt
  retryAttemptCount := row.retryAttemptCount
  priority := row.priority
  incrementalTimeout := row.incrementalTimeout
  createdAt := row.createdAt

def ParkedJobRow.columns (row : ParkedJobRow) : JobColumns where
  id := row.id
  messageId := row.messageId
  consumerId := row.consumerId
  dispatchReceivedAt := row.dispatchReceivedAt
  retryAttemptCount := row.retryAttemptCount
  priority := row.priority
  incrementalTimeout := row.incrementalTimeout
  createdAt := row.createdAt

def Place.columns : Place → JobColumns
  | .job row => row.columns
  | .parked row => row.columns

/-- The job waits for a worker: it is parked, or `QUEUED` in `job`. -/
def Place.waits : Place → Prop
  | .job row => row.status = .queued
  | .parked _ => True

/-- The write is a change of status by a worker or by the recovery of the job `j`. -/
def StorageOp.marks (j : Xid) : StorageOp → Prop
  | .job (.mark _ _ deliveryJob) => deliveryJob.id = j
  | _ => False

section
variable {db db' : Db} {j : Xid}

/-- Parking and draining keep the columns of a waiting job, and nothing else than a mark or a delete
ends its waiting. -/
theorem JobStep.waits {op : DbOp} {p p' : Place} (h : JobStep db j op (some p) (some p'))
    (hmarks : ¬ (StorageOp.job op).marks j) (hp : p.waits) :
    p'.waits ∧ p'.columns = p.columns := by
  cases h with
  | same => exact ⟨hp, rfl⟩
  | reparked => exact ⟨trivial, rfl⟩
  | drained => exact ⟨rfl, rfl⟩
  | marked hid => exact absurd hid hmarks
  | requeued _ hstatus => exact absurd (hstatus.symm.trans hp) (by decide)

theorem JobStep.created_waits {op : DbOp} {p : Place} (h : JobStep db j op none (some p)) :
    ∃ now message deliveryJobs parkedJobs, ∃ job ∈ deliveryJobs ++ parkedJobs,
      op = .dispatchMessageWithParking now message deliveryJobs parkedJobs ∧ job.id = j ∧
      p.waits ∧ p.columns = job.jobRow.columns := by
  cases h with
  | created hjob hid hstatus =>
    exact ⟨_, _, _, _, _, mem_append_left _ hjob, rfl, hid, hstatus, rfl⟩
  | @createdParked now message deliveryJobs parkedJobs job seq hjob hid hcount =>
    refine ⟨_, _, _, _, _, mem_append_right _ hjob, rfl, hid, trivial, ?_⟩
    simp only [Place.columns, ParkedJobRow.columns, DeliveryJob.parkedRow, hcount]
    rfl

variable [NetUrl]
variable {op : StorageOp}

theorem StorageEffect.place (he : StorageEffect db op db') (j : Xid) :
    (∃ dbOp, op = .job dbOp ∧ DbEffect db dbOp db') ∨ db'.place j = db.place j := by
  cases he with
  | job he => exact .inl ⟨_, rfl, he⟩
  | records => exact .inr rfl
  | created => exact .inr rfl

/-- One write keeps the columns of a job that waits, unless it marks or removes the job. -/
theorem StorageOp.step_waits (h : db.Integrity) (hs : StorageOp.step db op = some db')
    {p p' : Place} (hplace : db.place j = some p) (hplace' : db'.place j = some p')
    (hmarks : ¬ op.marks j) (hp : p.waits) : p'.waits ∧ p'.columns = p.columns := by
  rcases (StorageOp.step_effect hs).place j with ⟨dbOp, rfl, he⟩ | hsame
  · have hstep := he.jobStep h j
    rw [hplace, hplace'] at hstep
    exact hstep.waits hmarks hp
  · rw [hsame, hplace] at hplace'
    cases hplace'
    exact ⟨hp, rfl⟩

theorem StorageOp.step_creates (h : db.Integrity) (hs : StorageOp.step db op = some db')
    {p : Place} (hplace : db.place j = none) (hplace' : db'.place j = some p) :
    ∃ now message deliveryJobs parkedJobs, ∃ job ∈ deliveryJobs ++ parkedJobs,
      op = .job (.dispatchMessageWithParking now message deliveryJobs parkedJobs) ∧ job.id = j ∧
      p.waits ∧ p.columns = job.jobRow.columns := by
  rcases (StorageOp.step_effect hs).place j with ⟨dbOp, rfl, he⟩ | hsame
  · have hstep := he.jobStep h j
    rw [hplace, hplace'] at hstep
    obtain ⟨now, message, deliveryJobs, parkedJobs, job, hjob, rfl, hresult⟩ :=
      hstep.created_waits
    exact ⟨now, message, deliveryJobs, parkedJobs, job, hjob, rfl, hresult⟩
  · rw [hsame, hplace] at hplace'
    cases hplace'

/-- A run of the storage layer from any sound database. -/
abbrev SoundRun := Run (fun db : Db => db.Sound) StorageOp.step

theorem SoundRun.sound (r : SoundRun) {n : Nat} (hn : n ≤ r.len) : (r.state n).Sound :=
  r.invariant (fun _ h => h) (fun _ _ _ h hs => StorageOp.step_sound h hs) n hn

/-- From step `a` to step `b` the job `j` is stored and no write marks it: it is only parked and
drained. -/
def SoundRun.OnlyMoves (r : SoundRun) (j : Xid) (a b : Nat) : Prop :=
  ∀ i, a ≤ i → i < b → ¬ (r.act i).marks j ∧ (r.state (i + 1)).place j ≠ none

theorem SoundRun.waits (r : SoundRun) {a b : Nat} (hab : a ≤ b) (hb : b ≤ r.len) {p : Place}
    (hplace : (r.state a).place j = some p) (hp : p.waits) (hmoves : r.OnlyMoves j a b) :
    ∃ p', (r.state b).place j = some p' ∧ p'.waits ∧ p'.columns = p.columns := by
  induction b, hab using Nat.le_induction with
  | base => exact ⟨p, hplace, hp, rfl⟩
  | succ b hab ih =>
    obtain ⟨q, hq, hwaits, hcolumns⟩ :=
      ih (by omega) fun i hi hib => hmoves i hi (Nat.lt_succ_of_lt hib)
    obtain ⟨hmarks, hstored⟩ := hmoves b hab (Nat.lt_succ_self b)
    obtain ⟨p', hp'⟩ := Option.ne_none_iff_exists'.1 hstored
    obtain ⟨hwaits', hcolumns'⟩ := StorageOp.step_waits (r.sound (by omega)).integrity
      (r.next b (by omega)) hq hp' hmarks hwaits
    exact ⟨p', hp', hwaits', hcolumns'.trans hcolumns⟩

omit [NetUrl] in
theorem Db.Integrity.waits_afterPages (h : db.Integrity) {c : String}
    {sorted : List ParkedJobRow} {jobs : List JobRow} (hperm : sorted.Perm (db.parkedOf c))
    (hdrained : List.Forall₂ (fun p row => ∃ now earliest, row = ParkedJobRow.drain now earliest p)
      sorted jobs) {p : Place} (hplace : db.place j = some p) (hp : p.waits)
    (hconsumer : p.columns.consumerId.string = c) :
    ∃ row ∈ (db.afterPages c jobs).job, row.status = .queued ∧ row.columns = p.columns := by
  cases p with
  | job row =>
    obtain ⟨hmem, -⟩ := h.place_eq_job.1 hplace
    exact ⟨row, mem_append_left _ hmem, hp, rfl⟩
  | parked row =>
    obtain ⟨hmem, -⟩ := h.place_eq_parked.1 hplace
    have hrow : row ∈ sorted :=
      hperm.mem_iff.2 (mem_filter.2 ⟨hmem, beq_iff_eq.2 hconsumer⟩)
    obtain ⟨job, hjob, now, earliest, rfl⟩ := exists_of_forall₂_of_mem hdrained hrow
    exact ⟨_, mem_append_right _ hjob, rfl, rfl⟩

/-- Calls of `DrainPage` for a consumer that is not paused, until one returns an empty page, move
every parked job of the consumer once, in the order of `(createdAt, seq)`. A drained job has the
columns that it had at any time since its dispatch. -/
theorem drain_until_empty_moves_and_keeps (r : SoundRun) {n : Nat} (hn : n ≤ r.len) {c : String}
    (hpaused : (r.state n).effectivelyPaused c = false) (calls : Nat → DrainCall)
    (hpos : ∀ i, 0 < (calls i).pageSize) :
    (∃ pages rows,
      (∀ m, ((r.state n).parkedOf c).length < m →
        drainUntilEmpty c calls m 0 (r.state n) =
          some (pages, (r.state n).afterPages c pages.flatten)) ∧
      rows.Perm ((r.state n).parkedOf c) ∧ rows.Pairwise drainOrder ∧
      List.Forall₂ (fun p row => ∃ k, row =
        ParkedJobRow.drain (calls k).now (calls k).earliestNextAttemptAt p) rows pages.flatten ∧
      (((r.state n).afterPages c pages.flatten).stored.map (·.id)).Nodup ∧
      ∀ a ≤ n, ∀ j p, (r.state a).place j = some p → p.waits → r.OnlyMoves j a n →
        p.columns.consumerId.string = c →
        ∃ row ∈ ((r.state n).afterPages c pages.flatten).job,
          row.status = .queued ∧ row.columns = p.columns) ∧
    (∀ a b, a ≤ b → b ≤ r.len → ∀ j p, (r.state a).place j = some p → p.waits →
      r.OnlyMoves j a b →
      ∃ p', (r.state b).place j = some p' ∧ p'.waits ∧ p'.columns = p.columns) ∧
    ∀ i < r.len, ∀ j p, (r.state i).place j = none → (r.state (i + 1)).place j = some p →
      ∃ now message deliveryJobs parkedJobs, ∃ job ∈ deliveryJobs ++ parkedJobs,
        r.act i = .job (.dispatchMessageWithParking now message deliveryJobs parkedJobs) ∧
        job.id = j ∧ p.waits ∧ p.columns = job.jobRow.columns := by
  refine ⟨?_, fun a b hab hb j p hplace hp hmoves => r.waits hab hb hplace hp hmoves,
    fun i hi j p hplace hplace' =>
      StorageOp.step_creates (r.sound (by omega)).integrity (r.next i hi) hplace hplace'⟩
  have hperm := perm_insertionSort drainOrder ((r.state n).parkedOf c)
  have : Std.Total drainOrder := ⟨drainOrder_total⟩
  have : IsTrans ParkedJobRow drainOrder := ⟨fun _ _ _ => drainOrder_trans⟩
  have hsorted := pairwise_insertionSort drainOrder ((r.state n).parkedOf c)
  obtain ⟨pages, hpages, hsound, hforall⟩ :=
    Db.Sound.drainUntilEmpty calls hpos 0 (r.sound hn) hpaused hperm hsorted
  rw [hperm.length_eq] at hpages
  refine ⟨pages, _, hpages, hperm, hsorted, hforall, hsound.integrity.ids, ?_⟩
  intro a ha j p hplace hp hmoves hconsumer
  obtain ⟨p', hp', hwaits, hcolumns⟩ := r.waits ha hn hplace hp hmoves
  rw [← hcolumns] at hconsumer ⊢
  exact (r.sound hn).integrity.waits_afterPages hperm
    (hforall.imp fun _ _ ⟨k, hk⟩ => ⟨_, _, hk⟩) hp' hwaits hconsumer

end

/-- The message of the small broker is dispatched with its job parked. -/
def Sample.parkOne : List StorageOp :=
  storeAll ++ [.job (.dispatchMessageWithParking second message [] [job .push second])]

open Sample

theorem drain_until_empty_moves_and_keeps_one :
    ∃ r : @SoundRun netUrl, ((r.state 5).parkedOf consumerXid.string).length = 1 ∧
      ∃ pages, drainUntilEmpty consumerXid.string (fun _ => ⟨second, 1, second⟩) 2 0
          (r.state 5) =
        some (pages, (r.state 5).afterPages consumerXid.string pages.flatten) := by
  let r : @SoundRun netUrl :=
    Run.ofActs {} parkOne (@Db.sound_empty netUrl) (by decide +kernel)
  have hlen : 5 ≤ r.len := by decide
  have hparked : ((r.state 5).parkedOf consumerXid.string).length = 1 := by decide +kernel
  have hpaused : (r.state 5).effectivelyPaused consumerXid.string = false := by
    decide +kernel
  obtain ⟨⟨pages, rows, hpages, -⟩, -⟩ :=
    @drain_until_empty_moves_and_keeps netUrl r 5 hlen _ hpaused
      (fun _ => ⟨second, 1, second⟩) fun _ => Int.one_pos
  exact ⟨r, hparked, pages, hpages 2 (by rw [hparked]; decide)⟩

end WebhookBroker
