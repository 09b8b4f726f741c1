import WebhookBroker.Lib.Paging
import WebhookBroker.Storage.Query

/-!
# Listings that follow the next cursor

The listings of `storage/deliveryjobrepo.go` and `storage/messagerepo.go` that read a whole result
page by page: jobs in a status, messages that wait for their dispatch, messages that can be pruned.
The order of a page is by creation time and then by id, but a page continues with the rows that have
a smaller id *and* are not newer. A row with a greater id than the last row of a page is skipped, so
a listing is complete exactly if the ids descend across the ends of its pages
(`mem_followNext_iff`).
-/

namespace WebhookBroker

open Lib List

section
variable {ρ : Type} (key : ρ → String × Time)

def cursorOf (row : ρ) : Cursor := ⟨(key row).1, (key row).2⟩

/-- The loop of a listing, for at most `n` rounds. In round `i` the rows `rows i` match the filter.
-/
def followNext (limit : Nat) (cap : Option Nat) (rows : Nat → List ρ) :
    Nat → Nat → List ρ → Pagination → List ρ
  | 0, _, found, _ => found
  | n + 1, i, found, page =>
    let pageRows := pageQuery key page limit (rows i)
    match pageRows.getLast? with
    | none => found
    | some last =>
      let found := found ++ pageRows
      if cap.any (· ≤ found.length) then found
      else followNext limit cap rows n (i + 1) found { page with next := some (cursorOf key last) }

def inOrder (rows : List ρ) : List ρ := rows.insertionSort fun a b => newestFirst (key a) (key b)

/-- The condition that a page puts on the rows after a row. -/
def isBeyond (a b : ρ) : Bool :=
  idLess (key b).1 (key a).1 && decide ((key b).2 ≤ (key a).2)

end

/-! ## The order of the rows -/

theorem not_idLess_trans {a b c : String} (h : idLess a b = false) (h' : idLess b c = false) :
    idLess a c = false := by
  simp only [idLess, decide_eq_false_iff_not, not_lt] at h h' ⊢
  exact le_trans h' h

theorem eq_of_not_idLess {a b : String} (h : idLess a b = false) (h' : idLess b a = false) :
    a = b := by
  simp only [idLess, decide_eq_false_iff_not, not_lt] at h h'
  exact String.toList_inj.1 (le_antisymm h' h)

theorem idLess_asymm {a b : String} (h : idLess a b = true) : idLess b a = false := by
  cases h' : idLess b a with
  | false => rfl
  | true => exact absurd (idLess_trans h h') (by rw [idLess_irrefl]; decide)

theorem newestFirst_total (a b : String × Time) : newestFirst a b ∨ newestFirst b a := by
  rcases Int.lt_trichotomy a.2 b.2 with hlt | heq | hgt
  · exact .inr (.inl hlt)
  · cases h : idLess a.1 b.1 with
    | false => exact .inl (.inr ⟨heq.symm, h⟩)
    | true => exact .inr (.inr ⟨heq, idLess_asymm h⟩)
  · exact .inl (.inl hgt)

theorem newestFirst_trans {a b c : String × Time} (h : newestFirst a b) (h' : newestFirst b c) :
    newestFirst a c := by
  rcases h with h | ⟨h, hid⟩ <;> rcases h' with h' | ⟨h', hid'⟩
  · exact .inl (Int.lt_trans h' h)
  · exact .inl (h' ▸ h)
  · exact .inl (h ▸ h')
  · exact .inr ⟨h'.trans h, not_idLess_trans hid hid'⟩

theorem newestFirst_antisymm {a b : String × Time} (h : newestFirst a b) (h' : newestFirst b a) :
    a.1 = b.1 := by
  rcases h with h | ⟨h, hid⟩ <;> rcases h' with h' | ⟨h', hid'⟩
  · exact absurd (Int.lt_trans h h') (Int.lt_irrefl _)
  · exact absurd (h' ▸ h) (Int.lt_irrefl _)
  · exact absurd (h ▸ h') (Int.lt_irrefl _)
  · exact eq_of_not_idLess hid hid'

section
variable {ρ : Type} {key : ρ → String × Time} {rows : List ρ}

theorem inOrder_perm : (inOrder key rows).Perm rows := perm_insertionSort _ rows

theorem mem_inOrder {r : ρ} : r ∈ inOrder key rows ↔ r ∈ rows := inOrder_perm.mem_iff

theorem inOrder_pairwise :
    (inOrder key rows).Pairwise fun a b => newestFirst (key a) (key b) := by
  have htotal : Std.Total fun a b : ρ => newestFirst (key a) (key b) :=
    ⟨fun a b => newestFirst_total (key a) (key b)⟩
  have htrans : IsTrans ρ fun a b => newestFirst (key a) (key b) :=
    ⟨fun _ _ _ h h' => newestFirst_trans h h'⟩
  exact pairwise_insertionSort _ rows

section
variable (hids : (rows.map fun r => (key r).1).Nodup)
include hids

theorem inOrder_ordered :
    Paging.Ordered (isBeyond key) (inOrder key rows) where
  nodup := inOrder_perm.nodup_iff.2 (List.Nodup.of_map _ hids)
  trans h h' := by
    simp only [isBeyond, Bool.and_eq_true, decide_eq_true_eq] at h h' ⊢
    exact ⟨idLess_trans h'.1 h.1, Int.le_trans h'.2 h.2⟩
  irrefl a := by
    rw [isBeyond, idLess_irrefl]
    rfl
  sorted := by
    refine inOrder_pairwise.imp fun {a b} h => ?_
    rw [Bool.eq_false_iff]
    intro hbeyond
    simp only [isBeyond, Bool.and_eq_true, decide_eq_true_eq] at hbeyond
    rcases h with h | ⟨-, h⟩
    · exact absurd hbeyond.2 (Int.not_le.2 h)
    · rw [h] at hbeyond
      exact absurd hbeyond.1 (by decide)

theorem pageQuery_eq_filter (limit : Nat) (page : Pagination) :
    pageQuery key page limit rows =
      ((inOrder key rows).filter fun r => page.covers (key r).1 (key r).2).take limit := by
  unfold pageQuery
  congr 1
  refine List.Perm.eq_of_pairwise ?_ inOrder_pairwise (inOrder_pairwise.filter _) ?_
  · intro a b ha hb hab hba
    have ha' : a ∈ rows := mem_of_mem_filter (mem_inOrder.1 ha)
    have hb' : b ∈ rows := mem_inOrder.1 (mem_of_mem_filter hb)
    exact inj_on_of_nodup_map hids ha' hb' (newestFirst_antisymm hab hba)
  · exact inOrder_perm.trans (inOrder_perm.symm.filter _)

theorem pageQuery_eq (limit : Nat) (cursor : Option ρ) :
    pageQuery key { next := cursor.map (cursorOf key) } limit rows =
      (Paging.rest (isBeyond key) (inOrder key rows) cursor).take limit := by
  have hcovers : ∀ r, Pagination.covers { next := cursor.map (cursorOf key) } (key r).1 (key r).2 =
      cursor.all (isBeyond key · r) := by
    intro r
    cases cursor <;> simp [Pagination.covers, cursorOf, isBeyond]
  rw [pageQuery_eq_filter hids]
  simp only [hcovers, Paging.rest]

end

/-! ## Complete listings -/

variable {rowsAt : Nat → List ρ}

theorem followNext_eq_walk (hids : (rows.map fun r => (key r).1).Nodup) (limit : Nat)
    (cap : Option Nat) (hsame : ∀ i, rowsAt i = rows) (n i : Nat) (found : List ρ)
    (cursor : Option ρ) :
    followNext key limit cap rowsAt n i found { next := cursor.map (cursorOf key) } =
      Paging.walk (isBeyond key) limit cap (inOrder key rows) n found cursor := by
  induction n generalizing i found cursor with
  | zero => rfl
  | succ n ih =>
    rw [followNext, Paging.walk_eq, hsame i, pageQuery_eq hids]
    dsimp only
    cases ((Paging.rest (isBeyond key) (inOrder key rows) cursor).take limit).getLast? with
    | none => rfl
    | some last =>
      simp only
      split
      · rfl
      · exact ih (i + 1) _ (some last)

/-- Wherever a page of `limit` rows ends before the rows do, the loop goes on, and the rows that are
left have smaller ids than the last row of the page. -/
def PagesDescend (key : ρ → String × Time) (limit : Nat) (cap : Option Nat) (rows : List ρ) :
    Prop :=
  ∀ k > 0, k * limit < rows.length → (∀ m ∈ cap, k * limit < m) ∧
    ∀ last ∈ ((inOrder key rows).take (k * limit)).getLast?,
      ∀ r ∈ (inOrder key rows).drop (k * limit), idLess (key r).1 (key last).1 = true

/-- Later rows are not newer, so only the ids decide whether they are beyond a row. -/
theorem cutAt_iff (j : Nat) :
    Paging.CutAt (isBeyond key) (inOrder key rows) j ↔
      ∀ last ∈ ((inOrder key rows).take j).getLast?,
        ∀ r ∈ (inOrder key rows).drop j, idLess (key r).1 (key last).1 = true := by
  refine forall₂_congr fun last hlast => forall₂_congr fun r hr => ?_
  have hsorted := @inOrder_pairwise ρ key rows
  rw [← take_append_drop j (inOrder key rows), pairwise_append] at hsorted
  have hle : (key r).2 ≤ (key last).2 := by
    rcases hsorted.2.2 last (mem_of_getLast? hlast) r hr with h | ⟨h, -⟩
    · exact Int.le_of_lt h
    · exact Int.le_of_eq h
  simp [isBeyond, hle]

variable {limit : Nat}

/-- A listing finds every matching row if and only if the ids descend across the ends of its
pages. -/
theorem mem_followNext_iff (hids : (rows.map fun r => (key r).1).Nodup) (hlimit : 0 < limit)
    (cap : Option Nat) (hsame : ∀ i, rowsAt i = rows) {n : Nat} (hn : rows.length < n) :
    (∀ r ∈ rows, r ∈ followNext key limit cap rowsAt n 0 [] (newPagination none none)) ↔
      PagesDescend key limit cap rows := by
  have hlen : (inOrder key rows).length = rows.length := inOrder_perm.length_eq
  have hwalk :=
    @Paging.Ordered.mem_walk_iff ρ _ limit cap _ (inOrder_ordered hids) hlimit n (by omega)
  rw [show newPagination none none = { next := Option.map (cursorOf key) none } from rfl,
    followNext_eq_walk hids limit cap hsame]
  simp only [mem_inOrder] at hwalk
  rw [hwalk]
  refine forall₂_congr fun k _ => ?_
  rw [Paging.CleanAt, hlen, cutAt_iff]

theorem mem_of_mem_followNext {cap : Option Nat} (hsub : ∀ i, ∀ r ∈ rowsAt i, r ∈ rows)
    {n i : Nat} {found : List ρ} {page : Pagination} (hfound : ∀ r ∈ found, r ∈ rows) {r : ρ}
    (hr : r ∈ followNext key limit cap rowsAt n i found page) : r ∈ rows := by
  induction n generalizing i found page with
  | zero => exact hfound r hr
  | succ n ih =>
    have happ : ∀ r ∈ found ++ pageQuery key page limit (rowsAt i), r ∈ rows := by
      intro r hr
      rcases mem_append.1 hr with hmem | hmem
      · exact hfound r hmem
      · exact hsub i r (mem_pageQuery hmem).1
    rw [followNext] at hr
    split at hr
    · exact hfound r hr
    · dsimp only at hr
      split at hr
      · exact happ r hr
      · exact ih happ hr

/-- A listing returns the id of every matching row if and only if the ids descend across the ends of
its pages. -/
theorem id_mem_followNext_iff (hids : (rows.map fun r => (key r).1).Nodup) (hlimit : 0 < limit)
    (cap : Option Nat) (hsame : ∀ i, rowsAt i = rows) {n : Nat} (hn : rows.length < n) :
    (∀ r ∈ rows, (key r).1 ∈ (followNext key limit cap rowsAt n 0 [] (newPagination none none)).map
      fun r => (key r).1) ↔ PagesDescend key limit cap rows := by
  rw [← mem_followNext_iff hids hlimit cap hsame hn]
  have hsub : ∀ i, ∀ r ∈ rowsAt i, r ∈ rows := fun i r hr => hsame i ▸ hr
  refine forall₂_congr fun r hr => ⟨fun h => ?_, mem_map_of_mem⟩
  obtain ⟨r', hr', heq⟩ := mem_map.1 h
  have hmem : r' ∈ rows := mem_of_mem_followNext hsub (fun _ h => by cases h) hr'
  rwa [← inj_on_of_nodup_map hids hmem hr heq]

end

theorem nodup_filter_ids {ρ : Type} {id : ρ → Xid} {rows : List ρ} (hids : (rows.map id).Nodup)
    (p : ρ → Bool) : ((rows.filter p).map fun r => (id r).string).Nodup := by
  have hfilter : ((rows.filter p).map id).Nodup := hids.sublist (filter_sublist.map id)
  have hstrings := hfilter.map Xid.string_injective
  rwa [map_map] at hstrings

/-! ## Jobs in a status -/

def JobRow.key (row : JobRow) : String × Time := (row.id.string, row.createdAt)

/-- The rows of `getJobsForStatusAndDeltaWithCustomQuery` when the clock reads `now`. -/
def isForStatusAndDelta (jobQuery : JobRow → Bool) (status : JobStatus) (delta : Duration)
    (useStatusChangedAt : Bool) (now : Time) (row : JobRow) : Bool :=
  let date := if useStatusChangedAt then row.statusChangedAt else row.earliestNextAttemptAt
  jobQuery row && row.status == status && decide (date ≤ now + sinceDelta delta)

section
variable (db : Db) (now : Nat → Time)

/-- `getJobsForStatusAndDeltaWithCustomQuery`. `now i` is the clock that page `i` reads. -/
def getJobsForStatusAndDeltaWithCustomQuery (jobQuery : JobRow → Bool) (status : JobStatus)
    (delta : Duration) (useStatusChangedAt : Bool) : List DeliveryJob :=
  (followNext JobRow.key 100 none
    (fun i => db.job.filter (isForStatusAndDelta jobQuery status delta useStatusChangedAt (now i)))
    (db.job.length + 1) 0 [] (newPagination none none)).map (·.toDeliveryJob db)

end

/-- For a filter that the clock readings of the pages answer alike, the listing returns every
matching job if and only if the ids descend across the ends of the pages of 100. -/
theorem getJobsForStatusAndDelta_complete {db : Db} (hids : (db.job.map (·.id)).Nodup)
    {now : Nat → Time} {jobQuery : JobRow → Bool} {status : JobStatus} {delta : Duration}
    {useStatusChangedAt : Bool}
    (hsame : ∀ i, ∀ row ∈ db.job,
      isForStatusAndDelta jobQuery status delta useStatusChangedAt (now i) row =
        isForStatusAndDelta jobQuery status delta useStatusChangedAt (now 0) row) :
    (∀ row ∈ db.job,
      isForStatusAndDelta jobQuery status delta useStatusChangedAt (now 0) row = true →
      row.id.string ∈ (getJobsForStatusAndDeltaWithCustomQuery db now jobQuery status delta
        useStatusChangedAt).map (·.id.string)) ↔
    PagesDescend JobRow.key 100 none
      (db.job.filter (isForStatusAndDelta jobQuery status delta useStatusChangedAt (now 0))) := by
  rw [← id_mem_followNext_iff (nodup_filter_ids hids _) (by decide) none
    (fun i => filter_congr (hsame i)) (Nat.lt_succ_of_le (length_filter_le _ _))]
  simp only [mem_filter, and_imp, getJobsForStatusAndDeltaWithCustomQuery, map_map]
  rfl

def MessageRow.key (row : MessageRow) : String × Time := (row.id.string, row.createdAt)

def emptyStakeholder : MessageStakeholder :=
  { id := Xid.nil, createdAt := 0, updatedAt := 0, name := "", token := "" }

/-- The message that `getMessages` builds from a row. The errors of the two lookups are ignored, and
a record that is not found is empty. -/
def MessageRow.load (db : Db) (row : MessageRow) : Message :=
  { row.toMessage with
    broadcastedTo := some ((getChannel db row.channelId).toOption.getD
      { emptyStakeholder with channelID := "" })
    producedBy := some ((getProducer db row.producerId).toOption.getD
      { emptyStakeholder with producerID := "" }) }

/-- The rows of `GetMessagesNotDispatchedForCertainPeriod`. -/
def isNotDispatchedSince (now : Time) (delta : Duration) (row : MessageRow) : Bool :=
  row.status == .acknowledged && decide (row.receivedAt ≤ now + sinceDelta delta)

def getMessagesNotDispatchedForCertainPeriod (db : Db) (now : Time) (delta : Duration) :
    List Message :=
  (followNext MessageRow.key 100 none (fun _ => db.message.filter (isNotDispatchedSince now delta))
    (db.message.length + 1) 0 [] (newPagination none none)).map (·.load db)

/-- The rows of `pruneMessageQuery`: old messages that are dispatched, without a parked job and with
delivered jobs only. -/
def isCompletelyDelivered (db : Db) (now : Time) (delta : Duration) (row : MessageRow) : Bool :=
  row.status == .dispatched && decide (row.createdAt ≤ now + sinceDelta delta) &&
  !(db.job.any fun job => job.messageId == row.id && job.status != .delivered) &&
  !(db.jobParking.any fun parked => parked.messageId == row.id)

def getMessagesFromBeforeDurationThatAreCompletelyDelivered (db : Db) (now : Time)
    (delta : Duration) (absoluteMaxMessages : Nat) : List Message :=
  (followNext MessageRow.key 100 (some absoluteMaxMessages)
    (fun _ => db.message.filter (isCompletelyDelivered db now delta))
    (db.message.length + 1) 0 [] (newPagination none none)).map (·.load db)

/-- A listing of messages returns every matching message if and only if the ids descend across the
ends of the pages of 100. -/
theorem messages_complete {db : Db} (hids : (db.message.map (·.id)).Nodup) (p : MessageRow → Bool)
    (cap : Option Nat) :
    (∀ row ∈ db.message, p row = true →
      row.id.string ∈ ((followNext MessageRow.key 100 cap (fun _ => db.message.filter p)
        (db.message.length + 1) 0 [] (newPagination none none)).map (·.load db)).map
          (·.id.string)) ↔
    PagesDescend MessageRow.key 100 cap (db.message.filter p) := by
  rw [← id_mem_followNext_iff (nodup_filter_ids hids p) (by decide) cap (fun _ => rfl)
    (Nat.lt_succ_of_le (length_filter_le p _))]
  simp only [mem_filter, and_imp, map_map]
  rfl

end WebhookBroker
