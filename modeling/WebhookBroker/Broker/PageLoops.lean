import WebhookBroker.Broker.ListingFaults

/-!
# Page loops over tables that change (`storage/deliveryjobrepo.go`, `storage/messagerepo.go`)

Between two pages of a listing, other requests may insert and delete rows and change every column
but the id and the creation time. What the loops collect then is a sequence of chunks, each of which
starts after the last row of the one before (`Chunks`). A chunk holds no row that is at or before
its cursor in the order of the pages, whatever the table has become, so no row is collected twice;
and the ids of the cursors descend, so the loop ends although there may always be new rows: there
are only finitely many ids.
-/

namespace WebhookBroker

open Lib List

section
variable {ρ α : Type} (key : ρ → String × Time) (limit : Nat) (cap : Option Nat)
  (streams : Nat → ResultStream) (rows : Nat → List ρ) (load : Nat → ρ → α)

/-- The loop of a listing, for at most `n` rounds. In round `i` the query answers `rows i`, which
`load i` turns into records. -/
def pageLoop : Nat → Nat → List α → Pagination → Option (List α)
  | 0, _, _, _ => none
  | n + 1, i, found, page =>
    let (pageRows, err) := queryRows (streams i) (pageQuery key page limit (rows i))
    if err.isSome then some found
    else match pageRows.getLast? with
      | none => some found
      | some last =>
        let found := found ++ pageRows.map (load i)
        if cap.any (· ≤ found.length) then some found
        else pageLoop n (i + 1) found { page with next := some (cursorOf key last) }

end

section
variable (dbAt : Nat → Db) (streams : Nat → ResultStream)

/-- `getJobsForStatusAndDeltaWithCustomQuery`, where round `i` reads the database `dbAt i` and the
clock `now i`. -/
def getJobsForStatusAndDeltaWithCustomQueryAt (now : Nat → Time) (jobQuery : Db → JobRow → Bool)
    (status : JobStatus) (delta : Duration) (useStatusChangedAt : Bool) (n : Nat) :
    Option (List DeliveryJob) :=
  pageLoop JobRow.key 100 none streams
    (fun i => (dbAt i).job.filter
      (isForStatusAndDelta (jobQuery (dbAt i)) status delta useStatusChangedAt (now i)))
    (fun i row => row.toDeliveryJob (dbAt i)) n 0 [] (newPagination none none)

/-- `GetMessagesNotDispatchedForCertainPeriod`. -/
def getMessagesNotDispatchedForCertainPeriodAt (now : Time) (delta : Duration) (n : Nat) :
    Option (List Message) :=
  pageLoop MessageRow.key 100 none streams
    (fun i => (dbAt i).message.filter (isNotDispatchedSince now delta))
    (fun i row => row.load (dbAt i)) n 0 [] (newPagination none none)

/-- `GetMessagesFromBeforeDurationThatAreCompletelyDelivered`. -/
def getMessagesFromBeforeDurationThatAreCompletelyDeliveredAt (now : Time) (delta : Duration)
    (absoluteMaxMessages : Nat) (n : Nat) : Option (List Message) :=
  pageLoop MessageRow.key 100 (some absoluteMaxMessages) streams
    (fun i => (dbAt i).message.filter (isCompletelyDelivered (dbAt i) now delta))
    (fun i row => row.load (dbAt i)) n 0 [] (newPagination none none)

end

/-- The loop of `createJobs` over the pages of consumers. -/
def listConsumersAt (faults : Nat → ListingFault) (dbAt : Nat → Db) (channelID : String) :
    Nat → Nat → Pagination → Option (List Consumer × Option StorageErr)
  | 0, _, _ => none
  | n + 1, i, page =>
    let (consumersPage, page, err) := getConsumerListWith (faults i) (dbAt i) channelID page
    if page.next.isSome && err.isNone then
      (listConsumersAt faults dbAt channelID n (i + 1) { page with previous := none }).map
        fun (consumers, err) => (consumersPage ++ consumers, err)
    else some (consumersPage, err)

/-! ## There are finitely many ids -/

instance finite_char : Finite Char := by
  refine Finite.of_injective (fun c : Char => (⟨c.val.toNat, c.val.toNat_lt⟩ : Fin (2 ^ 32))) ?_
  intro a b h
  exact Char.ext (UInt32.toNat_inj.1 (Fin.mk.inj h))

instance : Finite Xid := by
  have hfinite : Finite { l : List Char // l.length = 20 } :=
    (finite_length_eq Char 20).to_subtype
  refine Finite.of_injective
    (fun x : Xid => (⟨x.string.toList, x.length⟩ : { l : List Char // l.length = 20 })) ?_
  intro a b h
  exact Xid.string_injective (String.toList_inj.1 (Subtype.mk.inj h))

theorem Xid.wellFounded_idLess : WellFounded fun a b : Xid => idLess a.string b.string = true := by
  have htrans : IsTrans Xid fun a b => idLess a.string b.string = true :=
    ⟨fun _ _ _ h h' => idLess_trans h h'⟩
  have hirrefl : Std.Irrefl fun a b : Xid => idLess a.string b.string = true :=
    ⟨fun a h => by rw [idLess_irrefl] at h; cases h⟩
  exact Finite.wellFounded_of_trans_of_irrefl _

/-! ## What the loops collect -/

/-- The rows that are collected from round `i` on: the first rows of a page, and then those after
the last of them. -/
inductive Chunks {ρ : Type} (key : ρ → String × Time) (limit : Nat) (rows : Nat → List ρ) :
    Nat → Pagination → List ρ → Prop
  | last (i : Nat) (page : Pagination) (m : Nat) :
      Chunks key limit rows i page ((pageQuery key page limit (rows i)).take m)
  | more {i : Nat} {page : Pagination} {m : Nat} {last : ρ} {rest : List ρ}
      (hlast : ((pageQuery key page limit (rows i)).take m).getLast? = some last)
      (hrest : Chunks key limit rows (i + 1) { next := some (cursorOf key last) } rest) :
      Chunks key limit rows i page ((pageQuery key page limit (rows i)).take m ++ rest)

section
variable {ρ : Type} {key : ρ → String × Time} {limit : Nat} {rows : Nat → List ρ} {i : Nat}
  {page : Pagination} {l : List ρ}

theorem Chunks.mem (h : Chunks key limit rows i page l) {r : ρ} (hr : r ∈ l) :
    ∃ j, r ∈ rows j := by
  induction h with
  | last i page m => exact ⟨i, (mem_pageQuery (mem_of_mem_take hr)).1⟩
  | @more i page m last rest _ _ ih =>
    rcases mem_append.1 hr with hr | hr
    · exact ⟨i, (mem_pageQuery (mem_of_mem_take hr)).1⟩
    · exact ih hr

theorem Chunks.covers (h : Chunks key limit rows i page l) (hprev : page.previous = none) {r : ρ}
    (hr : r ∈ l) : page.covers (key r).1 (key r).2 = true := by
  induction h with
  | last i page m => exact (mem_pageQuery (mem_of_mem_take hr)).2
  | more hlast _ ih =>
    rcases mem_append.1 hr with hr | hr
    · exact (mem_pageQuery (mem_of_mem_take hr)).2
    · have hcovers := (mem_pageQuery (mem_of_mem_take (mem_of_getLast? hlast))).2
      exact covers_of_next hprev hcovers (ih rfl hr)

/-- The rows of a chunk are different, and none comes after the last one. -/
theorem take_pageQuery_spec (hids : ((rows i).map fun r => (key r).1).Nodup) (m : Nat) :
    (((pageQuery key page limit (rows i)).take m).map key).Nodup ∧
      ∀ last, ((pageQuery key page limit (rows i)).take m).getLast? = some last →
        ∀ r ∈ (pageQuery key page limit (rows i)).take m,
          Pagination.covers { next := some (cursorOf key last) } (key r).1 (key r).2 = false := by
  have hordered : Paging.Ordered (isBeyond key) ((inOrder key (rows i)).filter fun r =>
      page.covers (key r).1 (key r).2) := (inOrder_ordered hids).sublist filter_sublist
  rw [pageQuery_eq_filter hids, take_take]
  refine ⟨?_, fun last hlast r hr => ?_⟩
  · have hkeys : ((inOrder key (rows i)).map key).Nodup := by
      refine List.Nodup.of_map Prod.fst ?_
      rw [map_map]
      exact (inOrder_perm.map _).nodup_iff.2 hids
    exact hkeys.sublist (((take_sublist _ _).trans filter_sublist).map key)
  · have hbeyond := hordered.not_beyond_last hlast hr
    rw [← hbeyond]
    simp [Pagination.covers, cursorOf, isBeyond]

theorem Chunks.nodup (h : Chunks key limit rows i page l)
    (hids : ∀ i, ((rows i).map fun r => (key r).1).Nodup) : (l.map key).Nodup := by
  induction h with
  | last i page m => exact (take_pageQuery_spec (hids i) m).1
  | @more i page m last rest hlast hrest ih =>
    obtain ⟨hchunk, hpassed⟩ := @take_pageQuery_spec ρ key limit rows i page (hids i) m
    rw [map_append]
    refine hchunk.append ih fun k hk hk' => ?_
    obtain ⟨r, hr, rfl⟩ := mem_map.1 hk
    obtain ⟨r', hr', hkey⟩ := mem_map.1 hk'
    have hcovers := hrest.covers rfl hr'
    rw [hkey, hpassed last hlast r hr] at hcovers
    cases hcovers

end

/-! ## The rounds of a listing -/

theorem queryRows_eq_take {ρ : Type} (stream : ResultStream) (rows : List ρ) :
    ∃ m, (queryRows stream rows).1 = rows.take m := by
  cases stream with
  | complete => exact ⟨rows.length, take_length.symm⟩
  | queryFails err => exact ⟨0, rfl⟩
  | scanFails row err =>
    rw [queryRows]
    split
    · exact ⟨row, rfl⟩
    · exact ⟨rows.length, take_length.symm⟩
  | breaksOff n => exact ⟨n, rfl⟩

/-- A round appends the first rows of its page to what is found. It is the last one, or the next
round starts after the last of these rows. -/
def IsPageLoop {ρ α : Type} (key : ρ → String × Time) (limit : Nat) (rows : Nat → List ρ)
    (keyOf : α → String × Time) (loop : Nat → Nat → List α → Pagination → Option (List α)) : Prop :=
  ∀ (i : Nat) (found : List α) (page : Pagination), page.previous = none →
    ∃ (m : Nat) (chunk : List α),
    chunk.map keyOf = ((pageQuery key page limit (rows i)).take m).map key ∧
    ((∀ n, loop (n + 1) i found page = some (found ++ chunk)) ∨
      ∃ last, ((pageQuery key page limit (rows i)).take m).getLast? = some last ∧
        ∀ n, loop (n + 1) i found page =
          loop n (i + 1) (found ++ chunk) { next := some (cursorOf key last) })

section
variable {ρ α : Type} {key : ρ → String × Time} {limit : Nat} {rows : Nat → List ρ}
  {keyOf : α → String × Time} {loop : Nat → Nat → List α → Pagination → Option (List α)}

/-- From some number of rounds on, the result is `r`, and what it holds beside `found` are
chunks. -/
def EndsWithChunks (key : ρ → String × Time) (limit : Nat) (rows : Nat → List ρ)
    (keyOf : α → String × Time) (loop : Nat → Nat → List α → Pagination → Option (List α))
    (i : Nat) (found : List α) (page : Pagination) : Prop :=
  ∃ (n : Nat) (r : List α) (l : List ρ), (∀ m, n ≤ m → loop m i found page = some r) ∧
    r.map keyOf = found.map keyOf ++ l.map key ∧ Chunks key limit rows i page l

theorem IsPageLoop.ends_of_next (h : IsPageLoop key limit rows keyOf loop) {i : Nat}
    {found : List α} {page : Pagination} (hprev : page.previous = none)
    (hnext : ∀ last ∈ pageQuery key page limit (rows i), ∀ found,
      EndsWithChunks key limit rows keyOf loop (i + 1) found { next := some (cursorOf key last) }) :
    EndsWithChunks key limit rows keyOf loop i found page := by
  obtain ⟨m, chunk, hchunk, hstop | ⟨last, hlast, hgo⟩⟩ := h i found page hprev
  · refine ⟨1, found ++ chunk, _, fun n hn => ?_, ?_, .last i page m⟩
    · obtain ⟨n, rfl⟩ : ∃ k, n = k + 1 := ⟨n - 1, by omega⟩
      exact hstop n
    · rw [map_append, hchunk]
  · have hmem := mem_of_mem_take (mem_of_getLast? hlast)
    obtain ⟨n, r, l, hloop, hl, hchunks⟩ := hnext last hmem (found ++ chunk)
    refine ⟨n + 1, r, _, fun n' hn' => ?_, ?_, .more hlast hchunks⟩
    · obtain ⟨n', rfl⟩ : ∃ k, n' = k + 1 := ⟨n' - 1, by omega⟩
      rw [hgo n']
      exact hloop n' (Nat.le_of_succ_le_succ hn')
    · rw [hl, map_append, hchunk, map_append, append_assoc]

theorem IsPageLoop.ends (h : IsPageLoop key limit rows keyOf loop)
    (hwf : WellFounded fun a b : ρ => idLess (key a).1 (key b).1 = true) (i : Nat)
    (found : List α) :
    EndsWithChunks key limit rows keyOf loop i found (newPagination none none) := by
  have hafter : ∀ (row : ρ) (i : Nat) (found : List α),
      EndsWithChunks key limit rows keyOf loop i found { next := some (cursorOf key row) } := by
    intro row
    induction row using hwf.induction with
    | _ row ih =>
      intro i found
      refine h.ends_of_next rfl fun last hlast found => ih last ?_ (i + 1) found
      have hcovers := (mem_pageQuery hlast).2
      simp only [Pagination.covers, cursorOf, Option.all_some, Option.all_none, Bool.and_true,
        Bool.and_eq_true] at hcovers
      exact hcovers.1
  exact h.ends_of_next rfl fun last _ found => hafter last (i + 1) found

end

theorem pageLoop_isPageLoop {ρ α : Type} {key : ρ → String × Time} {keyOf : α → String × Time}
    {load : Nat → ρ → α} (hkey : ∀ i row, keyOf (load i row) = key row) (limit : Nat)
    (cap : Option Nat) (streams : Nat → ResultStream) (rows : Nat → List ρ) :
    IsPageLoop key limit rows keyOf (pageLoop key limit cap streams rows load) := by
  intro i found page hprev
  obtain ⟨m, hm⟩ := queryRows_eq_take (streams i) (pageQuery key page limit (rows i))
  simp only [pageLoop, hm]
  split
  · exact ⟨0, [], rfl, .inl fun _ => by rw [append_nil]⟩
  · split
    · exact ⟨0, [], rfl, .inl fun _ => by rw [append_nil]⟩
    · rename_i last hlast
      refine ⟨m, ((pageQuery key page limit (rows i)).take m).map (load i), ?_, ?_⟩
      · rw [map_map]
        exact map_congr_left fun row _ => hkey i row
      · split
        · exact .inl fun _ => rfl
        · exact .inr ⟨last, hlast, fun _ => by rw [hprev]⟩

/-! ## The rounds of `createJobs` -/

def BasePaginateable.key (base : BasePaginateable) : String × Time :=
  (base.id.string, base.createdAt)

/-- The consumers that match the channel id in round `i`. -/
def consumersAt (dbAt : Nat → Db) (channelID : String) (i : Nat) : List ConsumerRow :=
  (dbAt i).consumer.filter fun row => sqlLike channelID row.channelId

/-- `GetList` returns the first rows of a page, and a next page starts after the last of them. -/
theorem getConsumerListWith_spec (fault : ListingFault) (dbAt : Nat → Db) (channelID : String)
    (i : Nat) (page : Pagination) :
    ∃ m, (getConsumerListWith fault (dbAt i) channelID page).1.map (·.key) =
        ((pageQuery ConsumerRow.key page 25 (consumersAt dbAt channelID i)).take m).map
          ConsumerRow.key ∧
      ∀ cursor, (getConsumerListWith fault (dbAt i) channelID page).2.1.next = some cursor →
        ∃ last,
          ((pageQuery ConsumerRow.key page 25 (consumersAt dbAt channelID i)).take m).getLast? =
          some last ∧ cursor = cursorOf ConsumerRow.key last := by
  unfold getConsumerListWith
  split
  · exact ⟨0, rfl, fun _ h => by cases h⟩
  · split
    · exact ⟨0, rfl, fun _ h => by cases h⟩
    · exact ⟨0, rfl, fun _ h => by cases h⟩
    · obtain ⟨m, hm⟩ := queryRows_eq_take fault.stream (consumerPage (dbAt i) channelID page)
      dsimp only
      rw [hm]
      refine ⟨m, ?_, fun cursor hcursor => ?_⟩
      · rw [map_map]
        rfl
      · split at hcursor
        · cases hcursor
        · obtain ⟨base, hbase, rfl⟩ := Option.map_eq_some_iff.1 hcursor
          obtain ⟨consumer, hlast, rfl⟩ := Option.map_eq_some_iff.1 hbase
          rw [List.getLast?_map] at hlast
          obtain ⟨row, hrow, rfl⟩ := Option.map_eq_some_iff.1 hlast
          exact ⟨row, hrow, rfl⟩

theorem listConsumersAt_isPageLoop (faults : Nat → ListingFault) (dbAt : Nat → Db)
    (channelID : String) :
    IsPageLoop ConsumerRow.key 25 (consumersAt dbAt channelID) (·.key)
      fun n i (found : List Consumer) page =>
        (listConsumersAt faults dbAt channelID n i page).map fun result => found ++ result.1 := by
  intro i found page _
  obtain ⟨m, hkeys, hnext⟩ := getConsumerListWith_spec (faults i) dbAt channelID i page
  refine ⟨m, _, hkeys, ?_⟩
  simp only [listConsumersAt]
  split
  · rename_i hmore
    obtain ⟨cursor, hcursor⟩ := Option.isSome_iff_exists.1 (Bool.and_eq_true_iff.1 hmore).1
    obtain ⟨last, hlast, rfl⟩ := hnext cursor hcursor
    refine .inr ⟨last, hlast, fun n => ?_⟩
    simp only [hcursor, Option.map_map, Function.comp_def, append_assoc]
  · exact .inl fun _ => rfl

/-! ## No row is collected twice -/

/-- A row that keeps its id keeps its creation time. -/
def KeysStay {ρ : Type} (key : ρ → String × Time) (table : Nat → List ρ) : Prop :=
  ∀ i j, ∀ r ∈ table i, ∀ r' ∈ table j, (key r).1 = (key r').1 → key r = key r'

/-- The loop ends with a result in which no two records have one id and one creation time; if rows
keep their creation time, no two have one id. -/
def CollectsOnce {α : Type} (keyOf : α → String × Time) (keysStay : Prop)
    (loop : Nat → Option (List α)) : Prop :=
  ∃ (n : Nat) (r : List α), (∀ m, n ≤ m → loop m = some r) ∧ (r.map keyOf).Nodup ∧
    (keysStay → (r.map fun x => (keyOf x).1).Nodup)

/-- A loop over the rows of a table that match a filter. -/
theorem IsPageLoop.collectsOnce {ρ α : Type} {key : ρ → String × Time} {limit : Nat}
    {keyOf : α → String × Time} {loop : Nat → Nat → List α → Pagination → Option (List α)}
    (id : ρ → Xid) (hid : ∀ r, (key r).1 = (id r).string) (table : Nat → List ρ)
    (hids : ∀ i, ((table i).map id).Nodup) (p : Nat → ρ → Bool)
    (h : IsPageLoop key limit (fun i => (table i).filter (p i)) keyOf loop) :
    CollectsOnce keyOf (KeysStay key table) fun n => loop n 0 [] (newPagination none none) := by
  have hwf : WellFounded fun a b : ρ => idLess (key a).1 (key b).1 = true := by
    simp only [hid]
    exact InvImage.wf id Xid.wellFounded_idLess
  obtain ⟨n, r, l, hloop, hl, hchunks⟩ := h.ends hwf 0 []
  rw [map_nil, nil_append] at hl
  have hnodup : (l.map key).Nodup := by
    refine hchunks.nodup fun i => ?_
    simp only [hid]
    exact nodup_filter_ids (hids i) (p i)
  refine ⟨n, r, hloop, hl ▸ hnodup, fun hstay => ?_⟩
  have hfst : (r.map fun x => (keyOf x).1) = (l.map key).map Prod.fst := by
    rw [← hl, map_map]
    rfl
  rw [hfst]
  refine hnodup.map_on fun k hk k' hk' hkk' => ?_
  obtain ⟨a, ha, rfl⟩ := mem_map.1 hk
  obtain ⟨b, hb, rfl⟩ := mem_map.1 hk'
  obtain ⟨i, hi⟩ := hchunks.mem ha
  obtain ⟨j, hj⟩ := hchunks.mem hb
  exact hstay i j a (mem_filter.1 hi).1 b (mem_filter.1 hj).1 hkk'

/-- Whatever the database is when a page is read, and whatever query fails, the loops end, and no
row is in a result twice. -/
theorem page_loops_collect_once (dbAt : Nat → Db)
    (hconsumer : ∀ i, ((dbAt i).consumer.map (·.id)).Nodup)
    (hjob : ∀ i, ((dbAt i).job.map (·.id)).Nodup)
    (hmessage : ∀ i, ((dbAt i).message.map (·.id)).Nodup) :
    (∀ faults channelID,
      CollectsOnce (·.key) (KeysStay ConsumerRow.key fun i => (dbAt i).consumer) fun n =>
        (listConsumersAt faults dbAt channelID n 0 (newPagination none none)).map Prod.fst) ∧
    (∀ streams now jobQuery status delta useStatusChangedAt,
      CollectsOnce (·.key) (KeysStay JobRow.key fun i => (dbAt i).job)
        (getJobsForStatusAndDeltaWithCustomQueryAt dbAt streams now jobQuery status delta
          useStatusChangedAt)) ∧
    (∀ streams now delta,
      CollectsOnce (·.key) (KeysStay MessageRow.key fun i => (dbAt i).message)
        (getMessagesNotDispatchedForCertainPeriodAt dbAt streams now delta)) ∧
    ∀ streams now delta absoluteMaxMessages,
      CollectsOnce (·.key) (KeysStay MessageRow.key fun i => (dbAt i).message)
        (getMessagesFromBeforeDurationThatAreCompletelyDeliveredAt dbAt streams now delta
          absoluteMaxMessages) := by
  refine ⟨fun faults channelID => ?_,
    fun streams now jobQuery status delta useStatusChangedAt => ?_, fun streams now delta => ?_,
    fun streams now delta absoluteMaxMessages => ?_⟩
  · exact IsPageLoop.collectsOnce ConsumerRow.id (fun _ => rfl) _ hconsumer
      (fun _ row => sqlLike channelID row.channelId)
      (listConsumersAt_isPageLoop faults dbAt channelID)
  · refine IsPageLoop.collectsOnce JobRow.id (fun _ => rfl) _ hjob
      (fun i => isForStatusAndDelta (jobQuery (dbAt i)) status delta useStatusChangedAt (now i))
      (pageLoop_isPageLoop ?_ 100 none streams _)
    exact fun _ _ => rfl
  · refine IsPageLoop.collectsOnce MessageRow.id (fun _ => rfl) _ hmessage
      (fun _ => isNotDispatchedSince now delta) (pageLoop_isPageLoop ?_ 100 none streams _)
    exact fun _ _ => rfl
  · refine IsPageLoop.collectsOnce MessageRow.id (fun _ => rfl) _ hmessage
      (fun i => isCompletelyDelivered (dbAt i) now delta)
      (pageLoop_isPageLoop ?_ 100 (some absoluteMaxMessages) streams _)
    exact fun _ _ => rfl

theorem page_loops_collect_once_deleted :
    let db := Sample.twoPages fun i => i.val
    let dbAt := fun i : Nat => { db with consumer := db.consumer.drop i }
    (∀ i, ((dbAt i).consumer.map (·.id)).Nodup) ∧
    CollectsOnce (·.key) (KeysStay ConsumerRow.key fun i => (dbAt i).consumer) fun n =>
      (listConsumersAt (fun _ => {}) dbAt "c" n 0 (newPagination none none)).map Prod.fst := by
  intro db dbAt
  have hids : (db.consumer.map (·.id)).Nodup := by decide +kernel
  have hconsumer : ∀ i, ((dbAt i).consumer.map (·.id)).Nodup :=
    fun i => hids.sublist ((drop_sublist i _).map _)
  exact ⟨hconsumer, (page_loops_collect_once dbAt hconsumer (fun _ => nodup_nil)
    (fun _ => nodup_nil)).1 (fun _ => {}) "c"⟩

end WebhookBroker
