import WebhookBroker.Storage.Listing

/-!
# Following the previous cursor (`storage/producerrepo.go`, `storage/rdbms.go`)

A page of `GetList` comes with two cursors: its last row for the next page, its first row for the
previous one. The query for the previous page takes the rows before the cursor and orders them
newest first, as every other page, so its limit keeps the rows at the *start* of the list and not
those just before the cursor. Where ids and creation times are in the same order, the previous
cursor of any page therefore leads to the first page (`previousPage_eq_first`).
-/

namespace WebhookBroker

open Lib List

section
variable {ρ : Type} (key : ρ → String × Time) (limit : Nat) (rows : List ρ)

/-- `GetList`: the rows of a page, where the next and the previous page start, and the error. -/
def listPage (page : Pagination) : List ρ × Pagination × Option StorageErr :=
  if page.next.isSome && page.previous.isSome then ([], {}, some .paginationDeadlock)
  else
    let pageRows := pageQuery key page limit rows
    (pageRows, { next := pageRows.getLast?.map (cursorOf key)
                 previous := pageRows.head?.map (cursorOf key) }, none)

/-- The page that is reached by following the next cursor so many times from the first page. After
the last page there are empty ones. -/
def pageAt : Nat → List ρ × Pagination × Option StorageErr
  | 0 => listPage key limit rows (newPagination none none)
  | k + 1 =>
    match (pageAt k).2.1.next with
    | some cursor => listPage key limit rows { next := some cursor }
    | none => ([], {}, none)

end

def ProducerRow.key (row : ProducerRow) : String × Time := (row.id.string, row.createdAt)

/-- `GetList` of the producer repository, 25 at a time. -/
def getProducerList (db : Db) (page : Pagination) :
    List Producer × Pagination × Option StorageErr :=
  let (rows, pagination, err) := listPage ProducerRow.key 25 db.producer page
  (rows.map (·.toProducer), pagination, err)

theorem ProducerRow.toProducer_injective : Function.Injective ProducerRow.toProducer := by
  rintro ⟨⟩ ⟨⟩ h
  simpa [ProducerRow.toProducer, and_comm, and_assoc, and_left_comm] using h

/-- A greater id does not come with an earlier creation time. -/
def IdsFollowTime {ρ : Type} (key : ρ → String × Time) (rows : List ρ) : Prop :=
  ∀ a ∈ rows, ∀ b ∈ rows, idLess (key a).1 (key b).1 = true → (key a).2 ≤ (key b).2

section
variable {ρ : Type} {key : ρ → String × Time} {limit : Nat} {rows : List ρ}

variable (hids : (rows.map fun r => (key r).1).Nodup) (htime : IdsFollowTime key rows)
include hids htime

/-- Where ids follow the time, every row of the list is beyond the rows before it. -/
theorem inOrder_pairwise_isBeyond :
    (inOrder key rows).Pairwise fun a b => isBeyond key a b = true := by
  have hnodup : (inOrder key rows).Pairwise fun a b => (key a).1 ≠ (key b).1 := by
    have hperm : ((inOrder key rows).map fun r => (key r).1).Nodup :=
      (inOrder_perm.map _).nodup_iff.2 hids
    exact pairwise_map.1 hperm
  refine (inOrder_pairwise.and hnodup).imp_of_mem fun {a b} ha hb h => ?_
  obtain ⟨hnewest, hne⟩ := h
  have hle : (key b).2 ≤ (key a).2 := by
    rcases hnewest with hlt | ⟨heq, -⟩
    · exact Int.le_of_lt hlt
    · exact Int.le_of_eq heq
  have hnot : idLess (key a).1 (key b).1 = false := by
    rcases hnewest with hlt | ⟨-, hid⟩
    · rw [← Bool.not_eq_true]
      intro hless
      exact Int.not_lt.2 (htime a (mem_inOrder.1 ha) b (mem_inOrder.1 hb) hless) hlt
    · exact hid
  have hless : idLess (key b).1 (key a).1 = true := by
    cases hba : idLess (key b).1 (key a).1 with
    | true => rfl
    | false => exact absurd (eq_of_not_idLess hnot hba) hne
  simp [isBeyond, hless, hle]

theorem listPage_next (j : Nat) :
    listPage key limit rows { next := ((inOrder key rows).take j).getLast?.map (cursorOf key) } =
      (((inOrder key rows).drop j).take limit,
        { next := (((inOrder key rows).drop j).take limit).getLast?.map (cursorOf key)
          previous :=
            (((inOrder key rows).drop j).take limit).head?.map (cursorOf key) }, none) := by
  have hcut := Paging.cutAt_of_pairwise (inOrder_pairwise_isBeyond hids htime) j
  have hpage := pageQuery_eq hids limit ((inOrder key rows).take j).getLast?
  rw [(inOrder_ordered hids).rest_eq_drop hcut] at hpage
  rw [listPage, hpage]
  simp

/-- The pages cut the list into parts of the page size. -/
theorem pageAt_eq (k : Nat) :
    (pageAt key limit rows k).1 = ((inOrder key rows).drop (k * limit)).take limit ∧
      (pageAt key limit rows k).2.1 =
        { next := (((inOrder key rows).drop (k * limit)).take limit).getLast?.map (cursorOf key)
          previous :=
            (((inOrder key rows).drop (k * limit)).take limit).head?.map (cursorOf key) } := by
  induction k with
  | zero =>
    have hfirst := @listPage_next ρ key limit rows hids htime 0
    rw [take_zero] at hfirst
    rw [pageAt, Nat.zero_mul, show newPagination none none =
      { next := Option.map (cursorOf key) ([] : List ρ).getLast? } from rfl, hfirst]
    exact ⟨rfl, rfl⟩
  | succ k ih =>
    have hsplit : (inOrder key rows).take ((k + 1) * limit) =
        (inOrder key rows).take (k * limit) ++
          ((inOrder key rows).drop (k * limit)).take limit := by
      rw [Nat.succ_mul, take_add]
    rw [pageAt, ih.2]
    cases hlast : (((inOrder key rows).drop (k * limit)).take limit).getLast? with
    | none =>
      have hnil := List.getLast?_eq_none_iff.1 hlast
      have hrest : ((inOrder key rows).drop ((k + 1) * limit)).take limit = [] := by
        rcases take_eq_nil_iff.1 hnil with h0 | h0
        · rw [h0, take_zero]
        · rw [Nat.succ_mul, ← drop_drop, h0, drop_nil, take_nil]
      rw [hrest]
      exact ⟨rfl, rfl⟩
    | some last =>
      have hpage := @listPage_next ρ key limit rows hids htime ((k + 1) * limit)
      rw [hsplit, List.getLast?_append, hlast, Option.some_or, Option.map_some] at hpage
      rw [Option.map_some]
      dsimp only
      rw [hpage]
      exact ⟨rfl, rfl⟩

variable {k : Nat}

theorem previousPage_eq_first {cursor : Cursor}
    (hcursor : (pageAt key limit rows (k + 1)).2.1.previous = some cursor) :
    (listPage key limit rows { previous := some cursor }).1 = (pageAt key limit rows 0).1 := by
  rw [(pageAt_eq hids htime (k + 1)).2] at hcursor
  obtain ⟨first, hfirst, rfl⟩ := Option.map_eq_some_iff.1 hcursor
  have hget : (inOrder key rows)[(k + 1) * limit]? = some first := by
    rw [List.head?_take] at hfirst
    split at hfirst
    · cases hfirst
    · rwa [List.head?_drop] at hfirst
  have hbefore := (inOrder_ordered hids).filter_before (inOrder_pairwise_isBeyond hids htime) hget
  have hcovers : ∀ r, Pagination.covers { previous := some (cursorOf key first) } (key r).1
      (key r).2 = isBeyond key r first := by
    intro r
    simp [Pagination.covers, cursorOf, isBeyond]
  have hle : limit ≤ (k + 1) * limit := by
    rw [Nat.succ_mul]
    exact Nat.le_add_left _ _
  rw [(pageAt_eq hids htime 0).1, Nat.zero_mul, drop_zero, listPage, pageQuery_eq_filter hids]
  simp only [hcovers, hbefore, take_take, Nat.min_eq_left hle]
  rfl

theorem head?_pageAt (hlimit : 0 < limit) :
    (pageAt key limit rows k).1.head? = (inOrder key rows)[k * limit]? := by
  rw [(pageAt_eq hids htime k).1, List.head?_take, if_neg (Nat.ne_of_gt hlimit), List.head?_drop]

theorem exists_previous (hlimit : 0 < limit) (hk : k * limit < rows.length) :
    ∃ cursor, (pageAt key limit rows k).2.1.previous = some cursor := by
  have hlen : k * limit < (inOrder key rows).length := by rwa [inOrder_perm.length_eq]
  rw [(pageAt_eq hids htime k).2, List.head?_take, if_neg (Nat.ne_of_gt hlimit), List.head?_drop,
    List.getElem?_eq_getElem hlen]
  exact ⟨_, rfl⟩

theorem eq_zero_of_pageAt_eq {cursor : Cursor}
    (hcursor : (pageAt key limit rows (k + 1)).2.1.previous = some cursor)
    (heq : (pageAt key limit rows 0).1 = (pageAt key limit rows k).1) : k = 0 := by
  rw [(pageAt_eq hids htime (k + 1)).2] at hcursor
  obtain ⟨row, hrow, -⟩ := Option.map_eq_some_iff.1 hcursor
  rw [List.head?_take] at hrow
  split at hrow
  · cases hrow
  · rename_i hlimit
    rw [List.head?_drop, Nat.succ_mul] at hrow
    have hlimit : 0 < limit := Nat.pos_of_ne_zero hlimit
    have hlen := (List.getElem?_eq_some_iff.1 hrow).1
    have hhead : (inOrder key rows)[0 * limit]? = (inOrder key rows)[k * limit]? := by
      rw [← head?_pageAt hids htime hlimit, ← head?_pageAt hids htime hlimit, heq]
    have hindex := (List.getElem?_inj (by omega) (inOrder_ordered hids).nodup).1 hhead
    rw [Nat.zero_mul] at hindex
    exact (Nat.mul_eq_zero.1 hindex.symm).resolve_right (Nat.ne_of_gt hlimit)

end

/-- In a table with distinct ids that follow the time, the previous cursor of the page after the
page `k` returns the first page; these are the rows of page `k` if and only if that is the first
page itself. -/
theorem previous_page_iff_first {ρ : Type} (key : ρ → String × Time) (rows : List ρ)
    (hids : (rows.map fun r => (key r).1).Nodup) (htime : IdsFollowTime key rows) (limit k : Nat)
    (cursor : Cursor) (hcursor : (pageAt key limit rows (k + 1)).2.1.previous = some cursor) :
    (listPage key limit rows { previous := some cursor }).1 = (pageAt key limit rows 0).1 ∧
      ((listPage key limit rows { previous := some cursor }).1 = (pageAt key limit rows k).1 ↔
        k = 0) := by
  have hfirst := previousPage_eq_first hids htime hcursor
  refine ⟨hfirst, ?_⟩
  rw [hfirst]
  constructor
  · exact eq_zero_of_pageAt_eq hids htime hcursor
  · rintro rfl
    rfl

/-! ## Three pages -/

namespace Sample

def xidPair (i j : Fin 32) : Xid where
  string := String.ofList (List.replicate 18 '0' ++ [xidDigit i, xidDigit j])
  length := by rw [String.length_ofList, length_append, length_replicate]; rfl
  chars := by
    intro c hc
    rw [String.toList_ofList, mem_append, mem_cons, mem_singleton] at hc
    rcases hc with hc | rfl | rfl
    · rw [eq_of_mem_replicate hc]
      decide
    · exact isXidChar_xidDigit i
    · exact isXidChar_xidDigit j

theorem xidPair_injective :
    Function.Injective fun p : Fin 32 × Fin 32 => (xidPair p.1 p.2).string := by
  rintro ⟨i, j⟩ ⟨i', j'⟩ h
  have hlist := String.ofList_injective h
  rw [append_cancel_left_eq, List.cons.injEq, List.cons.injEq] at hlist
  rw [xidDigit_inj i i' hlist.1, xidDigit_inj j j' hlist.2.1]

def manyProducers : Db where
  producer := ((List.finRange 32).take 2 ×ˢ List.finRange 32).map fun p =>
    ⟨xidPair p.1 p.2, (xidPair p.1 p.2).string, "p", "t", 1, 1⟩

theorem manyProducers_ids : (manyProducers.producer.map fun r => r.key.1).Nodup := by
  rw [manyProducers, map_map]
  refine List.Nodup.map xidPair_injective (List.Nodup.product ?_ (nodup_finRange 32))
  exact (nodup_finRange 32).sublist (take_sublist 2 _)

theorem manyProducers_idsFollowTime : IdsFollowTime ProducerRow.key manyProducers.producer := by
  have htime : ∀ row ∈ manyProducers.producer, row.key.2 = 1 := by
    intro row hrow
    obtain ⟨p, -, rfl⟩ := mem_map.1 hrow
    rfl
  intro a ha b hb _
  rw [htime a ha, htime b hb]

theorem manyProducers_length : manyProducers.producer.length = 64 := by
  rw [manyProducers, length_map]
  decide +kernel

end Sample

open Sample

theorem previous_page_iff_first_second : ∃ cursor,
    (pageAt ProducerRow.key 25 manyProducers.producer 1).2.1.previous = some cursor ∧
    (listPage ProducerRow.key 25 manyProducers.producer { previous := some cursor }).1 =
      (pageAt ProducerRow.key 25 manyProducers.producer 0).1 := by
  have hids := manyProducers_ids
  have htime := manyProducers_idsFollowTime
  have hlen := manyProducers_length
  generalize manyProducers.producer = rows at *
  have hlt : 1 * 25 < rows.length := by omega
  obtain ⟨cursor, hcursor⟩ := exists_previous hids htime (by decide) hlt
  exact ⟨cursor, hcursor, (previous_page_iff_first _ rows hids htime 25 0 cursor hcursor).1⟩

/-- From the third page of the producers, the previous cursor does not lead to the second. -/
theorem previous_of_third_page_not_second : ∃ cursor,
    (pageAt ProducerRow.key 25 manyProducers.producer 2).2.1.previous = some cursor ∧
    (getProducerList manyProducers { previous := some cursor }).1 ≠
      (pageAt ProducerRow.key 25 manyProducers.producer 1).1.map (·.toProducer) := by
  have hids := manyProducers_ids
  have htime := manyProducers_idsFollowTime
  have hlen := manyProducers_length
  generalize manyProducers = db at *
  have hlt : 2 * 25 < db.producer.length := by omega
  obtain ⟨cursor, hcursor⟩ := exists_previous hids htime (by decide) hlt
  refine ⟨cursor, hcursor, fun heq => ?_⟩
  have hrows : (listPage ProducerRow.key 25 db.producer { previous := some cursor }).1 =
      (pageAt ProducerRow.key 25 db.producer 1).1 :=
    map_injective_iff.2 ProducerRow.toProducer_injective heq
  rw [previousPage_eq_first hids htime hcursor] at hrows
  cases eq_zero_of_pageAt_eq hids htime hcursor hrows

end WebhookBroker
