import WebhookBroker.Data.Cursor
import WebhookBroker.Lib.Decimal
import WebhookBroker.Storage.PreviousPage

/-!
# Following the next link of a filtered listing (`controllers/router.go`)

`GET /channel/:channelId/messages` and the listing of scheduled messages take a filter on the
status from the query of the request. `getPaginationLinks` builds the link to the next page from the
path of the request and the cursor of the page alone, so the filter is gone from it: from the second
page on a client that follows the links is given the messages of the channel in any status.
-/

namespace WebhookBroker

open Lib List

/-! ## Requests and links -/

/-- `url.Values`: the values of every key of a query, in order. -/
abbrev UrlValues := String → List String

/-- `Values.Get`: the first value, or the empty text. -/
def UrlValues.get (query : UrlValues) (key : String) : String := (query key).headD ""

/-- The query of the link to the next page: `url.Values` with the one key `next`. Its text is
`Encode` of it, which `URL.Query` reads back. -/
def nextQuery (cursorText : Cursor → String) (next : Cursor) : UrlValues :=
  fun key => if key = "next" then [cursorText next] else []

/-- `MsgStatus(value)`. -/
def MsgStatus.ofValue (value : Int) : MsgStatus :=
  if value = 101 then .acknowledged else if value = 102 then .dispatched else .other value

/-- `ScheduledMsgStatus(value)`. -/
def ScheduledMsgStatus.ofValue (value : Int) : ScheduledMsgStatus :=
  if value = 101 then .scheduled else if value = 102 then .dispatched else .other value

/-- `extractMsgStatusFilters`: the values of `status` that `strconv.Atoi` accepts. -/
def extractMsgStatusFilters (query : UrlValues) : List MsgStatus :=
  (query "status").filterMap fun value => (parseInt value.toList).map MsgStatus.ofValue

/-- The filter of the listing of scheduled messages: only the first value of `status` counts. -/
def extractScheduledStatusFilters (query : UrlValues) : List ScheduledMsgStatus :=
  if query.get "status" = "" then []
  else ((parseInt (query.get "status").toList).map ScheduledMsgStatus.ofValue).toList

/-! ## The listings of a channel -/

/-- A listing of the rows of a channel with a filter on the status. -/
structure ChannelListing (ρ σ : Type) where
  rows : Db → List ρ
  id : ρ → Xid
  createdAt : ρ → Time
  status : ρ → σ
  inChannel : String → ρ → Bool
  statusFilters : UrlValues → List σ

/-- `GetMessagesForChannel` compares the channel with `like`. -/
def messagesListing : ChannelListing MessageRow MsgStatus where
  rows := Db.message
  id := MessageRow.id
  createdAt := MessageRow.createdAt
  status := MessageRow.status
  inChannel channelID row := sqlLike channelID row.channelId
  statusFilters := extractMsgStatusFilters

/-- `GetScheduledMessagesForChannel` compares it with `=`. -/
def scheduledMessagesListing : ChannelListing ScheduledMessageRow ScheduledMsgStatus where
  rows := Db.scheduledMessage
  id := ScheduledMessageRow.id
  createdAt := ScheduledMessageRow.createdAt
  status := ScheduledMessageRow.status
  inChannel channelID row := decide (row.channelId = channelID)
  statusFilters := extractScheduledStatusFilters

/-- `status IN (…)`, which is left out if there are no filters. -/
def admits {σ : Type} [DecidableEq σ] (statusFilters : List σ) (status : σ) : Bool :=
  statusFilters.isEmpty || decide (status ∈ statusFilters)

/-- The answers to a client that follows the next link up to `n` times: the rows of a page and
perhaps the query of a next link. -/
def visit {ρ : Type} (answer : UrlValues → List ρ × Option UrlValues) : Nat → UrlValues → List ρ
  | 0, _ => []
  | n + 1, query => (answer query).1 ++ ((answer query).2.map (visit answer n)).getD []

namespace ChannelListing
variable {ρ σ : Type} [DecidableEq σ] (L : ChannelListing ρ σ)

def key (row : ρ) : String × Time := ((L.id row).string, L.createdAt row)

def channelRows (db : Db) (channelID : String) : List ρ :=
  (L.rows db).filter (L.inChannel channelID)

/-- `GetMessagesForChannel` and `GetScheduledMessagesForChannel`, 25 rows at a time. -/
def getForChannel (db : Db) (channelID : String) (page : Pagination) (statusFilters : List σ) :
    List ρ × Pagination × Option StorageErr :=
  match getChannel db channelID with
  | .error err => ([], {}, some err)
  | .ok _ =>
    listPage L.key 25
      ((L.channelRows db channelID).filter fun row => admits statusFilters (L.status row)) page

/-- `Get` of the two controllers: the rows of the answer and the query of its next link. -/
def get (cursorText : Cursor → String) (db : Db) (channelID : String) (query : UrlValues) :
    List ρ × Option UrlValues :=
  let page := getPagination (query.get "previous") (query.get "next")
  match L.getForChannel db channelID page (L.statusFilters query) with
  | (_, _, some _) => ([], none)
  | (rows, pagination, none) => (rows, pagination.next.map (nextQuery cursorText))

/-- The rows that the listing without a filter gives page by page after a row. -/
def unfilteredAfter (db : Db) (channelID : String) (last : ρ) : List ρ :=
  Paging.walk (isBeyond L.key) 25 none (inOrder L.key (L.channelRows db channelID))
    (L.channelRows db channelID).length [] (some last)

/-! ## What the links lead to -/

section
variable {L} {cursorText : Cursor → String} {db : Db} {channelID : String} {query : UrlValues}

omit [DecidableEq σ] in
theorem nodup_channelRows (channelID : String) (hids : ((L.rows db).map L.id).Nodup) :
    ((L.channelRows db channelID).map fun r => (L.key r).1).Nodup :=
  nodup_filter_ids hids _

/-- An answer is empty, or a page of the rows that the filter admits, with the cursor of its last
row in the next link. -/
theorem get_cases (L : ChannelListing ρ σ) (cursorText : Cursor → String) (db : Db)
    (channelID : String) (query : UrlValues) : L.get cursorText db channelID query = ([], none) ∨
    ∃ page rows, rows = pageQuery L.key page 25 ((L.channelRows db channelID).filter fun row =>
        admits (L.statusFilters query) (L.status row)) ∧
      L.get cursorText db channelID query =
        (rows, rows.getLast?.map fun last => nextQuery cursorText (cursorOf L.key last)) := by
  unfold get getForChannel
  cases getChannel db channelID with
  | error err => exact .inl rfl
  | ok channel =>
    generalize getPagination (query.get "previous") (query.get "next") = page
    cases hboth : page.next.isSome && page.previous.isSome with
    | true => simp [listPage, hboth]
    | false =>
      refine .inr ⟨page, _, rfl, ?_⟩
      simp only [listPage, hboth, Bool.false_eq_true, if_false, Option.map_map]
      rfl

theorem mem_get {row : ρ} (h : row ∈ (L.get cursorText db channelID query).1) :
    row ∈ L.channelRows db channelID ∧
      admits (L.statusFilters query) (L.status row) = true := by
  rcases get_cases L cursorText db channelID query with hget | ⟨page, rows, hrows, hget⟩
  · rw [hget] at h
    cases h
  · rw [hget, hrows] at h
    exact mem_filter.1 (mem_pageQuery h).1

theorem get_next : (L.get cursorText db channelID query).2 =
    (L.get cursorText db channelID query).1.getLast?.map fun last =>
      nextQuery cursorText (cursorOf L.key last) := by
  rcases get_cases L cursorText db channelID query with hget | ⟨page, rows, -, hget⟩ <;> rw [hget]
  rfl

theorem getPagination_nextQuery {cursor : Cursor}
    (h : parseCursor (cursorText cursor) = some cursor) :
    getPagination ((nextQuery cursorText cursor).get "previous")
      ((nextQuery cursorText cursor).get "next") = { next := some cursor } := by
  have hne : (cursorText cursor).isEmpty = false := by
    rw [Bool.eq_false_iff]
    intro hempty
    rw [String.isEmpty_iff.1 hempty] at h
    cases h
  have hnext : (nextQuery cursorText cursor).get "next" = cursorText cursor := rfl
  have hprevious : (nextQuery cursorText cursor).get "previous" = "" := rfl
  simp [getPagination, hnext, hprevious, h, hne]

section
variable (hids : ((L.rows db).map L.id).Nodup)
  (htext : ∀ row ∈ L.rows db,
    parseCursor (cursorText (cursorOf L.key row)) = some (cursorOf L.key row))
  (hfilters : ∀ cursor, L.statusFilters (nextQuery cursorText cursor) = [])
include hids htext hfilters

theorem get_nextQuery {channel : Channel} (hchannel : getChannel db channelID = .ok channel)
    {last : ρ} (hlast : last ∈ L.rows db) :
    (L.get cursorText db channelID (nextQuery cursorText (cursorOf L.key last))).1 =
      (Paging.rest (isBeyond L.key) (inOrder L.key (L.channelRows db channelID)) (some last)).take
        25 := by
  have hpage := pageQuery_eq (nodup_channelRows channelID hids) 25 (some last)
  have hall : (L.channelRows db channelID).filter (fun row => admits [] (L.status row)) =
      L.channelRows db channelID := filter_eq_self.2 fun _ _ => rfl
  simp only [get, getForChannel, hchannel, getPagination_nextQuery (htext last hlast),
    hfilters, hall, listPage]
  exact hpage

theorem visit_nextQuery {channel : Channel} (hchannel : getChannel db channelID = .ok channel)
    (n : Nat) {last : ρ} (hlast : last ∈ L.rows db) :
    visit (L.get cursorText db channelID) n (nextQuery cursorText (cursorOf L.key last)) =
      Paging.walk (isBeyond L.key) 25 none (inOrder L.key (L.channelRows db channelID)) n []
        (some last) := by
  induction n generalizing last with
  | zero => rfl
  | succ n ih =>
    rw [visit, get_next, get_nextQuery hids htext hfilters hchannel hlast, Paging.walk_succ]
    congr 1
    cases hpage : (List.take 25 (Paging.rest (isBeyond L.key)
      (inOrder L.key (L.channelRows db channelID)) (some last))).getLast? with
    | none => rfl
    | some last' =>
      have hmem := mem_of_mem_take (mem_of_getLast? hpage)
      have hrows := mem_inOrder.1 (mem_filter.1 hmem).1
      simp only [Option.map_some, Option.getD_some]
      exact ih (mem_filter.1 hrows).1

/-- A client that follows the links is given only rows that its filter admits exactly when all rows
of the listing without a filter are such, from the last row of the first page on. -/
theorem visit_admits_iff :
    (∀ n, ∀ row ∈ visit (L.get cursorText db channelID) n query,
      admits (L.statusFilters query) (L.status row) = true) ↔
    ∀ last ∈ (L.get cursorText db channelID query).1.getLast?,
      ∀ row ∈ L.unfilteredAfter db channelID last,
        admits (L.statusFilters query) (L.status row) = true := by
  have hstep : ∀ n, ∀ last ∈ (L.get cursorText db channelID query).1.getLast?,
      visit (L.get cursorText db channelID) (n + 1) query =
        (L.get cursorText db channelID query).1 ++
          Paging.walk (isBeyond L.key) 25 none (inOrder L.key (L.channelRows db channelID)) n []
            (some last) := by
    intro n last hlast
    have hrows := (mem_filter.1 (mem_get (mem_of_getLast? hlast)).1).1
    cases hchannel : getChannel db channelID with
    | error err =>
      simp only [get, getForChannel, hchannel] at hlast
      cases hlast
    | ok channel =>
      rw [visit, get_next, Option.mem_def.1 hlast, Option.map_some, Option.map_some,
        Option.getD_some, visit_nextQuery hids htext hfilters hchannel n hrows]
  constructor
  · intro hall last hlast row hrow
    refine hall ((L.channelRows db channelID).length + 1) row ?_
    rw [hstep _ last hlast]
    exact mem_append_right _ hrow
  · intro hafter n row hrow
    cases n with
    | zero => cases hrow
    | succ n =>
      cases hlast : (L.get cursorText db channelID query).1.getLast? with
      | none =>
        rw [visit, get_next, hlast] at hrow
        simp only [Option.map_none, Option.getD_none, append_nil] at hrow
        exact (mem_get hrow).2
      | some last =>
        rw [hstep n last hlast] at hrow
        rcases mem_append.1 hrow with hrow | hrow
        · exact (mem_get hrow).2
        · refine hafter last hlast row ?_
          have hchannelRow := (mem_get (mem_of_getLast? hlast)).1
          have hordered := inOrder_ordered (nodup_channelRows channelID hids)
          refine hordered.mem_walk_of_length_lt ?_ hrow
          have hlength :=
            (inOrder_perm : (inOrder L.key (L.channelRows db channelID)).Perm _).length_eq
          rw [← hlength]
          exact length_filter_lt_length_iff_exists.2
            ⟨last, mem_inOrder.2 hchannelRow, by rw [Option.all_some, hordered.irrefl]; decide⟩

end

end

end ChannelListing

namespace Sample

def messageRow (id : Xid) (messageId : String) (status : MsgStatus) (createdAt : Time) :
    MessageRow where
  id := id
  messageId := messageId
  payload := "x"
  contentType := "y"
  priority := 0
  status := status
  channelId := "c"
  producerId := "p"
  receivedAt := createdAt
  outboxedAt := createdAt
  createdAt := createdAt
  updatedAt := createdAt

/-- A dispatched message, and an older one that is only acknowledged. -/
def twoMessages : Db where
  channel := [⟨channelXid, "c", "c", "t", 1, 1⟩]
  message := [messageRow messageXid "new" .dispatched (2 * second),
    messageRow jobXid "old" .acknowledged second]

def messageCursorText (cursor : Cursor) : String :=
  if cursor.timestamp = second then "MDAwMDAwMDAwMDAwMDAwMDAwMGp8MDAwMS0wMS0wMVQwMDowMDowMVo="
  else "MDAwMDAwMDAwMDAwMDAwMDAwMG18MDAwMS0wMS0wMVQwMDowMDowMlo="

def dispatchedOnly : UrlValues := fun key => if key = "status" then ["102"] else []

end Sample

open Sample

end WebhookBroker
