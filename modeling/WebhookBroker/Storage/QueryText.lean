import WebhookBroker.Data.Cursor
import WebhookBroker.Lib.SqlText

/-!
# The text of a page query (`storage/rdbms.go`)

The conditions and the order of a page are SQL text that is appended to the query of a listing. The
creation time of a cursor is an argument of the query, for which the text has a placeholder. The id
of a cursor is pasted between two quotes. So the text has the tokens it is meant to have exactly for
the ids that are literal bodies of the dialect: those in which each quote is doubled or, for MySQL,
escaped, and which, for SQLite, have no NUL.
-/

namespace WebhookBroker

open Lib.SqlText List

structure Alias where
  name : String
  chars : ∀ c ∈ name.toList, isWordChar c = true

/-- A clause without string literals and placeholders. -/
def isPlain (ts : List Token) : Bool := ts.all fun t => t.literal?.isNone && t != .placeholder

structure OrderByClause where
  text : String
  plain : ∀ d, isPlain (tokens d text.toList) = true

def pageSizeWithOrder : OrderByClause :=
  ⟨"ORDER BY createdAt desc, id desc LIMIT 25", fun d => by cases d <;> decide⟩

/-- `aliasPrefix`: the alias and a point, or nothing. -/
def Alias.aliasPrefix (tableAlias : Alias) : String :=
  if tableAlias.name.isEmpty then "" else tableAlias.name ++ "."

/-- The direction in which a page continues from a cursor. -/
inductive Side where
  | next
  | previous

/-- `id <` and `createdAt <=` for the next page, `>` and `>=` for the previous one. -/
def Side.op : Side → String
  | .next => "<"
  | .previous => ">"

def cursorCondition (append : Bool) (tableAlias : Alias) (side : Side) (id : String) : String :=
  (if append then "AND " else "WHERE ") ++ tableAlias.aliasPrefix ++ "id " ++ side.op ++ " '" ++
    id ++ "' AND " ++ tableAlias.aliasPrefix ++ "createdAt " ++ side.op ++ "= ? "

def getPaginationQueryFragmentWithConfigurablePageSizeWithAlias (page : Pagination) (append : Bool)
    (orderByQueryClause : OrderByClause) (tableAlias : Alias) : String :=
  " " ++ (page.next.map fun c => cursorCondition append tableAlias .next c.id).getD "" ++
    (page.previous.map fun c => cursorCondition append tableAlias .previous c.id).getD "" ++
    orderByQueryClause.text

def getPaginationTimestampQueryArgs (page : Pagination) : List Time :=
  (page.next.map (·.timestamp)).toList ++ (page.previous.map (·.timestamp)).toList

def Alias.empty : Alias := ⟨"", by simp⟩

/-- The tokens that the database finds in the text of a page. -/
def queryTokens (d : Dialect) (page : Pagination) (append : Bool)
    (orderByQueryClause : OrderByClause) (tableAlias : Alias) : List Token :=
  tokens d (getPaginationQueryFragmentWithConfigurablePageSizeWithAlias page append
    orderByQueryClause tableAlias).toList

/-! ## The tokens of a condition -/

def Alias.tokens (tableAlias : Alias) : List Token :=
  if tableAlias.name.isEmpty then [] else [.word tableAlias.name.toList, .symbol '.']

def Side.symbol : Side → Token
  | .next => .symbol '<'
  | .previous => .symbol '>'

def idTokens (append : Bool) (tableAlias : Alias) (side : Side) : List Token :=
  [.word (if append then ['A', 'N', 'D'] else ['W', 'H', 'E', 'R', 'E'])] ++ tableAlias.tokens ++
    [.word ['i', 'd'], side.symbol]

def createdAtTokens (tableAlias : Alias) (side : Side) : List Token :=
  [.word ['A', 'N', 'D']] ++ tableAlias.tokens ++
    [.word "createdAt".toList, side.symbol, .symbol '=', .placeholder]

/-- The tokens of the condition for one cursor with a literal body as its id. -/
def conditionTokens (append : Bool) (tableAlias : Alias) (side : Side) (id : String) : List Token :=
  idTokens append tableAlias side ++ [.literal id.toList] ++ createdAtTokens tableAlias side

@[simp] theorem Alias.literals_tokens (tableAlias : Alias) : literals tableAlias.tokens = [] := by
  unfold Alias.tokens
  split <;> rfl

@[simp] theorem Alias.count_tokens (tableAlias : Alias) :
    tableAlias.tokens.count .placeholder = 0 := by
  unfold Alias.tokens
  split <;> rfl

section
variable (append : Bool) (tableAlias : Alias) (side : Side)
include append tableAlias side

@[simp] theorem literals_idTokens : literals (idTokens append tableAlias side) = [] := by
  rw [idTokens, literals_append, literals_append, Alias.literals_tokens]
  cases side <;> rfl

@[simp] theorem count_idTokens : (idTokens append tableAlias side).count .placeholder = 0 := by
  cases side <;> simp [idTokens] <;> rfl

@[simp] theorem literals_conditionTokens (id : String) :
    literals (conditionTokens append tableAlias side id) = [id.toList] := by
  rw [conditionTokens, createdAtTokens, literals_append, literals_append, literals_idTokens,
    literals_append, literals_append, Alias.literals_tokens]
  cases side <;> rfl

@[simp] theorem count_conditionTokens (id : String) :
    (conditionTokens append tableAlias side id).count .placeholder = 1 := by
  cases side <;> simp [conditionTokens, createdAtTokens] <;> rfl

end

/-- The alias and its point are read as two tokens before the name of a column. -/
theorem run_alias (d : Dialect) (tableAlias : Alias) {c : Char} (hc : isWordChar c = true)
    (s : List Char) :
    run d .text (tableAlias.aliasPrefix.toList ++ c :: s) =
      ((run d (.word [c]) s).1, tableAlias.tokens ++ (run d (.word [c]) s).2) := by
  have hcolumn : run d .text (c :: s) = run d (.word [c]) s := by
    simp [run, step, advance, start, hc, d.ends_of_isWordChar hc]
  unfold Alias.aliasPrefix Alias.tokens
  split
  case isTrue h => simp [hcolumn]
  case isFalse h =>
    obtain ⟨a, name, hname⟩ : ∃ a name, tableAlias.name.toList = a :: name :=
      exists_cons_of_ne_nil (by simpa using h)
    have hchars := tableAlias.chars
    rw [hname] at hchars
    have ha : isWordChar a = true := hchars a mem_cons_self
    have hword := run_word d (fun x hx => hchars x (mem_cons_of_mem a hx)) [a]
    have hpoint : step d (.word (a :: name)) '.' = (.text, [.word (a :: name), .symbol '.']) := by
      cases d <;> simp [step, advance, start, Lib.SqlText.after, isWordChar, isSpace, Dialect.ends]
    rw [String.toList_append, append_assoc, run_append, hname, run, step,
      d.ends_of_isWordChar ha, advance, start, ha]
    rw [← hcolumn]
    simp [hword, run, hpoint]

section
variable (d : Dialect) (append : Bool) (tableAlias : Alias) (side : Side)

def conditionHead : List Char :=
  (if append then "AND " else "WHERE ").toList ++
    (tableAlias.aliasPrefix.toList ++ 'i' :: ("d ".toList ++ side.op.toList ++ " '".toList))

/-- The condition for a cursor after the quote behind the id. -/
def conditionTail : List Char :=
  " AND ".toList ++
    (tableAlias.aliasPrefix.toList ++ 'c' :: ("reatedAt ".toList ++ side.op.toList ++
      "= ? ".toList))

theorem cursorCondition_toList (id : String) :
    (cursorCondition append tableAlias side id).toList =
      conditionHead append tableAlias side ++
        (id.toList ++ '\'' :: conditionTail tableAlias side) := by
  have hid : "id ".toList = 'i' :: "d ".toList := rfl
  have hquote : "' AND ".toList = '\'' :: " AND ".toList := rfl
  have hcreatedAt : "createdAt ".toList = 'c' :: "reatedAt ".toList := rfl
  delta conditionTail
  simp only [cursorCondition, conditionHead, String.toList_append, hid, hquote, hcreatedAt,
    append_assoc, cons_append]

theorem run_conditionHead :
    run d .text (conditionHead append tableAlias side) =
      (.quoted '\'' [], idTokens append tableAlias side) := by
  have hword : run d .text (if append then "AND " else "WHERE ").toList =
      (.text, [.word (if append then ['A', 'N', 'D'] else ['W', 'H', 'E', 'R', 'E'])]) := by
    cases d <;> cases append <;> rfl
  have hcolumn : run d (.word ['i']) ("d ".toList ++ side.op.toList ++ " '".toList) =
      (.quoted '\'' [], [.word ['i', 'd'], side.symbol]) := by
    cases d <;> cases side <;> rfl
  have hi : isWordChar 'i' = true := rfl
  rw [conditionHead, run_append, hword, run_alias d tableAlias hi, hcolumn]
  simp [idTokens]

theorem run_conditionTail (id : List Char) :
    run d (.closing '\'' id) (conditionTail tableAlias side) =
      (.text, .literal id :: createdAtTokens tableAlias side) := by
  have hword : run d (.closing '\'' id) " AND ".toList =
      (.text, [.literal id, .word ['A', 'N', 'D']]) := by
    cases d <;> rfl
  have hcolumn : run d (.word ['c']) ("reatedAt ".toList ++ side.op.toList ++ "= ? ".toList) =
      (.text, [.word "createdAt".toList, side.symbol, .symbol '=', .placeholder]) := by
    cases d <;> cases side <;> rfl
  have hc : isWordChar 'c' = true := rfl
  delta conditionTail
  rw [run_append, hword, run_alias d tableAlias hc, hcolumn]
  simp [createdAtTokens]

theorem run_cursorCondition {id : String} (h : isLiteralBody d id.toList = true) :
    run d .text (cursorCondition append tableAlias side id).toList =
      (.text, conditionTokens append tableAlias side id) := by
  rw [cursorCondition_toList, run_append, run_conditionHead, run_append,
    run_literalBody h, run, step, d.ends_quote, advance, if_neg Bool.false_ne_true, if_pos rfl,
    run_conditionTail]
  simp [conditionTokens]

theorem literalBody_of_cursorCondition {id : String} {rest : List Char}
    (h : (literals (tokensFrom d .text
      ((cursorCondition append tableAlias side id).toList ++ rest))).head? = some id.toList) :
    isLiteralBody d id.toList = true := by
  rw [cursorCondition_toList, append_assoc, tokensFrom_append, run_conditionHead,
    literals_append, literals_idTokens, nil_append, append_assoc] at h
  exact literalBody_of_head h

end

/-! ## The tokens of the whole text -/

def Pagination.cursors (page : Pagination) : List (Side × Cursor) :=
  page.next.toList.map (.next, ·) ++ page.previous.toList.map (.previous, ·)

section
variable {d : Dialect} {append : Bool} {tableAlias : Alias}

def conditions (append : Bool) (tableAlias : Alias) (cursors : List (Side × Cursor)) : List Char :=
  cursors.flatMap fun p => (cursorCondition append tableAlias p.1 p.2.id).toList

theorem fragment_toList (page : Pagination) (clause : OrderByClause) :
    (getPaginationQueryFragmentWithConfigurablePageSizeWithAlias page append clause
      tableAlias).toList =
      ' ' :: (conditions append tableAlias page.cursors ++ clause.text.toList) := by
  obtain ⟨next, previous⟩ := page
  cases next <;> cases previous <;>
    simp [getPaginationQueryFragmentWithConfigurablePageSizeWithAlias, conditions,
      Pagination.cursors]

theorem tokensFrom_conditions {cursors : List (Side × Cursor)}
    (h : ∀ p ∈ cursors, isLiteralBody d p.2.id.toList = true) (rest : List Char) :
    tokensFrom d .text (conditions append tableAlias cursors ++ rest) =
      (cursors.flatMap fun p => conditionTokens append tableAlias p.1 p.2.id) ++
        tokensFrom d .text rest := by
  induction cursors with
  | nil => rfl
  | cons p cursors ih =>
    obtain ⟨hp, hrest⟩ := forall_mem_cons.1 h
    rw [conditions, flatMap_cons, append_assoc, tokensFrom_append,
      run_cursorCondition d append tableAlias p.1 hp, ← conditions, ih hrest, flatMap_cons,
      append_assoc]

theorem literalBodies_of_literals {cursors : List (Side × Cursor)} {rest : List Char}
    (h : literals (tokensFrom d .text (conditions append tableAlias cursors ++ rest)) =
      cursors.map (·.2.id.toList)) :
    ∀ p ∈ cursors, isLiteralBody d p.2.id.toList = true := by
  induction cursors with
  | nil => simp
  | cons p cursors ih =>
    rw [conditions, flatMap_cons, append_assoc, ← conditions] at h
    have hp : isLiteralBody d p.2.id.toList = true :=
      literalBody_of_cursorCondition d append tableAlias p.1 (by rw [h]; rfl)
    rw [tokensFrom_append, run_cursorCondition d append tableAlias p.1 hp, literals_append,
      literals_conditionTokens, map_cons, singleton_append] at h
    exact forall_mem_cons.2 ⟨hp, ih (List.cons.inj h).2⟩

end

/-! ## Cursors of a client -/

def Pagination.withID (page : Pagination) (id : String) : Pagination where
  next := page.next.map ({ · with id := id })
  previous := page.previous.map ({ · with id := id })

/-- The text of the page has the tokens it has for the cursor id `x`, each cursor id is one whole
literal of it, and there is one placeholder for each argument. -/
def Pagination.keepsStructure (page : Pagination) (d : Dialect) (append : Bool)
    (clause : OrderByClause) (tableAlias : Alias) : Prop :=
  (queryTokens d page append clause tableAlias).map Token.shape =
    (queryTokens d (page.withID "x") append clause tableAlias).map Token.shape ∧
  literals (queryTokens d page append clause tableAlias) = page.cursors.map (·.2.id.toList) ∧
  (queryTokens d page append clause tableAlias).count .placeholder =
    (getPaginationTimestampQueryArgs page).length

section
variable {d : Dialect} {append : Bool} {clause : OrderByClause} {tableAlias : Alias}
  {page : Pagination}

theorem queryTokens_conditions : queryTokens d page append clause tableAlias =
    tokensFrom d .text (conditions append tableAlias page.cursors ++ clause.text.toList) := by
  rw [queryTokens, fragment_toList]
  cases d <;> rfl

theorem queryTokens_eq (h : ∀ p ∈ page.cursors, isLiteralBody d p.2.id.toList = true) :
    queryTokens d page append clause tableAlias =
      (page.cursors.flatMap fun p => conditionTokens append tableAlias p.1 p.2.id) ++
        tokens d clause.text.toList := by
  rw [queryTokens_conditions]
  exact tokensFrom_conditions h clause.text.toList

theorem OrderByClause.literals_eq (clause : OrderByClause) :
    literals (tokens d clause.text.toList) = [] := by
  refine filterMap_eq_nil_iff.2 fun t ht => ?_
  have hplain := all_eq_true.1 (clause.plain d) t ht
  simp only [Bool.and_eq_true, Option.isNone_iff_eq_none] at hplain
  exact hplain.1

theorem OrderByClause.count_eq (clause : OrderByClause) :
    (tokens d clause.text.toList).count .placeholder = 0 := by
  refine count_eq_zero.2 fun hmem => ?_
  have hplain := all_eq_true.1 (clause.plain d) _ hmem
  simp at hplain

theorem cursors_withID (id : String) :
    (page.withID id).cursors = page.cursors.map fun p => (p.1, { p.2 with id := id }) := by
  obtain ⟨next, previous⟩ := page
  cases next <;> cases previous <;> rfl

theorem length_cursors :
    page.cursors.length = (getPaginationTimestampQueryArgs page).length := by
  obtain ⟨next, previous⟩ := page
  cases next <;> cases previous <;> rfl

theorem keepsStructure_of_literalBodies
    (h : ∀ p ∈ page.cursors, isLiteralBody d p.2.id.toList = true) :
    page.keepsStructure d append clause tableAlias := by
  have hx : ∀ p ∈ (page.withID "x").cursors, isLiteralBody d p.2.id.toList = true := by
    rw [cursors_withID]
    intro p hp
    obtain ⟨q, -, rfl⟩ := mem_map.1 hp
    show isLiteralBody d "x".toList = true
    cases d <;> decide
  unfold Pagination.keepsStructure
  simp only [queryTokens_eq h, queryTokens_eq hx, cursors_withID]
  refine ⟨?_, ?_, ?_⟩
  · simp only [map_append, map_flatMap, flatMap_map]
    congr 1
    simp [conditionTokens, Token.shape]
  · rw [literals_append, clause.literals_eq, append_nil]
    induction page.cursors with
    | nil => rfl
    | cons p cursors ih =>
      rw [flatMap_cons, literals_append, literals_conditionTokens, ih, map_cons,
        singleton_append]
  · rw [count_append, clause.count_eq, ← length_cursors]
    induction page.cursors with
    | nil => rfl
    | cons p cursors ih =>
      rw [flatMap_cons, count_append, count_conditionTokens, length_cons, ← ih]
      omega

/-- For the two query parameters of a request, the text of the page keeps its structure in a dialect
if and only if each cursor id that `ParseCursor` accepted is a literal body of it. -/
theorem page_query_structure_iff (d : Dialect) (previous next : String) (append : Bool)
    (clause : OrderByClause) (tableAlias : Alias) :
    (getPagination previous next).keepsStructure d append clause tableAlias ↔
      ∀ p ∈ (getPagination previous next).cursors, isLiteralBody d p.2.id.toList = true := by
  refine ⟨fun h => ?_, keepsStructure_of_literalBodies⟩
  have hliterals := h.2.1
  rw [queryTokens_conditions] at hliterals
  exact literalBodies_of_literals hliterals

end

/-- A backslash before a quote makes it a part of the literal for MySQL only. -/
example : isLiteralBody .mysql ['\\', '\''] = true ∧ isLiteralBody .sqlite ['\\', '\''] = false ∧
    isLiteralBody .mysql ['\\'] = false ∧ isLiteralBody .sqlite ['\\'] = true := by decide

/-- The cursor text decodes to the id `x' OR 'a'='a` and a time. The text of the page then has three
literals and the conditions of a disjunction, in both dialects. -/
theorem cursor_changes_conditions :
    (parseCursor "eCcgT1IgJ2EnPSdhfDIwMjQtMDEtMDFUMDA6MDA6MDBa").map (·.id) =
      some "x' OR 'a'='a" ∧
    ∀ d, literals (queryTokens d
        (getPagination "" "eCcgT1IgJ2EnPSdhfDIwMjQtMDEtMDFUMDA6MDA6MDBa") true
        pageSizeWithOrder .empty) = [['x'], ['a'], ['a']] ∧
      ¬ (getPagination "" "eCcgT1IgJ2EnPSdhfDIwMjQtMDEtMDFUMDA6MDA6MDBa").keepsStructure d true
        pageSizeWithOrder .empty := by
  refine ⟨by decide +kernel, fun d => ?_⟩
  have hliterals : literals (queryTokens d
      (getPagination "" "eCcgT1IgJ2EnPSdhfDIwMjQtMDEtMDFUMDA6MDA6MDBa") true pageSizeWithOrder
      .empty) = [['x'], ['a'], ['a']] := by
    cases d <;> decide +kernel
  refine ⟨hliterals, fun h => ?_⟩
  exact absurd (hliterals.symm.trans h.2.1) (by decide +kernel)

end WebhookBroker
