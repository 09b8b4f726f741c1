import Mathlib

/-!
# The tokens of SQL text

A lexer for the text of a SQL statement, as a machine that reads one character at a time: words,
string literals, quoted names, placeholders, symbols and comments, for MySQL and for SQLite. A quote
inside a literal is written twice or, for MySQL, after a backslash, and for SQLite the whole text
ends at a NUL. So a text stands between two quotes as one literal exactly when it is a literal body
of the dialect (`run_literalBody`, `literalBody_of_head`).
-/

namespace Lib.SqlText

open List

inductive Dialect where
  | mysql
  | sqlite
deriving DecidableEq

/-- The character escapes the one after it in a literal. -/
def Dialect.escapes : Dialect → Char → Bool
  | .mysql, c => c == '\\'
  | .sqlite, _ => false

/-- The character ends the text: SQLite takes it as a C string. -/
def Dialect.ends : Dialect → Char → Bool
  | .mysql, _ => false
  | .sqlite, c => c == '\x00'

inductive Token where
  /-- a keyword, a name or a number -/
  | word (text : List Char)
  /-- a string literal, with the text between its quotes as it is written -/
  | literal (body : List Char)
  /-- a name in quotes or brackets -/
  | quotedName (body : List Char)
  | placeholder
  | symbol (c : Char)
  /-- a literal or a quoted name that is not closed -/
  | unclosed (body : List Char)
deriving DecidableEq

def Token.literal? : Token → Option (List Char)
  | .literal body => some body
  | _ => none

/-- The token without the text of a literal. -/
def Token.shape : Token → Token
  | .literal _ => .literal []
  | t => t

/-- Where the lexer is, with the text of the token it is in. -/
inductive Mode where
  | text
  | word (acc : List Char)
  | quoted (quote : Char) (acc : List Char)
  /-- after a backslash in a literal -/
  | escaped (quote : Char) (acc : List Char)
  /-- after a quote that closes the literal or is the first of two -/
  | closing (quote : Char) (acc : List Char)
  | dash
  | dashes
  | lineComment
  | slash
  | blockComment
  | star
  /-- in the brackets around a name -/
  | bracketed (acc : List Char)
  /-- after the end of the text -/
  | ended
deriving DecidableEq

def isWordChar (c : Char) : Bool := c.isAlphanum || c == '_' || c == '$'

def isSpace (c : Char) : Bool := c == ' ' || c == '\n' || c == '\t' || c == '\r'

/-- Double quotes are those of a literal for MySQL and those of a name for SQLite. -/
def quotedToken (d : Dialect) (quote : Char) (body : List Char) : Token :=
  if quote = '\'' ∨ quote = '"' ∧ d = .mysql then .literal body else .quotedName body

variable (d : Dialect)

/-- The lexer reads a character outside of a token. -/
def start (c : Char) : Mode × List Token :=
  if isWordChar c then (.word [c], [])
  else if c = '\'' ∨ c = '"' ∨ c = '`' then (.quoted c [], [])
  else if c = '?' then (.text, [.placeholder])
  else if c = '-' then (.dash, [])
  else if c = '/' then (.slash, [])
  else if c = '#' ∧ d = .mysql then (.lineComment, [])
  else if c = '[' ∧ d = .sqlite then (.bracketed [], [])
  else if isSpace c then (.text, [])
  else (.text, [.symbol c])

/-- The tokens end before the character. -/
def after (ts : List Token) (c : Char) : Mode × List Token := ((start d c).1, ts ++ (start d c).2)

/-- The tokens that end with the text. -/
def finish : Mode → List Token
  | .word acc => [.word acc]
  | .quoted _ acc | .escaped _ acc | .bracketed acc => [.unclosed acc]
  | .closing quote acc => [quotedToken d quote acc]
  | .dash => [.symbol '-']
  | .dashes => [.symbol '-', .symbol '-']
  | .slash => [.symbol '/']
  | .text | .lineComment | .blockComment | .star | .ended => []

/-- The lexer reads a character of the text. -/
def advance : Mode → Char → Mode × List Token
  | .text, c => start d c
  | .word acc, c => if isWordChar c then (.word (acc ++ [c]), []) else after d [.word acc] c
  | .quoted quote acc, c =>
    if c = quote then (.closing quote acc, [])
    else if d.escapes c = true ∧ quote ≠ '`' then (.escaped quote (acc ++ [c]), [])
    else (.quoted quote (acc ++ [c]), [])
  | .escaped quote acc, c => (.quoted quote (acc ++ [c]), [])
  | .closing quote acc, c =>
    if c = quote then (.quoted quote (acc ++ [quote, quote]), [])
    else after d [quotedToken d quote acc] c
  | .dash, c =>
    if c = '-' then (if d = .mysql then .dashes else .lineComment, [])
    else after d [.symbol '-'] c
  | .dashes, c =>
    if c = '\n' then (.text, [])
    else if isSpace c then (.lineComment, [])
    else after d [.symbol '-', .symbol '-'] c
  | .lineComment, c => if c = '\n' then (.text, []) else (.lineComment, [])
  | .slash, c => if c = '*' then (.blockComment, []) else after d [.symbol '/'] c
  | .blockComment, c => if c = '*' then (.star, []) else (.blockComment, [])
  | .star, c =>
    if c = '/' then (.text, []) else if c = '*' then (.star, []) else (.blockComment, [])
  | .bracketed acc, c =>
    if c = ']' then (.text, [.quotedName acc]) else (.bracketed (acc ++ [c]), [])
  | .ended, _ => (.ended, [])

/-- The lexer reads a character: the next mode and the tokens that end. -/
def step (m : Mode) (c : Char) : Mode × List Token :=
  if d.ends c = true then (.ended, finish d m) else advance d m c

/-- The mode after a text and the tokens that ended in it. -/
def run : Mode → List Char → Mode × List Token
  | m, [] => (m, [])
  | m, c :: cs => ((run (step d m c).1 cs).1, (step d m c).2 ++ (run (step d m c).1 cs).2)

/-- The tokens of a text that the lexer reads from a mode on. -/
def tokensFrom : Mode → List Char → List Token
  | m, [] => finish d m
  | m, c :: cs => (step d m c).2 ++ tokensFrom (step d m c).1 cs

/-- The tokens of a text. -/
def tokens (text : List Char) : List Token := tokensFrom d .text text

theorem tokensFrom_append (m : Mode) (s t : List Char) :
    tokensFrom d m (s ++ t) = (run d m s).2 ++ tokensFrom d (run d m s).1 t := by
  induction s generalizing m with
  | nil => rfl
  | cons c s ih => simp [tokensFrom, run, ih]

theorem run_append (m : Mode) (s t : List Char) :
    run d m (s ++ t) = ((run d (run d m s).1 t).1, (run d m s).2 ++ (run d (run d m s).1 t).2) := by
  induction s generalizing m with
  | nil => rfl
  | cons c s ih => simp [run, ih]

/-- A quote does not end the text. -/
@[simp] theorem Dialect.ends_quote : d.ends '\'' = false := by
  cases d <;> rfl

/-- A quote is no escape character. -/
@[simp] theorem Dialect.escapes_quote : d.escapes '\'' = false := by
  cases d <;> rfl

/-- Neither does a character of a word. -/
theorem Dialect.ends_of_isWordChar {c : Char} (h : isWordChar c = true) : d.ends c = false := by
  cases d with
  | mysql => rfl
  | sqlite => exact beq_false_of_ne fun hc => by simp [hc, isWordChar] at h

/-- A dialect with an escape character reads the text to its end. -/
theorem Dialect.ends_of_escapes {c : Char} (h : d.escapes c = true) (c' : Char) :
    d.ends c' = false := by
  cases d with
  | mysql => rfl
  | sqlite => cases h

/-- The lexer stays in a word while it reads word characters. -/
theorem run_word {s : List Char} (h : ∀ c ∈ s, isWordChar c = true) (acc : List Char) :
    run d (.word acc) s = (.word (acc ++ s), []) := by
  induction s generalizing acc with
  | nil => simp [run]
  | cons c s ih =>
    have hc : isWordChar c = true := h c mem_cons_self
    have hs := ih (fun c' hc' => h c' (mem_cons_of_mem _ hc')) (acc ++ [c])
    simp [run, step, advance, d.ends_of_isWordChar hc, hc, hs]

/-- A text that can stand between two quotes as one literal: each quote in it is doubled or
escaped, no escape character is left over at the end, and the text does not end in it. -/
def isLiteralBody : List Char → Bool
  | [] => true
  | c :: cs =>
    if d.escapes c = true then
      match cs with
      | [] => false
      | _ :: cs => isLiteralBody cs
    else if c = '\'' then
      match cs with
      | [] => false
      | c' :: cs => c' == '\'' && isLiteralBody cs
    else !d.ends c && isLiteralBody cs

variable {d} {c : Char}

theorem isLiteralBody_cons (hslash : ¬ d.escapes c = true) (hquote : c ≠ '\'') (cs : List Char) :
    isLiteralBody d (c :: cs) = (!d.ends c && isLiteralBody d cs) := by
  rw [isLiteralBody.eq_def]
  simp [hslash, hquote]

section
variable {q : Char} {acc s : List Char}

/-- A character that is neither a quote nor an escape and does not end the text is one of the
literal. -/
theorem step_quoted_cons (hquote : c ≠ q) (hslash : ¬ d.escapes c = true)
    (hends : d.ends c = false) :
    step d (.quoted q acc) c = (.quoted q (acc ++ [c]), []) := by
  simp [step, advance, hends, hquote, hslash]

theorem ne_quote_of_escapes (hc : d.escapes c = true) : c ≠ '\'' := by
  rintro rfl
  simp at hc

end

/-- A literal body is read without an end of the literal. -/
theorem run_literalBody {s : List Char} (h : isLiteralBody d s = true) (acc : List Char) :
    run d (.quoted '\'' acc) s = (.quoted '\'' (acc ++ s), []) := by
  induction s using isLiteralBody.induct d generalizing acc with
  | case1 => simp [run]
  | case2 c hc => simp [isLiteralBody, hc] at h
  | case3 c hc c' cs ih =>
    have hs := ih (by simpa [isLiteralBody, hc] using h) (acc ++ [c, c'])
    simp [run, step, advance, d.ends_of_escapes hc, ne_quote_of_escapes hc, hc, hs]
  | case4 => simp [isLiteralBody] at h
  | case5 c cs _ ih =>
    simp only [isLiteralBody, d.escapes_quote, Bool.false_eq_true, if_false, if_true,
      Bool.and_eq_true, beq_iff_eq] at h
    obtain ⟨rfl, h⟩ := h
    have hs := ih h (acc ++ ['\'', '\''])
    simp [run, step, advance, hs]
  | case6 c cs hslash hquote ih =>
    rw [isLiteralBody_cons hslash hquote, Bool.and_eq_true, Bool.not_eq_true'] at h
    simp [run, step_quoted_cons hquote hslash h.1, ih h.2 (acc ++ [c])]

def literals (ts : List Token) : List (List Char) := ts.filterMap Token.literal?

@[simp] theorem literals_append (ts ts' : List Token) :
    literals (ts ++ ts') = literals ts ++ literals ts' := filterMap_append

/-- What the first literal of a text begins with. -/
def Mode.literalText : Mode → List Char
  | .quoted _ acc | .escaped _ acc | .closing _ acc => acc
  | _ => []

def Mode.inLiteral : Mode → Bool
  | .quoted q _ | .escaped q _ | .closing q _ => q == '\''
  | _ => false

section
variable {q : Char} {acc s : List Char}

theorem tokensFrom_ended (d : Dialect) (s : List Char) : tokensFrom d .ended s = [] := by
  induction s with
  | nil => rfl
  | cons c s ih => cases h : d.ends c <;> simp [tokensFrom, step, advance, finish, h, ih]

/-- Where the text ends, the token that the lexer is in is the last one. -/
theorem tokensFrom_ends (hends : d.ends c = true) (m : Mode) :
    tokensFrom d m (c :: s) = finish d m := by
  simp [tokensFrom, step, hends, tokensFrom_ended]

theorem tokensFrom_closing_quote : tokensFrom d (.closing '\'' acc) ('\'' :: s) =
    tokensFrom d (.quoted '\'' (acc ++ ['\'', '\''])) s := by
  simp [tokensFrom, step, advance]

theorem tokensFrom_quoted_quote :
    tokensFrom d (.quoted '\'' acc) ('\'' :: s) = tokensFrom d (.closing '\'' acc) s := by
  simp [tokensFrom, step, advance]

theorem tokensFrom_quoted_escapes (hc : d.escapes c = true) (c' : Char) :
    tokensFrom d (.quoted '\'' acc) (c :: c' :: s) =
      tokensFrom d (.quoted '\'' (acc ++ [c, c'])) s := by
  simp [tokensFrom, step, advance, d.ends_of_escapes hc, ne_quote_of_escapes hc, hc]

/-- A literal that is closed is the next token. -/
theorem literals_closing (hc : c ≠ '\'') :
    (literals (tokensFrom d (.closing '\'' acc) (c :: s))).head? = some acc := by
  cases hends : d.ends c with
  | true => simp [tokensFrom_ends hends, finish, literals, quotedToken, Token.literal?]
  | false =>
    simp [tokensFrom, step, advance, hends, hc, after, literals, quotedToken, Token.literal?]

end

/-- The literal that a text ends in is not shorter than what was read of it. -/
theorem length_le_of_finish {m : Mode} (hm : m.inLiteral = true) {b : List Char}
    (h : (literals (finish d m)).head? = some b) : m.literalText.length ≤ b.length := by
  cases m with
  | quoted | escaped => simp [finish, literals, Token.literal?] at h
  | closing q acc =>
    have hq : q = '\'' := beq_iff_eq.1 hm
    simp [finish, literals, quotedToken, hq, Token.literal?] at h
    simp [Mode.literalText, h]
  | _ => cases hm

/-- A literal does not get shorter than what was read of it. -/
theorem length_le_of_head {m : Mode} (hm : m.inLiteral = true) {s b : List Char}
    (h : (literals (tokensFrom d m s)).head? = some b) : m.literalText.length ≤ b.length := by
  induction s generalizing m with
  | nil => exact length_le_of_finish hm h
  | cons c s ih =>
    have hmore : ∀ m' : Mode, m'.inLiteral = true →
        (literals (tokensFrom d m' s)).head? = some b →
        m.literalText.length ≤ m'.literalText.length → m.literalText.length ≤ b.length :=
      fun m' hm' h' hle => Nat.le_trans hle (ih hm' h')
    cases hends : d.ends c with
    | true =>
      rw [tokensFrom_ends hends] at h
      exact length_le_of_finish hm h
    | false =>
      simp only [tokensFrom, step, hends, Bool.false_eq_true, if_false] at h
      cases m with
      | quoted q acc =>
        simp only [advance] at h
        split at h
        · exact hmore (.closing q acc) hm h (Nat.le_refl _)
        · split at h
          · exact hmore (.escaped q (acc ++ [c])) hm h (by simp [Mode.literalText])
          · exact hmore (.quoted q (acc ++ [c])) hm h (by simp [Mode.literalText])
      | escaped q acc => exact hmore (.quoted q (acc ++ [c])) hm h (by simp [Mode.literalText])
      | closing q acc =>
        obtain rfl : q = '\'' := beq_iff_eq.1 hm
        by_cases hquote : c = '\''
        · subst hquote
          exact hmore (.quoted '\'' (acc ++ ['\'', '\''])) hm h (by simp [Mode.literalText])
        · simp [advance, hquote, after, literals, quotedToken, Token.literal?] at h
          simp [Mode.literalText, h]
      | _ => cases hm

/-- A text that is read as one whole literal, up to the quote after it, is a literal body. -/
theorem literalBody_of_head {s acc rest : List Char}
    (h : (literals (tokensFrom d (.quoted '\'' acc) (s ++ '\'' :: rest))).head? = some (acc ++ s)) :
    isLiteralBody d s = true := by
  induction s using isLiteralBody.induct d generalizing acc with
  | case1 => rfl
  | case2 c hc =>
    rw [singleton_append, tokensFrom_quoted_escapes hc] at h
    have hlen := length_le_of_head rfl h
    simp [Mode.literalText] at hlen
  | case3 c hc c' cs ih =>
    rw [cons_append, cons_append, tokensFrom_quoted_escapes hc] at h
    have hs := @ih (acc ++ [c, c']) (by simpa using h)
    simpa [isLiteralBody, hc] using hs
  | case4 =>
    rw [singleton_append, tokensFrom_quoted_quote, tokensFrom_closing_quote] at h
    have hlen := length_le_of_head rfl h
    simp [Mode.literalText] at hlen
  | case5 c' cs _ ih =>
    rw [cons_append, tokensFrom_quoted_quote, cons_append] at h
    by_cases hq : c' = '\''
    · subst hq
      rw [tokensFrom_closing_quote] at h
      have hs := @ih (acc ++ ['\'', '\'']) (by simpa using h)
      simpa [isLiteralBody] using hs
    · rw [literals_closing hq] at h
      simp at h
  | case6 c' cs hslash hquote ih =>
    rw [cons_append] at h
    cases hends : d.ends c' with
    | true =>
      rw [tokensFrom_ends hends] at h
      simp [finish, literals, Token.literal?] at h
    | false =>
      rw [tokensFrom, step_quoted_cons hquote hslash hends] at h
      rw [isLiteralBody_cons hslash hquote, hends]
      exact @ih (acc ++ [c']) (by simpa using h)

end Lib.SqlText
