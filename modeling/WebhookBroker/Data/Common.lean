import WebhookBroker.Lib.Like

/-!
# Identifiers, times and pages (`storage/data/common.go`)

Record ids are `xid.ID` values, kept in the database as the 20 characters of their `String()`:
digits and the letters `a` to `v`. So an id holds no `LIKE` wildcard, and the `id like ?` of the
storage layer compares ids for equality (`Xid.like_iff`).
-/

namespace WebhookBroker

/-- A point in time in nanoseconds since Go's zero time. -/
abbrev Time := Int

/-- Go's `time.Duration` in nanoseconds. -/
abbrev Duration := Int

/-- The value that Go's 64-bit signed arithmetic keeps of an exact result. -/
def wrap64 (x : Int) : Int := x.bmod (2 ^ 64)

def second : Duration := 1000000000

theorem wrap64_of_bounds {x : Int} (h1 : -2 ^ 63 ≤ x) (h2 : x < 2 ^ 63) : wrap64 x = x := by
  unfold wrap64
  rw [Int.bmod_eq_of_le] <;> omega

/-- A character of the lower-case base 32 alphabet that `xid` writes ids in. -/
def isXidChar (c : Char) : Bool := ('0' ≤ c && c ≤ '9') || ('a' ≤ c && c ≤ 'v')

/-- An `xid.ID`, as the string that is stored and compared. -/
structure Xid where
  string : String
  length : string.length = 20
  chars : ∀ c ∈ string.toList, isXidChar c = true
deriving DecidableEq

/-- The nil id: twelve zero bytes. -/
def Xid.nil : Xid := ⟨"00000000000000000000", by decide, List.all_eq_true.1 (by decide)⟩

/-- `text LIKE pattern`. The databases fold the case of letters, and MySQL has an escape character;
both are left out. -/
def sqlLike (pattern text : String) : Bool := Lib.like pattern.toList text.toList

theorem isWildcard_of_isXidChar {c : Char} (h : isXidChar c = true) : Lib.isWildcard c = false := by
  rw [Bool.eq_false_iff]
  intro hw
  simp only [Lib.isWildcard, Bool.or_eq_true, beq_iff_eq] at hw
  rcases hw with rfl | rfl <;> exact absurd h (by decide)

theorem sqlLike_iff_eq {pattern : String}
    (h : ∀ c ∈ pattern.toList, Lib.isWildcard c = false) (text : String) :
    sqlLike pattern text = true ↔ pattern = text := by
  rw [sqlLike, Lib.like_iff_eq h, String.toList_inj]

theorem sqlLike_self (pattern : String) : sqlLike pattern pattern = true := Lib.like_self _

theorem exists_ne_sqlLike {pattern : String}
    (h : ∃ c ∈ pattern.toList, Lib.isWildcard c = true) :
    ∃ text, text ≠ pattern ∧ sqlLike pattern text = true := by
  obtain ⟨text, hne, hlike⟩ := Lib.exists_ne_like h
  refine ⟨String.ofList text, ?_, ?_⟩
  · rintro rfl
    exact hne String.toList_ofList.symm
  · rwa [sqlLike, String.toList_ofList]

@[simp] theorem Xid.like_iff (a b : Xid) : sqlLike a.string b.string = true ↔ a = b := by
  rw [sqlLike_iff_eq fun c hc => isWildcard_of_isXidChar (a.chars c hc)]
  constructor
  · intro h
    cases a; cases b
    cases h
    rfl
  · rintro rfl
    rfl

theorem Xid.string_injective : Function.Injective Xid.string := by
  intro a b h
  exact (Xid.like_iff a b).1 (h ▸ sqlLike_self _)

/-- `Cursor`: the id and the creation time of the row a page continues from. -/
structure Cursor where
  id : String
  timestamp : Time
deriving DecidableEq

structure Pagination where
  next : Option Cursor := none
  previous : Option Cursor := none
deriving DecidableEq

/-- `BasePaginateable`: what every stored record has. -/
structure BasePaginateable where
  id : Xid
  createdAt : Time
  updatedAt : Time
deriving DecidableEq

/-- `BasePaginateable.GetCursor`, which never returns an error. -/
def BasePaginateable.getCursor (p : BasePaginateable) : Cursor := ⟨p.id.string, p.createdAt⟩

def newPagination (after before : Option BasePaginateable) : Pagination :=
  { next := after.map (·.getCursor), previous := before.map (·.getCursor) }

end WebhookBroker
