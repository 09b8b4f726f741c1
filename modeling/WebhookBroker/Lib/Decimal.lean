import Mathlib

/-!
# Integers as decimal text

The decimal text of an integer and the two readers of Go's `strconv` for base 10. A reader accepts
digits only, after an optional sign for `parseInt`, and rejects a number that does not fit its
width. Leading zeros and a plus sign are accepted, so that many texts stand for one number; the text
that `formatInt` writes is read back (`parseInt_formatInt`), and no two numbers share it.
-/

namespace Lib

open List

/-- The decimal text of an integer. -/
def formatInt (i : Int) : List Char :=
  if i < 0 then '-' :: Nat.toDigits 10 i.natAbs else Nat.toDigits 10 i.natAbs

/-- The number of at most `bitSize` bits that a text of digits stands for. -/
def parseUint (bitSize : Nat) (s : List Char) : Option Nat :=
  if s.isEmpty || !s.all Char.isDigit then none
  else
    let n := Nat.ofDigitChars 10 s 0
    if n < 2 ^ bitSize then some n else none

/-- The signed number of 64 bits that a text stands for. -/
def parseInt : List Char → Option Int
  | '+' :: s => (parseUint 64 s).bind fun n => if n < 2 ^ 63 then some (n : Int) else none
  | '-' :: s => (parseUint 64 s).bind fun n => if n ≤ 2 ^ 63 then some (-(n : Int)) else none
  | s => (parseUint 64 s).bind fun n => if n < 2 ^ 63 then some (n : Int) else none

theorem parseUint_toDigits {bitSize n : Nat} (h : n < 2 ^ bitSize) :
    parseUint bitSize (Nat.toDigits 10 n) = some n := by
  have hdigits : (Nat.toDigits 10 n).all Char.isDigit = true := by
    rw [all_eq_true]
    intro c hc
    exact Nat.isDigit_of_mem_toDigits (by omega) (by omega) hc
  have hne : (Nat.toDigits 10 n).isEmpty = false := by
    simp [Nat.toDigits_ne_nil]
  simp [parseUint, hdigits, hne, h]

theorem parseUint_lt {bitSize n : Nat} {s : List Char} (h : parseUint bitSize s = some n) :
    n < 2 ^ bitSize := by
  unfold parseUint at h
  split at h
  · cases h
  · dsimp only at h
    split at h
    · rename_i hlt
      cases h
      exact hlt
    · cases h

/-- The first digit of a number is no sign. -/
theorem toDigits_eq_cons (n : Nat) :
    ∃ c s, Nat.toDigits 10 n = c :: s ∧ c.isDigit = true := by
  obtain ⟨c, s, h⟩ := exists_cons_of_ne_nil (@Nat.toDigits_ne_nil n 10)
  refine ⟨c, s, h, ?_⟩
  exact Nat.isDigit_of_mem_toDigits (by omega) (by omega) (h ▸ mem_cons_self)

/-- The text of a number of 64 bits is read back. -/
theorem parseInt_formatInt {i : Int} (hmin : -2 ^ 63 ≤ i) (hmax : i < 2 ^ 63) :
    parseInt (formatInt i) = some i := by
  unfold formatInt
  split
  · rename_i hneg
    have hlt : i.natAbs < 2 ^ 64 := by omega
    have hle : i.natAbs ≤ 2 ^ 63 := by omega
    simp only [parseInt, parseUint_toDigits hlt, Option.bind_some, if_pos hle]
    congr 1
    omega
  · rename_i hneg
    have hlt : i.natAbs < 2 ^ 64 := by omega
    have hle : i.natAbs < 2 ^ 63 := by omega
    have hread := parseUint_toDigits hlt
    obtain ⟨c, s, hcons, hc⟩ := toDigits_eq_cons i.natAbs
    rw [hcons] at hread ⊢
    have hplus : c ≠ '+' := by rintro rfl; simp at hc
    have hminus : c ≠ '-' := by rintro rfl; simp at hc
    rw [parseInt]
    · simp only [hread, Option.bind_some, if_pos hle]
      congr 1
      omega
    · rintro s' ⟨⟩
      exact hplus rfl
    · rintro s' ⟨⟩
      exact hminus rfl

theorem parseInt_bounds {i : Int} {s : List Char} (h : parseInt s = some i) :
    -2 ^ 63 ≤ i ∧ i < 2 ^ 63 := by
  unfold parseInt at h
  split at h <;>
    · obtain ⟨n, -, hn⟩ := Option.bind_eq_some_iff.1 h
      split at hn
      · cases hn
        omega
      · cases hn

theorem mem_formatInt {c : Char} {i : Int} (h : c ∈ formatInt i) : c = '-' ∨ c.isDigit = true := by
  have hdigit : c ∈ Nat.toDigits 10 i.natAbs → c.isDigit = true :=
    Nat.isDigit_of_mem_toDigits (by omega) (by omega)
  unfold formatInt at h
  split at h
  · rcases mem_cons.1 h with rfl | hmem
    · exact .inl rfl
    · exact .inr (hdigit hmem)
  · exact .inr (hdigit h)

theorem formatInt_inj {i j : Int} (hi : -2 ^ 63 ≤ i ∧ i < 2 ^ 63) (hj : -2 ^ 63 ≤ j ∧ j < 2 ^ 63)
    (h : formatInt i = formatInt j) : i = j := by
  have hread := parseInt_formatInt hi.1 hi.2
  rw [h, parseInt_formatInt hj.1 hj.2] at hread
  exact (Option.some.inj hread).symm

end Lib
