import Mathlib

/-!
# Byte strings

A Go string is a sequence of bytes; a character of a `List Char` stands for one byte. The functions
of the packages `strings` and `encoding/hex` that take a text apart are written out here.
`trimSpace` goes by the encodings of the white space of Unicode: no encoding is a proper prefix or
suffix of another one, so that taking encodings off both ends is what decoding runes there does.
-/

namespace Lib

open List

/-- The bytes with the given values. -/
def bytes (l : List Nat) : List Char := l.map Char.ofNat

/-- The UTF-8 encodings of the white space characters. -/
def spaceEncodings : List (List Char) :=
  [[0x09], [0x0A], [0x0B], [0x0C], [0x0D], [0x20], [0xC2, 0x85], [0xC2, 0xA0], [0xE1, 0x9A, 0x80],
    [0xE2, 0x80, 0x80], [0xE2, 0x80, 0x81], [0xE2, 0x80, 0x82], [0xE2, 0x80, 0x83],
    [0xE2, 0x80, 0x84], [0xE2, 0x80, 0x85], [0xE2, 0x80, 0x86], [0xE2, 0x80, 0x87],
    [0xE2, 0x80, 0x88], [0xE2, 0x80, 0x89], [0xE2, 0x80, 0x8A], [0xE2, 0x80, 0xA8],
    [0xE2, 0x80, 0xA9], [0xE2, 0x80, 0xAF], [0xE2, 0x81, 0x9F], [0xE3, 0x80, 0x80]].map bytes

/-- Take the given words off the front of a text, at most `n` of them. -/
def dropWords (words : List (List Char)) : Nat → List Char → List Char
  | 0, s => s
  | n + 1, s =>
    match words.find? (·.isPrefixOf s) with
    | some w => dropWords words n (s.drop w.length)
    | none => s

def trimSpace (s : List Char) : List Char :=
  let s := dropWords spaceEncodings s.length s
  (dropWords (spaceEncodings.map List.reverse) s.length s.reverse).reverse

/-- A character of ASCII that is printed and no space. -/
def isGraphic (c : Char) : Bool := decide (0x21 ≤ c.toNat) && decide (c.toNat ≤ 0x7E)

theorem dropWords_eq_self {words : List (List Char)} {c : Char} {s : List Char}
    (h : ∀ w ∈ words, w.head?.all (· != c) && !w.isEmpty) (n : Nat) :
    dropWords words n (c :: s) = c :: s := by
  cases n with
  | zero => rfl
  | succ n =>
    have hnone : words.find? (·.isPrefixOf (c :: s)) = none := by
      rw [List.find?_eq_none]
      intro w hw
      specialize h w hw
      cases w with
      | nil => simp at h
      | cons a w =>
        simp only [List.head?_cons, Option.all_some, bne_iff_ne, isEmpty_cons,
          Bool.and_eq_true] at h
        simp [List.isPrefixOf, h.1]
    rw [dropWords, hnone]

/-- The first byte of the encoding of a space, and the last, is no graphic character of ASCII. -/
theorem spaceEncodings_ends : ∀ w ∈ spaceEncodings ++ spaceEncodings.map List.reverse,
    w.head?.all (fun c => !isGraphic c) && !w.isEmpty := by
  decide

/-- A text that starts and ends with graphic characters of ASCII stays as it is. -/
theorem trimSpace_eq_self {c d : Char} {s m : List Char} (hc : isGraphic c = true)
    (hd : isGraphic d = true) (hfirst : s.head? = some c) (hlast : s = m ++ [d]) :
    trimSpace s = s := by
  have hends : ∀ {e}, isGraphic e = true → ∀ w ∈ spaceEncodings ++ spaceEncodings.map List.reverse,
      w.head?.all (· != e) && !w.isEmpty := by
    intro e he w hw
    have hw' := spaceEncodings_ends w hw
    cases w with
    | nil => simp at hw'
    | cons a w =>
      simp only [List.head?_cons, Option.all_some, isEmpty_cons, Bool.and_eq_true,
        Bool.not_eq_true', bne_iff_ne] at hw' ⊢
      refine ⟨?_, trivial⟩
      rintro rfl
      rw [he] at hw'
      exact absurd hw'.1 (by simp)
  have hleft : dropWords spaceEncodings s.length s = s := by
    obtain ⟨s', rfl⟩ : ∃ s', s = c :: s' := by
      cases s with
      | nil => cases hfirst
      | cons a s' =>
        cases hfirst
        exact ⟨s', rfl⟩
    exact dropWords_eq_self (fun w hw => hends hc w (mem_append_left _ hw)) _
  have hright : dropWords (spaceEncodings.map List.reverse) s.length s.reverse = s.reverse := by
    rw [hlast, reverse_concat]
    exact dropWords_eq_self (fun w hw => hends hd w (mem_append_right _ hw)) _
  unfold trimSpace
  rw [hleft]
  dsimp only
  rw [hright, reverse_reverse]

def trimPrefix (s pre : List Char) : List Char :=
  if pre.isPrefixOf s then s.drop pre.length else s

/-- A separator that is not in the part before it ends that part. -/
theorem eq_of_append_cons {a : Char} {x y u v : List Char} (hx : a ∉ x) (hy : a ∉ y)
    (h : x ++ a :: u = y ++ a :: v) : x = y ∧ u = v := by
  induction x generalizing y with
  | nil =>
    cases y with
    | nil => exact ⟨rfl, (List.cons.inj h).2⟩
    | cons b y =>
      obtain ⟨rfl, -⟩ := List.cons.inj h
      exact absurd mem_cons_self hy
  | cons b x ih =>
    cases y with
    | nil =>
      obtain ⟨rfl, -⟩ := List.cons.inj h
      exact absurd mem_cons_self hx
    | cons b' y =>
      obtain ⟨rfl, htail⟩ := List.cons.inj h
      obtain ⟨rfl, huv⟩ := ih (fun hmem => hx (mem_cons_of_mem _ hmem))
        (fun hmem => hy (mem_cons_of_mem _ hmem)) htail
      exact ⟨rfl, huv⟩

/-! ## Hexadecimal text -/

/-- The digit of a number below 16. -/
def hexDigit (n : Nat) : Char := "0123456789abcdef".toList.getD n '0'

def encodeToString (src : List UInt8) : List Char :=
  src.flatMap fun b => [hexDigit (b.toNat / 16), hexDigit (b.toNat % 16)]

theorem hexDigit_inj : ∀ m < 16, ∀ n < 16, hexDigit m = hexDigit n → m = n := by
  decide

theorem isGraphic_hexDigit : ∀ n < 16, isGraphic (hexDigit n) = true ∧ hexDigit n ≠ ',' := by
  decide

theorem mem_encodeToString {c : Char} {src : List UInt8} (h : c ∈ encodeToString src) :
    isGraphic c = true ∧ c ≠ ',' := by
  obtain ⟨b, -, hb⟩ := mem_flatMap.1 h
  have hlt : b.toNat < 256 := b.toNat_lt
  simp only [mem_cons, not_mem_nil, or_false] at hb
  rcases hb with rfl | rfl
  · exact isGraphic_hexDigit _ (by omega)
  · exact isGraphic_hexDigit _ (by omega)

theorem encodeToString_injective : Function.Injective encodeToString := by
  intro xs ys h
  induction xs generalizing ys with
  | nil =>
    cases ys with
    | nil => rfl
    | cons y ys => simp [encodeToString] at h
  | cons x xs ih =>
    cases ys with
    | nil => simp [encodeToString] at h
    | cons y ys =>
      have hx : x.toNat < 256 := x.toNat_lt
      have hy : y.toNat < 256 := y.toNat_lt
      simp only [encodeToString, flatMap_cons, cons_append, nil_append,
        List.cons.injEq] at h
      obtain ⟨hhigh, hlow, htail⟩ := h
      have hhigh' := hexDigit_inj _ (by omega) _ (by omega) hhigh
      have hlow' := hexDigit_inj _ (by omega) _ (by omega) hlow
      have hxy : x = y := UInt8.toNat_inj.1 (by omega)
      rw [hxy, ih htail]

end Lib
