import Mathlib

/-!
# SQL `LIKE` patterns

The standard meaning of a `LIKE` pattern: `%` matches every string, `_` every single character,
and any other character only itself. A pattern without wildcards matches only its own text
(`like_iff_eq`); a pattern with one always matches some other text too (`exists_ne_like`).
-/

namespace Lib

open List

/-- `%` or `_`. -/
def isWildcard (c : Char) : Bool := c == '%' || c == '_'

/-- Does the text match the pattern? -/
def like : List Char → List Char → Bool
  | [] => fun text => text.isEmpty
  | p :: ps => fun text =>
    if p = '%' then text.tails.any (like ps)
    else match text with
      | [] => false
      | c :: cs => (p == '_' || p == c) && like ps cs

theorem like_self (p : List Char) : like p p = true := by
  induction p with
  | nil => rfl
  | cons c ps ih =>
    rw [like]
    split
    · rw [any_eq_true]
      exact ⟨ps, by simp, ih⟩
    · simp [ih]

/-- A pattern without wildcards matches only its own text. -/
theorem like_iff_eq {p : List Char} (h : ∀ c ∈ p, isWildcard c = false) (text : List Char) :
    like p text = true ↔ p = text := by
  induction p generalizing text with
  | nil => cases text <;> simp [like]
  | cons c ps ih =>
    have hc := h c (by simp)
    simp only [isWildcard, Bool.or_eq_false_iff, beq_eq_false_iff_ne] at hc
    cases text with
    | nil => simp [like, hc.1]
    | cons d ds =>
      have := ih (fun x hx => h x (mem_cons_of_mem _ hx)) ds
      simp [like, hc.1, hc.2, this]

/-- A pattern with a wildcard matches a text other than its own. -/
theorem exists_ne_like {p : List Char} (h : ∃ c ∈ p, isWildcard c = true) :
    ∃ text, text ≠ p ∧ like p text = true := by
  induction p with
  | nil => simp at h
  | cons c ps ih =>
    by_cases hc : isWildcard c = true
    · refine ⟨'a' :: ps, ?_, ?_⟩
      · rintro ⟨⟩
        simp [isWildcard] at hc
      · rw [like]
        split
        · rw [any_eq_true]
          exact ⟨ps, by simp, like_self ps⟩
        · have : c = '_' := by simpa [isWildcard, ‹¬c = '%'›] using hc
          simp [this, like_self ps]
    · obtain ⟨text, hne, hl⟩ := ih (by
        obtain ⟨d, hd, hw⟩ := h
        rcases mem_cons.1 hd with rfl | hd
        · exact absurd hw hc
        · exact ⟨d, hd, hw⟩)
      refine ⟨c :: text, by simpa using hne, ?_⟩
      have hp : c ≠ '%' := by rintro rfl; simp [isWildcard] at hc
      simp [like, hp, hl]

end Lib
