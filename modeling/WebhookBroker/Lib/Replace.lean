import Mathlib

/-!
# Replacing every occurrence of a text

`replaceAll` scans from the left and goes on after an occurrence. Its proofs use one induction rule,
`replaceAll_induction`: a text is empty, or starts with an occurrence, or has another first
character.
-/

namespace Lib

open List

variable {α : Type*} [DecidableEq α] {old new : List α}

/-- Replaces the occurrences of `old` after the first `skip` characters. -/
def replaceFrom (old new : List α) : Nat → List α → List α
  | _, [] => []
  | 0, c :: s =>
    if old <+: c :: s then new ++ replaceFrom old new (old.length - 1) s
    else c :: replaceFrom old new 0 s
  | skip + 1, _ :: s => replaceFrom old new skip s

/-- `strings.ReplaceAll`, for a text `old` that is not empty. -/
def replaceAll (old new s : List α) : List α := replaceFrom old new 0 s

theorem replaceFrom_eq (skip : Nat) (s : List α) :
    replaceFrom old new skip s = replaceAll old new (s.drop skip) := by
  induction skip generalizing s with
  | zero => rfl
  | succ skip ih =>
    cases s with
    | nil => rfl
    | cons c s => exact ih s

@[simp] theorem replaceAll_nil : replaceAll old new [] = [] := rfl

/-- An occurrence at the start. -/
theorem replaceAll_append (h : old ≠ []) (s : List α) :
    replaceAll old new (old ++ s) = new ++ replaceAll old new s := by
  obtain ⟨c, cs, rfl⟩ := exists_cons_of_ne_nil h
  have hstart : c :: cs <+: c :: (cs ++ s) := prefix_append (c :: cs) s
  rw [cons_append, replaceAll, replaceFrom, if_pos hstart, replaceFrom_eq, length_cons,
    Nat.add_sub_cancel, drop_left]

variable {s : List α}

/-- No occurrence at the start. -/
theorem replaceAll_cons {c : α} (h : ¬ old <+: c :: s) :
    replaceAll old new (c :: s) = c :: replaceAll old new s := if_neg h

/-- Induction along the scan. -/
@[elab_as_elim]
theorem replaceAll_induction {motive : List α → Prop} (h : old ≠ []) (nil : motive [])
    (found : ∀ s, motive s → motive (old ++ s))
    (other : ∀ c s, ¬ old <+: c :: s → motive s → motive (c :: s)) (s : List α) : motive s := by
  induction hn : s.length using Nat.strong_induction_on generalizing s with
  | _ n ih =>
    cases s with
    | nil => exact nil
    | cons c s =>
      by_cases hstart : old <+: c :: s
      · obtain ⟨t, ht⟩ := hstart
        rw [← ht]
        have hpos := length_pos_of_ne_nil h
        have hlength := congrArg List.length ht
        rw [length_append, hn] at hlength
        exact found t (ih t.length (by omega) t rfl)
      · exact other c s hstart (ih s.length (by rw [← hn, length_cons]; omega) s rfl)

section
variable (h : old ≠ [])
include h

theorem replaceAll_self (s : List α) : replaceAll old old s = s := by
  induction s using replaceAll_induction h with
  | nil => rfl
  | found s ih => rw [replaceAll_append h, ih]
  | other c s hc ih => rw [replaceAll_cons hc, ih]

theorem replaceAll_pattern : replaceAll old new old = new := by
  have happend := @replaceAll_append α _ old new h []
  rwa [append_nil, replaceAll_nil, append_nil] at happend

theorem replaceAll_of_not_occurs (hs : ¬ old <:+: s) : replaceAll old new s = s := by
  induction s using replaceAll_induction h with
  | nil => rfl
  | found s ih => exact absurd (prefix_append old s).isInfix hs
  | other c s hc ih => rw [replaceAll_cons hc, ih fun hoccurs => hs (infix_cons hoccurs)]

theorem mem_replaceAll {c : α} (hc : c ∈ replaceAll old new s) : c ∈ s ∨ c ∈ new := by
  induction s using replaceAll_induction h with
  | nil => cases hc
  | found s ih =>
    rw [replaceAll_append h] at hc
    rcases mem_append.1 hc with hc | hc
    · exact .inr hc
    · exact (ih hc).imp_left (mem_append_right old)
  | other d s hd ih =>
    rw [replaceAll_cons hd] at hc
    rcases mem_cons.1 hc with rfl | hc
    · exact .inl mem_cons_self
    · exact (ih hc).imp_left (mem_cons_of_mem d)

/-- The first occurrence. -/
theorem exists_replaceAll_split {s : List α} (hs : old <:+: s) :
    ∃ a b, s = a ++ (old ++ b) ∧ replaceAll old new s = a ++ (new ++ replaceAll old new b) := by
  induction s using replaceAll_induction h with
  | nil => exact absurd (infix_nil.1 hs) h
  | found s ih => exact ⟨[], s, rfl, replaceAll_append h s⟩
  | other c s hc ih =>
    obtain ⟨a, b, hsplit, hreplace⟩ := ih ((infix_cons_iff.1 hs).resolve_left hc)
    refine ⟨c :: a, b, by rw [hsplit]; rfl, ?_⟩
    rw [replaceAll_cons hc, hreplace]
    rfl

theorem length_replaceAll_le (hle : new.length ≤ old.length) (s : List α) :
    (replaceAll old new s).length ≤ s.length := by
  induction s using replaceAll_induction h with
  | nil => exact Nat.le_refl _
  | found s ih =>
    rw [replaceAll_append h, length_append, length_append]
    exact Nat.add_le_add hle ih
  | other c s hc ih =>
    rw [replaceAll_cons hc]
    exact Nat.succ_le_succ ih

theorem le_length_replaceAll (hle : old.length ≤ new.length) (s : List α) :
    s.length ≤ (replaceAll old new s).length := by
  induction s using replaceAll_induction h with
  | nil => exact Nat.le_refl _
  | found s ih =>
    rw [replaceAll_append h, length_append, length_append]
    exact Nat.add_le_add hle ih
  | other c s hc ih =>
    rw [replaceAll_cons hc]
    exact Nat.succ_le_succ ih

/-- Only replacing a text by itself keeps a text with an occurrence. -/
theorem eq_of_replaceAll_eq (hs : old <:+: s) (heq : replaceAll old new s = s) : new = old := by
  obtain ⟨a, b, hsplit, hreplace⟩ := @exists_replaceAll_split α _ old new h s hs
  have htail : new ++ replaceAll old new b = old ++ b := by
    rw [heq, hsplit] at hreplace
    exact (append_cancel_left hreplace).symm
  have hlength := congrArg List.length htail
  rw [length_append, length_append] at hlength
  have hsame : new.length = old.length := by
    rcases Nat.le_total new.length old.length with hle | hle
    · have := length_replaceAll_le h hle b
      omega
    · have := le_length_replaceAll h hle b
      omega
  exact (append_inj htail hsame).1

/-- An occurrence does not reach over a character that is not in it. -/
theorem replaceAll_append_cons {sep : α} (hsep : sep ∉ old) (a b : List α) :
    replaceAll old new (a ++ sep :: b) = replaceAll old new a ++ sep :: replaceAll old new b := by
  induction a using replaceAll_induction h with
  | nil =>
    refine replaceAll_cons fun hstart => ?_
    obtain ⟨d, ds, rfl⟩ := exists_cons_of_ne_nil h
    exact hsep ((cons_prefix_cons.1 hstart).1 ▸ mem_cons_self)
  | found a ih =>
    rw [append_assoc, replaceAll_append h, replaceAll_append h, ih, append_assoc]
  | other c a hc ih =>
    have hnot : ¬ old <+: c :: (a ++ sep :: b) := by
      intro hstart
      have hother : (c :: a) ++ [sep] <+: c :: (a ++ sep :: b) := ⟨b, by simp⟩
      rcases Nat.lt_or_ge (c :: a).length old.length with hlt | hge
      · refine hsep ((prefix_of_prefix_length_le hother hstart ?_).subset ?_)
        · rw [length_append]
          exact hlt
        · simp
      · exact hc (prefix_of_prefix_length_le hstart
          (prefix_append (c :: a) (sep :: b)) hge)
    rw [cons_append, replaceAll_cons hnot, ih, replaceAll_cons hc]
    rfl

/-- So the parts between such characters are treated one by one. -/
theorem replaceAll_intercalate {sep : α} (hsep : sep ∉ old) (parts : List (List α)) :
    replaceAll old new ([sep].intercalate parts) =
      [sep].intercalate (parts.map (replaceAll old new)) := by
  induction parts with
  | nil => rfl
  | cons part parts ih =>
    cases parts with
    | nil => simp
    | cons next parts =>
      rw [map_cons, map_cons, intercalate_cons_cons, intercalate_cons_cons,
        append_assoc, append_assoc, ← map_cons, ← ih]
      exact replaceAll_append_cons h hsep part _

end

end Lib
