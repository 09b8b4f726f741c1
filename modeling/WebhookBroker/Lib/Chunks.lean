import Mathlib

/-!
# Work in chunks

A loop that goes through a list `size` elements at a time, with the bounds of each slice computed
from an index. Its slices make up the list (`flatten_chunks`), and none of them is empty
(`ne_nil_of_mem_chunks`).

A selection by a list of keys can be made chunk by chunk: if no row is selected by two keys of the
list, the rows of all chunks are those of the whole list (`flatMap_filter_perm`). Which rows a key
selects is arbitrary.
-/

namespace Lib

open List

variable {α ρ σ ε : Type*}

/-- `xs[start:stop]`. -/
def slice (xs : List α) (start stop : Nat) : List α := (xs.take stop).drop start

/-- The slices of `for ; start < len(xs); start += size`; `fuel` bounds their number. -/
def chunksFrom (size : Nat) (xs : List α) : Nat → Nat → List (List α)
  | 0, _ => []
  | fuel + 1, start =>
    if start < xs.length then
      slice xs start (min (start + size) xs.length) :: chunksFrom size xs fuel (start + size)
    else []

/-- The slices of `for start := 0; start < len(xs); start += size`. -/
def chunks (size : Nat) (xs : List α) : List (List α) := chunksFrom size xs xs.length 0

theorem slice_min (size : Nat) (xs : List α) (start : Nat) :
    slice xs start (min (start + size) xs.length) = (xs.drop start).take size := by
  rw [slice, ← take_take, take_length, take_drop, Nat.add_comm]

variable {size : Nat}

theorem chunksFrom_flatten (hsize : 0 < size) {xs : List α} {fuel start : Nat}
    (hfuel : xs.length ≤ start + fuel) :
    (chunksFrom size xs fuel start).flatten = xs.drop start := by
  induction fuel generalizing start with
  | zero => rw [chunksFrom, flatten_nil, drop_eq_nil_of_le (by omega)]
  | succ fuel ih =>
    rw [chunksFrom]
    split
    · rw [flatten_cons, slice_min, ih (by omega), ← drop_drop, take_append_drop]
    · rw [flatten_nil, drop_eq_nil_of_le (by omega)]

theorem flatten_chunks (hsize : 0 < size) (xs : List α) : (chunks size xs).flatten = xs := by
  rw [chunks, chunksFrom_flatten hsize (by omega), drop_zero]

theorem ne_nil_of_mem_chunks (hsize : 0 < size) {xs c : List α} (hc : c ∈ chunks size xs) :
    c ≠ [] := by
  have hfrom : ∀ fuel start, c ∈ chunksFrom size xs fuel start → c ≠ [] := by
    intro fuel
    induction fuel with
    | zero => exact fun _ hc => absurd hc not_mem_nil
    | succ fuel ih =>
      intro start hc
      rw [chunksFrom] at hc
      split at hc
      · rcases mem_cons.1 hc with rfl | hc
        · rw [slice_min, ← length_pos_iff, length_take, length_drop]
          omega
        · exact ih _ hc
      · exact absurd hc not_mem_nil
  exact hfrom _ _ hc

/-- Two selections that have no row in common can be made one after the other. -/
theorem filter_append_filter_perm {p q : ρ → Bool} {rows : List ρ}
    (h : ∀ r ∈ rows, p r = true → q r = false) :
    (rows.filter p ++ rows.filter q).Perm (rows.filter fun r => p r || q r) := by
  have hp : (rows.filter fun r => p r || q r).filter p = rows.filter p := by
    rw [filter_filter]
    exact filter_congr fun r _ => by cases p r <;> simp
  have hq : (rows.filter fun r => p r || q r).filter (fun r => !p r) = rows.filter q := by
    rw [filter_filter]
    refine filter_congr fun r hr => ?_
    cases hpr : p r with
    | false => simp
    | true => simp [h r hr hpr]
  have hsplit := filter_append_perm p (rows.filter fun r => p r || q r)
  rwa [hp, hq] at hsplit

/-- If no row is selected by two keys, the selections of the chunks are that of the whole list. -/
theorem flatMap_filter_perm (selects : α → ρ → Bool) (rows : List ρ) (css : List (List α))
    (h : css.flatten.Pairwise fun a b => ∀ r ∈ rows, selects a r = true → selects b r = false) :
    (css.flatMap fun c => rows.filter fun r => c.any (selects · r)).Perm
      (rows.filter fun r => css.flatten.any (selects · r)) := by
  induction css with
  | nil => simp
  | cons c css ih =>
    rw [flatten_cons, pairwise_append] at h
    obtain ⟨-, hrest, hbetween⟩ := h
    rw [flatMap_cons, flatten_cons]
    refine ((ih hrest).append_left _).trans ?_
    simp only [any_append]
    refine filter_append_filter_perm fun r hr hc => ?_
    obtain ⟨a, ha, har⟩ := any_eq_true.1 hc
    exact any_eq_false.2 fun b hb => by simp [hbetween a ha b hb r hr har]

/-- A loop that reads the rows of one chunk after the other and adds each row to a result. -/
def foldRows (read : α → Except ε (List ρ)) (add : σ → ρ → σ) : List α → σ → Except ε σ
  | [], s => .ok s
  | c :: cs, s =>
    match read c with
    | .ok rs => foldRows read add cs (rs.foldl add s)
    | .error e => .error e

/-- A result is a value with a property, or an error that may occur. -/
def Returns (fails : ε → Prop) (P : σ → Prop) : Except ε σ → Prop
  | .ok a => P a
  | .error e => fails e

theorem Returns.imp {fails : ε → Prop} {P Q : σ → Prop} {result : Except ε σ}
    (h : Returns fails P result) (himp : ∀ a, P a → Q a) : Returns fails Q result := by
  cases result with
  | ok a => exact himp a h
  | error e => exact h

/-- The loop adds the rows of all chunks, or it ends with the error of a chunk. -/
theorem foldRows_returns {read : α → Except ε (List ρ)} {rows : α → List ρ} {fails : ε → Prop}
    {cs : List α} (h : ∀ c ∈ cs, Returns fails (·.Perm (rows c)) (read c)) (add : σ → ρ → σ)
    (s : σ) :
    Returns fails (fun t => ∃ rs : List ρ, rs.Perm (cs.flatMap rows) ∧ rs.foldl add s = t)
      (foldRows read add cs s) := by
  induction cs generalizing s with
  | nil => exact ⟨[], .refl _, rfl⟩
  | cons c cs ih =>
    have hc := h c mem_cons_self
    rw [foldRows]
    cases hread : read c with
    | error e =>
      rw [hread] at hc
      exact hc
    | ok rs =>
      rw [hread] at hc
      refine (ih (fun c' hc' => h c' (mem_cons_of_mem _ hc')) _).imp ?_
      rintro _ ⟨rs', hperm, rfl⟩
      refine ⟨rs ++ rs', ?_, foldl_append⟩
      rw [flatMap_cons]
      exact List.Perm.append hc hperm

end Lib
