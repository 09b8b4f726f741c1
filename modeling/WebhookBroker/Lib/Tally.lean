import Mathlib

/-!
# Counts by group

`groupCount` is the result of `SELECT group, COUNT(*) … GROUP BY group`, and `countAt` the value of
a group in such a list of counts, or in a part of one.
-/

namespace Lib

open List

variable {ι γ : Type*} [DecidableEq γ]

/-- The number of items of a group. -/
def groupSize (group : ι → γ) (items : List ι) (g : γ) : Nat :=
  items.countP fun i => decide (group i = g)

/-- The groups of the items, with their sizes. -/
def groupCount (group : ι → γ) (items : List ι) : List (γ × Nat) :=
  (items.map group).dedup.map fun g => (g, groupSize group items g)

variable {group : ι → γ} {items : List ι} {g : γ}

theorem mem_groupCount {n : Nat} :
    (g, n) ∈ groupCount group items ↔ g ∈ items.map group ∧ n = groupSize group items g := by
  rw [groupCount, mem_map]
  constructor
  · rintro ⟨g', hg', heq⟩
    cases heq
    exact ⟨mem_dedup.1 hg', rfl⟩
  · rintro ⟨hg, rfl⟩
    exact ⟨g, mem_dedup.2 hg, rfl⟩

theorem groupCount_keys : (groupCount group items).map (·.1) = (items.map group).dedup := by
  rw [groupCount, map_map]
  exact map_id _

theorem nodup_groupCount_keys : ((groupCount group items).map (·.1)).Nodup := by
  rw [groupCount_keys]
  exact nodup_dedup _

theorem groupSize_eq_zero : groupSize group items g = 0 ↔ g ∉ items.map group := by
  rw [groupSize, countP_eq_zero, mem_map]
  constructor
  · rintro h ⟨i, hi, rfl⟩
    exact h i hi (decide_eq_true rfl)
  · intro h i hi hg
    exact h ⟨i, hi, of_decide_eq_true hg⟩

/-- The count of a group in a list that has its keys once. -/
def countAt (counts : List (γ × Nat)) (g : γ) : Nat :=
  ((counts.filter fun p => decide (p.1 = g)).map (·.2)).sum

@[simp] theorem countAt_cons (p : γ × Nat) (counts : List (γ × Nat)) :
    countAt (p :: counts) g = (if p.1 = g then p.2 else 0) + countAt counts g := by
  by_cases h : p.1 = g <;> simp [countAt, h]

theorem countAt_perm {counts counts' : List (γ × Nat)} (h : counts.Perm counts') :
    countAt counts g = countAt counts' g :=
  ((h.filter _).map _).sum_eq

theorem countAt_of_not_mem {counts : List (γ × Nat)} (h : g ∉ counts.map (·.1)) :
    countAt counts g = 0 := by
  induction counts with
  | nil => rfl
  | cons p counts ih =>
    rw [map_cons, mem_cons, not_or] at h
    rw [countAt_cons, if_neg (Ne.symm h.1), ih h.2]

theorem countAt_of_mem {counts : List (γ × Nat)} (hkeys : (counts.map (·.1)).Nodup) {n : Nat}
    (h : (g, n) ∈ counts) : countAt counts g = n := by
  induction counts with
  | nil => cases h
  | cons p counts ih =>
    obtain ⟨hnot, hkeys⟩ := nodup_cons.1 hkeys
    rw [countAt_cons]
    rcases mem_cons.1 h with rfl | h
    · rw [if_pos rfl, countAt_of_not_mem hnot, Nat.add_zero]
    · have hne : p.1 ≠ g := by
        rintro rfl
        exact hnot (mem_map.2 ⟨_, h, rfl⟩)
      rw [if_neg hne, ih hkeys h, Nat.zero_add]

theorem countAt_groupCount : countAt (groupCount group items) g = groupSize group items g := by
  by_cases hg : g ∈ items.map group
  · exact countAt_of_mem nodup_groupCount_keys (mem_groupCount.2 ⟨hg, rfl⟩)
  · rw [groupSize_eq_zero.2 hg]
    refine countAt_of_not_mem ?_
    rwa [groupCount_keys, mem_dedup]

theorem groupCount_eq_nil : groupCount group items = [] ↔ items = [] := by
  rw [groupCount, map_eq_nil_iff, dedup_eq_nil, map_eq_nil_iff]

variable {items' : List ι}

theorem groupSize_append :
    groupSize group (items ++ items') g = groupSize group items g + groupSize group items' g :=
  countP_append

theorem groupSize_filter_group {g' : γ} :
    groupSize group (items.filter fun i => decide (group i = g)) g' =
      if g = g' then groupSize group items g else 0 := by
  rw [groupSize, countP_filter]
  split
  · rename_i heq
    subst heq
    exact congrArg (List.countP · items) (funext fun i => by simp)
  · rename_i hne
    refine countP_eq_zero.2 fun i _ => ?_
    simp only [Bool.and_eq_true, decide_eq_true_eq, not_and]
    exact fun h h' => hne (h'.symm.trans h)

theorem groupSize_filter_add (p : ι → Bool) :
    groupSize group (items.filter p) g + groupSize group (items.filter fun i => !p i) g =
      groupSize group items g := by
  rw [groupSize, groupSize, groupSize, ← countP_append]
  exact (filter_append_perm p items).countP_eq _

/-! ## Passes with checkpoints

A pass adds the items that it sees and that its checkpoint does not have behind it. -/

section
variable {π : Type*} {seen past : π → Bool} {p : π} {ps : List π}

/-- If the first pass starts before an item and the last one sees it, then it is added once if and
only if each pass has seen it exactly if the next one starts after it. -/
theorem countP_fresh_eq_one_iff
    (hseen : (p :: ps).Pairwise fun q q' => seen q = true → seen q' = true)
    (hpast : (p :: ps).Pairwise fun q q' => past q = true → past q' = true) (hp : past p = false)
    (hlast : ∀ q, (p :: ps).getLast? = some q → seen q = true) :
    (p :: ps).countP (fun q => seen q && !past q) = 1 ↔
      (p :: ps).IsChain fun q q' => seen q = past q' := by
  induction ps generalizing p with
  | nil =>
    have hsp : seen p = true := hlast p rfl
    simp [hsp, hp]
  | cons q ps ih =>
    obtain ⟨hseen, hseens⟩ := pairwise_cons.1 hseen
    obtain ⟨hpast', hpasts⟩ := pairwise_cons.1 (pairwise_cons.1 hpast).2
    rw [countP_cons, isChain_cons_cons]
    cases hsp : seen p with
    | true =>
      have hall : ∀ x ∈ q :: ps, seen x = true := fun x hx => hseen x hx hsp
      have hzero : (q :: ps).countP (fun q => seen q && !past q) = 0 ↔
          ∀ x ∈ q :: ps, past x = true := by
        rw [countP_eq_zero]
        exact forall₂_congr fun x hx => by simp [hall x hx]
      simp only [hp, Bool.not_false, Bool.and_true, if_true, Nat.add_eq_right, hzero]
      constructor
      · intro hpasts
        refine ⟨(hpasts q mem_cons_self).symm, (List.Pairwise.isChain ?_)⟩
        refine pairwise_of_forall_mem_list fun x hx y hy => ?_
        rw [hall x hx, hpasts y hy]
      · rintro ⟨hq, -⟩ x hx
        rcases mem_cons.1 hx with rfl | hx
        · exact hq.symm
        · exact hpast' x hx hq.symm
    | false =>
      simp only [Bool.false_and, Bool.false_eq_true, if_false, Nat.add_zero]
      cases hq : past q with
      | false =>
        rw [ih hseens (pairwise_cons.2 ⟨hpast', hpasts⟩) hq
          fun x hx => hlast x (by rw [List.getLast?_cons_cons]; exact hx)]
        simp
      | true =>
        have hzero : (q :: ps).countP (fun q => seen q && !past q) = 0 := by
          refine countP_eq_zero.2 fun x hx => ?_
          rcases mem_cons.1 hx with rfl | hx
          · simp [hq]
          · simp [hpast' x hx hq]
        simp [hzero]

end

end Lib
