import Mathlib

/-!
# Tables as lists of rows

A table is the list of its rows. `rowAt` looks a row up by its key, `updateWhere` and `deleteWhere`
are the effects of `UPDATE` and `DELETE` statements. The lemmas say what a statement does to the row
of a given key, and to the keys of the whole table.
-/

namespace Lib

open List

variable {ρ κ : Type*}

/-- The rows after `UPDATE … SET f WHERE p`. -/
def updateWhere (p : ρ → Bool) (f : ρ → ρ) (t : List ρ) : List ρ :=
  t.map fun r => if p r then f r else r

/-- The rows after `DELETE … WHERE p`. -/
def deleteWhere (p : ρ → Bool) (t : List ρ) : List ρ := t.filter fun r => !p r

variable {t : List ρ} {p : ρ → Bool} {f : ρ → ρ}

/-- An update that keeps a column of the rows it touches keeps the column of the table. -/
theorem map_updateWhere {key : ρ → κ} (hf : ∀ r, p r = true → key (f r) = key r) :
    (updateWhere p f t).map key = t.map key := by
  rw [updateWhere, map_map]
  apply map_congr_left
  intro r _
  by_cases h : p r = true <;> simp [h, hf]

theorem map_subset_updateWhere {key : ρ → κ} (h : ∀ r, p r = true → key (f r) = key r) :
    t.map key ⊆ (updateWhere p f t).map key := by
  rw [map_updateWhere h]
  exact List.Subset.refl _

variable {r : ρ}

theorem mem_updateWhere : r ∈ updateWhere p f t ↔ ∃ r₀ ∈ t, (if p r₀ then f r₀ else r₀) = r :=
  mem_map

variable {p q : ρ → Bool}

/-- An update and a selection of rows by what the update keeps can be exchanged. -/
theorem filter_updateWhere (hq : ∀ r, p r = true → q (f r) = q r) :
    (updateWhere p f t).filter q = updateWhere p f (t.filter q) := by
  rw [updateWhere, filter_map, updateWhere]
  congr 1
  refine filter_congr fun r _ => ?_
  rw [Function.comp_apply]
  split
  · exact hq r ‹_›
  · rfl

theorem find?_updateWhere (hq : ∀ r, p r = true → q (f r) = q r) :
    (updateWhere p f t).find? q = (t.find? q).map fun r => if p r then f r else r := by
  rw [updateWhere, List.find?_map]
  congr 2
  funext r
  rw [Function.comp_apply]
  split
  · exact hq r ‹_›
  · rfl

/-- Rows that a lookup does not match can be left out. -/
theorem find?_filter_of_imp (h : ∀ r ∈ t, p r = true → q r = true) :
    (t.filter q).find? p = t.find? p := by
  induction t with
  | nil => rfl
  | cons r t ih =>
    have ht := ih fun r hr => h r (mem_cons_of_mem _ hr)
    cases hp : p r with
    | true => simp [h r mem_cons_self hp, hp]
    | false => cases hq : q r <;> simp [hq, hp, ht]

/-- An update that leaves the table as it is changes none of the rows. -/
theorem updateWhere_eq_self : updateWhere p f t = t ↔ ∀ r ∈ t, p r = true → f r = r := by
  rw [updateWhere]
  nth_rewrite 2 [← map_id t]
  rw [map_inj_left]
  refine forall₂_congr fun r _ => ?_
  cases p r <;> simp

/-- An update after which its rows do not match leaves the other rows that match. -/
theorem countP_updateWhere (hf : ∀ r, p r = true → q (f r) = false) :
    t.countP q = (updateWhere p f t).countP q + t.countP fun r => q r && p r := by
  induction t with
  | nil => rfl
  | cons r t ih =>
    rw [updateWhere, map_cons, countP_cons, countP_cons, countP_cons, ih,
      ← updateWhere]
    cases hp : p r with
    | false => simp; omega
    | true => simp [hf r hp]; omega

/-- An update of rows that did not match and then match adds them to a selection. -/
theorem filter_updateWhere_perm (hp : ∀ r, p r = true → q r = false)
    (hf : ∀ r, p r = true → q (f r) = true) :
    ((updateWhere p f t).filter q).Perm ((t.filter p).map f ++ t.filter q) := by
  induction t with
  | nil => exact .nil
  | cons r t ih =>
    rw [updateWhere, map_cons, ← updateWhere, filter_cons, filter_cons,
      filter_cons]
    cases hr : p r with
    | true =>
      simp only [if_true, hp r hr, hf r hr, Bool.false_eq_true, if_false, map_cons,
        cons_append]
      exact ih.cons _
    | false =>
      simp only [Bool.false_eq_true, if_false]
      split
      · exact (ih.cons r).trans perm_middle.symm
      · exact ih

@[simp] theorem mem_deleteWhere : r ∈ deleteWhere p t ↔ r ∈ t ∧ p r = false := by
  simp [deleteWhere]

theorem deleteWhere_sublist (p : ρ → Bool) (t : List ρ) : (deleteWhere p t).Sublist t :=
  filter_sublist

theorem deleteWhere_deleteWhere (p q : ρ → Bool) (t : List ρ) :
    deleteWhere q (deleteWhere p t) = deleteWhere (fun r => p r || q r) t := by
  rw [deleteWhere, deleteWhere, deleteWhere, filter_filter]
  apply filter_congr
  intro r _
  rw [Bool.not_or, Bool.and_comm]

/-- The deleted rows and the remaining ones are the table. -/
theorem filter_append_deleteWhere_perm (p : ρ → Bool) (t : List ρ) :
    (t.filter p ++ deleteWhere p t).Perm t := by
  simpa [deleteWhere] using filter_append_perm p t

variable [DecidableEq κ]

/-- The row with the given key. -/
def rowAt (key : ρ → κ) (t : List ρ) (k : κ) : Option ρ := t.find? fun r => decide (key r = k)

variable {key : ρ → κ} {t : List ρ} {k : κ}

theorem mem_of_rowAt (h : rowAt key t k = some r) : r ∈ t ∧ key r = k :=
  ⟨mem_of_find?_eq_some h, by simpa using List.find?_some h⟩

theorem rowAt_eq_none : rowAt key t k = none ↔ k ∉ t.map key := by
  simp [rowAt]

theorem rowAt_of_mem (hk : (t.map key).Nodup) (hr : r ∈ t) : rowAt key t (key r) = some r := by
  cases h : rowAt key t (key r) with
  | none => exact absurd (mem_map_of_mem hr) (rowAt_eq_none.1 h)
  | some r' =>
    obtain ⟨hr', hkey⟩ := mem_of_rowAt h
    rw [inj_on_of_nodup_map hk hr' hr hkey]

theorem rowAt_eq_some (hk : (t.map key).Nodup) : rowAt key t k = some r ↔ r ∈ t ∧ key r = k := by
  constructor
  · exact mem_of_rowAt
  · rintro ⟨hr, rfl⟩
    exact rowAt_of_mem hk hr

theorem rowAt_updateWhere (hf : ∀ r, p r = true → key (f r) = key r) :
    rowAt key (updateWhere p f t) k = (rowAt key t k).map fun r => if p r then f r else r := by
  refine find?_updateWhere fun r hr => ?_
  rw [hf r hr]

/-- With unique keys, the row at a key after a delete is the old one unless it was deleted. -/
theorem rowAt_deleteWhere (hk : (t.map key).Nodup) (p : ρ → Bool) :
    rowAt key (deleteWhere p t) k = (rowAt key t k).filter fun r => !p r := by
  have hk' : ((deleteWhere p t).map key).Nodup := hk.sublist ((deleteWhere_sublist p t).map key)
  ext r
  rw [rowAt_eq_some hk', Option.filter_eq_some_iff, rowAt_eq_some hk]
  rw [mem_deleteWhere, Bool.not_eq_true', and_right_comm]

/-- A condition that holds only of the row at a key selects that row. -/
theorem filter_of_rowAt (hk : (t.map key).Nodup) (hp : ∀ r ∈ t, p r = true → key r = k)
    (hr : rowAt key t k = some r) (hpr : p r = true) : t.filter p = [r] := by
  obtain ⟨hmem, hkey⟩ := mem_of_rowAt hr
  have honly : ∀ r' ∈ t.filter p, r' = r := by
    intro r' hr'
    obtain ⟨hmem', hpr'⟩ := mem_filter.1 hr'
    exact inj_on_of_nodup_map hk hmem' hmem ((hp r' hmem' hpr').trans hkey.symm)
  have hnodup : (t.filter p).Nodup := (List.Nodup.of_map _ hk).filter p
  exact perm_singleton.1 ((perm_ext_iff_of_nodup hnodup (nodup_singleton r)).2
    fun r' => ⟨fun hr' => mem_singleton.2 (honly r' hr'),
      fun hr' => mem_singleton.1 hr' ▸ mem_filter.2 ⟨hmem, hpr⟩⟩)

/-- A condition that holds only of the row at a key counts that row. -/
theorem countP_of_rowAt (hk : (t.map key).Nodup) (hp : ∀ r ∈ t, p r = true → key r = k)
    (hr : rowAt key t k = some r) (hpr : p r = true) : t.countP p = 1 := by
  rw [countP_eq_length_filter, filter_of_rowAt hk hp hr hpr, length_singleton]

end Lib
