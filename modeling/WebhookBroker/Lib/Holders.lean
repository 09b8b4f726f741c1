import Mathlib

/-!
# Items that pass from hand to hand

Each of some holders has at most one item, and no item has two holders. `Holds job out` says so, and
that `out` lists the items that somebody has. A holder gets a new item (`Holds.gain`), passes it on
(`Holds.pass`), or gives it away for good (`Holds.lose`).
-/

namespace Lib

open Function

variable {ι α : Type*}

/-- The items of `out` are with the holders, each with one of them. -/
structure Holds (job : ι → Option α) (out : List α) : Prop where
  mem : ∀ p, p ∈ out ↔ ∃ h, job h = some p
  inj : ∀ h h' p, job h = some p → job h' = some p → h = h'

variable {job : ι → Option α} {out : List α} {p : α} {h h' : ι}

section
variable [DecidableEq ι]

theorem Holds.gain (hholds : Holds job out) (hfree : job h = none) (hp : p ∉ out) :
    Holds (update job h (some p)) (p :: out) := by
  have hnew : ∀ k, job k ≠ some p := fun k hk => hp ((hholds.mem p).2 ⟨k, hk⟩)
  constructor
  · intro q
    rw [List.mem_cons, hholds.mem]
    constructor
    · rintro (rfl | ⟨k, hk⟩)
      · exact ⟨h, update_self ..⟩
      · refine ⟨k, ?_⟩
        rw [update_of_ne, hk]
        rintro rfl
        rw [hfree] at hk
        cases hk
    · rintro ⟨k, hk⟩
      by_cases hkh : k = h
      · rw [hkh, update_self] at hk
        exact .inl (Option.some.inj hk).symm
      · rw [update_of_ne hkh] at hk
        exact .inr ⟨k, hk⟩
  · intro k k' q hk hk'
    by_cases hkh : k = h <;> by_cases hkh' : k' = h
    · rw [hkh, hkh']
    · rw [hkh, update_self] at hk
      rw [update_of_ne hkh', ← hk] at hk'
      exact absurd hk' (hnew k')
    · rw [hkh', update_self] at hk'
      rw [update_of_ne hkh, ← hk'] at hk
      exact absurd hk (hnew k)
    · rw [update_of_ne hkh] at hk
      rw [update_of_ne hkh'] at hk'
      exact hholds.inj k k' q hk hk'

theorem Holds.lose [DecidableEq α] (hholds : Holds job out) (hp : job h = some p)
    (hnodup : out.Nodup) : Holds (update job h none) (out.erase p) := by
  have hne : ∀ {k q}, update job h none k = some q → k ≠ h ∧ job k = some q := by
    intro k q hk
    by_cases hkh : k = h
    · rw [hkh, update_self] at hk
      cases hk
    · rw [update_of_ne hkh] at hk
      exact ⟨hkh, hk⟩
  constructor
  · intro q
    rw [hnodup.mem_erase_iff, hholds.mem]
    constructor
    · rintro ⟨hqp, k, hk⟩
      refine ⟨k, ?_⟩
      rw [update_of_ne, hk]
      rintro rfl
      exact hqp (Option.some.inj (hk.symm.trans hp))
    · rintro ⟨k, hk⟩
      obtain ⟨hkh, hk⟩ := hne hk
      refine ⟨?_, k, hk⟩
      rintro rfl
      exact hkh (hholds.inj k h q hk hp)
  · intro k k' q hk hk'
    exact hholds.inj k k' q (hne hk).2 (hne hk').2

theorem Holds.pass [DecidableEq α] (hholds : Holds job out) (hp : job h = some p)
    (hfree : job h' = none) (hnodup : out.Nodup) :
    Holds (update (update job h none) h' (some p)) out := by
  have hfree' : update job h none h' = none := by
    by_cases hh : h' = h
    · rw [hh, update_self]
    · rwa [update_of_ne hh]
  have hgain := (hholds.lose hp hnodup).gain hfree' (p := p) fun hmem =>
    absurd rfl (hnodup.mem_erase_iff.1 hmem).1
  have hmem : p ∈ out := (hholds.mem p).2 ⟨h, hp⟩
  exact ⟨fun q => ((List.perm_cons_erase hmem).mem_iff).trans (hgain.mem q), hgain.inj⟩

end

theorem Holds.eq_nil (hholds : Holds job out) (hnone : ∀ h, job h = none) : out = [] := by
  refine List.eq_nil_iff_forall_not_mem.2 fun p hp => ?_
  obtain ⟨h, hh⟩ := (hholds.mem p).1 hp
  rw [hnone h] at hh
  cases hh

end Lib
