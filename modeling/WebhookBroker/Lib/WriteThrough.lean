import WebhookBroker.Lib.Run

/-!
# Views that are kept by write-through

A system keeps a view of a store, one value for each key. An operation first acts on the store and
publishes a value for its keys in a later step, so that the view may lag behind. `Right s k v` says
that `v` is a right value for `k` while the store is as in `s`, and `Pending s k` that an operation
has still to publish a value for `k`.

If every change of the store leaves a publication pending, then all that matters once nothing is
pending is the last publication of a key: the view is right if and only if that one was right when
it was published (`View.right_iff`).
-/

namespace Lib

variable {σ α κ ν : Type*} {init : σ → Prop} {step : σ → α → Option σ}

/-- A view in a system with the given steps. -/
structure View (step : σ → α → Option σ) (κ ν : Type*) where
  view : σ → κ → ν
  Right : σ → κ → ν → Prop
  /-- what an action writes to the view for a key -/
  publishes : σ → α → κ → Option ν
  Pending : σ → κ → Prop
  view_step : ∀ {s a s'}, step s a = some s' → ∀ k, view s' k = (publishes s a k).getD (view s k)
  pending_step : ∀ {s a s'}, step s a = some s' → ∀ k, Pending s k → publishes s a k = none →
    Pending s' k

/-- Of the moments before `n` at which something holds, there is none or a last one. -/
theorem forall_or_exists_last (P : Nat → Prop) (n : Nat) :
    (∀ i, i < n → ¬ P i) ∨ ∃ p, p < n ∧ P p ∧ ∀ i, p < i → i < n → ¬ P i := by
  induction n with
  | zero => exact .inl fun i hi => absurd hi (Nat.not_lt_zero i)
  | succ n ih =>
    by_cases hn : P n
    · exact .inr ⟨n, Nat.lt_succ_self n, hn, fun i hi hi' => by omega⟩
    · rcases ih with hnone | ⟨p, hp, hP, hlast⟩
      · refine .inl fun i hi => ?_
        rcases Nat.lt_succ_iff_lt_or_eq.1 hi with hlt | rfl
        · exact hnone i hlt
        · exact hn
      · refine .inr ⟨p, Nat.lt_succ_of_lt hp, hP, fun i hi hi' => ?_⟩
        rcases Nat.lt_succ_iff_lt_or_eq.1 hi' with hlt | rfl
        · exact hlast i hi hlt
        · exact hn

namespace View
variable (W : View step κ ν) (r : Run init step) {k : κ} {m n : Nat}

/-- No step from `m` to `n` publishes a value for the key. -/
def Silent (k : κ) (m n : Nat) : Prop :=
  ∀ i, m ≤ i → i < n → W.publishes (r.state i) (r.act i) k = none

/-- A step before `n` that publishes nothing for the key and leaves nothing pending for it does not
change which values are right for it. -/
def Covered (k : κ) (n : Nat) : Prop :=
  ∀ i, i < n → W.publishes (r.state i) (r.act i) k = none → ¬ W.Pending (r.state (i + 1)) k →
    ∀ v, W.Right (r.state i) k v ↔ W.Right (r.state (i + 1)) k v

variable {W r}

theorem Silent.mono {m' : Nat} (h : W.Silent r k m n) (hm : m ≤ m') : W.Silent r k m' n :=
  fun i hi hi' => h i (Nat.le_trans hm hi) hi'

section
variable (h : W.Silent r k m n) (hmn : m ≤ n) (hn : n ≤ r.len)
include h hmn hn

theorem Silent.view_eq : W.view (r.state n) k = W.view (r.state m) k := by
  induction n, hmn using Nat.le_induction with
  | base => rfl
  | succ n hmn ih =>
    have hsilent : W.Silent r k m n := fun i hi hi' => h i hi (Nat.lt_succ_of_lt hi')
    rw [W.view_step (r.next n hn) k, h n hmn (Nat.lt_succ_self n), Option.getD_none,
      ih hsilent (Nat.le_of_succ_le hn)]

theorem Silent.pending (hm : W.Pending (r.state m) k) : W.Pending (r.state n) k := by
  induction n, hmn using Nat.le_induction with
  | base => exact hm
  | succ n hmn ih =>
    have hsilent : W.Silent r k m n := fun i hi hi' => h i hi (Nat.lt_succ_of_lt hi')
    exact W.pending_step (r.next n hn) k (ih hsilent (Nat.le_of_succ_le hn))
      (h n hmn (Nat.lt_succ_self n))

/-- If nothing is pending in the end, the store did not change. -/
theorem Silent.right_iff (hcovered : W.Covered r k n) (hidle : ¬ W.Pending (r.state n) k) (v : ν) :
    W.Right (r.state m) k v ↔ W.Right (r.state n) k v := by
  have hfrom : ∀ i, m ≤ i → i ≤ n → (W.Right (r.state m) k v ↔ W.Right (r.state i) k v) := by
    intro i hmi hin
    induction i, hmi using Nat.le_induction with
    | base => rfl
    | succ i hmi ih =>
      rw [ih (Nat.le_of_succ_le hin)]
      refine hcovered i hin (h i hmi hin) (fun hpending => hidle ?_) v
      exact (h.mono (Nat.le_succ_of_le hmi)).pending hin hn hpending
  exact hfrom n hmn le_rfl

end

/-- Once nothing is pending for a key, the view is right for it if and only if the last publication
for it was right. -/
theorem right_iff (hn : n ≤ r.len) (h0 : W.Right (r.state 0) k (W.view (r.state 0) k))
    (hcovered : W.Covered r k n) (hidle : ¬ W.Pending (r.state n) k) :
    W.Right (r.state n) k (W.view (r.state n) k) ↔
      ∀ p v, p < n → W.publishes (r.state p) (r.act p) k = some v → W.Silent r k (p + 1) n →
        W.Right (r.state (p + 1)) k v := by
  have hlast : ∀ p v, p < n → W.publishes (r.state p) (r.act p) k = some v →
      W.Silent r k (p + 1) n →
      (W.Right (r.state n) k (W.view (r.state n) k) ↔ W.Right (r.state (p + 1)) k v) := by
    intro p v hp hv hsilent
    have hview : W.view (r.state (p + 1)) k = v := by
      rw [W.view_step (r.next p (by omega)) k, hv, Option.getD_some]
    rw [hsilent.view_eq hp hn, hview, hsilent.right_iff hp hn hcovered hidle]
  constructor
  · intro h p v hp hv hsilent
    exact (hlast p v hp hv hsilent).1 h
  · intro h
    rcases forall_or_exists_last (fun i => W.publishes (r.state i) (r.act i) k ≠ none) n with
      hnone | ⟨p, hp, hpub, hsilent⟩
    · have hsilent : W.Silent r k 0 n := fun i _ hi => not_not.1 (hnone i hi)
      rw [hsilent.view_eq (Nat.zero_le n) hn]
      exact (hsilent.right_iff (Nat.zero_le n) hn hcovered hidle _).1 h0
    · obtain ⟨v, hv⟩ := Option.ne_none_iff_exists'.1 hpub
      have hsilent : W.Silent r k (p + 1) n := fun i hi hi' => not_not.1 (hsilent i hi hi')
      exact (hlast p v hp hv hsilent).2 (h p v hp hv hsilent)

end View

end Lib
