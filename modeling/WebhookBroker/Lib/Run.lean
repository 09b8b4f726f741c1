import Mathlib

/-!
# Finite runs of a partial step function

A run is indexed by its steps: `state i` is the state before step `i`, `act i` the action of the
step, and `next` says that the step function takes the one to `state (i + 1)`. Safety is proved
with `Run.invariant`, and a concrete run is built from its list of actions with `Run.ofActs`.
-/

namespace Lib

open List

variable {σ α : Type*}

/-- A run of `len` steps from a state that satisfies `init`. -/
structure Run (init : σ → Prop) (step : σ → α → Option σ) where
  len : Nat
  state : Nat → σ
  act : Nat → α
  start : init (state 0)
  next : ∀ i, i < len → step (state i) (act i) = some (state (i + 1))

variable {init : σ → Prop} {step : σ → α → Option σ}
variable {P : σ → Prop}

/-- What holds initially and is kept by every step that meets a condition holds in every state of a
run whose steps all meet it. -/
theorem Run.invariant_of_acts (r : Run init step) {C : σ → α → Prop}
    (hC : ∀ i < r.len, C (r.state i) (r.act i)) (hinit : ∀ s, init s → P s)
    (hstep : ∀ s a s', C s a → P s → step s a = some s' → P s') :
    ∀ i, i ≤ r.len → P (r.state i) := by
  intro i
  induction i with
  | zero => intro _; exact hinit _ r.start
  | succ i ih =>
    intro hi
    exact hstep _ _ _ (hC i (by omega)) (ih (by omega)) (r.next i (by omega))

/-- What holds initially and is kept by every step holds in every state of a run. -/
theorem Run.invariant (r : Run init step) (hinit : ∀ s, init s → P s)
    (hstep : ∀ s a s', P s → step s a = some s' → P s') : ∀ i, i ≤ r.len → P (r.state i) :=
  r.invariant_of_acts (C := fun _ _ => True) (fun _ _ => trivial) hinit
    fun s a s' _ => hstep s a s'

/-- Between a state where something holds and a later one where it does not, there is a first step
that ends it. -/
theorem exists_first_end {P : Nat → Prop} {m n : Nat} (hmn : m ≤ n) (hm : P m) (hn : ¬ P n) :
    ∃ i, m ≤ i ∧ i < n ∧ (∀ k, m ≤ k → k ≤ i → P k) ∧ ¬ P (i + 1) := by
  classical
  have hex : ∃ d, ¬ P (m + d) := ⟨n - m, by rwa [Nat.add_sub_cancel' hmn]⟩
  have hnot := Nat.find_spec hex
  have hbefore : ∀ d < Nat.find hex, P (m + d) := fun d hd => not_not.1 (Nat.find_min hex hd)
  have hle : Nat.find hex ≤ n - m := Nat.find_min' hex (by rwa [Nat.add_sub_cancel' hmn])
  have hpos : Nat.find hex ≠ 0 := fun h0 => hnot (by rwa [h0])
  refine ⟨m + (Nat.find hex - 1), by omega, by omega, fun k hk hki => ?_, ?_⟩
  · have hk' := hbefore (k - m) (by omega)
    rwa [Nat.add_sub_cancel' hk] at hk'
  · rwa [show m + (Nat.find hex - 1) + 1 = m + Nat.find hex by omega]

/-- The state after a list of actions, if every one of them is possible. -/
def exec (step : σ → α → Option σ) : σ → List α → Option σ
  | s, [] => some s
  | s, a :: as => (step s a).bind fun s' => exec step s' as

theorem exec_append {s : σ} {as bs : List α} :
    exec step s (as ++ bs) = (exec step s as).bind fun s' => exec step s' bs := by
  induction as generalizing s with
  | nil => rfl
  | cons a as ih =>
    rw [cons_append, exec, exec, Option.bind_assoc]
    exact congrArg _ (funext fun s' => ih)

variable {as : List α}

/-- What holds before a list of actions and is kept by each of them holds after it. -/
theorem exec_invariant {s t : σ} (h : exec step s as = some t) (hs : P s)
    (hstep : ∀ s a s', a ∈ as → P s → step s a = some s' → P s') : P t := by
  induction as generalizing s with
  | nil =>
    cases h
    exact hs
  | cons a as ih =>
    obtain ⟨s', hs', h⟩ := Option.bind_eq_some_iff.1 h
    exact ih h (hstep s a s' mem_cons_self hs hs')
      fun s a s' ha => hstep s a s' (mem_cons_of_mem _ ha)

/-- A prefix of a possible list of actions is possible, and the next action then takes the state
after the prefix to the state after one action more. -/
theorem exec_take {s : σ} (h : (exec step s as).isSome) :
    ∀ i (hi : i < as.length), ∃ t t', exec step s (as.take i) = some t ∧
      step t as[i] = some t' ∧ exec step s (as.take (i + 1)) = some t' := by
  induction as generalizing s with
  | nil => intro i hi; exact absurd hi (Nat.not_lt_zero i)
  | cons a as ih =>
    cases hs : step s a with
    | none => simp [exec, hs] at h
    | some s' =>
      have h' : (exec step s' as).isSome := by simpa [exec, hs] using h
      intro i hi
      cases i with
      | zero => exact ⟨s, s', by simp [exec], by simpa using hs, by simp [exec, hs]⟩
      | succ i =>
        obtain ⟨t, t', h1, h2, h3⟩ := ih h' i (by simpa using hi)
        exact ⟨t, t', by simpa [exec, hs] using h1, by simpa using h2, by simpa [exec, hs] using h3⟩

def Run.ofActs [Inhabited α] (s : σ) (as : List α) (h0 : init s)
    (h : (exec step s as).isSome) : Run init step where
  len := as.length
  state i := (exec step s (as.take i)).getD s
  act i := as.getD i default
  start := by simpa [exec] using h0
  next i hi := by
    obtain ⟨t, t', h1, h2, h3⟩ := exec_take h i hi
    simpa [h1, h3, getD_eq_getElem?_getD, List.getElem?_eq_getElem hi] using h2

theorem Run.state_ofActs [Inhabited α] {s t : σ} {h0 : init s} {h : (exec step s as).isSome}
    {i : Nat} (ht : exec step s (as.take i) = some t) : (Run.ofActs s as h0 h).state i = t := by
  change (exec step s (as.take i)).getD s = t
  rw [ht]
  rfl

/-! ## Lists of processes -/

/-- The processes after a step of one of them. -/
theorem getElem?_set_cases {ps : List α} {t u : Nat} {p q : α} (h : (ps.set t p)[u]? = some q) :
    (u = t ∧ q = p) ∨ (u ≠ t ∧ ps[u]? = some q) := by
  rcases eq_or_ne t u with rfl | hne
  · rw [List.getElem?_set_self'] at h
    obtain ⟨_, -, rfl⟩ := Option.map_eq_some_iff.1 h
    exact .inl ⟨rfl, rfl⟩
  · rw [List.getElem?_set_ne hne] at h
    exact .inr ⟨hne.symm, h⟩

/-- The processes after the start of a new one. -/
theorem getElem?_concat_cases {ps : List α} {u : Nat} {p q : α} (h : (ps ++ [p])[u]? = some q) :
    (u = ps.length ∧ q = p) ∨ ps[u]? = some q := by
  rcases Nat.lt_trichotomy u ps.length with hlt | rfl | hgt
  · rw [List.getElem?_append_left hlt] at h
    exact .inr h
  · rw [List.getElem?_concat_length] at h
    exact .inl ⟨rfl, (Option.some.inj h).symm⟩
  · rw [List.getElem?_eq_none (by rw [length_append, length_singleton]; omega)] at h
    cases h

end Lib
