import Mathlib

/-!
# Binary heaps in a list

The functions of Go's `container/heap` on a list: `up`, `down`, `push` and `pop`, for any order
`less`. A heap keeps its elements (`push_perm`, `pop_spec`), and its first one is never after
another one (`IsHeap.root_le`). The number of rounds of the loops is bounded by their first
argument, and the bounds that `push` and `pop` use are large enough (`up_isHeap`, `down_isHeap`).
-/

namespace Lib.Heap

open List

variable {α : Type*}

/-- Exchange the elements at two positions. -/
def swap (l : List α) (i j : Nat) : List α :=
  if h : i < l.length ∧ j < l.length then (l.set i l[j]).set j l[i] else l

/-- The position whose element an exchange puts at position `k`. -/
def transpose (i j k : Nat) : Nat := if k = i then j else if k = j then i else k

theorem swap_perm (l : List α) (i j : Nat) : (swap l i j).Perm l := by
  unfold swap
  split
  · exact set_set_perm _ _
  · exact .refl l

@[simp] theorem length_swap (l : List α) (i j : Nat) : (swap l i j).length = l.length :=
  (swap_perm l i j).length_eq

theorem getElem?_swap {l : List α} {i j : Nat} (hi : i < l.length) (hj : j < l.length) (k : Nat) :
    (swap l i j)[k]? = l[transpose i j k]? := by
  rw [swap, dif_pos ⟨hi, hj⟩, transpose, List.getElem?_set, List.getElem?_set]
  by_cases hki : k = i
  · subst hki
    by_cases hkj : k = j
    · subst hkj
      simp [hi]
    · simp [Ne.symm hkj, hi, hj]
  · by_cases hkj : k = j
    · subst hkj
      simp [hki, hi, hj]
    · simp [hki, hkj, Ne.symm hki, Ne.symm hkj]

section
variable (less : α → α → Bool)

/-- `less` on the elements at two positions. -/
def lessAt (l : List α) (i j : Nat) : Bool :=
  match l[i]?, l[j]? with
  | some x, some y => less x y
  | _, _ => false

/-- Move the element at position `j` up. -/
def up : Nat → List α → Nat → List α
  | 0, l, _ => l
  | fuel + 1, l, j =>
    let i := (j - 1) / 2
    if i = j || !lessAt less l j i then l else up fuel (swap l i j) i

/-- The child of `i` that is not after the other one. -/
def firstChild (l : List α) (i n : Nat) : Nat :=
  let j1 := 2 * i + 1
  if j1 + 1 < n && lessAt less l (j1 + 1) j1 then j1 + 1 else j1

/-- Move the element at position `i` down among the first `n` elements. -/
def down : Nat → List α → Nat → Nat → List α
  | 0, l, _, _ => l
  | fuel + 1, l, i, n =>
    if 2 * i + 1 ≥ n then l
    else
      let j := firstChild less l i n
      if !lessAt less l j i then l else down fuel (swap l i j) j n

def push (l : List α) (x : α) : List α := up less (l.length + 1) (l ++ [x]) l.length

def pop (l : List α) : Option (α × List α) :=
  let n := l.length - 1
  let l := down less (n + 1) (swap l 0 n) 0 n
  l.getLast?.map fun x => (x, l.dropLast)

/-- The element at position `c` is not before the one at position `p`. -/
def Above (l : List α) (p c : Nat) : Prop :=
  ∀ x y, l[p]? = some x → l[c]? = some y → less y x = false

/-- Among the first `n` elements, no one is before its parent. -/
def IsHeap (l : List α) (n : Nat) : Prop := ∀ c, 0 < c → c < n → Above less l ((c - 1) / 2) c

/-- The order that a heap needs. -/
structure WeakOrder : Prop where
  asymm : ∀ {x y}, less x y = true → less y x = false
  trans : ∀ {x y z}, less y x = false → less z y = false → less z x = false

end

variable {less : α → α → Bool} {l : List α}

theorem above_swap {i j p c : Nat} (hi : i < l.length) (hj : j < l.length) :
    Above less (swap l i j) p c ↔ Above less l (transpose i j p) (transpose i j c) := by
  rw [Above, Above, getElem?_swap hi hj, getElem?_swap hi hj]

theorem WeakOrder.irrefl (ho : WeakOrder less) (x : α) : less x x = false := by
  cases h : less x x with
  | false => rfl
  | true =>
    rw [ho.asymm h] at h
    cases h

theorem WeakOrder.above_trans (ho : WeakOrder less) {p q c : Nat} (hq : q < l.length)
    (h : Above less l p q) (h' : Above less l q c) : Above less l p c := fun x z hx hz =>
  ho.trans (h x l[q] hx (List.getElem?_eq_getElem hq))
    (h' l[q] z (List.getElem?_eq_getElem hq) hz)

theorem WeakOrder.above_of_lessAt (ho : WeakOrder less) {i j : Nat}
    (h : lessAt less l i j = true) : Above less l i j := by
  intro x y hx hy
  rw [lessAt, hx, hy] at h
  exact ho.asymm h

theorem above_of_not_lessAt {i j : Nat} (h : lessAt less l i j = false) : Above less l j i := by
  intro x y hx hy
  rwa [lessAt, hx, hy] at h

theorem isHeap_nil : IsHeap less [] 0 := fun c _ hc => absurd hc (Nat.not_lt_zero c)

/-- Being a heap depends on the order of its elements only. -/
theorem IsHeap.congr {less' : α → α → Bool} {n : Nat} (h : IsHeap less l n)
    (heq : ∀ x ∈ l, ∀ y ∈ l, less' x y = less x y) : IsHeap less' l n := by
  intro c hc hn x y hx hy
  rw [heq y (mem_of_getElem? hy) x (mem_of_getElem? hx)]
  exact h c hc hn x y hx hy

/-- The first element of a heap is not after any other. -/
theorem IsHeap.root_le (ho : WeakOrder less) (h : IsHeap less l l.length) {x y : α}
    (hx : l[0]? = some x) (hy : y ∈ l) : less y x = false := by
  have hroot : ∀ c, c < l.length → Above less l 0 c := by
    intro c
    induction c using Nat.strongRecOn with
    | ind c ih =>
      intro hc
      rcases Nat.eq_zero_or_pos c with rfl | hpos
      · intro x y hx hy
        rw [hx] at hy
        cases hy
        exact ho.irrefl x
      · exact ho.above_trans (by omega) (ih ((c - 1) / 2) (by omega) (by omega)) (h c hpos hc)
  obtain ⟨c, hc, hget⟩ := getElem_of_mem hy
  exact hroot c hc x y hx (by rw [List.getElem?_eq_getElem hc, hget])

/-! ## Moving up -/

theorem up_perm (less : α → α → Bool) (fuel : Nat) (l : List α) (j : Nat) :
    (up less fuel l j).Perm l := by
  induction fuel generalizing l j with
  | zero => exact .refl l
  | succ fuel ih =>
    simp only [up]
    split
    · exact .refl l
    · exact (ih _ _).trans (swap_perm ..)

/-- Only the element at `j` may be before its parent, and it may be exchanged with it. -/
structure UpHole (less : α → α → Bool) (l : List α) (j : Nat) : Prop where
  off : ∀ c, 0 < c → c < l.length → c ≠ j → Above less l ((c - 1) / 2) c
  grand : 0 < j → ∀ c, 0 < c → c < l.length → (c - 1) / 2 = j → Above less l ((j - 1) / 2) c

/-- The exchange with the parent moves the hole up. -/
theorem UpHole.swap (ho : WeakOrder less) {j : Nat} (h : UpHole less l j) (hj : j < l.length)
    (hpos : 0 < j) (hless : lessAt less l j ((j - 1) / 2) = true) :
    UpHole less (swap l ((j - 1) / 2) j) ((j - 1) / 2) := by
  have hp : (j - 1) / 2 < j := by omega
  generalize hpar : (j - 1) / 2 = p at *
  have hpl : p < l.length := by omega
  have habove : Above less l j p := ho.above_of_lessAt hless
  have hsibling : ∀ c, 0 < c → c < l.length → c ≠ j → (c - 1) / 2 = p → Above less l p c :=
    fun c hc hcl hcj hcp => hcp ▸ h.off c hc hcl hcj
  refine ⟨fun c hc hcl hcp => ?_, fun hp0 c hc hcl hcp => ?_⟩
  · rw [length_swap] at hcl
    rw [above_swap hpl hj]
    by_cases hcj : c = j
    · subst hcj
      rwa [hpar, transpose, if_pos rfl, transpose, if_neg (by omega), if_pos rfl]
    · have hc' : transpose p j c = c := by rw [transpose, if_neg hcp, if_neg hcj]
      rw [hc']
      by_cases hparp : (c - 1) / 2 = p
      · rw [hparp, transpose, if_pos rfl]
        exact ho.above_trans hpl habove (hsibling c hc hcl hcj hparp)
      · by_cases hparj : (c - 1) / 2 = j
        · rw [hparj, transpose, if_neg (by omega), if_pos rfl]
          exact hpar ▸ h.grand hpos c hc hcl hparj
        · rw [transpose, if_neg hparp, if_neg hparj]
          exact h.off c hc hcl hcj
  · rw [length_swap] at hcl
    rw [above_swap hpl hj]
    have hg : transpose p j ((p - 1) / 2) = (p - 1) / 2 := by
      rw [transpose, if_neg (by omega), if_neg (by omega)]
    have hroot : Above less l ((p - 1) / 2) p := h.off p hp0 hpl (by omega)
    rw [hg]
    by_cases hcj : c = j
    · subst hcj
      rwa [transpose, if_neg (by omega), if_pos rfl]
    · rw [transpose, if_neg (by omega), if_neg hcj]
      exact ho.above_trans hpl hroot (hsibling c hc hcl hcj hcp)

theorem up_isHeap (ho : WeakOrder less) {fuel j : Nat} (h : UpHole less l j) (hj : j < l.length)
    (hfuel : j < fuel) : IsHeap less (up less fuel l j) l.length := by
  induction fuel generalizing l j with
  | zero => omega
  | succ fuel ih =>
    simp only [up, Bool.or_eq_true, decide_eq_true_eq, Bool.not_eq_true']
    split
    · rename_i hstop
      intro c hc hcl
      by_cases hcj : c = j
      · subst hcj
        rcases hstop with hroot | hless
        · omega
        · exact above_of_not_lessAt hless
      · exact h.off c hc hcl hcj
    · rename_i hgo
      obtain ⟨hroot, hless⟩ := not_or.1 hgo
      have hswap := h.swap ho hj (by omega) (eq_true_of_ne_false hless)
      have hheap := ih hswap (by rw [length_swap]; omega) (by omega)
      rwa [length_swap] at hheap

theorem push_perm (less : α → α → Bool) (l : List α) (x : α) : (push less l x).Perm (x :: l) :=
  (up_perm ..).trans (perm_append_singleton x l)

theorem push_isHeap (ho : WeakOrder less) (h : IsHeap less l l.length) (x : α) :
    IsHeap less (push less l x) (push less l x).length := by
  have hlen : (push less l x).length = (l ++ [x]).length := (up_perm ..).length_eq
  rw [hlen]
  refine up_isHeap ho ⟨?_, ?_⟩ (by simp) (Nat.lt_succ_self _)
  · intro c hc hcl hne y z hy hz
    rw [length_append, length_singleton] at hcl
    rw [List.getElem?_append_left (by omega)] at hy hz
    exact h c hc (by omega) y z hy hz
  · intro hpos c hc hcl hpar
    rw [length_append, length_singleton] at hcl
    omega

/-! ## Moving down -/

theorem down_perm (less : α → α → Bool) (fuel : Nat) (l : List α) (i n : Nat) :
    (down less fuel l i n).Perm l := by
  induction fuel generalizing l i with
  | zero => exact .refl l
  | succ fuel ih =>
    simp only [down]
    repeat' split
    all_goals first | exact .refl l | exact (ih _ _).trans (swap_perm ..)

/-- Only the element at `i` may be after its children, and they may be exchanged with it. -/
structure DownHole (less : α → α → Bool) (l : List α) (i n : Nat) : Prop where
  off : ∀ c, 0 < c → c < n → (c - 1) / 2 ≠ i → Above less l ((c - 1) / 2) c
  grand : 0 < i → ∀ c, 0 < c → c < n → (c - 1) / 2 = i → Above less l ((i - 1) / 2) c

theorem firstChild_lt (less : α → α → Bool) (l : List α) {i n : Nat} (hlt : 2 * i + 1 < n) :
    firstChild less l i n < n ∧ 0 < firstChild less l i n ∧
      (firstChild less l i n - 1) / 2 = i := by
  simp only [firstChild]
  split
  · rename_i hsecond
    simp only [Bool.and_eq_true, decide_eq_true_eq] at hsecond
    omega
  · omega

/-- The other child is not before the first one. -/
theorem WeakOrder.firstChild_above (ho : WeakOrder less) {i n c : Nat} (hc : 0 < c) (hcn : c < n)
    (hpar : (c - 1) / 2 = i) (hne : c ≠ firstChild less l i n) :
    Above less l (firstChild less l i n) c := by
  simp only [firstChild] at hne ⊢
  split at hne
  · rename_i hsecond
    rw [if_pos hsecond]
    simp only [Bool.and_eq_true, decide_eq_true_eq] at hsecond
    obtain rfl : c = 2 * i + 1 := by omega
    exact ho.above_of_lessAt hsecond.2
  · rename_i hfirst
    rw [if_neg hfirst]
    obtain rfl : c = 2 * i + 1 + 1 := by omega
    refine above_of_not_lessAt (Bool.eq_false_iff.2 fun hless => hfirst ?_)
    simp [hcn, hless]

/-- The exchange with the first child moves the hole down. -/
theorem DownHole.swap (ho : WeakOrder less) {i j n : Nat} (h : DownHole less l i n)
    (hn : n ≤ l.length) (hj : j < n) (hpos : 0 < j) (hpar : (j - 1) / 2 = i)
    (hfirst : ∀ c, 0 < c → c < n → (c - 1) / 2 = i → c ≠ j → Above less l j c)
    (hless : lessAt less l j i = true) : DownHole less (swap l i j) j n := by
  have hil : i < l.length := by omega
  have hjl : j < l.length := by omega
  refine ⟨fun c hc hcn hcp => ?_, fun _ c hc hcn hcp => ?_⟩
  · rw [above_swap hil hjl]
    by_cases hci : c = i
    · subst hci
      have hg : transpose c j ((c - 1) / 2) = (c - 1) / 2 := by
        rw [transpose, if_neg (by omega), if_neg (by omega)]
      rw [hg, transpose, if_pos rfl]
      exact h.grand hc j hpos hj hpar
    · by_cases hcj : c = j
      · subst hcj
        rw [hpar, transpose, if_pos rfl, transpose, if_neg hci, if_pos rfl]
        exact ho.above_of_lessAt hless
      · have hc' : transpose i j c = c := by rw [transpose, if_neg hci, if_neg hcj]
        rw [hc']
        by_cases hparc : (c - 1) / 2 = i
        · rw [hparc, transpose, if_pos rfl]
          exact hfirst c hc hcn hparc hcj
        · rw [transpose, if_neg hparc, if_neg hcp]
          exact h.off c hc hcn hparc
  · rw [above_swap hil hjl, hpar]
    have hc' : transpose i j c = c := by
      rw [transpose, if_neg (by omega), if_neg (by omega)]
    rw [hc', transpose, if_pos rfl]
    exact hcp ▸ h.off c hc hcn (by omega)

/-- The elements from `n` on are not touched. -/
theorem getElem?_down (less : α → α → Bool) (fuel : Nat) {l : List α} (i : Nat) {n k : Nat}
    (hn : n ≤ l.length) (hk : n ≤ k) : (down less fuel l i n)[k]? = l[k]? := by
  induction fuel generalizing l i with
  | zero => rfl
  | succ fuel ih =>
    simp only [down]
    split
    · rfl
    · rename_i hlt
      obtain ⟨hj, -⟩ := firstChild_lt less l (Nat.lt_of_not_le hlt)
      split
      · rfl
      · rw [ih _ (by rwa [length_swap]), getElem?_swap (by omega) (by omega), transpose,
          if_neg (by omega), if_neg (by omega)]

theorem down_isHeap (ho : WeakOrder less) {fuel i n : Nat} (h : DownHole less l i n)
    (hn : n ≤ l.length) (hfuel : n - i < fuel) : IsHeap less (down less fuel l i n) n := by
  induction fuel generalizing l i with
  | zero => omega
  | succ fuel ih =>
    simp only [down]
    split
    · rename_i hleaf
      exact fun c hc hcn => h.off c hc hcn (by omega)
    · rename_i hlt
      obtain ⟨hj, hpos, hpar⟩ := firstChild_lt less l (Nat.lt_of_not_le hlt)
      have hfirst : ∀ c, 0 < c → c < n → (c - 1) / 2 = i → c ≠ firstChild less l i n →
          Above less l (firstChild less l i n) c := fun c => ho.firstChild_above
      generalize firstChild less l i n = j at *
      split
      · rename_i hstop
        have hij : Above less l i j := above_of_not_lessAt (by simpa using hstop)
        intro c hc hcn
        by_cases hparc : (c - 1) / 2 = i
        · rw [hparc]
          by_cases hcj : c = j
          · rwa [hcj]
          · exact ho.above_trans (by omega) hij (hfirst c hc hcn hparc hcj)
        · exact h.off c hc hcn hparc
      · rename_i hgo
        have hless : lessAt less l j i = true := by simpa using hgo
        exact ih (h.swap ho hn hj hpos hpar hfirst hless) (by rwa [length_swap]) (by omega)

/-- What is left of a heap after its first and its last element were exchanged. -/
theorem IsHeap.downHole (h : IsHeap less l l.length) :
    DownHole less (Heap.swap l 0 (l.length - 1)) 0 (l.length - 1) := by
  refine ⟨fun c hc hcn hpar => ?_, fun h0 => absurd h0 (Nat.lt_irrefl 0)⟩
  rw [above_swap (by omega) (by omega), transpose, if_neg hpar, if_neg (by omega), transpose,
    if_neg (by omega), if_neg (by omega)]
  exact h c hc (by omega)

theorem pop_eq_none (l : List α) : pop less l = none ↔ l = [] := by
  have hlen := ((down_perm less (l.length - 1 + 1) (Heap.swap l 0 (l.length - 1)) 0
    (l.length - 1)).trans (swap_perm ..)).length_eq
  rw [pop, Option.map_eq_none_iff, List.getLast?_eq_none_iff, ← length_eq_zero_iff, hlen,
    length_eq_zero_iff]

theorem pop_perm {x : α} {rest : List α} (hpop : pop less l = some (x, rest)) :
    (x :: rest).Perm l := by
  obtain ⟨y, hlast, heq⟩ := Option.map_eq_some_iff.1 hpop
  cases heq
  have hperm := (down_perm less (l.length - 1 + 1) (Heap.swap l 0 (l.length - 1)) 0
    (l.length - 1)).trans (swap_perm ..)
  generalize down less (l.length - 1 + 1) (Heap.swap l 0 (l.length - 1)) 0 (l.length - 1) = l₁ at *
  have happend := dropLast_append_getLast? x hlast
  rw [← happend] at hperm
  exact (perm_append_singleton _ _).symm.trans hperm

/-- `pop` takes the first element out of a heap and leaves a heap of the others. -/
theorem pop_spec (ho : WeakOrder less) (h : IsHeap less l l.length) {x : α} {rest : List α}
    (hpop : pop less l = some (x, rest)) :
    l[0]? = some x ∧ IsHeap less rest rest.length := by
  have hpos : l.length ≠ 0 := fun h0 => by
    rw [(pop_eq_none l).2 (length_eq_zero_iff.1 h0)] at hpop
    cases hpop
  have hlen : rest.length + 1 = l.length := (pop_perm hpop).length_eq
  obtain ⟨y, hlast, heq⟩ := Option.map_eq_some_iff.1 hpop
  cases heq
  have hle : l.length - 1 ≤ (Heap.swap l 0 (l.length - 1)).length := by
    rw [length_swap]
    omega
  have hheap := down_isHeap ho h.downHole hle (Nat.lt_succ_self (l.length - 1))
  have hget := getElem?_down less (l.length - 1 + 1) 0 hle (Nat.le_refl (l.length - 1))
  generalize down less (l.length - 1 + 1) (Heap.swap l 0 (l.length - 1)) 0 (l.length - 1) = l₁ at *
  rw [length_dropLast] at hlen ⊢
  refine ⟨?_, ?_⟩
  · have hlen' : l₁.length - 1 = l.length - 1 := by omega
    rw [List.getLast?_eq_getElem?, hlen', hget, getElem?_swap (by omega) (by omega)] at hlast
    rw [← hlast, transpose]
    split
    · rename_i h0
      rw [h0]
    · rw [if_pos rfl]
  · intro c hc hcn y z hy hz
    rw [List.getElem?_dropLast, if_pos (by omega)] at hy hz
    exact hheap c hc (by omega) y z hy hz

end Lib.Heap
