import Mathlib

/-!
# Walking through a list page by page

A list is read in pages of `limit` rows. A page continues after the last row of the page before it:
it holds the first of the rows that are `beyond` that row. The walk ends with an empty page or,
where there is a cap, as soon as that many rows are found. If no row is beyond a later one, the walk
finds every row exactly if, at each place where a page ends before the list does, the rows that are
left are all beyond the last row of the page (`mem_walk_iff`), also where each page is cut to a size
of its own (`mem_cutWalk_iff`).
-/

namespace Lib.Paging

open List

variable {ρ : Type} (beyond : ρ → ρ → Bool) (limit : Nat) (cap : Option Nat)

/-- The rows beyond a cursor; with no cursor, all rows. -/
def rest (l : List ρ) (cursor : Option ρ) : List ρ := l.filter fun r => cursor.all (beyond · r)

/-- The walk from a cursor on, for at most `n` pages, with the rows found before it. Page `i`, with
which it starts, has at most `size i` rows. -/
def cutWalk (size : Nat → Nat) (l : List ρ) : Nat → Nat → List ρ → Option ρ → List ρ
  | 0, _, found, _ => found
  | n + 1, i, found, cursor =>
    let page := (rest beyond l cursor).take (size i)
    match page.getLast? with
    | none => found
    | some last =>
      if cap.any (· ≤ (found ++ page).length) then found ++ page
      else cutWalk size l n (i + 1) (found ++ page) (some last)

/-- The walk with pages of `limit` rows. -/
def walk (l : List ρ) (n : Nat) (found : List ρ) (cursor : Option ρ) : List ρ :=
  cutWalk beyond cap (fun _ => limit) l n 0 found cursor

/-- Where page `i` starts, if the pages before it were full. -/
def position (size : Nat → Nat) (i : Nat) : Nat := ∑ j ∈ Finset.range i, size j

/-- The rows after the first `j` are beyond the last of those. -/
def CutAt (l : List ρ) (j : Nat) : Prop :=
  ∀ last ∈ (l.take j).getLast?, ∀ r ∈ l.drop j, beyond last r = true

/-- What a list must satisfy for pages to make sense: no row is beyond itself or a later row. -/
structure Ordered (l : List ρ) : Prop where
  nodup : l.Nodup
  trans : ∀ {a b c}, beyond a b = true → beyond b c = true → beyond a c = true
  irrefl : ∀ a, beyond a a = false
  sorted : l.Pairwise fun a b => beyond b a = false

section
variable {beyond limit cap} {l : List ρ} {size : Nat → Nat} {j n i : Nat}

/-- The last row of a prefix is not before any other row of it. -/
theorem Ordered.not_beyond_last (h : Ordered beyond l) {last r : ρ}
    (hlast : (l.take j).getLast? = some last) (hr : r ∈ l.take j) : beyond last r = false := by
  obtain ⟨init, hinit⟩ := List.getLast?_eq_some_iff.1 hlast
  have hsorted := h.sorted.sublist (take_sublist j l)
  rw [hinit] at hsorted hr
  rcases mem_append.1 hr with hmem | hmem
  · exact (pairwise_append.1 hsorted).2.2 r hmem last mem_cons_self
  · rw [mem_singleton.1 hmem]
    exact h.irrefl last

/-- At a clean cut, the rows beyond the last row of the prefix are the rows after the prefix. -/
theorem Ordered.rest_eq_drop (h : Ordered beyond l) (hcut : CutAt beyond l j) :
    rest beyond l (l.take j).getLast? = l.drop j := by
  cases hlast : (l.take j).getLast? with
  | none =>
    have hnil : l.take j = [] := List.getLast?_eq_none_iff.1 hlast
    have hdrop : l.drop j = l := by
      have happ := take_append_drop j l
      rwa [hnil, nil_append] at happ
    rw [hdrop]
    exact filter_eq_self.2 fun _ _ => rfl
  | some last =>
    have hbefore : (l.take j).filter (beyond last) = [] :=
      filter_eq_nil_iff.2 fun r hr => by rw [h.not_beyond_last hlast hr]; decide
    have hafter : (l.drop j).filter (beyond last) = l.drop j :=
      filter_eq_self.2 fun r hr => hcut last hlast r hr
    calc rest beyond l (some last)
        = (l.take j ++ l.drop j).filter (beyond last) := by rw [take_append_drop]; rfl
      _ = l.drop j := by rw [filter_append, hbefore, hafter, nil_append]

/-- In a list where every row is beyond those before it, every cut is clean. -/
theorem cutAt_of_pairwise (h : l.Pairwise fun a b => beyond a b = true) (j : Nat) :
    CutAt beyond l j := by
  intro last hlast r hr
  rw [← take_append_drop j l, pairwise_append] at h
  exact h.2.2 last (mem_of_getLast? hlast) r hr

/-- There, the rows that a row is beyond are the rows before it. -/
theorem Ordered.filter_before (h : Ordered beyond l)
    (hdesc : l.Pairwise fun a b => beyond a b = true) {x : ρ} (hx : l[j]? = some x) :
    l.filter (beyond · x) = l.take j := by
  obtain ⟨hj, rfl⟩ := List.getElem?_eq_some_iff.1 hx
  have hsplit : l = l.take j ++ l[j] :: l.drop (j + 1) := by
    rw [getElem_cons_drop, take_append_drop]
  have hsorted := h.sorted
  rw [hsplit, pairwise_append, pairwise_cons] at hsorted hdesc
  have hbefore : (l.take j).filter (beyond · l[j]) = l.take j :=
    filter_eq_self.2 fun r hr => hdesc.2.2 r hr _ mem_cons_self
  have hafter : (l[j] :: l.drop (j + 1)).filter (beyond · l[j]) = [] := by
    refine filter_eq_nil_iff.2 fun r hr => ?_
    rw [Bool.not_eq_true]
    rcases mem_cons.1 hr with rfl | hr
    · exact h.irrefl _
    · exact hsorted.2.1.1 r hr
  calc l.filter (beyond · l[j])
      = (l.take j ++ l[j] :: l.drop (j + 1)).filter (beyond · l[j]) := by rw [← hsplit]
    _ = l.take j := by rw [filter_append, hbefore, hafter, append_nil]

/-- A row of the list is not found before its place. -/
theorem Ordered.not_mem_take (h : Ordered beyond l) {r : ρ} (hr : r ∈ l.drop j) : r ∉ l.take j := by
  intro htake
  exact disjoint_take_drop h.nodup le_rfl htake hr

theorem Ordered.sublist (h : Ordered beyond l) {l' : List ρ} (hs : l'.Sublist l) :
    Ordered beyond l' :=
  ⟨h.nodup.sublist hs, h.trans, h.irrefl, h.sorted.sublist hs⟩

/-! ## What a walk finds -/

/-- What a walk finds after a cursor is beyond the cursor. -/
theorem Ordered.mem_cutWalk (h : Ordered beyond l) {found : List ρ} {cursor : Option ρ} {r : ρ}
    (hr : r ∈ cutWalk beyond cap size l n i found cursor) :
    r ∈ found ∨ r ∈ rest beyond l cursor := by
  induction n generalizing found cursor i with
  | zero => exact .inl hr
  | succ n ih =>
    have happ : ∀ r ∈ found ++ (rest beyond l cursor).take (size i),
        r ∈ found ∨ r ∈ rest beyond l cursor := by
      intro r hr
      exact (mem_append.1 hr).imp id mem_of_mem_take
    rw [cutWalk] at hr
    split at hr
    · exact .inl hr
    · rename_i last hlast
      split at hr
      · exact happ r hr
      · rcases ih hr with hmem | hbeyond
        · exact happ r hmem
        · obtain ⟨hmem, hbeyond⟩ := mem_filter.1 hbeyond
          refine .inr (mem_filter.2 ⟨hmem, ?_⟩)
          have hlast' := (mem_filter.1 (mem_of_mem_take (mem_of_getLast? hlast))).2
          cases cursor with
          | none => rfl
          | some cursor => exact h.trans hlast' hbeyond

theorem mem_cutWalk_of_found {found : List ρ} {cursor : Option ρ} {r : ρ} (hr : r ∈ found) :
    r ∈ cutWalk beyond cap size l n i found cursor := by
  induction n generalizing found cursor i with
  | zero => exact hr
  | succ n ih =>
    rw [cutWalk]
    split
    · exact hr
    · have happ : r ∈ found ++ (rest beyond l cursor).take (size i) := mem_append_left _ hr
      split
      · exact happ
      · exact ih happ

/-- Without a cap, what was found before the walk does not matter to it. -/
theorem cutWalk_eq_append (n i : Nat) (found : List ρ) (cursor : Option ρ) :
    cutWalk beyond none size l n i found cursor =
      found ++ cutWalk beyond none size l n i [] cursor := by
  induction n generalizing found cursor i with
  | zero => exact (append_nil found).symm
  | succ n ih =>
    rw [cutWalk, cutWalk]
    cases ((rest beyond l cursor).take (size i)).getLast? with
    | none => exact (append_nil found).symm
    | some last =>
      simp only [Option.any_none, Bool.false_eq_true, if_false, nil_append]
      rw [ih, ih _ ((rest beyond l cursor).take (size i)), append_assoc]

/-- One page of a walk, and the walk from its last row. -/
theorem cutWalk_succ (n i : Nat) (cursor : Option ρ) :
    cutWalk beyond none size l (n + 1) i [] cursor = (rest beyond l cursor).take (size i) ++
      ((((rest beyond l cursor).take (size i)).getLast?).map fun last =>
        cutWalk beyond none size l n (i + 1) [] (some last)).getD [] := by
  rw [cutWalk]
  cases hlast : ((rest beyond l cursor).take (size i)).getLast? with
  | none => simp [getLast?_eq_none_iff.1 hlast]
  | some last =>
    simp only [Option.any_none, Bool.false_eq_true, if_false, nil_append]
    rw [cutWalk_eq_append]
    rfl

theorem Ordered.mem_of_mem_cutWalk (h : Ordered beyond l) {cursor : Option ρ} {r : ρ}
    (hr : r ∈ cutWalk beyond cap size l n i [] cursor) : r ∈ l :=
  (mem_filter.1 ((h.mem_cutWalk hr).resolve_left not_mem_nil)).1

/-- A walk finds no row twice: what comes after a page is beyond its last row, and no row of the
page is. -/
theorem Ordered.nodup_cutWalk (h : Ordered beyond l) (n i : Nat) (cursor : Option ρ) :
    (cutWalk beyond none size l n i [] cursor).Nodup := by
  induction n generalizing i cursor with
  | zero => exact nodup_nil
  | succ n ih =>
    have hrest : Ordered beyond (rest beyond l cursor) := h.sublist filter_sublist
    have hpage := hrest.nodup.sublist (take_sublist (size i) (rest beyond l cursor))
    rw [cutWalk_succ]
    cases hlast : ((rest beyond l cursor).take (size i)).getLast? with
    | none => simpa [hlast] using hpage
    | some last =>
      simp only [Option.map_some, Option.getD_some]
      refine nodup_append.2 ⟨hpage, ih _ _, ?_⟩
      rintro r hr _ hr' rfl
      have hbeyond := (mem_filter.1 ((h.mem_cutWalk hr').resolve_left not_mem_nil)).2
      rw [Option.all_some, hrest.not_beyond_last hlast hr] at hbeyond
      cases hbeyond

/-! ## Walks that find every row -/

/-- No page of a walk is cut badly from page `i` on: as long as rows are left, it has one, and if
there are rows after it, the walk goes on and they are beyond its last one. -/
def CleanFrom (beyond : ρ → ρ → Bool) (cap : Option Nat) (size : Nat → Nat) (l : List ρ) (i : Nat) :
    Prop :=
  ∀ k ≥ i, position size k < l.length → 0 < size k ∧ (position size (k + 1) < l.length →
    (∀ m ∈ cap, position size (k + 1) < m) ∧ CutAt beyond l (position size (k + 1)))

theorem cleanFrom_succ :
    CleanFrom beyond cap size l i ↔ (position size i < l.length → 0 < size i ∧
      (position size (i + 1) < l.length →
        (∀ m ∈ cap, position size (i + 1) < m) ∧ CutAt beyond l (position size (i + 1)))) ∧
      CleanFrom beyond cap size l (i + 1) := by
  constructor
  · intro h
    exact ⟨h i le_rfl, fun k hk => h k (by omega)⟩
  · rintro ⟨hi, h⟩ k hk
    rcases Nat.eq_or_lt_of_le hk with rfl | hlt
    · exact hi
    · exact h k hlt

theorem cleanFrom_of_length_le (h : l.length ≤ position size i) :
    CleanFrom beyond cap size l i := by
  intro k hk hlt
  have hmono : position size i ≤ position size k :=
    Finset.sum_le_sum_of_subset (Finset.range_mono hk)
  omega

/-- A page after the rows that were found. -/
theorem take_position_succ :
    l.take (position size i) ++ (l.drop (position size i)).take (size i) =
      l.take (position size (i + 1)) := by
  rw [← take_add, position, position, Finset.sum_range_succ]

/-- From a clean cut on, the walk finds every row exactly if no later page is cut badly. -/
theorem Ordered.mem_cutWalk_iff_from (h : Ordered beyond l)
    (hn : l.length < position size i + n) (hcut : CutAt beyond l (position size i)) :
    (∀ r ∈ l, r ∈ cutWalk beyond cap size l n i (l.take (position size i))
      (l.take (position size i)).getLast?) ↔ CleanFrom beyond cap size l i := by
  have hend {n i : Nat} (hle : l.length ≤ position size i) {cursor : Option ρ} :
      (∀ r ∈ l, r ∈ cutWalk beyond cap size l n i (l.take (position size i)) cursor) ↔
        CleanFrom beyond cap size l i := by
    refine iff_of_true (fun r hr => mem_cutWalk_of_found ?_) (cleanFrom_of_length_le hle)
    rwa [take_of_length_le hle]
  have hmissing {i : Nat} (hlt : position size i < l.length) :
      ¬ ∀ r ∈ l, r ∈ l.take (position size i) := by
    intro hall
    have hdrop : l[position size i] ∈ l.drop (position size i) :=
      mem_drop_iff_getElem.2 ⟨0, by simpa using hlt, by simp⟩
    exact h.not_mem_take hdrop (hall _ (getElem_mem hlt))
  induction n generalizing i with
  | zero => exact hend (by omega)
  | succ n ih =>
    rcases Nat.lt_or_ge (position size i) l.length with hlt | hge
    swap
    · exact hend hge
    have hsucc : position size (i + 1) = position size i + size i := Finset.sum_range_succ _ _
    rw [cutWalk, h.rest_eq_drop hcut]
    simp only [take_position_succ]
    cases hlast : ((l.drop (position size i)).take (size i)).getLast? with
    | none =>
      have hsize : size i = 0 := by
        rcases take_eq_nil_iff.1 (getLast?_eq_none_iff.1 hlast) with h0 | h0
        · exact h0
        · exact absurd (drop_eq_nil_iff.1 h0) (Nat.not_le.2 hlt)
      refine iff_of_false (hmissing hlt) fun hclean => ?_
      exact absurd (hclean i le_rfl hlt).1 (by omega)
    | some last =>
      have hsize : 0 < size i := by
        refine Nat.pos_of_ne_zero fun h0 => ?_
        rw [h0, take_zero] at hlast
        cases hlast
      have hlast' : (l.take (position size (i + 1))).getLast? = some last := by
        rw [← take_position_succ, getLast?_append, hlast, Option.some_or]
      rw [cleanFrom_succ]
      dsimp only
      rcases Nat.lt_or_ge (position size (i + 1)) l.length with hlt' | hge'
      · split
        case isTrue hcap =>
          obtain ⟨m, hm, hle⟩ := (Option.any_eq_true _ _).1 hcap
          rw [length_take_of_le hlt'.le, decide_eq_true_eq] at hle
          refine iff_of_false (hmissing hlt') fun hclean => ?_
          exact absurd (((hclean.1 hlt).2 hlt').1 m hm) (Nat.not_lt.2 hle)
        case isFalse hcap =>
          have hcap' : ∀ m ∈ cap, position size (i + 1) < m := by
            intro m hm
            refine Nat.lt_of_not_le fun hle => hcap ((Option.any_eq_true _ _).2 ⟨m, hm, ?_⟩)
            rwa [length_take_of_le hlt'.le, decide_eq_true_eq]
          constructor
          · intro hall
            have hcut' : CutAt beyond l (position size (i + 1)) := by
              intro last' hl r hr
              rw [hlast'] at hl
              cases hl
              have hrest := (h.mem_cutWalk (hall r (mem_of_mem_drop hr))).resolve_left
                (h.not_mem_take hr)
              exact (mem_filter.1 hrest).2
            exact ⟨fun _ => ⟨hsize, fun _ => ⟨hcap', hcut'⟩⟩,
              (ih (by omega) hcut').1 (by rwa [hlast'])⟩
          · rintro ⟨hi, hclean⟩
            have hall := (ih (by omega) ((hi hlt).2 hlt').2).2 hclean
            rwa [hlast'] at hall
      · have hall : l.take (position size (i + 1)) = l := take_of_length_le hge'
        refine iff_of_true (fun r hr => ?_)
          ⟨fun _ => ⟨hsize, fun hlt => absurd hlt (Nat.not_lt.2 hge')⟩, cleanFrom_of_length_le hge'⟩
        split
        · rwa [hall]
        · exact mem_cutWalk_of_found (by rwa [hall])

/-- The walk from the start finds every row exactly if no page is cut badly. -/
theorem Ordered.mem_cutWalk_iff (h : Ordered beyond l) (hn : l.length < n) :
    (∀ r ∈ l, r ∈ cutWalk beyond cap size l n 0 [] none) ↔ CleanFrom beyond cap size l 0 := by
  have hcut : CutAt beyond l (position size 0) := by
    intro last hlast
    cases hlast
  exact @mem_cutWalk_iff_from ρ beyond cap l size n 0 h (by simpa [position] using hn) hcut

/-! ## Pages of one size -/

/-- The number of the first page does not matter. -/
theorem cutWalk_const (n i : Nat) (found : List ρ) (cursor : Option ρ) :
    cutWalk beyond cap (fun _ => limit) l n i found cursor =
      walk beyond limit cap l n found cursor := by
  have hsame : ∀ j, cutWalk beyond cap (fun _ => limit) l n i found cursor =
      cutWalk beyond cap (fun _ => limit) l n j found cursor := by
    induction n generalizing i found cursor with
    | zero => exact fun _ => rfl
    | succ n ih =>
      intro j
      rw [cutWalk, cutWalk]
      simp only [fun found cursor => ih (i + 1) found cursor (j + 1)]
  exact hsame 0

theorem walk_eq (n : Nat) (found : List ρ) (cursor : Option ρ) :
    walk beyond limit cap l (n + 1) found cursor =
      let page := (rest beyond l cursor).take limit
      match page.getLast? with
      | none => found
      | some last =>
        if cap.any (· ≤ (found ++ page).length) then found ++ page
        else walk beyond limit cap l n (found ++ page) (some last) := by
  rw [walk, cutWalk]
  simp only [cutWalk_const]

theorem walk_eq_append (n : Nat) (found : List ρ) (cursor : Option ρ) :
    walk beyond limit none l n found cursor = found ++ walk beyond limit none l n [] cursor :=
  cutWalk_eq_append n 0 found cursor

theorem walk_succ (n : Nat) (cursor : Option ρ) :
    walk beyond limit none l (n + 1) [] cursor = (rest beyond l cursor).take limit ++
      ((((rest beyond l cursor).take limit).getLast?).map fun last =>
        walk beyond limit none l n [] (some last)).getD [] := by
  rw [walk, cutWalk_succ]
  simp only [cutWalk_const]

/-- A page that ends before the list does is followed by another one, and the rows that are left are
beyond its last row. -/
def CleanAt (beyond : ρ → ρ → Bool) (limit : Nat) (cap : Option Nat) (l : List ρ) (k : Nat) :
    Prop :=
  k * limit < l.length → (∀ m ∈ cap, k * limit < m) ∧ CutAt beyond l (k * limit)

/-- The walk from the start finds every row exactly if every page ends clean. -/
theorem Ordered.mem_walk_iff (h : Ordered beyond l) (hlimit : 0 < limit) {n : Nat}
    (hn : l.length < n) :
    (∀ r ∈ l, r ∈ walk beyond limit cap l n [] none) ↔
      ∀ k > 0, CleanAt beyond limit cap l k := by
  have hposition : ∀ k, position (fun _ => limit) k = k * limit := by simp [position]
  simp only [walk, h.mem_cutWalk_iff hn, CleanFrom, hposition]
  constructor
  · intro hclean k hk hlt
    obtain ⟨k, rfl⟩ := Nat.exists_eq_succ_of_ne_zero hk.ne'
    exact (hclean k (Nat.zero_le k) (by rw [Nat.succ_mul] at hlt; omega)).2 hlt
  · intro hclean k _ _
    exact ⟨hlimit, hclean (k + 1) (Nat.succ_pos k)⟩

/-! ## The walk from a cursor -/

/-- Fewer rows are beyond a row that is beyond the cursor. -/
theorem Ordered.length_rest_lt (h : Ordered beyond l) {cursor last : ρ}
    (hlast : last ∈ rest beyond l (some cursor)) :
    (rest beyond l (some last)).length < (rest beyond l (some cursor)).length := by
  have hrest : rest beyond l (some last) =
      (rest beyond l (some cursor)).filter (beyond last ·) := by
    simp only [rest, filter_filter, Option.all_some]
    refine filter_congr fun r _ => ?_
    cases hr : beyond last r with
    | false => rfl
    | true => simp [h.trans (mem_filter.1 hlast).2 hr]
  rw [hrest, length_filter_lt_length_iff_exists]
  exact ⟨last, hlast, by simp [h.irrefl]⟩

/-- More pages than there are rows beyond the cursor find nothing else. -/
theorem Ordered.mem_walk_of_length_lt (h : Ordered beyond l) {n m : Nat} {cursor r : ρ}
    (hm : (rest beyond l (some cursor)).length < m)
    (hr : r ∈ walk beyond limit none l n [] (some cursor)) :
    r ∈ walk beyond limit none l m [] (some cursor) := by
  induction n generalizing m cursor with
  | zero => cases hr
  | succ n ih =>
    obtain ⟨m, rfl⟩ := Nat.exists_eq_succ_of_ne_zero (Nat.ne_zero_of_lt hm)
    rw [walk_succ, mem_append] at hr ⊢
    refine hr.imp_right fun hr => ?_
    cases hlast : ((rest beyond l (some cursor)).take limit).getLast? with
    | none => simp [hlast] at hr
    | some last =>
      have hmem := mem_of_mem_take (mem_of_getLast? hlast)
      simp only [hlast, Option.map_some, Option.getD_some] at hr ⊢
      exact ih (by have := h.length_rest_lt hmem; omega) hr

end

end Lib.Paging
