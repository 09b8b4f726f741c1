import Mathlib

/-!
# The path that a request for a link asks for

A client takes a link apart (`url.Parse`): what follows `#` or `?` does not belong to the path,
control bytes are refused, and the server sees the path with its `%` escapes decoded. A client may
also remove the segments `.` and `..`, as the resolution of a relative reference does.
`requestPath_eq_self_iff` says which paths arrive as they were written.
-/

namespace Lib

open List

def pathText (segments : List (List Char)) : List Char := '/' :: ['/'].intercalate segments

/-- The value of a hexadecimal digit. -/
def hexValue (c : Char) : Option Nat :=
  if '0' ≤ c ∧ c ≤ '9' then some (c.toNat - 48)
  else if 'a' ≤ c ∧ c ≤ 'f' then some (c.toNat - 97 + 10)
  else if 'A' ≤ c ∧ c ≤ 'F' then some (c.toNat - 65 + 10)
  else none

/-- `unescape` of a path: `none` is its error for a `%` without two hexadecimal digits. -/
def unescape : List Char → Option (List Char)
  | [] => some []
  | '%' :: a :: b :: s => do
    let high ← hexValue a
    let low ← hexValue b
    return Char.ofNat (16 * high + low) :: (← unescape s)
  | c :: s => if c = '%' then none else (unescape s).map (c :: ·)

/-- A segment that a relative reference does not keep. -/
def isDots (segment : List Char) : Bool := segment == ['.'] || segment == ['.', '.']

/-- The segments without `.` and `..`, where `..` takes the segment before it along. The segments
that are kept so far come in reverse order. A path that ends with such a segment ends with a
slash. -/
def removeDots : List (List Char) → List (List Char) → List (List Char)
  | kept, [] => kept.reverse
  | kept, segment :: rest =>
    if isDots segment then
      let kept := if segment = ['.'] then kept else kept.tail
      if rest = [] then ([] :: kept).reverse else removeDots kept rest
    else removeDots (segment :: kept) rest

/-- `removeDots` of the text of a path. -/
def removeDotSegments : List Char → List Char
  | '/' :: rest => pathText (removeDots [] (rest.splitOn '/'))
  | path => path

def isControl (c : Char) : Bool := decide (c.toNat < 0x20 ∨ c.toNat = 0x7f)

/-- The path that the server decodes when a client requests a link, where the client may remove dot
segments first. `none` is the error of `url.Parse`. -/
def requestPath (removesDots : Bool) (link : List Char) : Option (List Char) :=
  let link := link.takeWhile (· != '#')
  if link.any isControl then none
  else
    let path := link.takeWhile (· != '?')
    unescape (if removesDots then removeDotSegments path else path)

theorem unescape_of_not_mem {s : List Char} (h : '%' ∉ s) : unescape s = some s := by
  fun_induction unescape s with
  | case1 => rfl
  | case2 a b s => exact absurd mem_cons_self h
  | case3 s hne => exact absurd mem_cons_self h
  | case4 c s _ hc ih =>
    rw [ih fun hmem => h (mem_cons_of_mem c hmem)]
    rfl

/-- Decoding makes a text shorter exactly by its escapes. -/
theorem length_of_unescape {s t : List Char} (h : unescape s = some t) :
    t.length ≤ s.length ∧ ('%' ∈ s → t.length < s.length) := by
  fun_induction unescape s generalizing t with
  | case1 =>
    cases h
    simp
  | case2 a b s ih =>
    simp only [Option.bind_eq_bind, Option.bind_eq_some_iff, Option.pure_def, Option.some.injEq]
      at h
    obtain ⟨high, -, low, -, u, hu, rfl⟩ := h
    have hle := (ih hu).1
    simp only [length_cons]
    omega
  | case3 c s => cases h
  | case4 c s _ hc ih =>
    obtain ⟨u, hu, rfl⟩ := Option.map_eq_some_iff.1 h
    obtain ⟨hle, hlt⟩ := ih hu
    refine ⟨Nat.succ_le_succ hle, fun hmem => Nat.succ_lt_succ (hlt ?_)⟩
    exact (mem_cons.1 hmem).resolve_left (Ne.symm hc)

/-! ## Dot segments -/

/-- The characters of the segments, with a slash for each. -/
def pathWeight (segments : List (List Char)) : Nat := (segments.map (·.length + 1)).sum

@[simp] theorem pathWeight_cons (segment : List Char) (rest : List (List Char)) :
    pathWeight (segment :: rest) = segment.length + 1 + pathWeight rest := rfl

theorem pathWeight_reverse (segments : List (List Char)) :
    pathWeight segments.reverse = pathWeight segments := by
  simp [pathWeight]

theorem pathWeight_tail_le (segments : List (List Char)) :
    pathWeight segments.tail ≤ pathWeight segments := by
  cases segments with
  | nil => exact Nat.le_refl _
  | cons segment rest =>
    rw [tail_cons, pathWeight_cons]
    omega

variable {segments : List (List Char)}

theorem length_pathText (h : segments ≠ []) : (pathText segments).length = pathWeight segments := by
  induction segments with
  | nil => exact absurd rfl h
  | cons segment rest ih =>
    cases rest with
    | nil => simp [pathText, pathWeight]
    | cons next rest =>
      have hrest := ih (cons_ne_nil _ _)
      rw [pathText, length_cons] at hrest ⊢
      rw [intercalate_cons_cons, length_append, length_append, pathWeight_cons]
      simp only [length_singleton]
      omega

theorem removeDots_of_not_dots {segments kept : List (List Char)}
    (h : ∀ segment ∈ segments, isDots segment = false) :
    removeDots kept segments = kept.reverse ++ segments := by
  induction segments generalizing kept with
  | nil => exact (append_nil _).symm
  | cons segment rest ih =>
    rw [removeDots, h segment mem_cons_self]
    simp only [Bool.false_eq_true, if_false]
    rw [ih fun s hs => h s (mem_cons_of_mem _ hs), reverse_cons, append_assoc]
    rfl

theorem pathWeight_removeDots (segments kept : List (List Char)) :
    pathWeight (removeDots kept segments) ≤ pathWeight kept + pathWeight segments ∧
      ((∃ segment ∈ segments, isDots segment = true) →
        pathWeight (removeDots kept segments) < pathWeight kept + pathWeight segments) := by
  induction segments generalizing kept with
  | nil => simp [removeDots, pathWeight]
  | cons segment rest ih =>
    rw [removeDots, pathWeight_cons]
    cases hdots : isDots segment with
    | false =>
      obtain ⟨hle, hlt⟩ := ih (segment :: kept)
      simp only [Bool.false_eq_true, if_false]
      rw [pathWeight_cons] at hle hlt
      refine ⟨by omega, ?_⟩
      rintro ⟨s, hs, hs'⟩
      rcases mem_cons.1 hs with rfl | hs
      · rw [hdots] at hs'
        cases hs'
      · have := hlt ⟨s, hs, hs'⟩
        omega
    | true =>
      have hpos : 0 < segment.length := by
        cases segment with
        | nil => cases hdots
        | cons c s => exact Nat.succ_pos _
      have hkept : pathWeight (if segment = ['.'] then kept else kept.tail) ≤ pathWeight kept := by
        split
        · exact Nat.le_refl _
        · exact pathWeight_tail_le kept
      simp only [if_true]
      split
      · rename_i hrest
        rw [pathWeight_reverse, pathWeight_cons, hrest]
        simp only [length_nil]
        omega
      · have hle := (ih (if segment = ['.'] then kept else kept.tail)).1
        omega

theorem removeDots_ne_nil (h : segments ≠ []) (kept : List (List Char)) :
    removeDots kept segments ≠ [] := by
  induction segments generalizing kept with
  | nil => exact absurd rfl h
  | cons segment rest ih =>
    cases rest with
    | nil =>
      rw [removeDots]
      split
      · simp
      · simp [removeDots]
    | cons next rest =>
      rw [removeDots]
      simp only [reduceCtorEq, if_false]
      split
      · exact ih (cons_ne_nil _ _) _
      · exact ih (cons_ne_nil _ _) _

theorem not_mem_of_mem_splitOn {sep : Char} {s part : List Char} (h : part ∈ s.splitOn sep) :
    sep ∉ part := by
  induction s generalizing part with
  | nil =>
    rw [splitOn_nil, mem_singleton] at h
    simp [h]
  | cons c s ih =>
    rw [splitOn_cons_eq_if_modifyHead] at h
    split at h
    · rcases mem_cons.1 h with rfl | h
      · simp
      · exact ih h
    · rename_i hne
      obtain ⟨first, rest, hsplit⟩ := exists_cons_of_ne_nil (splitOn_ne_nil sep s)
      rw [hsplit, modifyHead_cons] at h
      rcases mem_cons.1 h with rfl | h
      · have hfirst : sep ∉ first := ih (hsplit ▸ mem_cons_self)
        have hsep : sep ≠ c := fun heq => hne (beq_iff_eq.2 heq.symm)
        simp [hfirst, hsep]
      · exact ih (hsplit ▸ mem_cons_of_mem _ h)

/-- The text of a path and its segments. -/
theorem pathText_splitOn (rest : List Char) : pathText (rest.splitOn '/') = '/' :: rest := by
  rw [pathText, intercalate_splitOn]

theorem length_removeDotSegments (rest : List Char) :
    (removeDotSegments ('/' :: rest)).length ≤ ('/' :: rest).length ∧
      ((∃ segment ∈ rest.splitOn '/', isDots segment = true) →
        (removeDotSegments ('/' :: rest)).length < ('/' :: rest).length) := by
  have hne : rest.splitOn '/' ≠ [] := splitOn_ne_nil _ _
  have hweight := pathWeight_removeDots (rest.splitOn '/') []
  rw [← pathText_splitOn rest, length_pathText hne, pathText_splitOn, removeDotSegments,
    length_pathText (removeDots_ne_nil hne [])]
  simpa [pathWeight] using hweight

theorem mem_pathText_iff {c : Char} :
    c ∈ pathText segments ↔ c = '/' ∨ ∃ segment ∈ segments, c ∈ segment := by
  induction segments with
  | nil => simp [pathText]
  | cons segment rest ih =>
    cases rest with
    | nil => simp [pathText]
    | cons next rest =>
      rw [pathText, mem_cons] at ih ⊢
      rw [intercalate_cons_cons, mem_append, mem_append, mem_singleton]
      cases Decidable.em (c = '/') with
      | inl heq => simp [heq]
      | inr hne =>
        simp only [hne, false_or, or_false] at ih ⊢
        rw [ih]
        simp only [mem_cons, exists_eq_or_imp]

/-- Segments without a slash are told by the text of their path. -/
theorem pathText_inj {segments segments' : List (List Char)} (hne : segments ≠ [])
    (hne' : segments' ≠ []) (h : ∀ s ∈ segments, '/' ∉ s) (h' : ∀ s ∈ segments', '/' ∉ s)
    (heq : pathText segments = pathText segments') : segments = segments' := by
  rw [← splitOn_intercalate '/' h hne, (List.cons.inj heq).2,
    splitOn_intercalate '/' h' hne']

/-! ## Paths that arrive as they are written -/

/-- A character that a path keeps when it is requested. -/
def isPathChar (c : Char) : Bool := c != '#' && c != '?' && c != '%' && !isControl c

theorem removed_eq_self {removesDots : Bool} {rest : List Char}
    (h : removesDots = true → ∀ segment ∈ rest.splitOn '/', isDots segment = false) :
    (if removesDots then removeDotSegments ('/' :: rest) else '/' :: rest) = '/' :: rest := by
  cases removesDots with
  | false => rfl
  | true =>
    simp only [if_true, removeDotSegments]
    rw [removeDots_of_not_dots (h rfl), reverse_nil, nil_append, pathText_splitOn]

theorem length_takeWhile_le (p : Char → Bool) (s : List Char) :
    (s.takeWhile p).length ≤ s.length :=
  (takeWhile_sublist p).length_le

theorem takeWhile_eq_self {p : Char → Bool} {s : List Char}
    (h : s.length ≤ (s.takeWhile p).length) : s.takeWhile p = s := by
  have hstart : s.takeWhile p <+: s := takeWhile_prefix p
  exact hstart.eq_of_length_le h

/-- The request of a path, with its parts. -/
theorem requestPath_cons (removesDots : Bool) (rest : List Char) :
    requestPath removesDots ('/' :: rest) =
      if ('/' :: rest.takeWhile (· != '#')).any isControl then none
      else
        let path := '/' :: (rest.takeWhile (· != '#')).takeWhile (· != '?')
        unescape (if removesDots then removeDotSegments path else path) := by
  simp [requestPath]

/-- A path arrives as it is written exactly when it has no special characters and no segment that
the client removes. -/
theorem requestPath_eq_self_iff (removesDots : Bool) (rest : List Char) :
    requestPath removesDots ('/' :: rest) = some ('/' :: rest) ↔
      (∀ c ∈ rest, isPathChar c = true) ∧
        (removesDots = true → ∀ segment ∈ rest.splitOn '/', isDots segment = false) := by
  rw [requestPath_cons]
  constructor
  · intro h
    split at h
    · cases h
    · rename_i hcontrol
      obtain ⟨hle, hlt⟩ := length_of_unescape h
      have hsharp := length_takeWhile_le (· != '#') rest
      have hquery := length_takeWhile_le (· != '?') (rest.takeWhile (· != '#'))
      have hdots : (if removesDots then removeDotSegments
            ('/' :: (rest.takeWhile (· != '#')).takeWhile (· != '?'))
          else '/' :: (rest.takeWhile (· != '#')).takeWhile (· != '?')).length ≤
          ('/' :: (rest.takeWhile (· != '#')).takeWhile (· != '?')).length := by
        split
        · exact (length_removeDotSegments _).1
        · exact Nat.le_refl _
      simp only [length_cons] at hle hdots
      have hfirst : rest.takeWhile (· != '#') = rest :=
        takeWhile_eq_self (by omega)
      rw [hfirst] at hquery hdots hle hlt hcontrol
      have hsecond : rest.takeWhile (· != '?') = rest :=
        takeWhile_eq_self (by omega)
      rw [hsecond] at hle hlt
      have hnodots : removesDots = true → ∀ segment ∈ rest.splitOn '/', isDots segment = false := by
        intro hremoves segment hsegment
        rw [Bool.eq_false_iff]
        intro hisDots
        have hshort := (length_removeDotSegments rest).2 ⟨segment, hsegment, hisDots⟩
        rw [if_pos hremoves] at hle
        simp only [length_cons] at hshort
        omega
      rw [removed_eq_self hnodots] at hlt
      refine ⟨fun c hc => ?_, hnodots⟩
      have hc1 := takeWhile_eq_self_iff.1 hfirst c hc
      have hc2 := takeWhile_eq_self_iff.1 hsecond c hc
      have hc3 : c ≠ '%' := by
        rintro rfl
        exact Nat.lt_irrefl _ (hlt (mem_cons_of_mem _ hc))
      have hc4 : isControl c = false := by
        simp only [any_cons, Bool.or_eq_true, any_eq_true, not_or, not_exists,
          not_and] at hcontrol
        exact Bool.eq_false_iff.2 (hcontrol.2 c hc)
      simp only [isPathChar, hc1, hc2, hc4, Bool.true_and, bne_iff_ne.2 hc3, Bool.not_false]
  · rintro ⟨hplain, hdots⟩
    simp only [isPathChar, Bool.and_eq_true, bne_iff_ne, Bool.not_eq_true'] at hplain
    have hfirst : rest.takeWhile (· != '#') = rest :=
      takeWhile_eq_self_iff.2 fun c hc => bne_iff_ne.2 (hplain c hc).1.1.1
    have hsecond : rest.takeWhile (· != '?') = rest :=
      takeWhile_eq_self_iff.2 fun c hc => bne_iff_ne.2 (hplain c hc).1.1.2
    have hcontrol : ('/' :: rest).any isControl = false := by
      rw [any_eq_false]
      intro c hc
      rcases mem_cons.1 hc with rfl | hc
      · decide
      · simp [(hplain c hc).2]
    rw [hfirst, hcontrol]
    simp only [Bool.false_eq_true, if_false, hsecond, removed_eq_self hdots]
    refine unescape_of_not_mem fun hmem => ?_
    rcases mem_cons.1 hmem with heq | hmem
    · cases heq
    · exact (hplain _ hmem).1.2 rfl

end Lib
