import Mathlib

/-!
# HTTP headers

The header of a request as Go's `net/http` keeps it: a map from canonical names to lists of values.
`set`, `add` and `get` all bring the name that they are given into its canonical form, so two names
that differ in case only are the same key.
-/

namespace Lib

open List Function

/-- A character that a header name may have (the `tchar` of RFC 7230). -/
def isTokenChar (c : Char) : Bool := c.isAlphanum || "!#$%&'*+-.^_`|~".toList.contains c

/-- The first letter, and each letter after a dash, in upper case and the others in lower case. -/
def titleCase : Bool → List Char → List Char
  | _, [] => []
  | upper, c :: cs =>
    let c' := if upper then c.toUpper else c.toLower
    c' :: titleCase (c' == '-') cs

/-- `CanonicalMIMEHeaderKey`: a text that is no header name stays as it is. -/
def canonicalHeaderKey (key : String) : String :=
  if key.toList.all isTokenChar then String.ofList (titleCase true key.toList) else key

abbrev Header := String → List String

namespace Header

def empty : Header := fun _ => []

def set (h : Header) (key value : String) : Header :=
  update h (canonicalHeaderKey key) [value]

def add (h : Header) (key value : String) : Header :=
  update h (canonicalHeaderKey key) (h (canonicalHeaderKey key) ++ [value])

/-- `Header.Get`: the first value, or the empty text. -/
def get (h : Header) (key : String) : String := (h (canonicalHeaderKey key)).headD ""

def setAll (h : Header) (entries : List (String × String)) : Header :=
  entries.foldl (fun h e => h.set e.1 e.2) h

variable {h : Header} {entries : List (String × String)} {e : String × String} {key : String}

theorem setAll_append (h : Header) (entries entries' : List (String × String)) :
    h.setAll (entries ++ entries') = (h.setAll entries).setAll entries' :=
  foldl_append

/-- The last `Set` stays. -/
theorem setAll_concat_self (h : Header) (entries : List (String × String)) (e : String × String) :
    h.setAll (entries ++ [e]) (canonicalHeaderKey e.1) = [e.2] := by
  rw [setAll_append]
  exact update_self ..

/-- A name that some entry has ends with the value of one of the entries that have it. -/
theorem exists_setAll_eq (h : Header) (he : e ∈ entries) :
    ∃ e' ∈ entries, canonicalHeaderKey e'.1 = canonicalHeaderKey e.1 ∧
      h.setAll entries (canonicalHeaderKey e.1) = [e'.2] := by
  induction entries using List.reverseRecOn with
  | nil => cases he
  | append_singleton entries last ih =>
    by_cases hlast : canonicalHeaderKey last.1 = canonicalHeaderKey e.1
    · exact ⟨last, by simp, hlast, by rw [← hlast, setAll_concat_self]⟩
    · have he' : e ∈ entries := by
        rcases mem_append.1 he with he' | he'
        · exact he'
        · exact absurd (congrArg (canonicalHeaderKey ·.1) (mem_singleton.1 he')).symm hlast
      obtain ⟨e', hmem, hkey, hval⟩ := ih he'
      refine ⟨e', mem_append_left _ hmem, hkey, ?_⟩
      rw [setAll_append]
      exact (update_of_ne (Ne.symm hlast) ..).trans hval

/-- `Add` leaves the first value of a name that has one. -/
theorem get_add_of_ne_nil (key' value : String) (hne : h (canonicalHeaderKey key) ≠ []) :
    (h.add key' value).get key = h.get key := by
  unfold get add
  by_cases hkey : canonicalHeaderKey key = canonicalHeaderKey key'
  · obtain ⟨v, vs, hvs⟩ := exists_cons_of_ne_nil hne
    rw [hkey] at hvs ⊢
    rw [update_self, hvs]
    rfl
  · rw [update_of_ne hkey]

theorem get_congr {key' : String} (h : Header)
    (hkey : canonicalHeaderKey key = canonicalHeaderKey key') : h.get key = h.get key' := by
  unfold get
  rw [hkey]

end Header

end Lib
