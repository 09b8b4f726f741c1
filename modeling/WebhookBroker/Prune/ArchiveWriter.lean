import WebhookBroker.Lib.Run

/-!
# The archive files (`prune/archivewriter.go`)

An `ArchiveWriteManager` writes lines to one object of a bucket. When the object has become large
enough, a rotation in the background closes the writer, which makes the object visible, and copies
the object to a name with the time of the rotation, in seconds. The next line then opens a new
writer for the same object, whose `Close` replaces it.

Every operation of the bucket may fail. `Manager.Inv` says where an accepted line is: with the open
writer, in the object that a rotation is about to copy, or in a copy. It is kept as long as every
rotation that has closed a writer also copies, and at a later second than the one before
(`Manager.Inv.rotateCopy`), since the copy of an earlier rotation is replaced otherwise.
-/

namespace WebhookBroker

open Lib List Function

namespace Prune

/-- The loop of `filepath.Ext`, over the characters from the last one on. -/
def extension : List Char → List Char → List Char
  | [], _ => []
  | c :: rest, suffix =>
    if c = '/' then []
    else if c = '.' then c :: suffix
    else extension rest (c :: suffix)

/-- `filepath.Ext`. -/
def filepathExt (path : String) : String := String.ofList (extension path.toList.reverse [])

def baseName (objectName : String) : String :=
  String.ofList (objectName.toList.take
    (objectName.toList.length - (filepathExt objectName).toList.length))

/-- The name of the copy that `rotate` makes at the second `unix`. -/
def rotatedName (objectName : String) (unix : Int) : String :=
  baseName objectName ++ "_" ++ toString unix ++ filepathExt objectName

theorem length_extension_le (rest suffix : List Char) :
    (extension rest suffix).length ≤ rest.length + suffix.length := by
  induction rest generalizing suffix with
  | nil => exact Nat.zero_le _
  | cons c rest ih =>
    unfold extension
    split
    · exact Nat.zero_le _
    · split
      · simp only [length_cons]
        omega
      · have hrest := ih (c :: suffix)
        simp only [length_cons] at hrest ⊢
        omega

theorem toList_rotatedName (objectName : String) (unix : Int) :
    (rotatedName objectName unix).toList = (baseName objectName).toList ++ ['_'] ++
      (toString unix).toList ++ (filepathExt objectName).toList := by
  simp [rotatedName, String.toList_append]

theorem rotatedName_injective (objectName : String) :
    Function.Injective (rotatedName objectName) := by
  intro u v h
  have hlist := congrArg String.toList h
  rw [toList_rotatedName, toList_rotatedName, append_cancel_right_eq,
    append_cancel_left_eq] at hlist
  have hrepr : toString u = toString v := String.toList_injective hlist
  rw [Int.toString_eq_repr, Int.toString_eq_repr] at hrepr
  exact Int.repr_inj.1 hrepr

theorem rotatedName_ne (objectName : String) (unix : Int) :
    rotatedName objectName unix ≠ objectName := by
  intro h
  have hlength := congrArg (fun s : String => s.toList.length) h
  have hext : (filepathExt objectName).toList.length ≤ objectName.toList.length := by
    have hle := length_extension_le objectName.toList.reverse []
    simpa [filepathExt] using hle
  have hbase : (baseName objectName).toList.length =
      objectName.toList.length - (filepathExt objectName).toList.length := by
    simp [baseName]
  simp only [toList_rotatedName, length_append, length_singleton, hbase] at hlength
  omega

attribute [irreducible] rotatedName

/-- A `Writer` of the bucket: what was written through it, none of which is visible yet; or the nil
pointer that a failed `NewWriter` leaves behind in the interface. -/
inductive ObjectWriter where
  | open (lines : List String)
  | broken
deriving DecidableEq

/-- `ArchiveWriteManager`, with the objects of its bucket by name, as the lines in them. -/
structure Manager where
  objectName : String
  maxSize : Int
  currentSize : Int
  writer : Option ObjectWriter
  bucket : String → Option (List String)
  /-- the rotations in the background that have not got the lock yet -/
  rotations : Nat
  /-- a rotation that has the lock and has not copied yet; whether it closed a writer -/
  rotating : Option Bool
  /-- the lines for which `Write` returned nil -/
  accepted : List String

structure WriteFaults where
  newWriter : Bool := false
  write : Bool := false

/-- How `Write` ends. -/
inductive WriteResult where
  | written
  /-- `failed to create writer` -/
  | createWriter
  /-- `failed to write to object` -/
  | writeObject
  /-- the nil pointer is used -/
  | panics
deriving DecidableEq

namespace Manager

/-- The part of `Write` that has a writer. -/
def writeTo (m : Manager) (lines : List String) (line : String) (fails : Bool) :
    WriteResult × Manager :=
  if fails then (.writeObject, m)
  else
    let currentSize := m.currentSize + line.utf8ByteSize
    (.written, { m with
      writer := some (.open (lines ++ [line]))
      currentSize
      rotations := if currentSize ≥ m.maxSize then m.rotations + 1 else m.rotations
      accepted := m.accepted ++ [line] })

def write (m : Manager) (line : String) (faults : WriteFaults) : WriteResult × Manager :=
  match m.writer with
  | none =>
    if faults.newWriter then (.createWriter, { m with writer := some .broken })
    else ({ m with writer := some (.open []), currentSize := 0 } : Manager).writeTo [] line
      faults.write
  | some (.open lines) => m.writeTo lines line faults.write
  | some .broken => (.panics, m)

/-- `rotateInBackground` up to the copy; `none` if it panics. -/
def rotateClose (m : Manager) (fails : Bool) : Option Manager :=
  match m.writer with
  | none => some { m with rotations := m.rotations - 1, rotating := some false }
  | some (.open lines) =>
    if fails then some { m with rotations := m.rotations - 1 }
    else some { m with
      rotations := m.rotations - 1
      rotating := some true
      writer := none
      bucket := update m.bucket m.objectName (some lines) }
  | some .broken => none

/-- `rotate` at the second `unix`, which ends the rotation. -/
def rotateCopy (m : Manager) (unix : Int) (fails : Bool) : Manager :=
  let done := { m with rotating := none }
  match m.bucket m.objectName with
  | some lines =>
    if fails then done
    else { done with
      bucket := update m.bucket (rotatedName m.objectName unix) (some lines) }
  | none => done

/-- `Close`, once the rotations are over; `none` if it panics. -/
def close (m : Manager) (fails : Bool) : Option Manager :=
  match m.writer with
  | none => some m
  | some (.open lines) =>
    if fails then some m
    else some { m with bucket := update m.bucket m.objectName (some lines) }
  | some .broken => none

def Committed (m : Manager) (line : String) : Prop :=
  ∃ key lines, m.bucket key = some lines ∧ line ∈ lines

/-! ## Where the accepted lines are -/

/-- A copy of a rotation up to the second `last` has the line. -/
def Copied (m : Manager) (last : Option Int) (line : String) : Prop :=
  ∃ l, last = some l ∧ ∃ unix ≤ l, ∃ lines,
    m.bucket (rotatedName m.objectName unix) = some lines ∧ line ∈ lines

/-- A rotation that has closed the writer is about to copy the line. -/
def ToCopy (m : Manager) (line : String) : Prop :=
  m.rotating = some true ∧ ∃ lines, m.bucket m.objectName = some lines ∧ line ∈ lines

def Buffered (m : Manager) (line : String) : Prop :=
  ∃ lines, m.writer = some (.open lines) ∧ line ∈ lines

/-- The line is in the bucket, in an object that no later step replaces before it is copied. -/
def Kept (m : Manager) (last : Option Int) (line : String) : Prop :=
  m.Copied last line ∨ m.ToCopy line

/-- What holds of a manager whose last rotation that closed a writer copied at second `last`. -/
structure Inv (m : Manager) (last : Option Int) : Prop where
  accepted : ∀ line ∈ m.accepted, m.Kept last line ∨ m.Buffered line
  /-- the object is what the last copy has -/
  object : ∀ l, last = some l → m.rotating ≠ some true →
    m.bucket m.objectName = m.bucket (rotatedName m.objectName l)
  /-- a rotation that has closed a writer has an object to copy -/
  closed : m.rotating = some true → (m.bucket m.objectName).isSome = true

section
variable {m m' : Manager} {last : Option Int} {line : String}

theorem Kept.committed (h : m.Kept last line) : m.Committed line := by
  rcases h with ⟨l, -, unix, -, lines, hbucket, hline⟩ | ⟨-, lines, hbucket, hline⟩
  · exact ⟨_, lines, hbucket, hline⟩
  · exact ⟨_, lines, hbucket, hline⟩

theorem Kept.congr (h : m.Kept last line) (hbucket : m'.bucket = m.bucket)
    (hname : m'.objectName = m.objectName) (hrotating : m'.rotating = m.rotating) :
    m'.Kept last line := by
  unfold Kept Copied ToCopy at *
  rw [hbucket, hname, hrotating]
  exact h

theorem Copied.update (h : m.Copied last line) (hname : m'.objectName = m.objectName)
    {lines : Option (List String)}
    (hbucket : m'.bucket = update m.bucket m.objectName lines) :
    m'.Copied last line := by
  obtain ⟨l, hl, unix, hle, lines, hlines, hline⟩ := h
  refine ⟨l, hl, unix, hle, lines, ?_, hline⟩
  rw [hbucket, hname, update_of_ne (rotatedName_ne _ _), hlines]

/-! ### Writing -/

theorem writeTo_fields (m : Manager) (lines : List String) (line : String) (fails : Bool) :
    (m.writeTo lines line fails).2.bucket = m.bucket ∧
      (m.writeTo lines line fails).2.objectName = m.objectName ∧
      (m.writeTo lines line fails).2.rotating = m.rotating := by
  unfold writeTo
  split <;> exact ⟨rfl, rfl, rfl⟩

theorem write_fields (m : Manager) (line : String) (faults : WriteFaults) :
    (m.write line faults).2.bucket = m.bucket ∧
      (m.write line faults).2.objectName = m.objectName ∧
      (m.write line faults).2.rotating = m.rotating := by
  unfold write
  split
  · split
    · exact ⟨rfl, rfl, rfl⟩
    · exact writeTo_fields _ _ _ _
  · exact writeTo_fields _ _ _ _
  · exact ⟨rfl, rfl, rfl⟩

variable {lines : List String}

/-- A line that is accepted is with the writer, with all that was there before. -/
theorem writeTo_accepted (hwriter : m.writer = some (.open lines)) (fails : Bool) :
    ∀ l ∈ (m.writeTo lines line fails).2.accepted,
      (l ∈ m.accepted ∧ (m.Buffered l → (m.writeTo lines line fails).2.Buffered l)) ∨
      (m.writeTo lines line fails).2.Buffered l := by
  intro l hl
  unfold writeTo at hl ⊢
  split at hl
  · rename_i hfails
    rw [if_pos hfails]
    exact .inl ⟨hl, id⟩
  · rename_i hfails
    rw [if_neg hfails]
    rcases mem_append.1 hl with hl | hl
    · refine .inl ⟨hl, ?_⟩
      rintro ⟨lines', hwriter', hmem⟩
      cases hwriter.symm.trans hwriter'
      exact ⟨_, rfl, mem_append_left _ hmem⟩
    · exact .inr ⟨_, rfl, mem_append_right _ hl⟩

theorem Inv.write (h : m.Inv last) (line : String) (faults : WriteFaults) :
    (m.write line faults).2.Inv last := by
  obtain ⟨hbucket, hname, hrotating⟩ := write_fields m line faults
  refine ⟨fun l hl => ?_, ?_, ?_⟩
  · have hcases : (l ∈ m.accepted ∧ (m.Buffered l → (m.write line faults).2.Buffered l)) ∨
        (m.write line faults).2.Buffered l := by
      unfold Manager.write at hl ⊢
      split
      · rename_i hnone
        rw [hnone] at hl
        dsimp only at hl
        split
        · rename_i hfault
          rw [if_pos hfault] at hl
          refine .inl ⟨hl, ?_⟩
          rintro ⟨lines, hwriter, -⟩
          cases hnone.symm.trans hwriter
        · rename_i hfault
          rw [if_neg hfault] at hl
          refine (writeTo_accepted rfl faults.write l hl).imp_left fun ⟨hmem, _⟩ => ⟨hmem, ?_⟩
          rintro ⟨lines, hwriter, -⟩
          cases hnone.symm.trans hwriter
      · rename_i lines hopen
        rw [hopen] at hl
        exact writeTo_accepted hopen faults.write l hl
      · rename_i hbroken
        rw [hbroken] at hl
        exact .inl ⟨hl, id⟩
    rcases hcases with ⟨hmem, hbuffered⟩ | hbuffered
    · exact (h.accepted l hmem).imp (·.congr hbucket hname hrotating) hbuffered
    · exact .inr hbuffered
  · rw [hbucket, hname, hrotating]
    exact h.object
  · rw [hbucket, hname, hrotating]
    exact h.closed

/-! ### Rotating -/

theorem Kept.copied (h : m.Kept last line) (hrotating : m.rotating ≠ some true) :
    m.Copied last line :=
  h.resolve_right fun hcopy => hrotating hcopy.1

variable {fails : Bool}

theorem Kept.rotateClose (h : m.Kept last line) (hlock : m.rotating = none)
    (hm : m.rotateClose fails = some m') : m'.Kept last line := by
  have hcopied := h.copied (by rw [hlock]; exact nofun)
  unfold Manager.rotateClose at hm
  split at hm
  · cases hm
    exact .inl hcopied
  · split at hm
    · cases hm
      exact .inl hcopied
    · cases hm
      exact .inl (hcopied.update rfl rfl)
  · cases hm

/-- Closing the writer makes its lines the object, which the rotation is then about to copy. -/
theorem Inv.rotateClose (h : m.Inv last) (hlock : m.rotating = none)
    (hm : m.rotateClose fails = some m') : m'.Inv last := by
  have hfree : m.rotating ≠ some true := by
    rw [hlock]
    exact nofun
  have hkept : ∀ {line}, m.Kept last line → m'.Kept last line := (·.rotateClose hlock hm)
  unfold Manager.rotateClose at hm
  split at hm
  · cases hm
    refine ⟨fun l hl => ?_, fun l hlast _ => h.object l hlast hfree, nofun⟩
    exact (h.accepted l hl).imp_left hkept
  · rename_i lines hopen
    split at hm
    · cases hm
      exact ⟨h.accepted, h.object, h.closed⟩
    · cases hm
      refine ⟨fun l hl => .inl ?_, fun _ _ hne => absurd rfl hne, fun _ => ?_⟩
      · rcases h.accepted l hl with hl | ⟨lines', hwriter, hmem⟩
        · exact hkept hl
        · cases hopen.symm.trans hwriter
          exact .inr ⟨rfl, lines, update_self _ _ _, hmem⟩
      · dsimp only
        rw [update_self]
        rfl
  · cases hm

section
variable {lines : List String} (hlines : m.bucket m.objectName = some lines)
include hlines

theorem rotateCopy_fields (unix : Int) :
    (m.rotateCopy unix false).bucket =
      update m.bucket (rotatedName m.objectName unix) (some lines) ∧
    (m.rotateCopy unix false).objectName = m.objectName ∧
    (m.rotateCopy unix false).rotating = none ∧
    (m.rotateCopy unix false).writer = m.writer ∧
    (m.rotateCopy unix false).accepted = m.accepted := by
  unfold Manager.rotateCopy
  rw [hlines]
  exact ⟨rfl, rfl, rfl, rfl, rfl⟩

theorem rotateCopy_bucket_of_ne {unix u : Int} (hne : u ≠ unix) :
    (m.rotateCopy unix false).bucket (rotatedName m.objectName u) =
      m.bucket (rotatedName m.objectName u) := by
  rw [(rotateCopy_fields hlines unix).1,
    update_of_ne fun heq => hne (rotatedName_injective _ heq)]

theorem rotateCopy_bucket_self (unix : Int) :
    (m.rotateCopy unix false).bucket (rotatedName m.objectName unix) = some lines := by
  rw [(rotateCopy_fields hlines unix).1, update_self]

end

variable {unix : Int}

/-- The copy of a rotation that has closed a writer, at a later second than the one before, replaces
no copy that is needed. -/
theorem Kept.rotateCopy (h : m.Kept last line) (hlines : m.bucket m.objectName = some lines)
    (hlater : ∀ l, last = some l → l < unix) : (m.rotateCopy unix false).Kept (some unix) line := by
  obtain ⟨-, hname, -⟩ := rotateCopy_fields hlines unix
  rcases h with ⟨l, hlast, u, hu, lines', hlines', hmem⟩ | ⟨-, lines', hlines', hmem⟩
  · have hlt : u < unix := Int.lt_of_le_of_lt hu (hlater l hlast)
    refine .inl ⟨unix, rfl, u, Int.le_of_lt hlt, lines', ?_, hmem⟩
    rw [hname, rotateCopy_bucket_of_ne hlines (Int.ne_of_lt hlt), hlines']
  · cases hlines.symm.trans hlines'
    refine .inl ⟨unix, rfl, unix, Int.le_refl _, lines, ?_, hmem⟩
    rw [hname, rotateCopy_bucket_self hlines]

/-- The copy of a rotation that has closed a writer has the lines of the object. -/
theorem Inv.rotateCopy (h : m.Inv last) (hclosed : m.rotating = some true)
    (hlater : ∀ l, last = some l → l < unix) : (m.rotateCopy unix false).Inv (some unix) := by
  obtain ⟨lines, hlines⟩ := Option.isSome_iff_exists.1 (h.closed hclosed)
  obtain ⟨hbucket, hname, hrotating, hwriter, haccepted⟩ := rotateCopy_fields hlines unix
  refine ⟨fun line hline => ?_, fun l hlast _ => ?_, fun hcontra => ?_⟩
  · rw [haccepted] at hline
    refine (h.accepted line hline).imp (·.rotateCopy hlines hlater) fun hbuffered => ?_
    unfold Buffered
    rw [hwriter]
    exact hbuffered
  · cases hlast
    rw [hname, rotateCopy_bucket_self hlines, hbucket,
      update_of_ne (rotatedName_ne _ _).symm, hlines]
  · rw [hrotating] at hcontra
    cases hcontra

theorem rotateCopy_cases (m : Manager) (unix : Int) (fails : Bool) :
    m.rotateCopy unix fails = { m with rotating := none } ∨
      fails = false ∧ ∃ lines, m.bucket m.objectName = some lines := by
  cases hlines : m.bucket m.objectName with
  | none =>
    unfold Manager.rotateCopy
    rw [hlines]
    exact .inl rfl
  | some lines =>
    cases fails with
    | true =>
      unfold Manager.rotateCopy
      rw [hlines]
      exact .inl rfl
    | false => exact .inr ⟨rfl, lines, rfl⟩

/-- A rotation that found no writer copies the object once more: to a name that no needed copy has,
or to the name of the last copy, which has the same lines. -/
theorem Inv.rotateAgain_bucket (h : m.Inv last) (hclosed : m.rotating = some false)
    (hlines : m.bucket m.objectName = some lines) (hlater : ∀ l, last = some l → l ≤ unix)
    {l u : Int} (hlast : last = some l) (hu : u ≤ l) :
    (m.rotateCopy unix false).bucket (rotatedName m.objectName u) =
      m.bucket (rotatedName m.objectName u) := by
  rcases eq_or_ne u unix with rfl | hne
  · obtain rfl := Int.le_antisymm hu (hlater l hlast)
    rw [rotateCopy_bucket_self hlines, ← hlines]
    exact h.object _ hlast (by rw [hclosed]; exact nofun)
  · exact rotateCopy_bucket_of_ne hlines hne

theorem Kept.rotateAgain (hkept : m.Kept last line) (h : m.Inv last)
    (hclosed : m.rotating = some false) (hlater : ∀ l, last = some l → l ≤ unix) (fails : Bool) :
    (m.rotateCopy unix fails).Kept last line := by
  have hcopied := hkept.copied (by rw [hclosed]; exact nofun)
  rcases rotateCopy_cases m unix fails with hsame | ⟨rfl, lines, hlines⟩
  · rw [hsame]
    exact .inl hcopied
  · obtain ⟨l, hlast, u, hu, lines', hlines', hmem⟩ := hcopied
    refine .inl ⟨l, hlast, u, hu, lines', ?_, hmem⟩
    rw [(rotateCopy_fields hlines unix).2.1, h.rotateAgain_bucket hclosed hlines hlater hlast hu,
      hlines']

theorem Inv.rotateAgain (h : m.Inv last) (hclosed : m.rotating = some false)
    (hlater : ∀ l, last = some l → l ≤ unix) (fails : Bool) :
    (m.rotateCopy unix fails).Inv last := by
  have hfree : m.rotating ≠ some true := by
    rw [hclosed]
    exact nofun
  have hkept : ∀ {line}, m.Kept last line → (m.rotateCopy unix fails).Kept last line :=
    (·.rotateAgain h hclosed hlater fails)
  rcases rotateCopy_cases m unix fails with hsame | ⟨rfl, lines, hlines⟩
  · rw [hsame] at hkept ⊢
    refine ⟨fun l hl => ?_, fun l hlast _ => h.object l hlast hfree, nofun⟩
    exact (h.accepted l hl).imp_left hkept
  · obtain ⟨hbucket, hname, hrotating, hwriter, haccepted⟩ := rotateCopy_fields hlines unix
    refine ⟨fun line hline => ?_, fun l hlast _ => ?_, fun hcontra => ?_⟩
    · rw [haccepted] at hline
      refine (h.accepted line hline).imp hkept fun hbuffered => ?_
      unfold Buffered
      rw [hwriter]
      exact hbuffered
    · rw [hname, h.rotateAgain_bucket hclosed hlines hlater hlast (Int.le_refl l), hbucket,
        update_of_ne (rotatedName_ne _ _).symm]
      exact h.object l hlast hfree
    · rw [hrotating] at hcontra
      cases hcontra

/-! ### Closing -/

theorem Copied.close (h : m.Copied last line) (hm : m.close fails = some m') :
    m'.Copied last line := by
  unfold Manager.close at hm
  split at hm
  · cases hm
    exact h
  · split at hm
    · cases hm
      exact h
    · cases hm
      exact h.update rfl rfl
  · cases hm

theorem close_accepted (hm : m.close fails = some m') : m'.accepted = m.accepted := by
  unfold Manager.close at hm
  split at hm
  · cases hm
    rfl
  · split at hm <;> cases hm <;> rfl
  · cases hm

theorem Inv.close (h : m.Inv last) (hlock : m.rotating = none) (hm : m.close false = some m') :
    ∀ line ∈ m.accepted, m'.Committed line := by
  intro line hline
  rcases h.accepted line hline with hkept | ⟨lines, hwriter, hmem⟩
  · have hcopied := hkept.copied (by rw [hlock]; exact nofun)
    exact Kept.committed (.inl (hcopied.close hm))
  · unfold Manager.close at hm
    rw [hwriter] at hm
    cases hm
    exact ⟨m.objectName, lines, update_self _ _ _, hmem⟩

end

end Manager

/-! ## Runs in which the bucket does not fail -/

/-- A manager, the last clock reading of a rotation, and whether `Close` was called. -/
structure ArchiveSys where
  manager : Manager
  clock : Int
  closed : Bool

inductive ArchiveAction where
  | write (line : String)
  /-- a rotation gets the lock and closes the writer -/
  | rotateClose
  /-- it reads the clock and copies -/
  | rotateCopy (unix : Int)
  | close

instance : Inhabited ArchiveAction := ⟨.close⟩

/-- A step of the manager. `Write` and `Close` wait for the lock, and `Close` for the rotations. -/
def ArchiveSys.step (s : ArchiveSys) (a : ArchiveAction) : Option ArchiveSys :=
  if s.closed then none
  else match a with
    | .write line =>
      if s.manager.rotating = none then some { s with manager := (s.manager.write line {}).2 }
      else none
    | .rotateClose =>
      if 0 < s.manager.rotations ∧ s.manager.rotating = none then
        (s.manager.rotateClose false).map fun m => { s with manager := m }
      else none
    | .rotateCopy unix =>
      if s.manager.rotating ≠ none ∧ s.clock ≤ unix then
        some { s with manager := s.manager.rotateCopy unix false, clock := unix }
      else none
    | .close =>
      if s.manager.rotations = 0 ∧ s.manager.rotating = none then
        (s.manager.close false).map fun m => { s with manager := m, closed := true }
      else none

def ArchiveSys.isInitial (s : ArchiveSys) : Prop :=
  s.manager.writer = none ∧ s.manager.rotations = 0 ∧ s.manager.rotating = none ∧
    s.manager.accepted = [] ∧ s.closed = false

abbrev ArchiveRun := Run ArchiveSys.isInitial ArchiveSys.step

/-- At step `i` a rotation that has closed a writer copies at the second `unix`. -/
def ArchiveRun.Rotates (r : ArchiveRun) (i : Nat) (unix : Int) : Prop :=
  r.act i = .rotateCopy unix ∧ (r.state i).manager.rotating = some true

section
variable {s s' : ArchiveSys} {a : ArchiveAction} {last : Option Int}

/-- A step of an open manager keeps the invariant, with the second of a rotation that has closed a
writer, or it is the `Close`. -/
theorem ArchiveSys.step_inv (h : s.manager.Inv last) (hs : ArchiveSys.step s a = some s')
    (hclock : ∀ l, last = some l → l ≤ s.clock)
    (hlater : ∀ unix, a = .rotateCopy unix → s.manager.rotating = some true → last ≠ some unix) :
    (s'.closed = true ∧ ∀ line ∈ s'.manager.accepted, s'.manager.Committed line) ∨
    s'.closed = false ∧ ∃ last', s'.manager.Inv last' ∧ (∀ l, last' = some l → l ≤ s'.clock) ∧
      (last' = last ∨ ∃ unix, last' = some unix ∧ a = .rotateCopy unix ∧
        s.manager.rotating = some true) := by
  unfold ArchiveSys.step at hs
  rw [Option.ite_none_left_eq_some] at hs
  obtain ⟨hopen, hs⟩ := hs
  replace hopen := Bool.eq_false_of_not_eq_true hopen
  cases a with
  | write line =>
    rw [Option.ite_none_right_eq_some] at hs
    obtain rfl := Option.some.inj hs.2
    exact .inr ⟨hopen, last, h.write line {}, hclock, .inl rfl⟩
  | rotateClose =>
    rw [Option.ite_none_right_eq_some] at hs
    obtain ⟨⟨-, hlock⟩, hs⟩ := hs
    obtain ⟨m, hm, rfl⟩ := Option.map_eq_some_iff.1 hs
    exact .inr ⟨hopen, last, h.rotateClose hlock hm, hclock, .inl rfl⟩
  | rotateCopy unix =>
    rw [Option.ite_none_right_eq_some] at hs
    obtain ⟨⟨hrotating, hle⟩, hs⟩ := hs
    cases hs
    obtain ⟨closed, hclosed⟩ := Option.ne_none_iff_exists'.1 hrotating
    cases closed with
    | true =>
      have hlt : ∀ l, last = some l → l < unix := by
        intro l hlast
        have hne : l ≠ unix := fun heq => hlater unix rfl hclosed (heq ▸ hlast)
        exact Int.lt_iff_le_and_ne.2 ⟨Int.le_trans (hclock l hlast) hle, hne⟩
      refine .inr ⟨hopen, some unix, h.rotateCopy hclosed hlt, fun l hl => ?_,
        .inr ⟨unix, rfl, rfl, hclosed⟩⟩
      exact Int.le_of_eq (Option.some.inj hl).symm
    | false =>
      have hle' : ∀ l, last = some l → l ≤ unix := fun l hl => Int.le_trans (hclock l hl) hle
      exact .inr ⟨hopen, last, h.rotateAgain hclosed hle' false, hle', .inl rfl⟩
  | close =>
    rw [Option.ite_none_right_eq_some] at hs
    obtain ⟨⟨-, hlock⟩, hs⟩ := hs
    obtain ⟨m, hm, rfl⟩ := Option.map_eq_some_iff.1 hs
    refine .inl ⟨rfl, fun line hline => h.close hlock hm line ?_⟩
    rwa [Manager.close_accepted hm] at hline

/-- Rotations that close a writer at different seconds keep the invariant until the `Close`. -/
theorem ArchiveRun.inv (r : ArchiveRun)
    (hdistinct : ∀ i < r.len, ∀ j < r.len, ∀ unix, r.Rotates i unix → r.Rotates j unix → i = j) :
    ∀ n ≤ r.len,
      ((r.state n).closed = true ∧
        ∀ line ∈ (r.state n).manager.accepted, (r.state n).manager.Committed line) ∨
      (r.state n).closed = false ∧ ∃ last, (r.state n).manager.Inv last ∧
        (∀ l, last = some l → l ≤ (r.state n).clock) ∧
        ∀ l, last = some l → ∃ i < n, r.Rotates i l := by
  intro n
  induction n with
  | zero =>
    intro _
    obtain ⟨-, -, hrotating, haccepted, hopen⟩ := r.start
    refine .inr ⟨hopen, none, ⟨?_, nofun, ?_⟩, nofun, nofun⟩
    · rw [haccepted]
      exact nofun
    · rw [hrotating]
      exact nofun
  | succ n ih =>
    intro hn
    have hs := r.next n hn
    rcases ih (Nat.le_of_lt hn) with ⟨hclosed, -⟩ | ⟨-, last, hinv, hclock, hrotated⟩
    · unfold ArchiveSys.step at hs
      rw [if_pos hclosed] at hs
      cases hs
    · have hlater : ∀ unix, r.act n = .rotateCopy unix →
          (r.state n).manager.rotating = some true → last ≠ some unix := by
        intro unix hact hrotating hlast
        obtain ⟨i, hi, hrotates⟩ := hrotated unix hlast
        have heq := hdistinct i (by omega) n hn unix hrotates ⟨hact, hrotating⟩
        omega
      refine (ArchiveSys.step_inv hinv hs hclock hlater).imp_right ?_
      rintro ⟨hopen, last', hinv', hclock', hcases⟩
      refine ⟨hopen, last', hinv', hclock', fun l hl => ?_⟩
      rcases hcases with rfl | ⟨unix, hunix, hact, hrotating⟩
      · obtain ⟨i, hi, hrotates⟩ := hrotated l hl
        exact ⟨i, Nat.lt_succ_of_lt hi, hrotates⟩
      · obtain rfl := Option.some.inj (hunix.symm.trans hl)
        exact ⟨n, Nat.lt_succ_self n, hact, hrotating⟩

/-- If no two rotations that close a writer read the same second, every line for which `Write`
returned nil is in an object of the bucket after `Close`. -/
theorem accepted_lines_are_archived (r : ArchiveRun)
    (hdistinct : ∀ i < r.len, ∀ j < r.len, ∀ unix, r.Rotates i unix → r.Rotates j unix → i = j)
    {n : Nat} (hn : n ≤ r.len) (hclosed : (r.state n).closed = true) :
    ∀ line ∈ (r.state n).manager.accepted, (r.state n).manager.Committed line := by
  rcases r.inv hdistinct n hn with ⟨-, hcommitted⟩ | ⟨hopen, -⟩
  · exact hcommitted
  · rw [hclosed] at hopen
    cases hopen

end

/-! ## Two rotations in one second -/

/-- A manager of an empty bucket that rotates after every line. -/
def Sample.archive : Manager where
  objectName := "a.jsonl"
  maxSize := 1
  currentSize := 0
  writer := none
  bucket := fun _ => none
  rotations := 0
  rotating := none
  accepted := []

/-- Two lines are written and rotated, at the given seconds, and the manager is closed. -/
def Sample.twoRotations (first second : Int) : List ArchiveAction :=
  [.write "x", .rotateClose, .rotateCopy first, .write "y", .rotateClose, .rotateCopy second,
    .close]

theorem Sample.archive_isInitial : ArchiveSys.isInitial ⟨archive, 0, false⟩ :=
  ⟨rfl, rfl, rfl, rfl, rfl⟩

def Sample.archived (first second : Int) : Manager :=
  { archive with
    currentSize := 1
    bucket := update (update (update (update (fun _ => none)
      "a.jsonl" (some ["x"])) (rotatedName "a.jsonl" first) (some ["x"])) "a.jsonl" (some ["y"]))
        (rotatedName "a.jsonl" second) (some ["y"])
    accepted := ["x", "y"] }

theorem Sample.exec_twoRotations {first second : Int} (h0 : 0 ≤ first) (h : first ≤ second) :
    exec ArchiveSys.step ⟨archive, 0, false⟩ (twoRotations first second) =
      some ⟨archived first second, second, true⟩ := by
  have hx : "x".utf8ByteSize = 1 := by decide
  have hy : "y".utf8ByteSize = 1 := by decide
  simp [twoRotations, exec, ArchiveSys.step, archive, archived, Manager.write, Manager.writeTo,
    Manager.rotateClose, Manager.rotateCopy, Manager.close, hx, hy, h0, h]

def Sample.twoRotationsRun {first second : Int} (h0 : 0 ≤ first) (h : first ≤ second) :
    ArchiveRun :=
  Run.ofActs ⟨archive, 0, false⟩ (twoRotations first second) archive_isInitial
    (by rw [exec_twoRotations h0 h]; rfl)

theorem Sample.twoRotationsRun_state {first second : Int} (h0 : 0 ≤ first) (h : first ≤ second) :
    (twoRotationsRun h0 h).state 7 = ⟨archived first second, second, true⟩ :=
  Run.state_ofActs (exec_twoRotations h0 h)

open Prune.Sample

/-- The second copy in the same second replaces the first one, and the object was replaced before:
no object has the first line. -/
theorem rotation_in_same_second_loses_line :
    ∃ r : ArchiveRun, ∃ n ≤ r.len, (r.state n).closed = true ∧
      "x" ∈ (r.state n).manager.accepted ∧ ¬ (r.state n).manager.Committed "x" := by
  have h0 : (0 : Int) ≤ 5 := by decide
  refine ⟨twoRotationsRun h0 (Int.le_refl 5), 7, Nat.le_refl 7, ?_⟩
  rw [twoRotationsRun_state]
  refine ⟨rfl, mem_cons_self, ?_⟩
  rintro ⟨key, lines, hbucket, hline⟩
  simp only [archived] at hbucket
  rcases eq_or_ne key (rotatedName "a.jsonl" 5) with rfl | hcopy
  · rw [update_self] at hbucket
    cases hbucket
    revert hline
    decide
  · rcases eq_or_ne key "a.jsonl" with rfl | hobject
    · rw [update_of_ne hcopy, update_self] at hbucket
      cases hbucket
      revert hline
      decide
    · rw [update_of_ne hcopy, update_of_ne hobject, update_of_ne hcopy,
        update_of_ne hobject] at hbucket
      cases hbucket

theorem accepted_lines_are_archived_two :
    ∃ r : ArchiveRun, ∃ n ≤ r.len, (r.state n).closed = true ∧
      "x" ∈ (r.state n).manager.accepted ∧ (r.state n).manager.Committed "x" := by
  have h0 : (0 : Int) ≤ 5 := by decide
  have h : (5 : Int) ≤ 6 := by decide
  have hstate := twoRotationsRun_state h0 h
  have hclosed : ((twoRotationsRun h0 h).state 7).closed = true := by rw [hstate]
  have hmem : "x" ∈ ((twoRotationsRun h0 h).state 7).manager.accepted := by
    rw [hstate]
    exact mem_cons_self
  refine ⟨twoRotationsRun h0 h, 7, Nat.le_refl 7, hclosed, hmem, ?_⟩
  refine accepted_lines_are_archived _ ?_ (Nat.le_refl 7) hclosed "x" hmem
  rintro i hi j hj unix ⟨hacti, -⟩ ⟨hactj, -⟩
  have hact : ∀ k < 7, ∀ u, (twoRotationsRun h0 h).act k = .rotateCopy u →
      (k = 2 ∧ u = 5) ∨ (k = 5 ∧ u = 6) := by
    intro k hk u hu
    interval_cases k <;> cases hu
    · exact .inl ⟨rfl, rfl⟩
    · exact .inr ⟨rfl, rfl⟩
  have hi' := hact i hi unix hacti
  have hj' := hact j hj unix hactj
  omega

end Prune

end WebhookBroker
