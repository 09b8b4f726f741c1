import WebhookBroker.Prune.Service

/-!
# Archiving and deleting (`prune/service.go`)

`PruneMessages` writes the line of a message to a local archive and, if there is one, to a remote
archive, and deletes the messages of a batch from the database. The archives are closed by a
deferred call, after the last delete. Here the call runs step by step, next to the rotations in the
background; every operation of a bucket may fail, and the process may stop at any point.

A writer shows its object when it is closed. A line that is still with an open writer is therefore
not in the bucket when its message is deleted, and lost if the process stops or the `Close` fails.
`DirectorSys.Inv` carries what remains true: a line that is in the bucket in an object that no step
replaces (`Manager.Kept`) at the time of the delete stays there.
-/

namespace WebhookBroker

open Lib List Function

namespace Prune

inductive Archive where
  | localArchive
  | remoteArchive
deriving DecidableEq

structure ArchiveDirector where
  localArchiveManager : Manager
  remoteArchiveManager : Option Manager

namespace ArchiveDirector

/-- The manager of an archive; `none` if there is no remote archive. -/
def get (d : ArchiveDirector) : Archive → Option Manager
  | .localArchive => some d.localArchiveManager
  | .remoteArchive => d.remoteArchiveManager

def set (d : ArchiveDirector) (m : Manager) : Archive → ArchiveDirector
  | .localArchive => { d with localArchiveManager := m }
  | .remoteArchive => { d with remoteArchiveManager := some m }

theorem get_set_self (d : ArchiveDirector) (m : Manager) (a : Archive) :
    (d.set m a).get a = some m := by
  cases a <;> rfl

theorem get_set_of_ne (d : ArchiveDirector) (m : Manager) {a b : Archive} (hne : b ≠ a) :
    (d.set m a).get b = d.get b := by
  cases a with
  | localArchive =>
    cases b with
    | localArchive => exact absurd rfl hne
    | remoteArchive => rfl
  | remoteArchive =>
    cases b with
    | localArchive => rfl
    | remoteArchive => exact absurd rfl hne

end ArchiveDirector

/-! ## `PruneMessages`, step by step -/

inductive Position where
  | loading
  /-- before the write of the first of the messages to an archive -/
  | archiving (archive : Archive) (messages messageIDsToDelete : List Xid)
  | deleting (messageIDsToDelete : List Xid) (moreMessages : Bool)
  /-- in the deferred `ArchiveDirector.Close`, before the `Close` of an archive -/
  | closing (archive : Archive)
  | returned
  | stopped
deriving DecidableEq

namespace Position

def afterLoop (messageIDsToDelete : List Xid) (moreMessages : Bool) : Position :=
  if messageIDsToDelete.length > 0 then .deleting messageIDsToDelete moreMessages
  else if moreMessages then .loading
  else .closing .remoteArchive

def next (messages messageIDsToDelete : List Xid) : Position :=
  if messages.length = 0 then afterLoop messageIDsToDelete true
  else .archiving .localArchive messages messageIDsToDelete

/-- After the write of the first of the messages to an archive. -/
def afterWrite (archive : Archive) (message : Xid) (messages messageIDsToDelete : List Xid) :
    Position :=
  match archive with
  | .localArchive => .archiving .remoteArchive (message :: messages) messageIDsToDelete
  | .remoteArchive => next messages (messageIDsToDelete ++ [message])

def afterClose : Archive → Position
  | .remoteArchive => .closing .localArchive
  | .localArchive => .returned

/-- The messages that are written to both archives and not deleted yet. -/
def toDelete : Position → List Xid
  | .archiving _ _ ids => ids
  | .deleting ids _ => ids
  | .loading | .closing _ | .returned | .stopped => []

/-- The message that is written to the local archive only. -/
def half : Position → Option Xid
  | .archiving .remoteArchive (message :: _) _ => some message
  | _ => none

def isOpen : Position → Archive → Bool
  | .closing .localArchive, archive => archive = .localArchive
  | .returned, _ | .stopped, _ => false
  | _, _ => true

end Position

/-- The director, the database, the clock of the rotations, and where `PruneMessages` is. -/
structure DirectorSys where
  director : ArchiveDirector
  db : Db
  clock : Int
  position : Position

/-- What happens in a step, with the operations that fail. -/
inductive DirectorAction where
  /-- a batch is loaded; `getJobsForMessages` may fail -/
  | load (messages : List Xid) (getJobsFails : Bool)
  /-- the first message of the batch is written to the next archive -/
  | write (faults : WriteFaults)
  | delete (failure : Option StorageErr)
  /-- the `Close` of the next archive -/
  | close (fails : Bool)
  /-- a rotation in the background gets the lock and closes the writer -/
  | rotateClose (archive : Archive) (fails : Bool)
  /-- it reads the clock and copies -/
  | rotateCopy (archive : Archive) (unix : Int) (fails : Bool)
  | stop

instance : Inhabited DirectorAction := ⟨.stop⟩

namespace DirectorSys

/-- `Write` of the line of a message to an archive: `archiveMessage` for one of the two archives.
`jsonStr` is the line of a message; `none` if `json.Marshal` fails. -/
def write (jsonStr : Xid → Option String) (s : DirectorSys) (archive : Archive) (message : Xid)
    (messages messageIDsToDelete : List Xid) (faults : WriteFaults) : Option DirectorSys :=
  match jsonStr message with
  | none => some { s with position := .afterLoop messageIDsToDelete false }
  | some line =>
    match s.director.get archive with
    | none => some { s with position := .afterWrite archive message messages messageIDsToDelete }
    | some m =>
      if m.rotating = none then
        let director := s.director.set (m.write line faults).2 archive
        match (m.write line faults).1 with
        | .written => some { s with
            director, position := .afterWrite archive message messages messageIDsToDelete }
        | .createWriter | .writeObject => some { s with
            director, position := .afterLoop messageIDsToDelete false }
        -- the deferred call runs also then
        | .panics => some { s with director, position := .closing .remoteArchive }
      else none

/-- `Close` of an archive, which waits for its rotations. -/
def close (s : DirectorSys) (archive : Archive) (fails : Bool) : Option DirectorSys :=
  match s.director.get archive with
  | none => some { s with position := .afterClose archive }
  | some m =>
    if m.rotations = 0 ∧ m.rotating = none then
      match m.close fails with
      | some m' => some { s with
          director := s.director.set m' archive, position := .afterClose archive }
      | none => some { s with position := .stopped }
    else none

def step (jsonStr : Xid → Option String) (s : DirectorSys) (a : DirectorAction) :
    Option DirectorSys :=
  if s.position = .stopped then none
  else match a with
    | .load messages getJobsFails =>
      match s.position with
      | .loading =>
        if messages.length = 0 ∨ getJobsFails then
          some { s with position := .closing .remoteArchive }
        else some { s with position := .archiving .localArchive messages [] }
      | _ => none
    | .write faults =>
      match s.position with
      | .archiving archive (message :: messages) ids =>
        s.write jsonStr archive message messages ids faults
      | _ => none
    | .delete failure =>
      match s.position with
      | .deleting ids moreMessages =>
        match deleteBatch failure ids s.db with
        | (.error _, db) => some { s with db, position := .closing .remoteArchive }
        | (.ok _, db) => some { s with
            db, position := if moreMessages then .loading else .closing .remoteArchive }
      | _ => none
    | .close fails =>
      match s.position with
      | .closing archive => s.close archive fails
      | _ => none
    | .rotateClose archive fails =>
      match s.director.get archive with
      | some m =>
        if 0 < m.rotations ∧ m.rotating = none then
          match m.rotateClose fails with
          | some m' => some { s with director := s.director.set m' archive }
          | none => some { s with position := .stopped }
        else none
      | none => none
    | .rotateCopy archive unix fails =>
      match s.director.get archive with
      | some m =>
        if m.rotating ≠ none ∧ s.clock ≤ unix then
          some { s with
            director := s.director.set (m.rotateCopy unix fails) archive, clock := unix }
        else none
      | none => none
    | .stop => some { s with position := .stopped }

/-- New managers, with any buckets, before the first query. -/
def isInitial (s : DirectorSys) : Prop :=
  s.position = .loading ∧ ∀ a m, s.director.get a = some m →
    m.writer = none ∧ m.rotations = 0 ∧ m.rotating = none ∧ m.accepted = []

end DirectorSys

abbrev DirectorRun (jsonStr : Xid → Option String) :=
  Run DirectorSys.isInitial (DirectorSys.step jsonStr)

/-! ## What a step keeps -/

namespace Position

section
variable {message : Xid} {messages ids : List Xid} {moreMessages : Bool}

theorem toDelete_afterLoop : ∀ id ∈ (afterLoop ids moreMessages).toDelete, id ∈ ids := by
  intro id hid
  unfold afterLoop at hid
  split at hid
  · exact hid
  · split at hid <;> cases hid

theorem half_afterLoop : (afterLoop ids moreMessages).half = none := by
  unfold afterLoop
  split
  · rfl
  · split <;> rfl

theorem isOpen_afterLoop (a : Archive) : (afterLoop ids moreMessages).isOpen a = true := by
  unfold afterLoop
  split
  · rfl
  · split <;> rfl

theorem toDelete_next : ∀ id ∈ (next messages ids).toDelete, id ∈ ids := by
  intro id hid
  unfold next at hid
  split at hid
  · exact toDelete_afterLoop id hid
  · exact hid

theorem half_next : (next messages ids).half = none := by
  unfold next
  split
  · exact half_afterLoop
  · rfl

theorem isOpen_next (a : Archive) : (next messages ids).isOpen a = true := by
  unfold next
  split
  · exact isOpen_afterLoop a
  · rfl

theorem isOpen_afterWrite (archive a : Archive) :
    (afterWrite archive message messages ids).isOpen a = true := by
  cases archive with
  | localArchive => rfl
  | remoteArchive => exact isOpen_next a

end

end Position

namespace Manager

section
variable {m m' : Manager} {line : String}

theorem writeTo_subset (lines : List String) (fails : Bool) :
    m.accepted ⊆ (m.writeTo lines line fails).2.accepted := by
  unfold writeTo
  split
  · exact List.Subset.refl _
  · exact subset_append_left _ _

theorem write_subset (faults : WriteFaults) : m.accepted ⊆ (m.write line faults).2.accepted := by
  unfold write
  split
  · split
    · exact List.Subset.refl _
    · exact writeTo_subset (m := { m with writer := some (.open []), currentSize := 0 }) _ _
  · exact writeTo_subset _ _
  · exact List.Subset.refl _

variable {fails : Bool}

theorem writeTo_written {lines : List String} (h : (m.writeTo lines line fails).1 = .written) :
    line ∈ (m.writeTo lines line fails).2.accepted := by
  unfold writeTo at h ⊢
  split at h
  · cases h
  · rename_i hfails
    rw [if_neg hfails]
    exact mem_append_right _ mem_cons_self

theorem write_written {faults : WriteFaults} (h : (m.write line faults).1 = .written) :
    line ∈ (m.write line faults).2.accepted := by
  unfold write at h ⊢
  split
  · rename_i hnone
    rw [hnone] at h
    dsimp only at h
    split
    · rename_i hfails
      rw [if_pos hfails] at h
      cases h
    · rename_i hfails
      rw [if_neg hfails] at h
      exact writeTo_written h
  · rename_i lines hopen
    rw [hopen] at h
    exact writeTo_written h
  · rename_i hbroken
    rw [hbroken] at h
    cases h

theorem rotateClose_accepted (hm : m.rotateClose fails = some m') : m'.accepted = m.accepted := by
  unfold rotateClose at hm
  split at hm
  · cases hm
    rfl
  · split at hm <;> cases hm <;> rfl
  · cases hm

theorem rotateCopy_accepted (unix : Int) (fails : Bool) :
    (m.rotateCopy unix fails).accepted = m.accepted := by
  unfold rotateCopy
  split
  · split <;> rfl
  · rfl

theorem close_rotations (hm : m.close fails = some m') :
    m'.rotations = m.rotations ∧ m'.rotating = m.rotating := by
  unfold close at hm
  split at hm
  · cases hm
    exact ⟨rfl, rfl⟩
  · split at hm <;> cases hm <;> exact ⟨rfl, rfl⟩
  · cases hm

end

end Manager

namespace DirectorSys

section
variable {jsonStr : Xid → Option String} {rows : List MessageRow} {last : Archive → Option Int}
  {s s' : DirectorSys} {archive : Archive} {m m' : Manager}

/-- The archive, if there is one, has accepted the line of the message. -/
def Accepted (jsonStr : Xid → Option String) (s : DirectorSys) (archive : Archive) (id : Xid) :
    Prop :=
  ∃ line, jsonStr id = some line ∧ ∀ m, s.director.get archive = some m → line ∈ m.accepted

/-- The line of the message is in every bucket, in an object that no later step replaces. -/
def Archived (jsonStr : Xid → Option String) (last : Archive → Option Int) (s : DirectorSys)
    (id : Xid) : Prop :=
  ∃ line, jsonStr id = some line ∧
    ∀ a m, s.director.get a = some m → m.Kept (last a) line

/-- What holds while `PruneMessages` runs on a database that had the rows at the start; `last` are
the seconds of the last rotations that closed a writer. -/
structure Inv (jsonStr : Xid → Option String) (rows : List MessageRow)
    (last : Archive → Option Int) (s : DirectorSys) : Prop where
  managers : ∀ a m, s.director.get a = some m → s.position.isOpen a = true → m.Inv (last a)
  closed : s.position ≠ .stopped → ∀ a m, s.director.get a = some m →
    s.position.isOpen a = false → m.rotations = 0 ∧ m.rotating = none
  clock : ∀ a l, last a = some l → l ≤ s.clock
  accepted : ∀ id ∈ s.position.toDelete, ∀ a, s.Accepted jsonStr a id
  half : ∀ id, s.position.half = some id → s.Accepted jsonStr .localArchive id
  deleted : ∀ row ∈ rows, row ∉ s.db.message → s.Archived jsonStr last row.id

section
variable (h : s.Inv jsonStr rows last) (hrun : s.position ≠ .stopped)
include h hrun

theorem Inv.move {p : Position} (hopen : ∀ a, p.isOpen a = true → s.position.isOpen a = true)
    (hclosed : p ≠ .stopped → ∀ a m, s.director.get a = some m → p.isOpen a = false →
      s.position.isOpen a = true → m.rotations = 0 ∧ m.rotating = none)
    (haccepted : ∀ id ∈ p.toDelete, ∀ a, s.Accepted jsonStr a id)
    (hhalf : ∀ id, p.half = some id → s.Accepted jsonStr .localArchive id) :
    ({ s with position := p } : DirectorSys).Inv jsonStr rows last where
  managers a m hm hp := h.managers a m hm (hopen a hp)
  closed hp a m hm hpa := by
    cases hs : s.position.isOpen a with
    | true => exact hclosed hp a m hm hpa hs
    | false => exact h.closed hrun a m hm hs
  clock := h.clock
  accepted := haccepted
  half := hhalf
  deleted := h.deleted

theorem Inv.moveOpen (hs : ∀ a, s.position.isOpen a = true) {p : Position}
    (hp : ∀ a, p.isOpen a = true) (hdelete : ∀ id ∈ p.toDelete, id ∈ s.position.toDelete)
    (hhalf : p.half = none) : ({ s with position := p } : DirectorSys).Inv jsonStr rows last := by
  refine h.move hrun (fun a _ => hs a) (fun _ a _ _ hpa => ?_)
    (fun id hid => h.accepted id (hdelete id hid)) (fun id hid => ?_)
  · rw [hp a] at hpa
    cases hpa
  · rw [hhalf] at hid
    cases hid

theorem Inv.stop : ({ s with position := .stopped } : DirectorSys).Inv jsonStr rows last :=
  h.move hrun nofun (fun hne => absurd rfl hne) nofun nofun

end

theorem Accepted.update {a : Archive} {id : Xid} (h : s.Accepted jsonStr a id)
    (hget : s.director.get archive = some m) (hsubset : m.accepted ⊆ m'.accepted) (clock : Int) :
    ({ s with director := s.director.set m' archive, clock } : DirectorSys).Accepted
      jsonStr a id := by
  obtain ⟨line, hline, haccepted⟩ := h
  refine ⟨line, hline, fun n hn => ?_⟩
  rcases eq_or_ne a archive with rfl | hne
  · rw [ArchiveDirector.get_set_self] at hn
    cases hn
    exact hsubset (haccepted m hget)
  · rw [ArchiveDirector.get_set_of_ne _ _ hne] at hn
    exact haccepted n hn

theorem Inv.update (h : s.Inv jsonStr rows last) (hget : s.director.get archive = some m)
    {l' : Option Int} {clock : Int}
    (hopen : s.position.isOpen archive = true → m'.Inv l')
    (hclosed : s.position.isOpen archive = false → m'.rotations = m.rotations ∧
      m'.rotating = m.rotating)
    (hclock : s.clock ≤ clock) (hl' : ∀ l, l' = some l → l ≤ clock)
    (hsubset : m.accepted ⊆ m'.accepted)
    (hkept : ∀ line, m.Kept (last archive) line → m'.Kept l' line) :
    ({ s with director := s.director.set m' archive, clock } : DirectorSys).Inv jsonStr rows
      (Function.update last archive l') where
  managers a n hn hp := by
    rcases eq_or_ne a archive with rfl | hne
    · rw [ArchiveDirector.get_set_self] at hn
      cases hn
      rw [update_self]
      exact hopen hp
    · rw [ArchiveDirector.get_set_of_ne _ _ hne] at hn
      rw [update_of_ne hne]
      exact h.managers a n hn hp
  closed hrun a n hn hp := by
    rcases eq_or_ne a archive with rfl | hne
    · rw [ArchiveDirector.get_set_self] at hn
      cases hn
      obtain ⟨hrotations, hrotating⟩ := hclosed hp
      rw [hrotations, hrotating]
      exact h.closed hrun a m hget hp
    · rw [ArchiveDirector.get_set_of_ne _ _ hne] at hn
      exact h.closed hrun a n hn hp
  clock a l hl := by
    rcases eq_or_ne a archive with rfl | hne
    · rw [update_self] at hl
      exact hl' l hl
    · rw [update_of_ne hne] at hl
      exact Int.le_trans (h.clock a l hl) hclock
  accepted id hid a := (h.accepted id hid a).update hget hsubset clock
  half id hid := (h.half id hid).update hget hsubset clock
  deleted row hrow hgone := by
    obtain ⟨line, hline, hlines⟩ := h.deleted row hrow hgone
    refine ⟨line, hline, fun a n hn => ?_⟩
    rcases eq_or_ne a archive with rfl | hne
    · rw [ArchiveDirector.get_set_self] at hn
      cases hn
      rw [update_self]
      exact hkept line (hlines a m hget)
    · rw [ArchiveDirector.get_set_of_ne _ _ hne] at hn
      rw [update_of_ne hne]
      exact hlines a n hn

/-! ### Writing -/

/-- After the write of a message to an archive, or if there is no such archive. -/
theorem Inv.afterWrite (h : s.Inv jsonStr rows last) {message : Xid} {messages ids : List Xid}
    (hs : s.position = .archiving archive (message :: messages) ids)
    (hmessage : s.Accepted jsonStr archive message) :
    ({ s with position := .afterWrite archive message messages ids } : DirectorSys).Inv
      jsonStr rows last := by
  have hrun : s.position ≠ .stopped := by
    rw [hs]
    exact nofun
  have hids : ∀ id ∈ ids, ∀ a, s.Accepted jsonStr a id := by
    have haccepted := h.accepted
    rw [hs] at haccepted
    exact haccepted
  refine h.move hrun (fun a _ => by rw [hs]; rfl) (fun _ a _ _ hp => ?_) ?_ ?_
  · rw [Position.isOpen_afterWrite] at hp
    cases hp
  · cases archive with
    | localArchive => exact hids
    | remoteArchive =>
      have hhalf := h.half message (by rw [hs]; rfl)
      intro id hid a
      rcases mem_append.1 (Position.toDelete_next id hid) with hid | hid
      · exact hids id hid a
      · obtain rfl := mem_singleton.1 hid
        cases a with
        | localArchive => exact hhalf
        | remoteArchive => exact hmessage
  · intro id hid
    cases archive with
    | localArchive =>
      cases hid
      exact hmessage
    | remoteArchive =>
      change (Position.next _ _).half = some id at hid
      rw [Position.half_next] at hid
      cases hid

theorem Inv.write (h : s.Inv jsonStr rows last) {message : Xid} {messages ids : List Xid}
    (hs : s.position = .archiving archive (message :: messages) ids) {faults : WriteFaults}
    (hstep : s.write jsonStr archive message messages ids faults = some s') :
    s'.Inv jsonStr rows last := by
  have hend : ∀ {t : DirectorSys}, t.Inv jsonStr rows last → t.position = s.position →
      ∀ p : Position, (∀ a, p.isOpen a = true) → (∀ id ∈ p.toDelete, id ∈ ids) → p.half = none →
        ({ t with position := p } : DirectorSys).Inv jsonStr rows last := by
    intro t hinv ht p hp hdelete hhalf
    rw [hs] at ht
    refine hinv.moveOpen (by rw [ht]; exact nofun) (fun a => by rw [ht]; rfl) hp ?_ hhalf
    rw [ht]
    exact hdelete
  unfold DirectorSys.write at hstep
  split at hstep
  · cases hstep
    exact hend h rfl _ Position.isOpen_afterLoop Position.toDelete_afterLoop
      Position.half_afterLoop
  · rename_i line hline
    split at hstep
    · rename_i hnone
      cases hstep
      refine h.afterWrite hs ⟨line, hline, fun m hm => ?_⟩
      cases hnone.symm.trans hm
    · rename_i m hget
      rw [Option.ite_none_right_eq_some] at hstep
      obtain ⟨-, hstep⟩ := hstep
      dsimp only at hstep
      have hopen : s.position.isOpen archive = true := by
        rw [hs]
        rfl
      obtain ⟨hbucket, hname, hrotating⟩ := Manager.write_fields m line faults
      have hinv : ({ s with director := s.director.set (m.write line faults).2 archive } :
          DirectorSys).Inv jsonStr rows last := by
        rw [← update_eq_self archive last]
        exact h.update hget (fun _ => (h.managers archive m hget hopen).write line faults)
          (fun hp => by rw [hopen] at hp; cases hp) (Int.le_refl _) (h.clock archive)
          (Manager.write_subset faults) (fun _ hkept => hkept.congr hbucket hname hrotating)
      split at hstep
      · rename_i hwritten
        cases hstep
        refine hinv.afterWrite hs ⟨line, hline, fun n hn => ?_⟩
        rw [ArchiveDirector.get_set_self] at hn
        cases hn
        exact Manager.write_written hwritten
      · cases hstep
        exact hend hinv rfl _ Position.isOpen_afterLoop Position.toDelete_afterLoop
          Position.half_afterLoop
      · cases hstep
        exact hend hinv rfl _ Position.isOpen_afterLoop Position.toDelete_afterLoop
          Position.half_afterLoop
      · cases hstep
        exact hend hinv rfl _ (fun _ => rfl) (fun _ hid => absurd hid not_mem_nil) rfl

/-! ### Deleting -/

def Flushed (s : DirectorSys) : Prop :=
  ∀ a m, s.director.get a = some m → ∀ line, ¬ m.Buffered line

/-- The lines of the messages to be deleted are in the buckets, if no line is only with a writer. -/
theorem Inv.archived (h : s.Inv jsonStr rows last) (hflushed : s.Flushed)
    (hopen : ∀ a, s.position.isOpen a = true) {id : Xid} (hid : id ∈ s.position.toDelete) :
    s.Archived jsonStr last id := by
  obtain ⟨line, hline, -⟩ := h.accepted id hid .localArchive
  refine ⟨line, hline, fun a m hm => ?_⟩
  obtain ⟨line', hline', haccepted⟩ := h.accepted id hid a
  obtain rfl := Option.some.inj (hline.symm.trans hline')
  have hmanager := h.managers a m hm (hopen a)
  exact (hmanager.accepted line (haccepted m hm)).resolve_right (hflushed a m hm line)

theorem Inv.delete (h : s.Inv jsonStr rows last) (hflushed : s.Flushed) {ids : List Xid}
    {moreMessages : Bool} (hs : s.position = .deleting ids moreMessages)
    (failure : Option StorageErr) {p : Position} (hp : ∀ a, p.isOpen a = true)
    (hdelete : p.toDelete = []) (hhalf : p.half = none) :
    ({ s with db := (deleteBatch failure ids s.db).2, position := p } : DirectorSys).Inv
      jsonStr rows last := by
  have hopen : ∀ a, s.position.isOpen a = true := by
    intro a
    rw [hs]
    rfl
  have hmoved := h.moveOpen (by rw [hs]; exact nofun) hopen hp
    (fun id hid => by rw [hdelete] at hid; cases hid) hhalf
  refine { hmoved with deleted := fun row hrow hgone => ?_ }
  rcases deleteBatch_cases failure ids s.db with ⟨db', hok, hdb⟩ | ⟨e, herr⟩
  · rw [hok] at hgone
    by_cases hbefore : row ∈ s.db.message
    · have hid : row.id ∈ ids := by
        by_contra hid
        exact hgone ((hdb row).2 ⟨hbefore, hid⟩)
      exact h.archived hflushed hopen (by rw [hs]; exact hid)
    · exact h.deleted row hrow hbefore
  · rw [herr] at hgone
    exact h.deleted row hrow hgone

/-! ### Closing and rotating -/

variable {fails : Bool}

theorem Inv.close (h : s.Inv jsonStr rows last) (hs : s.position = .closing archive)
    (hstep : s.close archive fails = some s') : s'.Inv jsonStr rows last := by
  have hrun : s.position ≠ .stopped := by
    rw [hs]
    exact nofun
  have hmove : (∀ m, s.director.get archive = some m → m.rotations = 0 ∧ m.rotating = none) →
      ({ s with position := .afterClose archive } : DirectorSys).Inv jsonStr rows last := by
    intro hover
    refine h.move hrun (fun a ha => ?_) (fun _ a m hm ha hopen => ?_) ?_ ?_
    · rw [hs]
      cases archive with
      | localArchive => cases ha
      | remoteArchive => rfl
    · have heq : a = archive := by
        rw [hs] at hopen
        cases archive with
        | localArchive => exact of_decide_eq_true hopen
        | remoteArchive =>
          cases a with
          | localArchive => cases ha
          | remoteArchive => rfl
      rw [heq] at hm
      exact hover m hm
    · cases archive <;> exact fun _ hid => absurd hid not_mem_nil
    · cases archive <;> exact nofun
  unfold DirectorSys.close at hstep
  split at hstep
  · rename_i hnone
    cases hstep
    refine hmove fun m hm => ?_
    cases hnone.symm.trans hm
  · rename_i m hget
    rw [Option.ite_none_right_eq_some] at hstep
    obtain ⟨hover, hstep⟩ := hstep
    split at hstep
    · rename_i m' hclose
      cases hstep
      have hmoved := hmove fun n hn => by
        obtain rfl := Option.some.inj (hget.symm.trans hn)
        exact hover
      have hclosed : (Position.afterClose archive).isOpen archive = false := by
        cases archive <;> rfl
      rw [← update_eq_self archive last]
      refine hmoved.update hget (fun hopen => ?_) (fun _ => Manager.close_rotations hclose)
        (Int.le_refl _) (h.clock archive) ?_ ?_
      · rw [hclosed] at hopen
        cases hopen
      · rw [Manager.close_accepted hclose]
        exact List.Subset.refl _
      · intro line hkept
        exact .inl ((hkept.copied (by rw [hover.2]; exact nofun)).close hclose)
    · cases hstep
      exact h.stop hrun

section
variable (h : s.Inv jsonStr rows last) (hrun : s.position ≠ .stopped)
  (hget : s.director.get archive = some m)
include h hrun hget

theorem Inv.isOpen (hbusy : 0 < m.rotations ∨ m.rotating ≠ none) :
    s.position.isOpen archive = true := by
  by_contra hclosed
  obtain ⟨hrotations, hrotating⟩ :=
    h.closed hrun archive m hget (Bool.eq_false_of_not_eq_true hclosed)
  rcases hbusy with hpos | hne
  · omega
  · exact hne hrotating

theorem Inv.rotateClose (hrotations : 0 < m.rotations) (hlock : m.rotating = none)
    (hm : m.rotateClose fails = some m') :
    ({ s with director := s.director.set m' archive } : DirectorSys).Inv jsonStr rows last := by
  have hopen := h.isOpen hrun hget (.inl hrotations)
  rw [← update_eq_self archive last]
  refine h.update hget (fun _ => (h.managers archive m hget hopen).rotateClose hlock hm)
    (fun hclosed => ?_) (Int.le_refl _) (h.clock archive) ?_ (fun _ hkept => ?_)
  · rw [hopen] at hclosed
    cases hclosed
  · rw [Manager.rotateClose_accepted hm]
    exact List.Subset.refl _
  · exact hkept.rotateClose hlock hm

/-- The copy of a rotation, which does not fail if the rotation has closed a writer, and is then
made at a later second than the one before. -/
theorem Inv.rotateCopy (hrotating : m.rotating ≠ none) {unix : Int} (hclock : s.clock ≤ unix)
    (hcopies : m.rotating = some true → fails = false ∧ last archive ≠ some unix) :
    ({ s with director := s.director.set (m.rotateCopy unix fails) archive, clock := unix } :
      DirectorSys).Inv jsonStr rows (Function.update last archive
        (if m.rotating = some true then some unix else last archive)) := by
  have hopen := h.isOpen hrun hget (.inr hrotating)
  have hmanager := h.managers archive m hget hopen
  have hle : ∀ l, last archive = some l → l ≤ unix :=
    fun l hl => Int.le_trans (h.clock archive l hl) hclock
  obtain ⟨closed, hclosed⟩ := Option.ne_none_iff_exists'.1 hrotating
  have hsubset : m.accepted ⊆ (m.rotateCopy unix fails).accepted := by
    rw [Manager.rotateCopy_accepted]
    exact List.Subset.refl _
  have hstays : s.position.isOpen archive = false →
      (m.rotateCopy unix fails).rotations = m.rotations ∧
        (m.rotateCopy unix fails).rotating = m.rotating := by
    intro hfalse
    rw [hopen] at hfalse
    cases hfalse
  cases closed with
  | true =>
    obtain ⟨rfl, hne⟩ := hcopies hclosed
    have hlt : ∀ l, last archive = some l → l < unix := fun l hl =>
      Int.lt_iff_le_and_ne.2 ⟨hle l hl, fun heq => hne (heq ▸ hl)⟩
    obtain ⟨lines, hlines⟩ := Option.isSome_iff_exists.1 (hmanager.closed hclosed)
    rw [if_pos hclosed]
    refine h.update hget (fun _ => hmanager.rotateCopy hclosed hlt) hstays hclock ?_ hsubset
      (fun _ hkept => hkept.rotateCopy hlines hlt)
    intro l hl
    exact Int.le_of_eq (Option.some.inj hl).symm
  | false =>
    rw [if_neg (by rw [hclosed]; exact nofun)]
    exact h.update hget (fun _ => hmanager.rotateAgain hclosed hle fails) hstays hclock hle hsubset
      (fun _ hkept => hkept.rotateAgain hmanager hclosed hle fails)

end

/-- At the step, a rotation that has closed the writer of the archive copies at the second. -/
def Rotates (s : DirectorSys) (a : DirectorAction) (archive : Archive) (unix : Int) (fails : Bool) :
    Prop :=
  a = .rotateCopy archive unix fails ∧ ∃ m, s.director.get archive = some m ∧ m.rotating = some true

theorem step_inv (h : s.Inv jsonStr rows last) {a : DirectorAction}
    (hs : s.step jsonStr a = some s')
    (hflushed : ∀ failure, a = .delete failure → s.Flushed)
    (hcopies : ∀ archive unix fails, s.Rotates a archive unix fails →
      fails = false ∧ last archive ≠ some unix) :
    ∃ last', s'.Inv jsonStr rows last' ∧ ∀ archive l, last' archive = some l →
      last archive = some l ∨ ∃ fails, s.Rotates a archive l fails := by
  unfold DirectorSys.step at hs
  rw [Option.ite_none_left_eq_some] at hs
  obtain ⟨hrun, hs⟩ := hs
  cases a with
  | load messages getJobsFails =>
    dsimp only at hs
    split at hs
    · rename_i hloading
      have hopen : ∀ a, s.position.isOpen a = true := by
        intro a
        rw [hloading]
        rfl
      refine ⟨last, ?_, fun _ _ => .inl⟩
      split at hs <;> cases hs
      · exact h.moveOpen hrun hopen (fun _ => rfl) (fun _ hid => absurd hid not_mem_nil) rfl
      · refine h.moveOpen hrun hopen (fun _ => rfl) (fun _ hid => absurd hid not_mem_nil) ?_
        cases messages <;> rfl
    · cases hs
  | write faults =>
    dsimp only at hs
    split at hs
    · rename_i hposition
      exact ⟨last, h.write hposition hs, fun _ _ => .inl⟩
    · cases hs
  | delete failure =>
    dsimp only at hs
    split at hs
    · rename_i ids moreMessages hposition
      refine ⟨last, ?_, fun _ _ => .inl⟩
      have hdelete := fun (p : Position) =>
        h.delete (p := p) (hflushed failure rfl) hposition failure
      split at hs
      · rename_i herr
        cases hs
        rw [herr] at hdelete
        exact hdelete _ (fun _ => rfl) rfl rfl
      · rename_i hok
        cases hs
        rw [hok] at hdelete
        cases moreMessages <;> exact hdelete _ (fun _ => rfl) rfl rfl
    · cases hs
  | close fails =>
    dsimp only at hs
    split at hs
    · rename_i hposition
      exact ⟨last, h.close hposition hs, fun _ _ => .inl⟩
    · cases hs
  | rotateClose archive fails =>
    dsimp only at hs
    split at hs
    · rename_i m hget
      rw [Option.ite_none_right_eq_some] at hs
      obtain ⟨⟨hrotations, hlock⟩, hs⟩ := hs
      refine ⟨last, ?_, fun _ _ => .inl⟩
      split at hs <;> cases hs
      · rename_i hm
        exact h.rotateClose hrun hget hrotations hlock hm
      · exact h.stop hrun
    · cases hs
  | rotateCopy archive unix fails =>
    dsimp only at hs
    split at hs
    · rename_i m hget
      rw [Option.ite_none_right_eq_some] at hs
      obtain ⟨⟨hrotating, hclock⟩, hs⟩ := hs
      cases hs
      refine ⟨_, h.rotateCopy hrun hget hrotating hclock fun hclosed =>
        hcopies archive unix fails ⟨rfl, m, hget, hclosed⟩, fun b l hl => ?_⟩
      rcases eq_or_ne b archive with rfl | hne
      · rw [update_self] at hl
        split at hl
        · rename_i hclosed
          cases hl
          exact .inr ⟨fails, rfl, m, hget, hclosed⟩
        · exact .inl hl
      · rw [update_of_ne hne] at hl
        exact .inl hl
    · cases hs
  | stop =>
    cases hs
    exact ⟨last, h.stop hrun, fun _ _ => .inl⟩

theorem isInitial.inv (h : s.isInitial) : s.Inv jsonStr s.db.message fun _ => none where
  managers a m hm _ := by
    obtain ⟨-, -, hrotating, haccepted⟩ := h.2 a m hm
    refine ⟨?_, nofun, ?_⟩
    · rw [haccepted]
      exact fun _ hline => absurd hline not_mem_nil
    · rw [hrotating]
      exact nofun
  closed _ a _ _ hclosed := by
    rw [h.1] at hclosed
    cases hclosed
  clock := nofun
  accepted id hid := by
    rw [h.1] at hid
    cases hid
  half id hid := by
    rw [h.1] at hid
    cases hid
  deleted row hrow hgone := absurd hrow hgone

end

end DirectorSys

section
variable {jsonStr : Xid → Option String}

/-- At every delete no line is only with an open writer, and a rotation that closes a writer also
copies, at a second that no other such rotation of the archive reads. -/
structure DirectorRun.Careful (r : DirectorRun jsonStr) : Prop where
  flushed : ∀ i < r.len, ∀ failure, r.act i = .delete failure → (r.state i).Flushed
  copies : ∀ i < r.len, ∀ archive unix fails,
    (r.state i).Rotates (r.act i) archive unix fails → fails = false
  distinct : ∀ i < r.len, ∀ j < r.len, ∀ archive unix fails fails',
    (r.state i).Rotates (r.act i) archive unix fails →
    (r.state j).Rotates (r.act j) archive unix fails' → i = j

theorem DirectorRun.inv (r : DirectorRun jsonStr) (hr : r.Careful) : ∀ n ≤ r.len,
    ∃ last, (r.state n).Inv jsonStr (r.state 0).db.message last ∧ ∀ archive l,
      last archive = some l → ∃ i < n, ∃ fails, (r.state i).Rotates (r.act i) archive l fails := by
  intro n
  induction n with
  | zero => exact fun _ => ⟨fun _ => none, r.start.inv, nofun⟩
  | succ n ih =>
    intro hn
    obtain ⟨last, hinv, hlast⟩ := ih (Nat.le_of_lt hn)
    obtain ⟨last', hinv', hlast'⟩ := DirectorSys.step_inv hinv (r.next n hn) (hr.flushed n hn)
      fun archive unix fails hrotates => by
        refine ⟨hr.copies n hn archive unix fails hrotates, fun heq => ?_⟩
        obtain ⟨i, hi, fails', hrotates'⟩ := hlast archive unix heq
        have hsame := hr.distinct i (by omega) n hn archive unix fails' fails hrotates' hrotates
        omega
    refine ⟨last', hinv', fun archive l hl => ?_⟩
    rcases hlast' archive l hl with hl | ⟨fails, hrotates⟩
    · obtain ⟨i, hi, hrotates⟩ := hlast archive l hl
      exact ⟨i, Nat.lt_succ_of_lt hi, hrotates⟩
    · exact ⟨n, Nat.lt_succ_self n, fails, hrotates⟩

/-- At every moment, a message that is no longer in the database has its line in an object of the
bucket of every archive. -/
theorem deleted_messages_are_archived (r : DirectorRun jsonStr) (hr : r.Careful) {n : Nat}
    (hn : n ≤ r.len) {row : MessageRow} (hrow : row ∈ (r.state 0).db.message)
    (hgone : row ∉ (r.state n).db.message) :
    ∃ line, jsonStr row.id = some line ∧ ∀ archive m,
      (r.state n).director.get archive = some m → m.Committed line := by
  obtain ⟨last, hinv, -⟩ := r.inv hr n hn
  obtain ⟨line, hline, hkept⟩ := hinv.deleted row hrow hgone
  exact ⟨line, hline, fun archive m hm => (hkept archive m hm).committed⟩

end

/-! ## A delete before the close -/

open WebhookBroker.Sample Prune.Sample

/-- A director with a local archive only, that rotates at the given size, and one message. -/
def Sample.director (maxSize : Int) : DirectorSys where
  director := ⟨{ archive with maxSize }, none⟩
  db := { message := [message.toRow] }
  clock := 0
  position := .loading

def Sample.jsonStr (_ : Xid) : Option String := some "x"

theorem Sample.director_isInitial (maxSize : Int) : (director maxSize).isInitial := by
  refine ⟨rfl, fun a m hm => ?_⟩
  cases a with
  | localArchive =>
    cases hm
    exact ⟨rfl, rfl, rfl, rfl⟩
  | remoteArchive => cases hm

theorem Sample.deleteBatch_message :
    deleteBatch none [message.id] { message := [message.toRow] } = (.ok (), {}) := by
  decide +kernel

/-- The message is written and deleted, and the process stops. -/
def Sample.deleteAndStop : List DirectorAction :=
  [.load [message.id] false, .write {}, .write {}, .delete none, .stop]

theorem Sample.exec_deleteAndStop :
    exec (DirectorSys.step jsonStr) (director 10) deleteAndStop =
      some ⟨⟨{ archive with
        maxSize := 10, currentSize := 1, writer := some (.open ["x"]), accepted := ["x"] }, none⟩,
        {}, 0, .stopped⟩ := by
  have hx : "x".utf8ByteSize = 1 := by decide
  simp [deleteAndStop, exec, director, DirectorSys.step, DirectorSys.write, jsonStr,
    ArchiveDirector.get, ArchiveDirector.set, archive, Manager.write, Manager.writeTo,
    Position.afterWrite, Position.next, Position.afterLoop, deleteBatch_message, hx]

/-- Nothing fails, and the message is in no object when the process stops. -/
theorem deleted_message_is_in_no_object :
    ∃ r : DirectorRun jsonStr, ∃ n ≤ r.len, ∃ row ∈ (r.state 0).db.message,
      row ∉ (r.state n).db.message ∧ ∃ m,
        (r.state n).director.get .localArchive = some m ∧ ∀ line, ¬ m.Committed line := by
  have hexec := exec_deleteAndStop
  refine ⟨Run.ofActs (director 10) deleteAndStop (director_isInitial 10)
    (by rw [hexec]; rfl), 5, Nat.le_refl 5, message.toRow, mem_cons_self, ?_⟩
  rw [Run.state_ofActs hexec]
  refine ⟨not_mem_nil, _, rfl, ?_⟩
  rintro line ⟨key, lines, hbucket, -⟩
  cases hbucket

def Sample.rotateAndDelete : List DirectorAction :=
  [.load [message.id] false, .write {}, .write {}, .rotateClose .localArchive false,
    .rotateCopy .localArchive 5 false, .delete none, .load [] false, .close false, .close false]

def Sample.rotated : Manager :=
  { archive with
    currentSize := 1
    bucket := Function.update (Function.update (fun _ => none) "a.jsonl" (some ["x"]))
      (rotatedName "a.jsonl" 5) (some ["x"])
    accepted := ["x"] }

theorem Sample.exec_rotateAndDelete_take :
    exec (DirectorSys.step jsonStr) (director 1) (rotateAndDelete.take 5) =
      some ⟨⟨rotated, none⟩, { message := [message.toRow] }, 5,
        .deleting [message.id] true⟩ := by
  have hx : "x".utf8ByteSize = 1 := by decide
  simp [rotateAndDelete, exec, director, DirectorSys.step, DirectorSys.write, jsonStr,
    ArchiveDirector.get, ArchiveDirector.set, archive, rotated, Manager.write, Manager.writeTo,
    Manager.rotateClose, Manager.rotateCopy, Position.afterWrite, Position.next,
    Position.afterLoop, hx]

theorem Sample.exec_rotateAndDelete :
    exec (DirectorSys.step jsonStr) (director 1) rotateAndDelete =
      some ⟨⟨rotated, none⟩, {}, 5, .returned⟩ := by
  rw [← take_append_drop 5 rotateAndDelete, exec_append, exec_rotateAndDelete_take]
  simp [rotateAndDelete, exec, DirectorSys.step, DirectorSys.close, ArchiveDirector.get,
    ArchiveDirector.set, archive, rotated, Manager.close, Position.afterClose, deleteBatch_message]

def Sample.rotateAndDeleteRun : DirectorRun jsonStr :=
  Run.ofActs (director 1) rotateAndDelete (director_isInitial 1)
    (by rw [exec_rotateAndDelete]; rfl)

theorem Sample.rotateAndDeleteRun_careful : rotateAndDeleteRun.Careful := by
  have hdelete : ∀ k < 9, ∀ failure, rotateAndDeleteRun.act k = .delete failure → k = 5 := by
    intro k hk failure hact
    interval_cases k <;> cases hact
    rfl
  have hcopy : ∀ k < 9, ∀ archive unix fails,
      rotateAndDeleteRun.act k = .rotateCopy archive unix fails → k = 4 ∧ fails = false := by
    intro k hk archive unix fails hact
    interval_cases k <;> cases hact
    exact ⟨rfl, rfl⟩
  have hstate : rotateAndDeleteRun.state 5 = ⟨⟨rotated, none⟩,
      { message := [message.toRow] }, 5, .deleting [message.id] true⟩ :=
    Run.state_ofActs exec_rotateAndDelete_take
  refine ⟨fun i hi failure hact => ?_, fun i hi archive unix fails hrotates => ?_,
    fun i hi j hj archive unix fails fails' hrotates hrotates' => ?_⟩
  · rw [hdelete i hi failure hact, hstate]
    rintro a m hm line ⟨lines, hwriter, -⟩
    cases a with
    | localArchive =>
      cases hm
      cases hwriter
    | remoteArchive => cases hm
  · exact (hcopy i hi archive unix fails hrotates.1).2
  · rw [(hcopy i hi archive unix fails hrotates.1).1,
      (hcopy j hj archive unix fails' hrotates'.1).1]

theorem deleted_messages_are_archived_one :
    ∃ line, jsonStr message.toRow.id = some line ∧ ∀ archive m,
      (rotateAndDeleteRun.state 9).director.get archive = some m → m.Committed line := by
  have hgone : message.toRow ∉ (rotateAndDeleteRun.state 9).db.message := by
    rw [rotateAndDeleteRun, Run.state_ofActs exec_rotateAndDelete]
    exact not_mem_nil
  exact deleted_messages_are_archived rotateAndDeleteRun rotateAndDeleteRun_careful
    (Nat.le_refl 9) mem_cons_self hgone

end Prune

end WebhookBroker
