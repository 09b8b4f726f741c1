import WebhookBroker.Lib.WriteThrough
import WebhookBroker.Storage.DispatchPauseRepo

/-!
# The pause registry (`dispatcher/pause.go`, `controllers/dispatchpause.go`)

A node keeps a snapshot of the pauses. A pause request stores the pause and then applies it to the
snapshot, a resume request deletes it and then removes it, and a refresh reads all pauses and then
publishes them. If a resume request is served between the two steps of a pause request, the snapshot
keeps a pause that is not stored any more, until the next refresh.

`PauseSys` has every step of every thread, and the snapshot is a view (`PauseSys.pauseView`) that is
kept by write-through: once nothing is in progress, what matters is whether the last registry step
for a scope published what was stored then.
-/

namespace WebhookBroker

open Lib List Function

/-- `pauseSnapshot`. The map of the consumers is the list of its values. -/
structure PauseSnapshot where
  global : Option DispatchPause
  consumers : List DispatchPause
  global_isGlobal : ∀ p ∈ global, p.isGlobal = true
  consumers_not_isGlobal : ∀ p ∈ consumers, p.isGlobal = false

namespace PauseSnapshot

def empty : PauseSnapshot where
  global := none
  consumers := []
  global_isGlobal := nofun
  consumers_not_isGlobal := nofun

def add (snapshot : PauseSnapshot) (pause : DispatchPause) : PauseSnapshot :=
  if h : pause.isGlobal = true then
    { snapshot with
      global := some pause
      global_isGlobal := fun _ hp => Option.some.inj hp ▸ h }
  else
    { snapshot with
      consumers := snapshot.consumers.filter (·.scope != pause.scope) ++ [pause]
      consumers_not_isGlobal := fun p hp => by
        rcases mem_append.1 hp with hp | hp
        · exact snapshot.consumers_not_isGlobal p (mem_filter.1 hp).1
        · rw [mem_singleton.1 hp, Bool.eq_false_iff]
          exact h }

/-- `all`. The order of the pauses of a map does not matter to the callers. -/
def all (snapshot : PauseSnapshot) : List DispatchPause :=
  snapshot.global.toList ++ snapshot.consumers

def scopes (snapshot : PauseSnapshot) : List String := snapshot.all.map (·.scope)

end PauseSnapshot

def newPauseSnapshot (pauses : List DispatchPause) : PauseSnapshot :=
  pauses.foldl PauseSnapshot.add .empty

namespace PauseSnapshot
variable (snapshot : PauseSnapshot)

def apply (pause : DispatchPause) : PauseSnapshot :=
  let pauses := snapshot.all.map fun existing =>
    if existing.scope == pause.scope then pause else existing
  let replaced := snapshot.all.any (·.scope == pause.scope)
  newPauseSnapshot (if replaced then pauses else pauses ++ [pause])

def remove (scope : String) : PauseSnapshot :=
  newPauseSnapshot (snapshot.all.filter (·.scope != scope))

def isEffectivelyPaused (consumerInternalID : String) : Bool :=
  snapshot.global.isSome || snapshot.consumers.any (·.scope == consumerInternalID)

variable {snapshot}

theorem mem_scopes {scope : String} :
    scope ∈ snapshot.scopes ↔
      ∃ p, (p ∈ snapshot.global ∨ p ∈ snapshot.consumers) ∧ p.scope = scope := by
  simp only [scopes, all, mem_map, mem_append, Option.mem_toList, Option.mem_def]

theorem mem_scopes_add {pause : DispatchPause} {scope : String} :
    scope ∈ (snapshot.add pause).scopes ↔ scope = pause.scope ∨ scope ∈ snapshot.scopes := by
  by_cases hglobal : pause.isGlobal = true
  · have hsame : ∀ p ∈ snapshot.global, p.scope = pause.scope := by
      intro p hp
      have hp := snapshot.global_isGlobal p hp
      rw [DispatchPause.isGlobal, beq_iff_eq] at hp hglobal
      rw [hp, hglobal]
    simp only [add, hglobal, dite_true, mem_scopes, Option.mem_some_iff]
    constructor
    · rintro ⟨p, rfl | hp, rfl⟩
      · exact .inl rfl
      · exact .inr ⟨p, .inr hp, rfl⟩
    · rintro (rfl | ⟨p, hp | hp, rfl⟩)
      · exact ⟨pause, .inl rfl, rfl⟩
      · exact ⟨pause, .inl rfl, (hsame p hp).symm⟩
      · exact ⟨p, .inr hp, rfl⟩
  · simp only [add, hglobal, dite_false, mem_scopes, mem_append, mem_filter,
      mem_singleton, bne_iff_ne, Bool.false_eq_true]
    constructor
    · rintro ⟨p, hp | ⟨hp, -⟩ | rfl, rfl⟩
      · exact .inr ⟨p, .inl hp, rfl⟩
      · exact .inr ⟨p, .inr hp, rfl⟩
      · exact .inl rfl
    · rintro (rfl | ⟨p, hp | hp, rfl⟩)
      · exact ⟨pause, .inr (.inr rfl), rfl⟩
      · exact ⟨p, .inl hp, rfl⟩
      · by_cases hscope : p.scope = pause.scope
        · exact ⟨pause, .inr (.inr rfl), hscope.symm⟩
        · exact ⟨p, .inr (.inl ⟨hp, hscope⟩), rfl⟩

end PauseSnapshot

variable {scope : String}

@[simp] theorem mem_scopes_newPauseSnapshot {pauses : List DispatchPause} :
    scope ∈ (newPauseSnapshot pauses).scopes ↔ scope ∈ pauses.map (·.scope) := by
  have hfold : ∀ snapshot : PauseSnapshot,
      scope ∈ (pauses.foldl PauseSnapshot.add snapshot).scopes ↔
        scope ∈ pauses.map (·.scope) ∨ scope ∈ snapshot.scopes := by
    induction pauses with
    | nil => simp
    | cons pause pauses ih =>
      intro snapshot
      rw [foldl_cons, ih, PauseSnapshot.mem_scopes_add, map_cons, mem_cons]
      tauto
  rw [newPauseSnapshot, hfold]
  simp [PauseSnapshot.scopes, PauseSnapshot.all, PauseSnapshot.empty]

namespace PauseSnapshot
variable {snapshot : PauseSnapshot} {scope : String}

@[simp] theorem mem_scopes_apply {pause : DispatchPause} :
    scope ∈ (snapshot.apply pause).scopes ↔ scope = pause.scope ∨ scope ∈ snapshot.scopes := by
  have hmap : (snapshot.all.map fun existing =>
      if existing.scope == pause.scope then pause else existing).map (·.scope) =
      snapshot.scopes := by
    rw [scopes, map_map]
    refine map_congr_left fun p _ => ?_
    dsimp only [Function.comp]
    split
    · rename_i hscope
      exact (beq_iff_eq.1 hscope).symm
    · rfl
  rw [apply, mem_scopes_newPauseSnapshot]
  split
  · rename_i hreplaced
    obtain ⟨p, hp, hscope⟩ := any_eq_true.1 hreplaced
    rw [hmap]
    constructor
    · exact .inr
    · rintro (rfl | h)
      · rw [← beq_iff_eq.1 hscope]
        exact mem_map_of_mem hp
      · exact h
  · rw [map_append, hmap, mem_append, map_singleton, mem_singleton]
    exact or_comm

@[simp] theorem mem_scopes_remove {removed : String} :
    scope ∈ (snapshot.remove removed).scopes ↔ scope ≠ removed ∧ scope ∈ snapshot.scopes := by
  rw [remove, mem_scopes_newPauseSnapshot, scopes, mem_map, mem_map]
  simp only [mem_filter, bne_iff_ne]
  constructor
  · rintro ⟨p, ⟨hp, hne⟩, rfl⟩
    exact ⟨hne, p, hp, rfl⟩
  · rintro ⟨hne, p, hp, rfl⟩
    exact ⟨p, ⟨hp, hne⟩, rfl⟩

theorem isEffectivelyPaused_eq {db : Db}
    (h : ∀ scope, scope ∈ snapshot.scopes ↔ scope ∈ db.dispatchPause.map (·.scope))
    (consumerInternalID : String) :
    snapshot.isEffectivelyPaused consumerInternalID = db.effectivelyPaused consumerInternalID := by
  have hdb : db.effectivelyPaused consumerInternalID = true ↔
      consumerInternalID ∈ snapshot.scopes ∨ globalDispatchPauseScope ∈ snapshot.scopes := by
    rw [h, h, Db.effectivelyPaused, any_eq_true]
    simp only [Bool.or_eq_true, beq_iff_eq, mem_map]
    constructor
    · rintro ⟨d, hd, hscope | hscope⟩
      · exact .inl ⟨d, hd, hscope⟩
      · exact .inr ⟨d, hd, hscope⟩
    · rintro (⟨d, hd, hscope⟩ | ⟨d, hd, hscope⟩)
      · exact ⟨d, hd, .inl hscope⟩
      · exact ⟨d, hd, .inr hscope⟩
  rw [Bool.eq_iff_iff, hdb, isEffectivelyPaused, Bool.or_eq_true, any_eq_true, mem_scopes,
    mem_scopes]
  constructor
  · rintro (hglobal | ⟨p, hp, hscope⟩)
    · obtain ⟨p, hp⟩ := Option.isSome_iff_exists.1 hglobal
      exact .inr ⟨p, .inl hp, beq_iff_eq.1 (snapshot.global_isGlobal p hp)⟩
    · exact .inl ⟨p, .inr hp, beq_iff_eq.1 hscope⟩
  · rintro (⟨p, hp | hp, hscope⟩ | ⟨p, hp | hp, hscope⟩)
    · exact .inl (Option.isSome_iff_exists.2 ⟨p, hp⟩)
    · exact .inr ⟨p, hp, beq_iff_eq.2 hscope⟩
    · exact .inl (Option.isSome_iff_exists.2 ⟨p, hp⟩)
    · have hnot := snapshot.consumers_not_isGlobal p hp
      rw [DispatchPause.isGlobal, hscope, beq_self_eq_true] at hnot
      cases hnot

end PauseSnapshot

inductive PauseThread where
  | idle
  /-- the insert met another row of the scope, which is read next -/
  | duplicate (pause : DispatchPause)
  | applying (pause : DispatchPause)
  | removing (scope : String)
  | publishing (pauses : List DispatchPause)
deriving DecidableEq

structure PauseSys where
  db : Db
  registry : PauseSnapshot
  threads : Nat → PauseThread

inductive PauseAction where
  /-- a pause request inserts its row -/
  | pause (t : Nat) (now : Time) (pause : DispatchPause)
  | get (t : Nat)
  | resume (t : Nat) (scope : String)
  | refresh (t : Nat)
  /-- the request or the refresh publishes a snapshot -/
  | publish (t : Nat)
deriving DecidableEq

instance : Inhabited PauseAction := ⟨.publish 0⟩

/-- `GetAll` of the pause repository. -/
def getAllDispatchPauses (db : Db) : List DispatchPause :=
  (db.dispatchPause.insertionSort fun a b => a.pausedAt ≤ b.pausedAt).map (·.toDispatchPause)

/-- The first statement of `Pause`, and what the request does next. -/
def insertPause (now : Time) (pause : DispatchPause) (db : Db) : PauseThread × Db :=
  let pause := pause.quickFix now
  if !pause.isInValidState then
    (.idle, db)
  else
    match transactionalSingleRowWriteExec (insertDispatchPause pause.row) db with
    | (.ok (), db') => (.applying pause, db')
    | (.error e, db') => (if e = .duplicateKey then .duplicate pause else .idle, db')

namespace PauseSys

def setThread (s : PauseSys) (t : Nat) (thread : PauseThread) : PauseSys :=
  { s with threads := update s.threads t thread }

/-- The steps. A request that fails, and a resume of a scope that is not paused, do not reach the
registry. -/
def step (s : PauseSys) : PauseAction → Option PauseSys
  | .pause t now pause =>
    match s.threads t with
    | .idle =>
      let (thread, db) := insertPause now pause s.db
      some ({ s with db := db }.setThread t thread)
    | _ => none
  | .get t =>
    match s.threads t with
    | .duplicate pause =>
      match getDispatchPause pause.scope s.db with
      | .ok existing => some (s.setThread t (.applying existing))
      | .error _ => some (s.setThread t .idle)
    | _ => none
  | .resume t scope =>
    match s.threads t with
    | .idle =>
      match WebhookBroker.resume scope s.db with
      | (.ok true, db) => some ({ s with db := db }.setThread t (.removing scope))
      | (_, db) => some ({ s with db := db }.setThread t .idle)
    | _ => none
  | .refresh t =>
    match s.threads t with
    | .idle => some (s.setThread t (.publishing (getAllDispatchPauses s.db)))
    | _ => none
  | .publish t =>
    match s.threads t with
    | .applying pause => some ({ s with registry := s.registry.apply pause }.setThread t .idle)
    | .removing scope => some ({ s with registry := s.registry.remove scope }.setThread t .idle)
    | .publishing pauses => some ({ s with registry := newPauseSnapshot pauses }.setThread t .idle)
    | _ => none

/-- The registry is loaded, and no request is in progress. -/
def init (s : PauseSys) : Prop :=
  s.registry = newPauseSnapshot (getAllDispatchPauses s.db) ∧ ∀ t, s.threads t = .idle

end PauseSys

abbrev PauseRun := Run PauseSys.init PauseSys.step

/-- What a thread has to publish for a scope: is it paused? -/
def PauseThread.value (scope : String) : PauseThread → Option Bool
  | .applying pause => if pause.scope = scope then some true else none
  | .removing removed => if removed = scope then some false else none
  | .publishing pauses => some (decide (scope ∈ pauses.map (·.scope)))
  | .idle | .duplicate _ => none

def PauseAction.thread : PauseAction → Nat
  | .pause t _ _ | .get t | .resume t _ | .refresh t | .publish t => t

def PauseSys.publishes (s : PauseSys) : PauseAction → String → Option Bool
  | .publish t, scope => (s.threads t).value scope
  | _, _ => none

def PauseSys.stores (s : PauseSys) (scope : String) : Prop :=
  scope ∈ s.db.dispatchPause.map (·.scope)

instance (s : PauseSys) (scope : String) : Decidable (s.stores scope) :=
  inferInstanceAs (Decidable (_ ∈ _))

/-- An insert stores the pause, or it changes nothing and the registry is not reached. -/
theorem insertPause_cases (now : Time) (p : DispatchPause) (db : Db) :
    (∃ thread, insertPause now p db = (thread, db) ∧ ∀ scope, thread.value scope = none) ∨
    ∃ pause, insertPause now p db =
      (.applying pause, { db with dispatchPause := db.dispatchPause ++ [pause.row] }) := by
  unfold insertPause
  dsimp only
  split
  · exact .inl ⟨.idle, rfl, fun _ => rfl⟩
  · rcases transactionalSingleRowWriteExec_cases (insertDispatchPause (p.quickFix now).row) db with
      ⟨db', hq, hr⟩ | ⟨e, hr⟩
    · rw [hr]
      unfold insertDispatchPause at hq
      split at hq
      · cases hq
      · split at hq
        · cases hq
        · cases hq
          exact .inr ⟨p.quickFix now, rfl⟩
    · rw [hr]
      refine .inl ⟨_, rfl, fun scope => ?_⟩
      split <;> rfl

theorem resume_eq (scope : String) (db : Db) :
    WebhookBroker.resume scope db =
      (.ok (decide (db.dispatchPause.countP (·.scope == scope) > 0)),
        { db with dispatchPause := deleteWhere (·.scope == scope) db.dispatchPause }) := rfl

theorem mem_scopes_getAllDispatchPauses {db : Db} :
    scope ∈ (getAllDispatchPauses db).map (·.scope) ↔ scope ∈ db.dispatchPause.map (·.scope) := by
  rw [getAllDispatchPauses, map_map]
  exact ((perm_insertionSort _ _).map _).mem_iff

namespace PauseSys
variable {s s' : PauseSys} {a : PauseAction}

theorem setThread_self (s : PauseSys) (t : Nat) (thread : PauseThread) :
    (s.setThread t thread).threads t = thread := update_self ..

theorem setThread_of_ne (s : PauseSys) {t u : Nat} (h : u ≠ t) (thread : PauseThread) :
    (s.setThread t thread).threads u = s.threads u := update_of_ne h ..

/-- A step is a database step, after which its thread has nothing to publish or what is stored, and
which changes no scope that its thread does not publish; or it publishes. -/
inductive StepCase (s : PauseSys) (a : PauseAction) (s' : PauseSys) : Prop
  | database (hquiet : ∀ scope, (s.threads a.thread).value scope = none)
      (hother : ∀ u, u ≠ a.thread → s'.threads u = s.threads u)
      (hregistry : s'.registry = s.registry) (hpublishes : ∀ scope, s.publishes a scope = none)
      (hvalue : ∀ scope paused, (s'.threads a.thread).value scope = some paused →
        (paused = true ↔ s'.stores scope))
      (hstores : ∀ scope, (s'.threads a.thread).value scope = none →
        (s'.stores scope ↔ s.stores scope))
  | publish {t : Nat} (hact : a = .publish t) (hdb : s'.db = s.db)
      (hthread : s'.threads = update s.threads t .idle)
      (hregistry : ∀ scope, scope ∈ s'.registry.scopes ↔
        ((s.threads t).value scope).getD (decide (scope ∈ s.registry.scopes)) = true)

theorem StepCase.ofThread {t : Nat} {db : Db} {thread : PauseThread} (ht : a.thread = t)
    (hpublishes : ∀ scope, s.publishes a scope = none)
    (hquiet : ∀ scope, (s.threads t).value scope = none)
    (hvalue : ∀ scope paused, thread.value scope = some paused →
      (paused = true ↔ scope ∈ db.dispatchPause.map (·.scope)))
    (hstores : ∀ scope, thread.value scope = none →
      (scope ∈ db.dispatchPause.map (·.scope) ↔ s.stores scope)) :
    StepCase s a ({ s with db := db }.setThread t thread) := by
  subst ht
  refine .database hquiet (fun u hu => setThread_of_ne _ hu _) rfl hpublishes ?_ ?_
  · intro scope paused h
    rw [setThread_self] at h
    exact hvalue scope paused h
  · intro scope h
    rw [setThread_self] at h
    exact hstores scope h

theorem step_case (h : step s a = some s') : StepCase s a s' := by
  cases a with
  | pause t now pause =>
    simp only [step] at h
    split at h
    · rename_i hidle
      cases h
      have hquiet : ∀ scope, (s.threads t).value scope = none := fun scope => by rw [hidle]; rfl
      rcases insertPause_cases now pause s.db with ⟨thread, hr, hnone⟩ | ⟨stored, hr⟩ <;> rw [hr]
      · refine .ofThread rfl (fun _ => rfl) hquiet (fun scope paused hvalue => ?_)
          fun _ _ => Iff.rfl
        rw [hnone] at hvalue
        cases hvalue
      · have hmem : ∀ scope, scope ∈ (s.db.dispatchPause ++ [stored.row]).map (·.scope) ↔
            s.stores scope ∨ stored.scope = scope := by
          intro scope
          rw [map_append, mem_append, map_singleton, mem_singleton,
            eq_comm (a := scope)]
          rfl
        refine .ofThread rfl (fun _ => rfl) hquiet (fun scope paused hvalue => ?_)
          fun scope hvalue => ?_
        · rw [PauseThread.value] at hvalue
          split at hvalue
          · rename_i hscope
            cases hvalue
            exact ⟨fun _ => (hmem scope).2 (.inr hscope), fun _ => rfl⟩
          · cases hvalue
        · rw [PauseThread.value] at hvalue
          split at hvalue
          · cases hvalue
          · rename_i hscope
            rw [hmem]
            exact or_iff_left hscope
    · cases h
  | get t =>
    simp only [step] at h
    split at h
    · rename_i pause hthread
      have hquiet : ∀ scope, (s.threads t).value scope = none := fun scope => by rw [hthread]; rfl
      split at h
      · rename_i existing hget
        cases h
        have hstored : s.stores existing.scope := by
          unfold getDispatchPause at hget
          split at hget
          · rename_i row hrow
            cases hget
            exact mem_map_of_mem (mem_of_rowAt hrow).1
          · cases hget
        refine .ofThread rfl (fun _ => rfl) hquiet (fun scope paused hvalue => ?_)
          fun _ _ => Iff.rfl
        rw [PauseThread.value] at hvalue
        split at hvalue
        · rename_i hscope
          cases hvalue
          exact ⟨fun _ => hscope ▸ hstored, fun _ => rfl⟩
        · cases hvalue
      · cases h
        exact .ofThread rfl (fun _ => rfl) hquiet nofun fun _ _ => Iff.rfl
    · cases h
  | resume t removed =>
    simp only [step, resume_eq] at h
    split at h
    · rename_i hidle
      have hquiet : ∀ scope, (s.threads t).value scope = none := fun scope => by rw [hidle]; rfl
      have hmem : ∀ scope, scope ∈ (deleteWhere (·.scope == removed) s.db.dispatchPause).map
          (·.scope) ↔ s.stores scope ∧ scope ≠ removed := by
        intro scope
        simp only [mem_map, mem_deleteWhere, beq_eq_false_iff_ne, stores]
        constructor
        · rintro ⟨row, ⟨hrow, hne⟩, rfl⟩
          exact ⟨⟨row, hrow, rfl⟩, hne⟩
        · rintro ⟨⟨row, hrow, rfl⟩, hne⟩
          exact ⟨row, ⟨hrow, hne⟩, rfl⟩
      split at h
      · rename_i db hresume
        cases h
        obtain ⟨-, rfl⟩ := Prod.mk.inj hresume
        refine .ofThread rfl (fun _ => rfl) hquiet (fun scope paused hvalue => ?_)
          fun scope hvalue => ?_
        · rw [PauseThread.value] at hvalue
          split at hvalue
          · rename_i hscope
            cases hvalue
            simp [hscope]
          · cases hvalue
        · rw [PauseThread.value] at hvalue
          split at hvalue
          · cases hvalue
          · rename_i hscope
            rw [hmem]
            exact and_iff_left (Ne.symm hscope)
      · rename_i result db hnot hresume
        cases h
        obtain ⟨hresult, rfl⟩ := Prod.mk.inj hresume
        refine .ofThread rfl (fun _ => rfl) hquiet nofun fun scope _ => ?_
        have hzero : s.db.dispatchPause.countP (·.scope == removed) = 0 := by
          by_contra hpos
          refine hnot ?_
          rw [← hresult, decide_eq_true (Nat.pos_of_ne_zero hpos)]
        rw [hmem, and_iff_left_iff_imp]
        rintro hstores rfl
        obtain ⟨row, hrow, hscope⟩ := mem_map.1 hstores
        exact countP_eq_zero.1 hzero row hrow (beq_iff_eq.2 hscope)
    · cases h
  | refresh t =>
    simp only [step] at h
    split at h
    · rename_i hidle
      cases h
      refine .ofThread rfl (fun _ => rfl) (fun scope => by rw [hidle]; rfl)
        (fun scope paused hvalue => ?_) fun _ _ => Iff.rfl
      cases hvalue
      rw [decide_eq_true_iff, mem_scopes_getAllDispatchPauses]
    · cases h
  | publish t =>
    simp only [step] at h
    split at h
    · rename_i pause hthread
      cases h
      refine .publish rfl rfl rfl fun scope => ?_
      rw [hthread, PauseThread.value]
      split
      · rename_i hscope
        simp [setThread, hscope]
      · rename_i hscope
        simp [setThread, Ne.symm hscope]
    · rename_i removed hthread
      cases h
      refine .publish rfl rfl rfl fun scope => ?_
      rw [hthread, PauseThread.value]
      split
      · rename_i hscope
        simp [setThread, hscope]
      · rename_i hscope
        simp [setThread, Ne.symm hscope]
    · rename_i pauses hthread
      cases h
      refine .publish rfl rfl rfl fun scope => ?_
      rw [hthread, PauseThread.value]
      simp [setThread]
    · cases h

/-- The snapshot as a view of the stored scopes. -/
def pauseView : View step String Bool where
  view s scope := decide (scope ∈ s.registry.scopes)
  Right s scope paused := paused = true ↔ s.stores scope
  publishes := publishes
  Pending s scope := ∃ t, (s.threads t).value scope ≠ none
  view_step := by
    intro s a s' h scope
    cases step_case h with
    | database _ _ hregistry hpublishes => rw [hpublishes, hregistry]; rfl
    | publish hact _ _ hregistry =>
      subst hact
      rw [Bool.eq_iff_iff, decide_eq_true_iff, hregistry]
      rfl
  pending_step := by
    rintro s a s' h scope ⟨u, hu⟩ hnone
    cases step_case h with
    | database hquiet hother =>
      have hne : u ≠ a.thread := fun heq => hu (heq ▸ hquiet scope)
      exact ⟨u, by rwa [hother u hne]⟩
    | publish hact _ hthread =>
      subst hact
      have hne : u ≠ _ := fun heq => hu (heq ▸ hnone)
      exact ⟨u, by rwa [hthread, update_of_ne hne]⟩

theorem stores_of_step (h : step s a = some s') (hidle : ¬ ∃ t, (s'.threads t).value scope ≠ none) :
    s'.stores scope ↔ s.stores scope := by
  cases step_case h with
  | database _ _ _ _ _ hstores =>
    exact hstores scope (not_not.1 fun hne => hidle ⟨_, hne⟩)
  | publish _ hdb => rw [stores, stores, hdb]

theorem stores_of_publishes (h : step s a = some s') {paused : Bool}
    (hpublishes : s.publishes a scope = some paused) : s'.stores scope ↔ s.stores scope := by
  cases step_case h with
  | database _ _ _ hnone =>
    rw [hnone] at hpublishes
    cases hpublishes
  | publish _ hdb => rw [stores, stores, hdb]

end PauseSys

/-! ## The snapshot and the database -/

section
variable (r : PauseRun) {n : Nat}

theorem PauseRun.covered (hn : n ≤ r.len) (scope : String) :
    PauseSys.pauseView.Covered r scope n := by
  intro i hi _ hidle paused
  exact iff_congr Iff.rfl (PauseSys.stores_of_step (r.next i (by omega)) hidle).symm

theorem PauseRun.value_stored (hn : n ≤ r.len)
    (hquiet : ∀ i < n, (∃ t, ((r.state i).threads t).value scope ≠ none) → ((r.state (i +
      1)).stores scope ↔ (r.state i).stores scope)) {t : Nat} {paused : Bool}
    (hvalue : ((r.state n).threads t).value scope = some paused) :
    paused = true ↔ (r.state n).stores scope := by
  induction n with
  | zero =>
    rw [r.start.2 t] at hvalue
    cases hvalue
  | succ n ih =>
    cases PauseSys.step_case (r.next n hn) with
    | database _ hother _ _ hnew =>
      by_cases ht : t = (r.act n).thread
      · subst ht
        exact hnew scope paused hvalue
      · rw [hother t ht] at hvalue
        rw [hquiet n (Nat.lt_succ_self n) ⟨t, by rw [hvalue]; exact Option.some_ne_none _⟩]
        exact ih (Nat.le_of_succ_le hn) (fun i hi => hquiet i (Nat.lt_succ_of_lt hi)) hvalue
    | @publish u _ hdb hthread =>
      rw [hthread] at hvalue
      by_cases ht : t = u
      · rw [ht, update_self] at hvalue
        cases hvalue
      · rw [update_of_ne ht] at hvalue
        rw [PauseSys.stores, hdb]
        exact ih (Nat.le_of_succ_le hn) (fun i hi => hquiet i (Nat.lt_succ_of_lt hi)) hvalue

/-- Once nothing is in progress, the snapshot and the database agree on a scope if and only if the
last registry step for it published what was stored then; they agree if no request changes the scope
while another one has still to publish it. -/
theorem snapshot_right_iff (hn : n ≤ r.len) (hidle : ∀ t, (r.state n).threads t = .idle)
    (scope : String) :
    ((scope ∈ (r.state n).registry.scopes ↔ (r.state n).stores scope) ↔
      ∀ p paused, p < n → (r.state p).publishes (r.act p) scope = some paused →
        (∀ i, p < i → i < n → (r.state i).publishes (r.act i) scope = none) →
        (paused = true ↔ (r.state p).stores scope)) ∧
    ((∀ i < n, (∃ t, ((r.state i).threads t).value scope ≠ none) →
        ((r.state (i + 1)).stores scope ↔ (r.state i).stores scope)) →
      (scope ∈ (r.state n).registry.scopes ↔ (r.state n).stores scope)) := by
  have hloaded : PauseSys.pauseView.Right (r.state 0) scope
      (PauseSys.pauseView.view (r.state 0) scope) := by
    change decide (scope ∈ (r.state 0).registry.scopes) = true ↔ _
    rw [decide_eq_true_iff, r.start.1, mem_scopes_newPauseSnapshot, mem_scopes_getAllDispatchPauses]
    rfl
  have hnothing : ¬ PauseSys.pauseView.Pending (r.state n) scope := by
    rintro ⟨t, ht⟩
    rw [hidle t] at ht
    exact ht rfl
  have hright := View.right_iff hn hloaded (r.covered hn scope) hnothing
  have hview : PauseSys.pauseView.Right (r.state n) scope
      (PauseSys.pauseView.view (r.state n) scope) ↔
      (scope ∈ (r.state n).registry.scopes ↔ (r.state n).stores scope) :=
    iff_congr decide_eq_true_iff Iff.rfl
  rw [hview] at hright
  have hiff : (scope ∈ (r.state n).registry.scopes ↔ (r.state n).stores scope) ↔
      ∀ p paused, p < n → (r.state p).publishes (r.act p) scope = some paused →
        (∀ i, p < i → i < n → (r.state i).publishes (r.act i) scope = none) →
        (paused = true ↔ (r.state p).stores scope) := by
    rw [hright]
    refine forall_congr' fun p => forall_congr' fun paused => ?_
    refine imp_congr_right fun hp => imp_congr_right fun hpub => imp_congr_right fun _ => ?_
    exact iff_congr Iff.rfl (PauseSys.stores_of_publishes (r.next p (by omega)) hpub)
  refine ⟨hiff, fun hquiet => hiff.2 fun p paused hp hpub _ => ?_⟩
  cases hact : r.act p with
  | publish t =>
    rw [hact] at hpub
    exact r.value_stored (by omega) (fun i hi => hquiet i (by omega)) hpub
  | pause | get | resume | refresh =>
    rw [hact] at hpub
    cases hpub

end

/-! ## A pause and a resume -/

namespace Sample

def pauseSys : PauseSys where
  db := {}
  registry := newPauseSnapshot (getAllDispatchPauses {})
  threads _ := .idle

def globalPause : DispatchPause := ⟨globalDispatchPauseScope, "", "", 0⟩

def pauseOnce : List PauseAction := [.pause 0 1 globalPause, .publish 0]

/-- The broker is paused and resumed, and the resume request is served between the two steps of the
pause request. -/
def pauseAndResume : List PauseAction :=
  [.pause 0 1 globalPause, .resume 1 globalDispatchPauseScope, .publish 1, .publish 0]

def pauseOnceRun : PauseRun := Run.ofActs pauseSys pauseOnce ⟨rfl, fun _ => rfl⟩ (by decide)

def pauseAndResumeRun : PauseRun :=
  Run.ofActs pauseSys pauseAndResume ⟨rfl, fun _ => rfl⟩ (by decide)

end Sample

open Sample

theorem snapshot_right_iff_paused :
    let s := pauseOnceRun.state 2
    s.stores globalDispatchPauseScope ∧ globalDispatchPauseScope ∈ s.registry.scopes := by
  have hidle : ∀ t, (pauseOnceRun.state 2).threads t = .idle := by
    rintro (_ | t) <;> rfl
  have hstores : (pauseOnceRun.state 2).stores globalDispatchPauseScope := by decide
  refine ⟨hstores, ((snapshot_right_iff pauseOnceRun (by decide) hidle
    globalDispatchPauseScope).1.2 fun p paused hp hpub _ => ?_).2 hstores⟩
  obtain rfl | rfl : p = 0 ∨ p = 1 := by omega
  · cases hpub
  · obtain rfl := Option.some.inj (show some true = some paused from hpub)
    decide

/-- Nothing is in progress, and the snapshot has a pause that is not stored. -/
theorem snapshot_keeps_resumed_pause :
    let s := pauseAndResumeRun.state 4
    (∀ t, s.threads t = .idle) ∧ globalDispatchPauseScope ∈ s.registry.scopes ∧
      ¬ s.stores globalDispatchPauseScope := by
  refine ⟨?_, by decide, by decide⟩
  rintro (_ | _ | t) <;> rfl

end WebhookBroker
