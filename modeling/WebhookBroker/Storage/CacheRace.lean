import WebhookBroker.Lib.WriteThrough
import WebhookBroker.Storage.CachedRepo

/-!
# Concurrent calls of a cached repository

The calls of a cached repository take their steps one by one: a lookup asks the cache, reads from
the delegate and fills in the answer, a write goes to the delegate and deletes its keys after that.
The cache has a lock of its own, which is not held from one step to the next. If a write and its
deletions happen between the read and the fill of a lookup, the old answer is filled in after the
deletion and stays until it expires.

`CacheSys` has the steps of any number of calls, for any repository. The cache is a view of the
database (`CacheSys.cacheView`) if the keys that a write deletes cover every answer that it changes
(`CachedRepository.Covers`): once no call is in progress, what matters is whether the last fill of a
key was right when it happened.
-/

namespace WebhookBroker

open Lib List Function

inductive CacheThread (Q α : Type) where
  | idle
  /-- the key of the lookup was not in the cache -/
  | missed (q : Q)
  /-- the delegate has answered, and the answer is to be filled in -/
  | read (q : Q) (answer : α)
  /-- the delegate has written, and these keys are to be deleted -/
  | wrote (key : String) (keys : List String)

namespace CacheThread
variable {Q α : Type}

/-- The call after the answer of the delegate. An error is returned and not cached. -/
def ofAnswer (q : Q) : Except StorageErr α → CacheThread Q α
  | .ok answer => .read q answer
  | .error _ => .idle

def ofKeys : List String → CacheThread Q α
  | [] => .idle
  | key :: keys => .wrote key keys

def ofResult : Except StorageErr (List String) → CacheThread Q α
  | .ok keys => ofKeys keys
  | .error _ => .idle

def keys : CacheThread Q α → List String
  | .wrote key keys => key :: keys
  | .idle | .missed _ | .read _ _ => []

@[simp] theorem keys_ofKeys (ks : List String) : (ofKeys ks : CacheThread Q α).keys = ks := by
  cases ks <;> rfl

theorem ofAnswer_eq_read {q q' : Q} {answer : Except StorageErr α} {a : α}
    (h : ofAnswer q answer = .read q' a) : q = q' ∧ answer = .ok a := by
  cases answer with
  | ok b =>
    cases h
    exact ⟨rfl, rfl⟩
  | error e => cases h

theorem ofKeys_ne_read {ks : List String} {q : Q} {a : α} : ofKeys ks ≠ .read q a := by
  cases ks <;> exact fun h => by cases h

theorem ofResult_ne_read {result : Except StorageErr (List String)} {q : Q} {a : α} :
    ofResult result ≠ .read q a := by
  cases result with
  | ok ks => exact ofKeys_ne_read
  | error e => exact fun h => by cases h

end CacheThread

/-- A cached repository with the database and the calls in progress. -/
structure CacheSys (Q α : Type) where
  db : Db
  cache : String → Option α
  threads : Nat → CacheThread Q α

inductive CacheAction (Q ω : Type) where
  | lookup (t : Nat) (q : Q)
  | read (t : Nat)
  | fill (t : Nat)
  | write (t : Nat) (w : ω)
  /-- it deletes its next key from the cache -/
  | invalidate (t : Nat)
  | expire (key : String)

instance {Q ω : Type} : Inhabited (CacheAction Q ω) := ⟨.expire ""⟩

namespace CacheSys
variable {Q α ω : Type}

def setThread (s : CacheSys Q α) (t : Nat) (thread : CacheThread Q α) : CacheSys Q α :=
  { s with threads := update s.threads t thread }

/-- `Set` and `Delete` of the memory cache. -/
def setEntry (s : CacheSys Q α) (key : String) (entry : Option α) : CacheSys Q α :=
  { s with cache := update s.cache key entry }

variable (R : CachedRepository Q α ω)

def step (s : CacheSys Q α) : CacheAction Q ω → Option (CacheSys Q α)
  | .lookup t q =>
    match s.threads t, s.cache (R.key q) with
    | .idle, some _ => some s
    | .idle, none => some (s.setThread t (.missed q))
    | _, _ => none
  | .read t =>
    match s.threads t with
    | .missed q => some (s.setThread t (.ofAnswer q (R.get s.db q)))
    | _ => none
  | .fill t =>
    match s.threads t with
    | .read q answer => some ((s.setEntry (R.key q) (some answer)).setThread t .idle)
    | _ => none
  | .write t w =>
    match s.threads t with
    | .idle =>
      let (result, db) := R.write w s.db
      some ({ s with db := db }.setThread t (.ofResult result))
    | _ => none
  | .invalidate t =>
    match s.threads t with
    | .wrote key keys => some ((s.setEntry key none).setThread t (.ofKeys keys))
    | _ => none
  | .expire key => some (s.setEntry key none)

def init (s : CacheSys Q α) : Prop :=
  (∀ key, s.cache key = none) ∧ (∀ t, s.threads t = .idle) ∧ s.db.ConsumerKeys

def publishes (s : CacheSys Q α) (a : CacheAction Q ω) (q : Q) : Option (Option α) :=
  match a with
  | .fill t =>
    match s.threads t with
    | .read q' answer => if R.key q' = R.key q then some (some answer) else none
    | _ => none
  | .invalidate t =>
    match s.threads t with
    | .wrote key _ => if key = R.key q then some none else none
    | _ => none
  | .expire key => if key = R.key q then some none else none
  | .lookup _ _ | .read _ | .write _ _ => none

/-- The entry of a lookup, if there is one, is what the delegate would return. -/
def EntryRight (s : CacheSys Q α) (q : Q) : Prop :=
  ∀ answer, s.cache (R.key q) = some answer → R.get s.db q = .ok answer

end CacheSys

abbrev CacheRun {Q α ω : Type} (R : CachedRepository Q α ω) :=
  Run (CacheSys.init (Q := Q) (α := α)) (CacheSys.step R)

namespace CacheSys
variable {Q α ω : Type} {R : CachedRepository Q α ω} {s s' : CacheSys Q α} {a : CacheAction Q ω}

inductive StepCase (R : CachedRepository Q α ω) (s : CacheSys Q α) :
    CacheAction Q ω → CacheSys Q α → Prop
  | hit (t : Nat) (q : Q) : StepCase R s (.lookup t q) s
  | missed {t : Nat} (q : Q) (hthread : s.threads t = .idle) :
    StepCase R s (.lookup t q) (s.setThread t (.missed q))
  | read {t : Nat} {q : Q} (hthread : s.threads t = .missed q) :
    StepCase R s (.read t) (s.setThread t (.ofAnswer q (R.get s.db q)))
  | fill {t : Nat} {q : Q} {answer : α} (hthread : s.threads t = .read q answer) :
    StepCase R s (.fill t) ((s.setEntry (R.key q) (some answer)).setThread t .idle)
  | write {t : Nat} (w : ω) (hthread : s.threads t = .idle) :
    StepCase R s (.write t w)
      ({ s with db := (R.write w s.db).2 }.setThread t (.ofResult (R.write w s.db).1))
  | invalidate {t : Nat} {key : String} {keys : List String}
    (hthread : s.threads t = .wrote key keys) :
    StepCase R s (.invalidate t) ((s.setEntry key none).setThread t (.ofKeys keys))
  | expire (key : String) : StepCase R s (.expire key) (s.setEntry key none)

theorem step_case (h : step R s a = some s') : StepCase R s a s' := by
  cases a with simp only [step] at h
  | lookup t q =>
    split at h
    · cases h
      exact .hit t q
    · rename_i hthread _
      cases h
      exact .missed q hthread
    · cases h
  | read t =>
    split at h
    · rename_i hthread
      cases h
      exact .read hthread
    · cases h
  | fill t =>
    split at h
    · rename_i hthread
      cases h
      exact .fill hthread
    · cases h
  | write t w =>
    split at h
    · rename_i hthread
      cases h
      exact .write w hthread
    · cases h
  | invalidate t =>
    split at h
    · rename_i hthread
      cases h
      exact .invalidate hthread
    · cases h
  | expire key =>
    cases h
    exact .expire key

@[simp] theorem setThread_cache (s : CacheSys Q α) (t : Nat) (thread : CacheThread Q α) :
    (s.setThread t thread).cache = s.cache := rfl

theorem setThread_self (s : CacheSys Q α) (t : Nat) (thread : CacheThread Q α) :
    (s.setThread t thread).threads t = thread := update_self ..

theorem setThread_of_ne (s : CacheSys Q α) {t u : Nat} (h : u ≠ t) (thread : CacheThread Q α) :
    (s.setThread t thread).threads u = s.threads u := update_of_ne h ..

theorem setEntry_cache (s : CacheSys Q α) (key : String) (entry : Option α) (q : Q) :
    (s.setEntry key entry).cache (R.key q) =
      (if key = R.key q then some entry else none).getD (s.cache (R.key q)) := by
  by_cases h : key = R.key q
  · rw [if_pos h, Option.getD_some, setEntry, h]
    exact update_self ..
  · rw [if_neg h, Option.getD_none]
    exact update_of_ne (Ne.symm h) ..

variable {t : Nat} {answer : α}

theorem publishes_fill {q q' : Q} (h : s.threads t = .read q' answer) :
    publishes R s (.fill t) q = if R.key q' = R.key q then some (some answer) else none := by
  simp only [publishes, h]

variable {q : Q}

theorem publishes_invalidate {key : String} {keys : List String}
    (h : s.threads t = .wrote key keys) :
    publishes R s (.invalidate t) q = if key = R.key q then some none else none := by
  simp only [publishes, h]

def Deletes (R : CachedRepository Q α ω) (s : CacheSys Q α) (q : Q) : Prop :=
  ∃ t, R.key q ∈ (s.threads t).keys

theorem Deletes.setThread {thread : CacheThread Q α} (h : Deletes R s q)
    (hkeys : R.key q ∈ (s.threads t).keys → R.key q ∈ thread.keys) :
    Deletes R (s.setThread t thread) q := by
  obtain ⟨u, hu⟩ := h
  by_cases hut : u = t
  · subst hut
    exact ⟨u, by rw [setThread_self]; exact hkeys hu⟩
  · exact ⟨u, by rwa [setThread_of_ne s hut]⟩

/-- The cache as a view of what the delegate returns. -/
def cacheView (R : CachedRepository Q α ω) : View (step R) Q (Option α) where
  view s q := s.cache (R.key q)
  Right s q entry := ∀ answer, entry = some answer → R.get s.db q = .ok answer
  publishes := publishes R
  Pending := Deletes R
  view_step := by
    intro s a s' h q
    cases step_case h with
    | hit | missed | read | write => rfl
    | fill hthread => rw [publishes_fill hthread, setThread_cache, setEntry_cache]
    | invalidate hthread => rw [publishes_invalidate hthread, setThread_cache, setEntry_cache]
    | expire key => exact setEntry_cache ..
  pending_step := by
    intro s a s' h q hdeletes hnone
    cases step_case h with
    | hit => exact hdeletes
    | missed q' hthread | read hthread | fill hthread | write w hthread =>
      refine Deletes.setThread (s := _) hdeletes fun hkey => ?_
      simp only [setEntry, hthread, CacheThread.keys, not_mem_nil] at hkey
    | @invalidate t key keys hthread =>
      refine Deletes.setThread (s := s.setEntry key none) hdeletes fun hkey => ?_
      rw [publishes_invalidate hthread] at hnone
      rw [CacheThread.keys_ofKeys]
      have hkey : R.key q ∈ key :: keys := by
        simpa only [setEntry, hthread, CacheThread.keys] using hkey
      rcases mem_cons.1 hkey with hkey | hkey
      · rw [if_pos hkey.symm] at hnone
        cases hnone
      · exact hkey
    | expire key => exact hdeletes

section
variable (h : step R s a = some s')
include h

theorem db_of_step : s'.db = s.db ∨ ∃ t w, a = .write t w ∧ s'.db = (R.write w s.db).2 := by
  cases step_case h with
  | hit | missed | read | fill | invalidate | expire => exact .inl rfl
  | write w => exact .inr ⟨_, w, rfl, rfl⟩

/-- A write that changes the answer of a lookup has to delete its key, if the keys cover it. -/
theorem get_of_step (hcovers : ∀ t w, a = .write t w → R.Covers w s.db q)
    (hidle : ¬ Deletes R s' q) : R.get s'.db q = R.get s.db q := by
  cases step_case h with
  | hit | missed | read | fill | invalidate | expire => rfl
  | @write t w hthread =>
    rcases hcovers t w rfl with hget | ⟨keys, hok, hmem⟩
    · exact hget
    · refine absurd ⟨t, ?_⟩ hidle
      rw [setThread_self, hok]
      exact (CacheThread.keys_ofKeys keys).symm ▸ hmem

theorem db_of_publishes {entry : Option α} (hpub : publishes R s a q = some entry) :
    s'.db = s.db := by
  rcases db_of_step h with hdb | ⟨t, w, rfl, -⟩
  · exact hdb
  · cases hpub

/-- What a call has read after a step it had read before, or it is what the delegate returns. -/
theorem read_of_step (hthread : s'.threads t = .read q answer) :
    s.threads t = .read q answer ∨ R.get s'.db q = .ok answer := by
  have hset : ∀ {s₁ : CacheSys Q α} {u : Nat} {thread : CacheThread Q α},
      (s₁.setThread u thread).threads t = .read q answer → s₁.threads = s.threads →
      (thread = .read q answer → R.get s'.db q = .ok answer) →
      s.threads t = .read q answer ∨ R.get s'.db q = .ok answer := by
    intro s₁ u thread hread hs₁ hnew
    by_cases htu : t = u
    · rw [htu, setThread_self] at hread
      exact .inr (hnew hread)
    · rw [setThread_of_ne s₁ htu, hs₁] at hread
      exact .inl hread
  cases step_case h with
  | hit | expire => exact .inl hthread
  | missed | fill => exact hset hthread rfl fun heq => by cases heq
  | read =>
    refine hset hthread rfl fun heq => ?_
    obtain ⟨rfl, hget⟩ := CacheThread.ofAnswer_eq_read heq
    exact hget
  | write => exact hset hthread rfl fun heq => absurd heq CacheThread.ofResult_ne_read
  | invalidate => exact hset hthread rfl fun heq => absurd heq CacheThread.ofKeys_ne_read

end

theorem publishes_eq_fill (h : publishes R s a q = some (some answer)) :
    ∃ t q', a = .fill t ∧ s.threads t = .read q' answer ∧ R.key q' = R.key q := by
  unfold publishes at h
  cases a with
  | fill t =>
    dsimp only at h
    split at h
    · rename_i q' answer' hthread
      split at h
      · cases h
        exact ⟨t, q', rfl, hthread, ‹_›⟩
      · cases h
    · cases h
  | invalidate t =>
    dsimp only at h
    split at h
    · split at h <;> cases h
    · cases h
  | expire key =>
    dsimp only at h
    split at h <;> cases h
  | lookup | read | write => cases h

end CacheSys

/-! ## The cache and the delegate -/

namespace CacheRun
variable {Q α ω : Type} {R : CachedRepository Q α ω} (r : CacheRun R) {n : Nat} {q : Q}

/-- The last step before `n` that wrote the entry of the lookup deleted it, or it filled in what the
delegate would have returned at that step. -/
def LastFillRight (n : Nat) (q : Q) : Prop :=
  ∀ p answer, p < n → CacheSys.publishes R (r.state p) (r.act p) q = some (some answer) →
    (∀ i, p < i → i < n → CacheSys.publishes R (r.state i) (r.act i) q = none) →
    R.get (r.state p).db q = .ok answer

/-- Before `n`, no answer for the lookup changes while a call has still to fill in the one that it
has read, and no call fills in the answer of another lookup under the same key. -/
structure Undisturbed (n : Nat) (q : Q) : Prop where
  own : ∀ i < n, ∀ t q' answer, (r.state i).threads t = .read q' answer →
    R.key q' = R.key q → q' = q
  quiet : ∀ i < n, (∃ t answer, (r.state i).threads t = .read q answer) →
    R.get (r.state (i + 1)).db q = R.get (r.state i).db q

variable {r}

theorem Undisturbed.read_right (h : r.Undisturbed n q) (hn : n ≤ r.len) {t : Nat} {answer : α}
    (hthread : (r.state n).threads t = .read q answer) : R.get (r.state n).db q = .ok answer := by
  induction n with
  | zero =>
    rw [r.start.2.1 t] at hthread
    cases hthread
  | succ n ih =>
    have hbefore : r.Undisturbed n q :=
      ⟨fun i hi => h.own i (Nat.lt_succ_of_lt hi), fun i hi => h.quiet i (Nat.lt_succ_of_lt hi)⟩
    rcases CacheSys.read_of_step (r.next n hn) hthread with hold | hnew
    · rw [h.quiet n (Nat.lt_succ_self n) ⟨t, answer, hold⟩]
      exact ih hbefore (Nat.le_of_succ_le hn) hold
    · exact hnew

/-- Once no call is in progress, the entry of a lookup is right if and only if the last fill was. -/
theorem entryRight_iff (hn : n ≤ r.len) (hidle : ∀ t, (r.state n).threads t = .idle)
    (hcovers : ∀ i < n, ∀ t w, r.act i = .write t w → R.Covers w (r.state i).db q) :
    (r.state n).EntryRight R q ↔ r.LastFillRight n q := by
  have hempty : (CacheSys.cacheView R).Right (r.state 0) q
      ((CacheSys.cacheView R).view (r.state 0) q) := by
    intro answer hanswer
    rw [show (CacheSys.cacheView R).view (r.state 0) q = none from r.start.1 _] at hanswer
    cases hanswer
  have hcovered : (CacheSys.cacheView R).Covered r q n := by
    intro i hi _ hnot entry
    have hget := CacheSys.get_of_step (r.next i (by omega)) (hcovers i hi) hnot
    exact forall₂_congr fun answer _ => by rw [hget]
  have hnothing : ¬ (CacheSys.cacheView R).Pending (r.state n) q := by
    rintro ⟨t, ht⟩
    rw [hidle t] at ht
    cases ht
  refine (View.right_iff hn hempty hcovered hnothing).trans ⟨fun h p answer hp hpub hlast => ?_,
    fun h p entry hp hpub hsilent answer hentry => ?_⟩
  · rw [← CacheSys.db_of_publishes (r.next p (by omega)) hpub]
    exact h p _ hp hpub (fun i hi hi' => hlast i hi hi') answer rfl
  · subst hentry
    rw [CacheSys.db_of_publishes (r.next p (by omega)) hpub]
    exact h p answer hp hpub fun i hi hi' => hsilent i hi hi'

theorem Undisturbed.lastFillRight (h : r.Undisturbed n q) (hn : n ≤ r.len) :
    r.LastFillRight n q := by
  intro p answer hp hpub _
  obtain ⟨t, q', -, hthread, hkey⟩ := CacheSys.publishes_eq_fill hpub
  obtain rfl := h.own p hp t q' answer hthread hkey
  have hbefore : r.Undisturbed p q' :=
    ⟨fun i hi => h.own i (by omega), fun i hi => h.quiet i (by omega)⟩
  exact hbefore.read_right (by omega) hthread

end CacheRun

theorem CacheRun.consumerKeys [NetUrl] {like : String → String → Bool}
    (r : CacheRun (consumerRepository like)) :
    ∀ i, i ≤ r.len → (r.state i).db.ConsumerKeys := by
  refine r.invariant (P := fun s => s.db.ConsumerKeys) (fun s hs => hs.2.2) fun s a s' hkeys h => ?_
  rcases CacheSys.db_of_step h with hdb | ⟨t, w, -, hdb⟩
  · exact hdb ▸ hkeys
  · exact hdb ▸ consumerRepository_keys hkeys w

/-- Once no call is in progress, the entry of a lookup is right if and only if the last fill of its
key was right when it happened; it is so if no write changes the answer while a call has still to
fill in the one that it has read. The ids of lookups, and of the writes of consumers, are matched
exactly, and a consumer is deleted with the id of its row. -/
theorem cached_entries_right_iff [NetUrl] (like : String → String → Bool) :
    (∀ (r : CacheRun (producerRepository like)) (n : Nat), n ≤ r.len →
      (∀ t, (r.state n).threads t = .idle) → ∀ producerID, IsExact like producerID →
      ((r.state n).EntryRight (producerRepository like) producerID ↔ r.LastFillRight n producerID) ∧
      (r.Undisturbed n producerID →
        (r.state n).EntryRight (producerRepository like) producerID)) ∧
    (∀ (r : CacheRun (channelRepository like)) (n : Nat), n ≤ r.len →
      (∀ t, (r.state n).threads t = .idle) → ∀ channelID, IsExact like channelID →
      ((r.state n).EntryRight (channelRepository like) channelID ↔ r.LastFillRight n channelID) ∧
      (r.Undisturbed n channelID → (r.state n).EntryRight (channelRepository like) channelID)) ∧
    (∀ (r : CacheRun (consumerRepository like)) (n : Nat), n ≤ r.len →
      (∀ t, (r.state n).threads t = .idle) →
      (∀ i < n, ∀ t w, r.act i = .write t w → w.IsProper like (r.state i).db) →
      ∀ q : ConsumerLookup, q.IsExact like →
      ((r.state n).EntryRight (consumerRepository like) q ↔ r.LastFillRight n q) ∧
      (r.Undisturbed n q → (r.state n).EntryRight (consumerRepository like) q)) := by
  refine ⟨fun r n hn hidle producerID hexact => ?_, fun r n hn hidle channelID hexact => ?_,
    fun r n hn hidle hproper q hexact => ?_⟩
  · have hiff := CacheRun.entryRight_iff hn hidle (r := r) (q := producerID)
      fun i _ t w _ => producerRepository_covers hexact w _
    exact ⟨hiff, fun h => hiff.2 (h.lastFillRight hn)⟩
  · have hiff := CacheRun.entryRight_iff hn hidle (r := r) (q := channelID)
      fun i _ t w _ => channelRepository_covers hexact w _
    exact ⟨hiff, fun h => hiff.2 (h.lastFillRight hn)⟩
  · have hiff := CacheRun.entryRight_iff hn hidle (r := r) (q := q) fun i hi t w hact =>
      consumerRepository_covers hexact (r.consumerKeys i (by omega)) (hproper i hi t w hact)
    exact ⟨hiff, fun h => hiff.2 (h.lastFillRight hn)⟩

/-! ## A reader and a writer -/

namespace Sample

def cacheSys : CacheSys String Channel where
  db := { channel := [⟨Xid.nil, "c", "c", "old", 0, 0⟩] }
  cache _ := none
  threads _ := .idle

theorem cacheSys_init : CacheSys.init cacheSys :=
  ⟨fun _ => rfl, fun _ => rfl, ⟨nodup_nil, nodup_nil⟩⟩

def newToken : Channel := ⟨⟨⟨Xid.nil, 0, 0⟩, "c", "new"⟩, "c"⟩

def lookupOnce : List (CacheAction String (Time × Xid × Channel)) :=
  [.lookup 0 "c", .read 0, .fill 0]

/-- The token is changed between the read and the fill of a lookup. -/
def lookupAndStore : List (CacheAction String (Time × Xid × Channel)) :=
  [.lookup 0 "c", .read 0, .write 1 (1, Xid.nil, newToken), .invalidate 1, .fill 0]

def lookupOnceRun : CacheRun (channelRepository sqlLike) :=
  Run.ofActs cacheSys lookupOnce cacheSys_init (by decide)

def lookupAndStoreRun : CacheRun (channelRepository sqlLike) :=
  Run.ofActs cacheSys lookupAndStore cacheSys_init (by decide)

end Sample

open Sample

theorem cached_entries_right_iff_lookup :
    let s := lookupOnceRun.state 3
    ((s.cache "c").map (·.token) = some "old") ∧ s.EntryRight (channelRepository sqlLike) "c" := by
  have hidle : ∀ t, (lookupOnceRun.state 3).threads t = .idle := by
    rintro (_ | t) <;> rfl
  have hexact : IsExact sqlLike "c" := isExact_sqlLike (by simp [isWildcard])
  refine ⟨by decide, ((@cached_entries_right_iff netUrl sqlLike).2.1 lookupOnceRun 3
    (by decide) hidle "c" hexact).1.2 fun p answer hp hpub _ => ?_⟩
  obtain rfl | rfl | rfl : p = 0 ∨ p = 1 ∨ p = 2 := by omega
  · cases hpub
  · cases hpub
  · have hanswer := Option.some.inj (Option.some.inj hpub)
    rw [← hanswer]
    rfl

/-- No call is in progress, and the entry of the channel has the old token. -/
theorem cached_entry_keeps_old_token :
    let s := lookupAndStoreRun.state 5
    (∀ t, s.threads t = .idle) ∧ (s.cache "c").map (·.token) = some "old" ∧
      ((channelRepository sqlLike).get s.db "c").toOption.map (·.token) = some "new" ∧
      ¬ s.EntryRight (channelRepository sqlLike) "c" := by
  have hidle : ∀ t, (lookupAndStoreRun.state 5).threads t = .idle := by
    rintro (_ | _ | t) <;> rfl
  refine ⟨hidle, by decide, by decide, fun hright => ?_⟩
  have hget := hright ⟨⟨⟨Xid.nil, 0, 0⟩, "c", "old"⟩, "c"⟩ rfl
  exact absurd (congrArg (fun answer => answer.toOption.map (·.token)) hget) (by decide)

end WebhookBroker
