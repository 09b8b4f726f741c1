import WebhookBroker.Storage.CacheRace

/-!
# The cache of a node (`storage/memcache.go`)

A `MemoryCache` is a map whose entries have an expiration time. `Get` compares it with the clock,
and a goroutine removes the expired entries at its own pace. It removes only what `Get` does not
return any more, so a cached repository does with this cache what `CacheSys` does, where an entry
expires at any time.
-/

namespace WebhookBroker

open Lib List

structure CacheItem (V : Type) where
  value : V
  expiration : Time

structure MemoryCache (K V : Type) where
  cache : AList fun _ : K => CacheItem V
  ttl : Duration

namespace MemoryCache
variable {K V : Type} [DecidableEq K]

def newMemoryCache (ttl : Duration) : MemoryCache K V := ⟨∅, ttl⟩

def get (c : MemoryCache K V) (now : Time) (key : K) : Option V :=
  (c.cache.lookup key).bind fun item =>
    if c.ttl = 0 ∨ now < item.expiration then some item.value else none

def newItem (c : MemoryCache K V) (now : Time) (value : V) : CacheItem V :=
  ⟨value, if c.ttl = 0 then 0 else now + c.ttl⟩

def set (c : MemoryCache K V) (now : Time) (key : K) (value : V) : MemoryCache K V :=
  { c with cache := c.cache.insert key (c.newItem now value) }

def delete (c : MemoryCache K V) (key : K) : MemoryCache K V :=
  { c with cache := c.cache.erase key }

def cleanup (c : MemoryCache K V) (now : Time) : MemoryCache K V :=
  { c with cache := ⟨c.cache.entries.filter fun entry => !decide (entry.2.expiration < now),
      c.cache.nodupKeys.sublist filter_sublist⟩ }

variable {c : MemoryCache K V} {now later : Time} {key : K} {value : V}

theorem get_eq_some : c.get now key = some value ↔
    ∃ item, c.cache.lookup key = some item ∧ (c.ttl = 0 ∨ now < item.expiration) ∧
      item.value = value := by
  simp [get, Option.bind_eq_some_iff]

/-- A new entry is returned, unless it has expired already because the TTL is negative. -/
theorem get_set (c : MemoryCache K V) (now : Time) (key : K) (value : V) :
    (c.set now key value).get now = fun k =>
      if k ∈ (if c.ttl < 0 then [key] else []) then none
      else Function.update (c.get now) key (some value) k := by
  funext k
  rcases eq_or_ne k key with rfl | hne
  · have hlive : c.ttl = 0 ∨ now < (c.newItem now value).expiration ↔ ¬ c.ttl < 0 := by
      by_cases h : c.ttl = 0
      · simp [h]
      · simp [newItem, h, (Ne.symm h).le_iff_lt]
    simp only [get, set, AList.lookup_insert, Option.bind_some, hlive]
    split <;> simp_all [newItem]
  · have hnot : k ∉ (if c.ttl < 0 then [key] else []) := by
      split <;> simp [hne]
    rw [if_neg hnot, Function.update_of_ne hne, get, set, AList.lookup_insert_ne hne]
    rfl

theorem get_delete (c : MemoryCache K V) (now : Time) (key : K) :
    (c.delete key).get now = Function.update (c.get now) key none := by
  funext k
  rcases eq_or_ne k key with rfl | hne
  · simp [get, delete]
  · rw [Function.update_of_ne hne, get, delete, AList.lookup_erase_ne hne]
    rfl

/-- As time passes, entries expire. -/
theorem get_later (hle : now ≤ later) : c.get later = fun k =>
    if k ∈ c.cache.keys.filter (fun key => (c.get later key).isNone) then none
    else c.get now k := by
  funext k
  cases hget : c.get later k with
  | some value =>
    obtain ⟨item, hitem, hlive, hvalue⟩ := get_eq_some.1 hget
    simp [hget, get_eq_some.2 ⟨item, hitem, hlive.imp_right hle.trans_lt, hvalue⟩]
  | none =>
    by_cases hk : k ∈ c.cache
    · simp [hget, AList.mem_keys.1 hk]
    · simp [get, AList.lookup_eq_none.2 hk]

theorem lookup_cleanup {item : CacheItem V} : (c.cleanup now).cache.lookup key = some item ↔
    c.cache.lookup key = some item ∧ now ≤ item.expiration := by
  rw [← Option.mem_def, ← Option.mem_def, AList.mem_lookup_iff, AList.mem_lookup_iff]
  simp [cleanup, mem_filter]

/-- A clean-up removes only what is not returned any more. -/
theorem get_cleanup (httl : c.ttl ≠ 0) : (c.cleanup now).get now = c.get now := by
  funext k
  refine Option.ext fun value => ?_
  rw [get_eq_some, get_eq_some]
  refine exists_congr fun item => ?_
  rw [lookup_cleanup, show (c.cleanup now).ttl = c.ttl from rfl]
  refine ⟨fun h => ⟨h.1.1, h.2⟩, fun h => ⟨⟨h.1, ?_⟩, h.2⟩⟩
  exact (h.2.1.resolve_left httl).le

end MemoryCache

/-! ## A cached repository with the map -/

/-- A cached repository with a clock and the calls in progress. -/
structure MemSys (Q α : Type) where
  db : Db
  cache : MemoryCache String α
  now : Time
  threads : Nat → CacheThread Q α

/-- A step of a call, the clock, or a tick of `cleanup`. -/
inductive MemAction (Q ω : Type) where
  | call (a : CacheAction Q ω)
  | tick (now : Time)
  | cleanup

instance {Q ω : Type} : Inhabited (MemAction Q ω) := ⟨.cleanup⟩

/-- The step of a call, if it is one. -/
def MemAction.calls {Q ω : Type} : MemAction Q ω → List (CacheAction Q ω)
  | .call a => [a]
  | .tick _ | .cleanup => []

def CacheAction.isExpire {Q ω : Type} : CacheAction Q ω → Bool
  | .expire _ => true
  | _ => false

namespace MemSys
variable {Q α ω : Type} (R : CachedRepository Q α ω)

/-- The repository as `CacheSys` has it: the cache is what `Get` returns. -/
def view (s : MemSys Q α) : CacheSys Q α := ⟨s.db, s.cache.get s.now, s.threads⟩

/-- The map after the step of a call: a fill is a `Set`, an invalidation a `Delete`. -/
def put (s : MemSys Q α) : CacheAction Q ω → MemoryCache String α
  | .fill t =>
    match s.threads t with
    | .read q answer => s.cache.set s.now (R.key q) answer
    | _ => s.cache
  | .invalidate t =>
    match s.threads t with
    | .wrote key _ => s.cache.delete key
    | _ => s.cache
  | _ => s.cache

/-- The steps. Nothing but the clock makes an entry expire, and only with a TTL the goroutine is
started. -/
def step (s : MemSys Q α) : MemAction Q ω → Option (MemSys Q α)
  | .call a =>
    if a.isExpire then none
    else (CacheSys.step R s.view a).map fun next => ⟨next.db, s.put R a, s.now, next.threads⟩
  | .tick now => if s.now ≤ now then some { s with now := now } else none
  | .cleanup => if 0 < s.cache.ttl then some { s with cache := s.cache.cleanup s.now } else none

def init (s : MemSys Q α) : Prop :=
  s.cache = .newMemoryCache s.cache.ttl ∧ (∀ t, s.threads t = .idle) ∧ s.db.ConsumerKeys

end MemSys

abbrev MemRun {Q α ω : Type} (R : CachedRepository Q α ω) :=
  Run (MemSys.init (Q := Q) (α := α)) (MemSys.step R)

/-! ## The two systems -/

namespace MemSys
variable {Q α ω : Type} {R : CachedRepository Q α ω} {s s' : MemSys Q α}

theorem exec_expire (s : CacheSys Q α) (keys : List String) :
    exec (CacheSys.step R) s (keys.map .expire) =
      some { s with cache := fun k => if k ∈ keys then none else s.cache k } := by
  induction keys generalizing s with
  | nil => simp [exec]
  | cons key keys ih =>
    simp only [map_cons, exec, CacheSys.step, Option.bind_some, ih]
    congr 2
    funext k
    by_cases hk : k = key <;> simp [CacheSys.setEntry, hk]

theorem step_call {a : CacheAction Q ω} (h : step R s (.call a) = some s') :
    a.isExpire = false ∧ ∃ next, CacheSys.step R s.view a = some next ∧
      s' = ⟨next.db, s.put R a, s.now, next.threads⟩ := by
  simp only [step] at h
  split at h
  · cases h
  · rename_i ha
    obtain ⟨next, hstep, hs'⟩ := Option.map_eq_some_iff.1 h
    exact ⟨Bool.eq_false_of_not_eq_true ha, next, hstep, hs'.symm⟩

/-- The map after the step of a call has the entries of `CacheSys`, but for those that have expired
already. -/
theorem get_put {a : CacheAction Q ω} {next : CacheSys Q α} (ha : a.isExpire = false)
    (h : CacheSys.step R s.view a = some next) :
    ∃ keys : List String, (s.put R a).get s.now =
      fun k => if k ∈ keys then none else next.cache k := by
  cases CacheSys.step_case h with
  | hit | missed | read | write => exact ⟨[], by simp [put, view]⟩
  | @fill t q answer hthread =>
    have hput : s.put R (.fill t) = s.cache.set s.now (R.key q) answer := by
      simp only [put, show s.threads t = _ from hthread]
    exact ⟨_, hput ▸ MemoryCache.get_set ..⟩
  | @invalidate t key keys hthread =>
    have hput : s.put R (.invalidate t) = s.cache.delete key := by
      simp only [put, show s.threads t = _ from hthread]
    refine ⟨[], ?_⟩
    simp only [not_mem_nil, if_false]
    exact hput ▸ MemoryCache.get_delete ..
  | expire => cases ha

/-- A step is the one of its call, after which entries may expire. -/
theorem view_step {a : MemAction Q ω} (h : step R s a = some s') :
    ∃ as, exec (CacheSys.step R) s.view as = some s'.view ∧
      as.filter (!·.isExpire) = a.calls := by
  have hexpired : ∀ keys : List String,
      (keys.map fun key => (.expire key : CacheAction Q ω)).filter (!·.isExpire) = [] :=
    fun keys => by simp [CacheAction.isExpire]
  cases a with
  | call a =>
    obtain ⟨ha, next, hstep, rfl⟩ := step_call h
    obtain ⟨keys, hkeys⟩ := get_put ha hstep
    refine ⟨a :: keys.map .expire, ?_, ?_⟩
    · rw [exec, hstep, Option.bind_some, exec_expire, ← hkeys]
      rfl
    · rw [filter_cons_of_pos (by rw [ha]; rfl), hexpired]
      rfl
  | tick now =>
    simp only [step] at h
    split at h <;> cases h
    refine ⟨_, ?_, hexpired (s.cache.cache.keys.filter fun key => (s.cache.get now key).isNone)⟩
    rw [exec_expire]
    exact congrArg (fun cache => some (CacheSys.mk s.db cache s.threads))
      (MemoryCache.get_later ‹_›).symm
  | cleanup =>
    simp only [step] at h
    split at h <;> cases h
    exact ⟨[], congrArg (fun cache => some (CacheSys.mk s.db cache s.threads))
      (MemoryCache.get_cleanup (ne_of_gt ‹_›)).symm, rfl⟩

end MemSys

/-- A cached repository with its memory cache does what `CacheSys` does: the steps of its calls, in
their order, and between them entries expire. -/
theorem memoryCache_refines {Q α ω : Type} {R : CachedRepository Q α ω} (r : MemRun R) :
    CacheSys.init (r.state 0).view ∧
    ∃ as, exec (CacheSys.step R) (r.state 0).view as = some (r.state r.len).view ∧
      as.filter (!·.isExpire) = (List.range r.len).flatMap fun i => (r.act i).calls := by
  obtain ⟨hcache, hthreads, hkeys⟩ := r.start
  refine ⟨⟨fun key => ?_, hthreads, hkeys⟩, ?_⟩
  · change (r.state 0).cache.get (r.state 0).now key = none
    rw [hcache]
    rfl
  · have hrun : ∀ n, n ≤ r.len → ∃ as,
        exec (CacheSys.step R) (r.state 0).view as = some (r.state n).view ∧
        as.filter (!·.isExpire) = (List.range n).flatMap fun i => (r.act i).calls := by
      intro n
      induction n with
      | zero => exact fun _ => ⟨[], rfl, rfl⟩
      | succ n ih =>
        intro hn
        obtain ⟨as, has, hcalls⟩ := ih (Nat.le_of_succ_le hn)
        obtain ⟨bs, hbs, hcalls'⟩ := MemSys.view_step (r.next n hn)
        refine ⟨as ++ bs, ?_, ?_⟩
        · rw [exec_append, has]
          exact hbs
        · rw [filter_append, hcalls, hcalls', range_succ, flatMap_append,
            flatMap_singleton]
    exact hrun r.len le_rfl

/-! ## The age of an answer -/

namespace MemSys
variable {Q α ω : Type} {R : CachedRepository Q α ω} {s s' : MemSys Q α} {a : MemAction Q ω}

/-- An entry after a step was there before, or the step has filled it in. -/
theorem lookup_of_step (h : step R s a = some s') : s'.cache.ttl = s.cache.ttl ∧
    ∀ key item, s'.cache.cache.lookup key = some item → s.cache.cache.lookup key = some item ∨
      ∃ t q answer, a = .call (.fill t) ∧ s.threads t = .read q answer ∧ R.key q = key ∧
        item = s.cache.newItem s.now answer := by
  cases a with
  | call a =>
    obtain ⟨-, next, -, rfl⟩ := step_call h
    dsimp only
    unfold put
    split
    · split
      · rename_i q answer hthread
        refine ⟨rfl, fun key item hitem => ?_⟩
        rcases eq_or_ne key (R.key q) with rfl | hne
        · rw [MemoryCache.set, AList.lookup_insert] at hitem
          exact .inr ⟨_, q, answer, rfl, hthread, rfl, (Option.some.inj hitem).symm⟩
        · rw [MemoryCache.set, AList.lookup_insert_ne hne] at hitem
          exact .inl hitem
      · exact ⟨rfl, fun _ _ => .inl⟩
    · split
      · rename_i key' _ _
        refine ⟨rfl, fun key item hitem => .inl ?_⟩
        rcases eq_or_ne key key' with rfl | hne
        · rw [MemoryCache.delete, AList.lookup_erase] at hitem
          cases hitem
        · rwa [MemoryCache.delete, AList.lookup_erase_ne hne] at hitem
      · exact ⟨rfl, fun _ _ => .inl⟩
    · exact ⟨rfl, fun _ _ => .inl⟩
  | tick now =>
    simp only [step] at h
    split at h <;> cases h
    exact ⟨rfl, fun _ _ => .inl⟩
  | cleanup =>
    simp only [step] at h
    split at h <;> cases h
    exact ⟨rfl, fun _ _ hitem => .inl (MemoryCache.lookup_cleanup.1 hitem).1⟩

/-- What a call has read after a step it had read before, or it is what the delegate returns. -/
theorem read_of_step (h : step R s a = some s') {t : Nat} {q : Q} {answer : α}
    (hthread : s'.threads t = .read q answer) :
    s.threads t = .read q answer ∨ R.get s'.db q = .ok answer := by
  cases a with
  | call a =>
    obtain ⟨-, next, hstep, rfl⟩ := step_call h
    exact CacheSys.read_of_step hstep hthread
  | tick | cleanup =>
    simp only [step] at h
    split at h <;> cases h
    exact .inl hthread

end MemSys

/-- What a run knows of its entries and calls: each entry was filled in, and has the expiration time
of that moment, and what a call has read the delegate had returned. -/
structure MemRun.Knows {Q α ω : Type} {R : CachedRepository Q α ω} (r : MemRun R) (n : Nat) :
    Prop where
  ttl : (r.state n).cache.ttl = (r.state 0).cache.ttl
  read : ∀ t q answer, (r.state n).threads t = .read q answer →
    ∃ m, m ≤ n ∧ R.get (r.state m).db q = .ok answer
  filled : ∀ key item, (r.state n).cache.cache.lookup key = some item →
    ∃ p t q answer, p < n ∧ r.act p = .call (.fill t) ∧ (r.state p).threads t = .read q answer ∧
      R.key q = key ∧ item = (r.state p).cache.newItem (r.state p).now answer

theorem MemRun.knows {Q α ω : Type} {R : CachedRepository Q α ω} (r : MemRun R) :
    ∀ n, n ≤ r.len → r.Knows n := by
  intro n
  induction n with
  | zero =>
    intro _
    refine ⟨rfl, fun t q answer h => ?_, fun key item h => ?_⟩
    · rw [r.start.2.1 t] at h
      cases h
    · rw [r.start.1] at h
      cases h
  | succ n ih =>
    intro hn
    have hbefore := ih (Nat.le_of_succ_le hn)
    obtain ⟨httl, hlookup⟩ := MemSys.lookup_of_step (r.next n hn)
    refine ⟨httl.trans hbefore.ttl, fun t q answer h => ?_, fun key item h => ?_⟩
    · rcases MemSys.read_of_step (r.next n hn) h with hold | hnew
      · obtain ⟨m, hm, hget⟩ := hbefore.read t q answer hold
        exact ⟨m, Nat.le_succ_of_le hm, hget⟩
      · exact ⟨n + 1, le_rfl, hnew⟩
    · rcases hlookup key item h with hold | ⟨t, q, answer, hfill⟩
      · obtain ⟨p, t, q, answer, hp, hfill⟩ := hbefore.filled key item hold
        exact ⟨p, t, q, answer, Nat.lt_succ_of_lt hp, hfill⟩
      · exact ⟨n, t, q, answer, Nat.lt_succ_self n, hfill⟩

/-- An answer from the cache was filled in less than the TTL ago, if there is one, by a call to
which the delegate had returned it. -/
theorem cached_answer_recent {Q α ω : Type} {R : CachedRepository Q α ω} (r : MemRun R) {n : Nat}
    (hn : n ≤ r.len) {key : String} {answer : α}
    (h : (r.state n).cache.get (r.state n).now key = some answer) :
    ∃ m p t q, m ≤ p ∧ p < n ∧ r.act p = .call (.fill t) ∧
      (r.state p).threads t = .read q answer ∧ R.key q = key ∧
      R.get (r.state m).db q = .ok answer ∧ ((r.state 0).cache.ttl = 0 ∨
        (r.state n).now < (r.state p).now + (r.state 0).cache.ttl) := by
  obtain ⟨item, hitem, hlive, hvalue⟩ := MemoryCache.get_eq_some.1 h
  obtain ⟨p, t, q, answer', hp, hact, hthread, hkey, rfl⟩ := (r.knows n hn).filled key item hitem
  obtain rfl : answer' = answer := hvalue
  have hbefore := r.knows p (by omega)
  obtain ⟨m, hm, hget⟩ := hbefore.read t q answer' hthread
  refine ⟨m, p, t, q, hm, hp, hact, hthread, hkey, hget, ?_⟩
  rw [(r.knows n hn).ttl, MemoryCache.newItem, hbefore.ttl] at hlive
  rcases hlive with hzero | hlt
  · exact .inl hzero
  · split at hlt
    · exact .inl ‹_›
    · exact .inr hlt

namespace Sample

/-- A channel repository with a TTL of ten seconds. -/
def memSys : MemSys String Channel :=
  ⟨cacheSys.db, .newMemoryCache (10 * second), 0, cacheSys.threads⟩

/-- The channel is looked up, and nine seconds pass. -/
def memRun : MemRun (channelRepository sqlLike) :=
  Run.ofActs memSys (lookupOnce.map .call ++ [.tick (9 * second)])
    ⟨rfl, cacheSys_init.2⟩ (by decide)

end Sample

open Sample

theorem cached_answer_recent_channel : ∃ p < 4, ∃ t q,
    memRun.act p = .call (.fill t) ∧
      (memRun.state p).threads t = .read q ⟨⟨⟨Xid.nil, 0, 0⟩, "c", "old"⟩, "c"⟩ ∧
      (memRun.state 4).now < (memRun.state p).now + 10 * second := by
  have hget : (memRun.state 4).cache.get (memRun.state 4).now "c" =
      some ⟨⟨⟨Xid.nil, 0, 0⟩, "c", "old"⟩, "c"⟩ := by decide
  obtain ⟨m, p, t, q, -, hp, hact, hread, -, -, hage⟩ :=
    cached_answer_recent memRun (by decide) hget
  exact ⟨p, hp, t, q, hact, hread, hage.resolve_left (by decide)⟩

end WebhookBroker
