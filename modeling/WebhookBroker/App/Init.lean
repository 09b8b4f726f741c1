import WebhookBroker.Data.Base64
import WebhookBroker.Lib.Run
import WebhookBroker.Storage.Stakeholders

/-!
# Initialization of the app (`initApp` in `main.go`)

Every node that starts runs `initApp`: it reads the app row, and unless the row is initialized with
the seed data of the node, or another node is at it, it claims the row with `StartAppInit`, stores
the seed data and releases the row with `CompleteAppInit` (`storage/rdbms.go`). Both operations read
the row and then update it in a statement of its own, so the nodes interleave between any two
statements. A statement can fail, it can fail after it was committed, and a node can stop anywhere.
-/

namespace WebhookBroker

open Lib

structure SeedProducer where
  id : String
  name : String
  token : String
deriving DecidableEq

abbrev SeedChannel := SeedProducer

/-- `SeedConsumer`, with the text of its callback URL. -/
structure SeedConsumer extends SeedProducer where
  callbackURL : String
  channel : String
  type : String
deriving DecidableEq

/-- `SeedData`. Its `DataHash` is computed from the rest, see `SeedData.dataHash`. -/
structure SeedData where
  producers : List SeedProducer
  channels : List SeedChannel
  consumers : List SeedConsumer
deriving DecidableEq

/-- The JSON text of seed data, and the SHA-256 digest of nothing. The text of a callback URL leaves
out its user and password, so two seed data may have one text. -/
class SeedEncoding where
  json : SeedData → List UInt8
  emptySum : List UInt8

/-- The `DataHash` that `setupSeedDataConfiguration` sets: `Sum` appends the digest of nothing to
the JSON text. -/
def SeedData.dataHash [SeedEncoding] (seed : SeedData) : List Char :=
  encodeBase64 (SeedEncoding.json seed ++ SeedEncoding.emptySum)

theorem SeedData.dataHash_eq_iff [SeedEncoding] {a b : SeedData} :
    a.dataHash = b.dataHash ↔ SeedEncoding.json a = SeedEncoding.json b :=
  encodeBase64_injective.eq_iff.trans (List.append_left_inj _)

/-- An entry of the seed data. -/
inductive SeedItem where
  | producer (seed : SeedProducer)
  | channel (seed : SeedChannel)
  | consumer (seed : SeedConsumer)
deriving DecidableEq

/-- The entries in the order of the loops of `createSeedData`. -/
def SeedData.items (seed : SeedData) : List SeedItem :=
  seed.producers.map .producer ++ seed.channels.map .channel ++ seed.consumers.map .consumer

/-- One round of a loop of `createSeedData`: the constructor of the entity, its name, and `Store`.
An error is only logged. -/
def storeSeedItem [NetUrl] (now : Time) (newID : Xid) (db : Db) : SeedItem → Db
  | .producer seed =>
    if seed.id.isEmpty || seed.token.isEmpty then db
    else (storeProducer now newID
      { id := newID, createdAt := 0, updatedAt := 0, name := seed.name, token := seed.token,
        producerID := seed.id } db).2
  | .channel seed =>
    if seed.id.isEmpty || seed.token.isEmpty then db
    else (storeChannel now newID
      { id := newID, createdAt := 0, updatedAt := 0, name := seed.name, token := seed.token,
        channelID := seed.id } db).2
  | .consumer seed =>
    match getChannel db seed.channel, getConsumerTypeFromString seed.type with
    | .ok channel, some type =>
      if seed.id.isEmpty || seed.token.isEmpty || !NetUrl.isAbs seed.callbackURL then db
      else (storeConsumer now newID
        { id := newID, createdAt := 0, updatedAt := 0, name := seed.name, token := seed.token,
          consumerID := seed.id, callbackURL := seed.callbackURL, consumingFrom := some channel,
          type := type } db).2
    | _, _ => db

/-! ## The app row and the nodes -/

inductive AppStatus where
  | notInitialized
  | initializing
  | initialized
deriving DecidableEq

/-- The row of the table `app`. The seed data stand for the JSON text that is stored, which is taken
to be read back as they were. -/
structure AppRow where
  seedData : SeedData
  status : AppStatus
deriving DecidableEq

/-- Where a node is in `initApp`, with the seed data of its configuration. -/
inductive InitPos where
  /-- not in `initApp` -/
  | idle
  /-- before `getApp` -/
  | getApp (seed : SeedData)
  /-- at the head of the loop, before the read of `StartAppInit` -/
  | loop (seed : SeedData)
  /-- in `StartAppInit`, before its update -/
  | startUpdate (seed : SeedData)
  /-- in `createSeedData`, with the entries that are left -/
  | seeding (seed : SeedData) (todo : List SeedItem)
  /-- before the read of `CompleteAppInit` -/
  | complete (seed : SeedData)
  /-- in `CompleteAppInit`, before its update -/
  | completeUpdate (seed : SeedData)
deriving DecidableEq

namespace InitPos

def seed : InitPos → Option SeedData
  | idle => none
  | getApp seed | loop seed | startUpdate seed | seeding seed _ | complete seed
  | completeUpdate seed => some seed

/-- Between a successful `StartAppInit` and the end of `CompleteAppInit`. -/
def inside : InitPos → Bool
  | idle | getApp _ | loop _ | startUpdate _ => false
  | seeding _ _ | complete _ | completeUpdate _ => true

def seeded : InitPos → Bool
  | complete _ | completeUpdate _ => true
  | _ => false

end InitPos

/-- What happens to a statement: an error before it took effect, or one after the commit. -/
inductive AppFault where
  | none
  | failed
  | lost
deriving DecidableEq

/-- The app row, the tables that the seed data goes to, the nodes, and what they did, the latest
first. -/
structure AppSys where
  app : AppRow
  db : Db
  pos : Nat → InitPos
  seedRuns : List (Nat × SeedData) := []
  seeded : List SeedData := []
  completed : List (Nat × SeedData) := []

inductive AppAct where
  /-- the node calls `initApp` with the seed data of its configuration -/
  | start (n : Nat) (seed : SeedData)
  /-- the node goes on by one statement, with the clock reading and the id it would use -/
  | run (n : Nat) (fault : AppFault) (now : Time) (newID : Xid)
  /-- the ten seconds of the loop are over -/
  | timeout (n : Nat)
  | crash (n : Nat)

instance : Inhabited AppAct := ⟨.crash 0⟩

def AppSys.goto (s : AppSys) (n : Nat) (p : InitPos) : AppSys :=
  { s with pos := Function.update s.pos n p }

section
variable [SeedEncoding]

/-- The condition under which `initApp` starts its loop. -/
def AppRow.needsInit (app : AppRow) (seed : SeedData) : Bool :=
  app.status == .notInitialized ||
    (app.status == .initialized && app.seedData.dataHash != seed.dataHash)

/-- Where the read of `StartAppInit` leads: `ErrAppInitializing` ends the loop, and
`ErrNoDataChangeFromInitialized` is one of the errors after which it goes round again. -/
def AppRow.startRead (app : AppRow) (seed : SeedData) : InitPos :=
  if app.seedData.dataHash = seed.dataHash ∧ app.status = .initialized then .loop seed
  else if app.status = .initializing then .idle
  else .startUpdate seed

def AppSys.run [NetUrl] (s : AppSys) (n : Nat) (fault : AppFault) (now : Time) (newID : Xid) :
    InitPos → Option AppSys
  | .idle => none
  | .getApp seed =>
    if fault = .none ∧ s.app.needsInit seed = true then some (s.goto n (.loop seed))
    else some (s.goto n .idle)
  | .loop seed =>
    if fault = .none then some (s.goto n (s.app.startRead seed))
    else some (s.goto n (.loop seed))
  | .startUpdate seed =>
    match fault with
    | .failed => some (s.goto n (.loop seed))
    | _ =>
      -- `WHERE id = 1 AND appStatus != ?`; no row is `ErrOptimisticAppInit`
      if s.app.status = .initializing then some (s.goto n .idle)
      else if fault = .none then
        some { s.goto n (.seeding seed seed.items) with
          app := ⟨seed, .initializing⟩, seedRuns := (n, seed) :: s.seedRuns }
      else some { s.goto n (.loop seed) with app := ⟨seed, .initializing⟩ }
  | .seeding seed (item :: todo) =>
    some { s.goto n (.seeding seed todo) with
      db := if fault = .failed then s.db else storeSeedItem now newID s.db item }
  | .seeding seed [] =>
    some { s.goto n (.complete seed) with seeded := seed :: s.seeded }
  | .complete seed =>
    if fault = .none ∧ s.app.status = .initializing then some (s.goto n (.completeUpdate seed))
    else some (s.goto n .idle)
  | .completeUpdate seed =>
    -- `WHERE id = 1 AND appStatus = ?`
    if fault ≠ .failed ∧ s.app.status = .initializing then
      some { s.goto n .idle with
        app := { s.app with status := .initialized }, completed := (n, seed) :: s.completed }
    else some (s.goto n .idle)

def appStep [NetUrl] (s : AppSys) : AppAct → Option AppSys
  | .start n seed => if s.pos n = .idle then some (s.goto n (.getApp seed)) else none
  | .run n fault now newID => s.run n fault now newID (s.pos n)
  | .timeout n =>
    match s.pos n with
    | .loop _ => some (s.goto n .idle)
    | _ => none
  | .crash n => some (s.goto n .idle)

/-- A node at `p` after it was at `q` has its seed data from there and is no further. -/
structure InitPos.Within (p q : InitPos) : Prop where
  seed : ∀ d, p.seed = some d → q.seed = some d
  inside : p.inside = true → q.inside = true
  seeded : p.seeded = true → q.seeded = true

omit [SeedEncoding] in
theorem InitPos.idle_within (q : InitPos) : InitPos.idle.Within q where
  seed _ h := by cases h
  inside h := by cases h
  seeded h := by cases h

omit [SeedEncoding] in
theorem InitPos.Within.of_eq {p q : InitPos} (hseed : p.seed = q.seed)
    (hinside : p.inside = q.inside) (hseeded : p.seeded = q.seeded) : p.Within q where
  seed _ h := hseed ▸ h
  inside h := hinside ▸ h
  seeded h := hseeded ▸ h

/-- What a step does: only four kinds of it touch the row or the records. -/
inductive AppEffect (s : AppSys) : AppAct → AppSys → Prop where
  | start (n : Nat) (seed : SeedData) (h : s.pos n = .idle) :
    AppEffect s (.start n seed) (s.goto n (.getApp seed))
  | quiet {a : AppAct} (n : Nat) (p : InitPos) (db : Db) (h : p.Within (s.pos n)) :
    AppEffect s a { s.goto n p with db := db }
  | started (n : Nat) (seed : SeedData) (now : Time) (newID : Xid)
    (hpos : s.pos n = .startUpdate seed) (happ : s.app.status ≠ .initializing) :
    AppEffect s (.run n .none now newID) { s.goto n (.seeding seed seed.items) with
      app := ⟨seed, .initializing⟩, seedRuns := (n, seed) :: s.seedRuns }
  | startLost {a : AppAct} (n : Nat) (seed : SeedData) (hpos : s.pos n = .startUpdate seed)
    (happ : s.app.status ≠ .initializing) :
    AppEffect s a { s.goto n (.loop seed) with app := ⟨seed, .initializing⟩ }
  | seedingDone {a : AppAct} (n : Nat) (seed : SeedData) (hpos : s.pos n = .seeding seed []) :
    AppEffect s a { s.goto n (.complete seed) with seeded := seed :: s.seeded }
  | completed {a : AppAct} (n : Nat) (seed : SeedData) (hpos : s.pos n = .completeUpdate seed)
    (happ : s.app.status = .initializing) :
    AppEffect s a { s.goto n .idle with
      app := { s.app with status := .initialized }, completed := (n, seed) :: s.completed }

theorem AppRow.startRead_within (app : AppRow) (seed : SeedData) :
    (app.startRead seed).Within (.loop seed) := by
  unfold AppRow.startRead
  split
  · exact .of_eq rfl rfl rfl
  · split
    · exact InitPos.idle_within _
    · exact .of_eq rfl rfl rfl

theorem AppSys.run_effect [NetUrl] {s s' : AppSys} {n : Nat} {fault : AppFault} {now : Time}
    {newID : Xid} (h : s.run n fault now newID (s.pos n) = some s') :
    AppEffect s (.run n fault now newID) s' := by
  have hquiet : ∀ p : InitPos, p.Within (s.pos n) →
      AppEffect s (.run n fault now newID) (s.goto n p) := fun p hp => .quiet n p s.db hp
  have hidle := hquiet .idle (InitPos.idle_within _)
  cases hpos : s.pos n with
  | idle => simp [hpos, AppSys.run] at h
  | getApp seed =>
    rw [hpos] at h hquiet
    simp only [AppSys.run] at h
    split at h <;> cases h
    · exact hquiet _ (.of_eq rfl rfl rfl)
    · exact hidle
  | loop seed =>
    rw [hpos] at h hquiet
    simp only [AppSys.run] at h
    split at h <;> cases h
    · exact hquiet _ (s.app.startRead_within seed)
    · exact hquiet _ (.of_eq rfl rfl rfl)
  | startUpdate seed =>
    rw [hpos] at h hquiet
    simp only [AppSys.run] at h
    split at h
    · cases h
      exact hquiet _ (.of_eq rfl rfl rfl)
    · split at h
      · cases h
        exact hidle
      · rename_i happ
        split at h <;> cases h
        · rename_i hfault
          rw [hfault]
          exact .started n seed now newID hpos happ
        · exact .startLost n seed hpos happ
  | seeding seed todo =>
    rw [hpos] at h
    cases todo with
    | nil =>
      cases h
      exact .seedingDone n seed hpos
    | cons item todo =>
      cases h
      refine .quiet n _ _ ?_
      rw [hpos]
      exact .of_eq rfl rfl rfl
  | complete seed =>
    rw [hpos] at h hquiet
    simp only [AppSys.run] at h
    split at h <;> cases h
    · exact hquiet _ (.of_eq rfl rfl rfl)
    · exact hidle
  | completeUpdate seed =>
    rw [hpos] at h
    simp only [AppSys.run] at h
    split at h <;> cases h
    · rename_i hcond
      exact .completed n seed hpos hcond.2
    · exact hidle

theorem appStep_effect [NetUrl] {s s' : AppSys} {a : AppAct} (h : appStep s a = some s') :
    AppEffect s a s' := by
  cases a with
  | start n seed =>
    simp only [appStep] at h
    split at h <;> cases h
    rename_i hidle
    exact .start n seed hidle
  | run n fault now newID => exact AppSys.run_effect h
  | timeout n =>
    simp only [appStep] at h
    split at h <;> cases h
    exact .quiet n .idle s.db (InitPos.idle_within _)
  | crash n =>
    cases h
    exact .quiet n .idle s.db (InitPos.idle_within _)

end

end WebhookBroker
