import WebhookBroker.Broker.DrainRoundRobin

/-!
# Handing over drained pages (`parking/drainer.go`, `parking/handoff.go`)

The goroutines of a drainer after `Start`: the drain loop, the workers of the hand-off sender and
`Stop`. A step is a call of a repository, an operation on a channel, a section under the mutex of
the sender, or a request to the cluster. What the repositories and the cluster answer is free, and
so is the database, which other nodes change at any time.

Only the loop calls `Submit`, so a page that `Saturated` left room for is accepted. The loop has
returned when `Stop` closes the channel of the sender, and the workers empty the channel before they
return (`HandoffSys.Inv`). The fields `moved`, `accepted`, `refused`, `sent` and `finished` are not
in the source: they record what happened to the pages.
-/

namespace WebhookBroker

open Lib List Function

/-! ## A page of the drain loop -/

/-- What comes of `GetByID` and `DrainPage` for a consumer. -/
inductive PageResult where
  | none
  /-- the jobs were moved but could not be loaded -/
  | failed (type : ConsumerType) (jobs : List JobRow)
  | page (type : ConsumerType) (jobs : List JobRow)
deriving DecidableEq

/-- `GetByID` and `DrainPage` in a round of the inner loop, and the database after them. -/
def DrainEnv.page (env : DrainEnv) (pageSize : Int) (lease : Duration) (consumerID : String)
    (db : Db) : PageResult × Db :=
  match env.getByID consumerID with
  | .error _ => (.none, db)
  | .ok consumer =>
    let earliestNextAttemptAt := if consumer.type = .push then env.now + lease else env.now
    if env.drainErr then (.none, db)
    else
      match drainPage env.now consumerID pageSize earliestNextAttemptAt db with
      | (.error _, db) => (.none, db)
      | (.ok jobs, db) =>
        if jobs.isEmpty then (.none, db)
        else if env.populateErr then (.failed consumer.type jobs, db)
        else (.page consumer.type jobs, db)

/-- A page whose jobs are loaded does not fail after its commit. -/
theorem DrainEnv.page_ne_failed {env : DrainEnv} (h : env.populateErr = false) (pageSize : Int)
    (lease : Duration) (c : String) (db : Db) (type : ConsumerType) (jobs : List JobRow) :
    (env.page pageSize lease c db).1 ≠ .failed type jobs := by
  unfold DrainEnv.page
  split
  · nofun
  · simp only [h]
    split
    · nofun
    · split
      · nofun
      · split <;> nofun

/-- `HandoffSenderConfiguration`, as far as it decides what the sender does. -/
structure HandoffSenderConfiguration where
  httpEnabled : Bool
  maxAttempts : Int
  concurrency : Int
  localFallback : Bool

/-- A sender has at least one worker and makes at least one attempt. -/
structure HandoffSender where
  httpEnabled : Bool
  maxAttempts : Nat
  concurrency : Nat
  localFallback : Bool
  maxAttempts_pos : 0 < maxAttempts
  concurrency_pos : 0 < concurrency

def newHandoffSender (cfg : HandoffSenderConfiguration) : HandoffSender where
  httpEnabled := cfg.httpEnabled
  maxAttempts := (if cfg.maxAttempts < 1 then 1 else cfg.maxAttempts).toNat
  concurrency := (if cfg.concurrency < 1 then 1 else cfg.concurrency).toNat
  localFallback := cfg.localFallback
  maxAttempts_pos := by split <;> omega
  concurrency_pos := by split <;> omega

/-- `cap(sender.pending)`. -/
def HandoffSender.capacity (snd : HandoffSender) : Nat := snd.concurrency * 2

/-- A page of push jobs, with its number among those that were moved. -/
structure Page where
  number : Nat
  jobs : List JobRow
deriving DecidableEq

/-- The consumer of a round of the inner loop, those after it and those of the next round. -/
structure Turn where
  consumerID : String
  active : List String
  remaining : List String
deriving DecidableEq

inductive LoopPos where
  | selecting
  /-- at the head of the inner loop -/
  | visiting (active remaining : List String)
  /-- `stopping()` was false -/
  | checked (t : Turn)
  /-- `Saturated()` was false too -/
  | draining (t : Turn)
  | submitting (t : Turn) (page : Page)
  | renewing (t : Turn)
  | returned
deriving DecidableEq

inductive PostAnswer where
  | status (code : Nat)
  | failed
deriving DecidableEq

structure SendRecord where
  page : Page
  posts : List PostAnswer
  /-- the number of calls of `EnqueueJobs` -/
  enqueued : Nat
deriving DecidableEq

inductive WorkerPos where
  | receiving
  | posting (r : SendRecord)
  | enqueueing (r : SendRecord)
  | returned
deriving DecidableEq

/-- `Drainer.Stop`, and `Stop` of the sender in it. -/
inductive HandoffStop where
  | notCalled
  /-- at `drainer.wg.Wait()` -/
  | joining
  | closing
  /-- at `sender.wg.Wait()` -/
  | waiting
  | returned
deriving DecidableEq

/-- The goroutines and channels of a drainer. -/
structure HandoffSys where
  loop : LoopPos := .selecting
  stopChan : Bool := false
  stop : HandoffStop := .notCalled
  closed : Bool := false
  pending : List Page := []
  pendingClosed : Bool := false
  worker : Nat → WorkerPos := fun _ => .receiving
  /-- a send on a closed channel panics -/
  panicked : Bool := false
  /-- the pages of push jobs that `DrainPage` moved -/
  moved : List Page := []
  /-- the pages for which `Submit` returned `true`, and those for which it returned `false` -/
  accepted : List Page := []
  refused : List Page := []
  /-- the pages that were passed to `send`, and what the calls that returned have done -/
  sent : List Page := []
  finished : List SendRecord := []

inductive HandoffAction where
  -- the drain loop; `runOnce` that gets no lock finds no consumers
  | tick (consumerIDs : List String)
  | quit
  | endRound (remaining : List String)
  | check (t : Turn)
  | measure (t : Turn)
  | drain (t : Turn) (env : DrainEnv) (db : Db)
  | submit (t : Turn) (page : Page)
  | renew (t : Turn) (renewed : Bool)
  -- a worker
  | receive (i : Nat) (page : Page)
  | post (i : Nat) (r : SendRecord) (answer : PostAnswer)
  | enqueue (i : Nat) (r : SendRecord)
  | leave (i : Nat)
  -- `Stop`
  | closeStopChan
  | joinLoop
  | closePending
  | joinWorkers
deriving Inhabited

namespace HandoffSys

def enabled (snd : HandoffSender) (s : HandoffSys) : HandoffAction → Prop
  | .tick _ => s.loop = .selecting
  | .quit => s.loop = .selecting ∧ s.stopChan = true
  | .endRound remaining => s.loop = .visiting [] remaining
  | .check t => s.loop = .visiting (t.consumerID :: t.active) t.remaining
  | .measure t => s.loop = .checked t
  | .drain t _ _ => s.loop = .draining t
  | .submit t page => s.loop = .submitting t page
  | .renew t _ => s.loop = .renewing t
  | .receive i page =>
    i < snd.concurrency ∧ s.worker i = .receiving ∧ s.pending.head? = some page
  | .post i r _ => i < snd.concurrency ∧ s.worker i = .posting r
  | .enqueue i r => i < snd.concurrency ∧ s.worker i = .enqueueing r
  | .leave i =>
    i < snd.concurrency ∧ s.worker i = .receiving ∧ s.pending = [] ∧ s.pendingClosed = true
  | .closeStopChan => s.stop = .notCalled
  | .joinLoop => s.stop = .joining ∧ s.loop = .returned
  | .closePending => s.stop = .closing
  | .joinWorkers => s.stop = .waiting ∧ ∀ i < snd.concurrency, s.worker i = .returned

instance (snd : HandoffSender) (s : HandoffSys) (a : HandoffAction) :
    Decidable (s.enabled snd a) := by
  cases a <;> (unfold enabled; infer_instance)

def drained (s : HandoffSys) (t : Turn) : PageResult → HandoffSys
  | .none | .failed .pull _ => { s with loop := .visiting t.active t.remaining }
  | .failed .push jobs =>
    { s with
      loop := .visiting t.active t.remaining
      moved := s.moved ++ [⟨s.moved.length, jobs⟩] }
  | .page .pull _ => { s with loop := .renewing t }
  | .page .push jobs =>
    { s with
      loop := .submitting t ⟨s.moved.length, jobs⟩
      moved := s.moved ++ [⟨s.moved.length, jobs⟩] }

/-- `Submit` of a page that has jobs, under the mutex. -/
def submit (snd : HandoffSender) (s : HandoffSys) (t : Turn) (page : Page) : HandoffSys :=
  if s.closed then { s with loop := .renewing t, refused := s.refused ++ [page] }
  else if s.pendingClosed then { s with loop := .renewing t, panicked := true }
  else if s.pending.length < snd.capacity then
    { s with
      loop := .renewing t
      pending := s.pending ++ [page]
      accepted := s.accepted ++ [page] }
  else { s with loop := .renewing t, refused := s.refused ++ [page] }

def finish (s : HandoffSys) (i : Nat) (r : SendRecord) : HandoffSys :=
  { s with
    worker := update s.worker i .receiving
    finished := s.finished ++ [r] }

def posted (snd : HandoffSender) (s : HandoffSys) (i : Nat) (answer : PostAnswer)
    (r : SendRecord) : HandoffSys :=
  if answer = .status 202 then s.finish i r
  else if r.posts.length < snd.maxAttempts then
    { s with worker := update s.worker i (.posting r) }
  else if snd.localFallback then { s with worker := update s.worker i (.enqueueing r) }
  else s.finish i r

def apply (snd : HandoffSender) (pageSize : Int) (lease : Duration) (s : HandoffSys) :
    HandoffAction → HandoffSys
  | .tick consumerIDs => { s with loop := .visiting consumerIDs [] }
  | .quit => { s with loop := .returned }
  | .endRound remaining =>
    { s with loop := if remaining.isEmpty then .selecting else .visiting remaining [] }
  | .check t => { s with loop := if s.stopChan then .selecting else .checked t }
  | .measure t =>
    { s with loop := if snd.capacity ≤ s.pending.length then .selecting else .draining t }
  | .drain t env db => s.drained t (env.page pageSize lease t.consumerID db).1
  | .submit t page => s.submit snd t page
  | .renew t renewed =>
    { s with
      loop := if renewed then .visiting t.active (t.remaining ++ [t.consumerID]) else .selecting }
  | .receive i page =>
    { s with
      pending := s.pending.tail
      sent := s.sent ++ [page]
      worker := update s.worker i
        (if snd.httpEnabled then .posting ⟨page, [], 0⟩ else .enqueueing ⟨page, [], 0⟩) }
  | .post i r answer => s.posted snd i answer { r with posts := r.posts ++ [answer] }
  | .enqueue i r => s.finish i { r with enqueued := r.enqueued + 1 }
  | .leave i => { s with worker := update s.worker i .returned }
  | .closeStopChan => { s with stopChan := true, stop := .joining }
  | .joinLoop => { s with stop := .closing }
  | .closePending =>
    { s with
      closed := true
      pendingClosed := if s.closed then s.pendingClosed else true
      stop := .waiting }
  | .joinWorkers => { s with stop := .returned }

def step (snd : HandoffSender) (pageSize : Int) (lease : Duration) (s : HandoffSys)
    (a : HandoffAction) : Option HandoffSys :=
  if s.enabled snd a then some (s.apply snd pageSize lease a) else none

end HandoffSys

abbrev HandoffRun (snd : HandoffSender) (pageSize : Int) (lease : Duration) :=
  Run (fun s : HandoffSys => s = {}) (HandoffSys.step snd pageSize lease)

/-- Does the `select` of the loop take the ticker? -/
def HandoffAction.isTick : HandoffAction → Bool
  | .tick _ => true
  | _ => false

def LoopPos.page : LoopPos → Option Page
  | .submitting _ page => some page
  | _ => none

/-- Has `Saturated` found room that is not used yet? -/
def LoopPos.hasRoom : LoopPos → Bool
  | .draining _ | .submitting _ _ => true
  | _ => false

def LoopPos.idle : LoopPos → Bool
  | .submitting _ _ | .returned => false
  | _ => true

/-- The loop is idle if it runs and holds no page. -/
theorem LoopPos.idle_iff {loop : LoopPos} :
    loop.idle = true ↔ loop ≠ .returned ∧ loop.page = none := by
  cases loop <;> simp [idle, page]

/-- Has `Stop` waited for the loop? -/
def HandoffStop.joined : HandoffStop → Bool
  | .notCalled | .joining => false
  | _ => true

/-- Has `Stop` closed the channel of the sender? -/
def HandoffStop.hasClosed : HandoffStop → Bool
  | .waiting | .returned => true
  | _ => false

/-- A call of `send` keeps to its attempts, and enqueues nothing after an answer 202. -/
structure SendRecord.Ok (snd : HandoffSender) (r : SendRecord) : Prop where
  enqueued : r.enqueued ≤ 1
  posts : r.posts.length ≤ snd.maxAttempts
  accepted : .status 202 ∈ r.posts → r.enqueued = 0

/-- A call of `send` that has not returned has enqueued nothing, and no answer was 202; before
another attempt, the attempts are not used up. -/
def WorkerPos.Ok (snd : HandoffSender) : WorkerPos → Prop
  | .posting r => r.enqueued = 0 ∧ .status 202 ∉ r.posts ∧ r.posts.length < snd.maxAttempts
  | .enqueueing r => r.enqueued = 0 ∧ .status 202 ∉ r.posts ∧ r.posts.length ≤ snd.maxAttempts
  | _ => True

structure HandoffSys.Inv (snd : HandoffSender) (s : HandoffSys) : Prop where
  moved : s.moved = s.accepted ++ s.loop.page.toList
  accepted : s.accepted = s.sent ++ s.pending
  refused : s.refused = []
  panicked : s.panicked = false
  numbers : s.moved.map (·.number) = List.range s.moved.length
  room : s.loop.hasRoom = true → s.pending.length < snd.capacity
  stopChan : s.stopChan = true ↔ s.stop ≠ .notCalled
  joined : s.stop.joined = true → s.loop = .returned
  closed : s.closed = s.stop.hasClosed
  pendingClosed : s.pendingClosed = s.closed
  left : ∀ i, s.worker i = .returned → s.pending = [] ∧ s.closed = true
  allLeft : s.stop = .returned → ∀ i < snd.concurrency, s.worker i = .returned
  workers : ∀ i, (s.worker i).Ok snd
  records : ∀ r ∈ s.finished, r.Ok snd

namespace HandoffSys

variable {snd : HandoffSender} {pageSize : Int} {lease : Duration} {s s' : HandoffSys}
  {a : HandoffAction}

/-- A step is taken if it is enabled. -/
theorem step_eq_some : s.step snd pageSize lease a = some s' ↔
    s.enabled snd a ∧ s.apply snd pageSize lease a = s' := by
  rw [step, Option.ite_none_right_eq_some, Option.some.injEq]

/-- An idle loop may move on, with a place in the channel if it has seen one. -/
theorem Inv.moveLoop (h : s.Inv snd) {loop : LoopPos} (hidle : s.loop.idle = true)
    (hpage : loop.page = none) (hroom : loop.hasRoom = true → s.pending.length < snd.capacity) :
    { s with loop := loop }.Inv snd := by
  obtain ⟨hne, hnone⟩ := LoopPos.idle_iff.1 hidle
  exact { h with
    moved := by rw [h.moved, hnone, hpage]
    room := hroom
    joined := fun hjoined => absurd (h.joined hjoined) hne }

/-- The channel is open while the loop runs. -/
theorem Inv.notClosed (h : s.Inv snd) (hloop : s.loop ≠ .returned) : s.closed = false := by
  rw [h.closed]
  cases hstop : s.stop with
  | notCalled | joining | closing => rfl
  | waiting | returned => exact absurd (h.joined (by rw [hstop]; rfl)) hloop

/-- A page that is drained is held by the loop, or there is nothing to hand over. -/
theorem Inv.drained (h : s.Inv snd) {t : Turn} (hloop : s.loop = .draining t) {result : PageResult}
    (hresult : ∀ jobs, result ≠ .failed .push jobs) : (s.drained t result).Inv snd := by
  have hidle : s.loop.idle = true := by rw [hloop]; rfl
  obtain ⟨hne, hnone⟩ := LoopPos.idle_iff.1 hidle
  cases result with
  | none => exact h.moveLoop hidle rfl nofun
  | failed type jobs =>
    cases type with
    | pull => exact h.moveLoop hidle rfl nofun
    | push => exact absurd rfl (hresult jobs)
  | page type jobs =>
    cases type with
    | pull => exact h.moveLoop hidle rfl nofun
    | push =>
      refine { h with
        moved := ?_
        numbers := ?_
        room := fun _ => h.room (by rw [hloop]; rfl)
        joined := fun hjoined => absurd (h.joined hjoined) hne }
      · have hmoved : s.moved = s.accepted := by
          rw [h.moved, hnone, Option.toList_none, append_nil]
        exact congrArg (· ++ [_]) hmoved
      · change (s.moved ++ [_]).map _ = List.range (s.moved ++ [_]).length
        rw [map_append, h.numbers, length_append, length_singleton, range_succ]
        rfl

/-- `Submit` moves the page of the loop into the channel, or refuses it. -/
theorem Inv.submit (h : s.Inv snd) {t : Turn} {page : Page} (hloop : s.loop = .submitting t page) :
    (s.submit snd t page).Inv snd := by
  have hne : s.loop ≠ .returned := by rw [hloop]; nofun
  have hopen := h.notClosed hne
  have hroom := h.room (by rw [hloop]; rfl)
  rw [HandoffSys.submit, if_neg (by rw [hopen]; nofun),
    if_neg (by rw [h.pendingClosed, hopen]; nofun), if_pos hroom]
  refine { h with
    moved := by rw [h.moved, hloop]; simp [LoopPos.page]
    accepted := by rw [h.accepted, append_assoc]
    room := nofun
    joined := fun hjoined => absurd (h.joined hjoined) hne
    left := fun i hi => ?_ }
  rw [(h.left i hi).2] at hopen
  cases hopen

section
variable {i : Nat} {pos : WorkerPos} {r : SendRecord}

section
variable (h : s.Inv snd) (hi : i < snd.concurrency)
include h hi

/-- A worker that has not returned may move on. -/
theorem Inv.setWorker (hw : s.worker i ≠ .returned) (hpos : pos.Ok snd) (hpos' : pos ≠ .returned) :
    { s with worker := update s.worker i pos }.Inv snd :=
  { h with
    left := (Function.forall_update_iff s.worker fun _ pos =>
      pos = .returned → s.pending = [] ∧ s.closed = true).2
        ⟨fun heq => absurd heq hpos', fun j _ => h.left j⟩
    allLeft := fun hstop => absurd (h.allLeft hstop i hi) hw
    workers := (Function.forall_update_iff s.worker fun _ pos => pos.Ok snd).2
      ⟨hpos, fun j _ => h.workers j⟩ }

/-- A call of `send` that returns leaves its record. -/
theorem Inv.finish (hw : s.worker i ≠ .returned) (hr : r.Ok snd) : (s.finish i r).Inv snd := by
  have hset := h.setWorker hi hw (show WorkerPos.Ok snd .receiving from trivial) nofun
  refine { hset with records := fun r' hr' => ?_ }
  rcases mem_append.1 hr' with hmem | hmem
  · exact h.records r' hmem
  · rw [mem_singleton.1 hmem]
    exact hr

/-- `send` makes another attempt only if it may, and enqueues only after all of them failed. -/
theorem Inv.posted (hw : s.worker i = .posting r) (answer : PostAnswer) :
    (s.posted snd i answer { r with posts := r.posts ++ [answer] }).Inv snd := by
  have hne : s.worker i ≠ .returned := by rw [hw]; nofun
  obtain ⟨henqueued, hposts, hlength⟩ : WorkerPos.Ok snd (.posting r) := hw ▸ h.workers i
  have hlength' : (r.posts ++ [answer]).length ≤ snd.maxAttempts := by
    rw [length_append, length_singleton]
    omega
  have hfinish := h.finish hi hne (r := { r with posts := r.posts ++ [answer] })
    ⟨by simp [henqueued], hlength', fun _ => henqueued⟩
  unfold HandoffSys.posted
  split
  · exact hfinish
  · rename_i hanswer
    have hnot : .status 202 ∉ r.posts ++ [answer] := by
      rw [mem_append, mem_singleton]
      rintro (hmem | heq)
      · exact hposts hmem
      · exact hanswer heq.symm
    split
    · rename_i hlt
      exact h.setWorker hi hne ⟨henqueued, hnot, hlt⟩ nofun
    · split
      · exact h.setWorker hi hne ⟨henqueued, hnot, hlength'⟩ nofun
      · exact hfinish

/-- A worker takes the first page of the channel. -/
theorem Inv.receive (hw : s.worker i = .receiving) {page : Page}
    (hpage : s.pending.head? = some page) :
    (s.apply snd pageSize lease (.receive i page)).Inv snd := by
  have hpos : WorkerPos.Ok snd
      (if snd.httpEnabled then .posting ⟨page, [], 0⟩ else .enqueueing ⟨page, [], 0⟩) := by
    split
    · exact ⟨rfl, not_mem_nil, snd.maxAttempts_pos⟩
    · exact ⟨rfl, not_mem_nil, Nat.zero_le _⟩
  have hset := h.setWorker hi (by rw [hw]; nofun) hpos (by split <;> nofun)
  obtain ⟨rest, hpending⟩ : ∃ rest, s.pending = page :: rest :=
    ⟨s.pending.tail, (eq_cons_of_mem_head? hpage)⟩
  refine { hset with
    accepted := ?_
    room := fun hroom => ?_
    left := fun j hj => ?_ }
  · change s.accepted = s.sent ++ [page] ++ s.pending.tail
    rw [h.accepted, hpending, append_assoc]
    rfl
  · have hlt := hset.room hroom
    change s.pending.tail.length < _
    rw [length_tail]
    exact lt_of_le_of_lt (Nat.sub_le _ _) hlt
  · have hnil : s.pending = [] := (hset.left j hj).1
    rw [hpending] at hnil
    cases hnil

/-- A worker leaves when the channel is closed and empty. -/
theorem Inv.leave (hw : s.worker i = .receiving) (hpending : s.pending = [])
    (hclosed : s.pendingClosed = true) : (s.apply snd pageSize lease (.leave i)).Inv snd :=
  { h with
    left := fun _ _ => ⟨hpending, h.pendingClosed ▸ hclosed⟩
    allLeft := fun hstop => absurd (h.allLeft hstop i hi) (by rw [hw]; nofun)
    workers := (Function.forall_update_iff s.worker fun _ pos => pos.Ok snd).2
      ⟨trivial, fun j _ => h.workers j⟩ }

end

end

/-- `Stop` moves on after it has joined what it waits for. -/
theorem Inv.moveStop (h : s.Inv snd) {stop : HandoffStop} (hchan : s.stop ≠ .notCalled)
    (hne : stop ≠ .notCalled) (hjoined : stop.joined = true → s.loop = .returned)
    (hclosed : stop.hasClosed = s.stop.hasClosed)
    (hleft : stop = .returned → ∀ i < snd.concurrency, s.worker i = .returned) :
    { s with stop := stop }.Inv snd :=
  { h with
    stopChan := ⟨fun _ => hne, fun _ => h.stopChan.2 hchan⟩
    joined := hjoined
    closed := by rw [h.closed, ← hclosed]
    allLeft := hleft }

/-- Every step keeps the invariant, unless the jobs of a page cannot be loaded. -/
theorem Inv.step (h : s.Inv snd)
    (hloads : ∀ t env db, a = .drain t env db → env.populateErr = false)
    (hstep : s.enabled snd a) : (s.apply snd pageSize lease a).Inv snd := by
  cases a with
  | tick consumerIDs =>
    have hloop : s.loop = .selecting := hstep
    exact h.moveLoop (by rw [hloop]; rfl) rfl nofun
  | quit => exact h.moveLoop (by rw [hstep.1]; rfl) rfl nofun
  | endRound remaining =>
    have hloop : s.loop = .visiting [] remaining := hstep
    exact h.moveLoop (by rw [hloop]; rfl) (by split <;> rfl) (by split <;> nofun)
  | check t =>
    have hloop : s.loop = .visiting _ _ := hstep
    exact h.moveLoop (by rw [hloop]; rfl) (by split <;> rfl) (by split <;> nofun)
  | measure t =>
    have hloop : s.loop = .checked t := hstep
    refine h.moveLoop (by rw [hloop]; rfl) (by split <;> rfl) ?_
    split
    · nofun
    · exact fun _ => by omega
  | drain t env db =>
    exact h.drained hstep fun jobs =>
      DrainEnv.page_ne_failed (hloads t env db rfl) pageSize lease t.consumerID db .push jobs
  | submit t page => exact h.submit hstep
  | renew t renewed =>
    have hloop : s.loop = .renewing t := hstep
    exact h.moveLoop (by rw [hloop]; rfl) (by split <;> rfl) (by split <;> nofun)
  | receive i page => exact h.receive hstep.1 hstep.2.1 hstep.2.2
  | post i r answer => exact h.posted hstep.1 hstep.2 answer
  | enqueue i r =>
    obtain ⟨hi, hw⟩ := hstep
    obtain ⟨henqueued, hposts, hlength⟩ : WorkerPos.Ok snd (.enqueueing r) := hw ▸ h.workers i
    exact h.finish hi (by rw [hw]; nofun)
      ⟨Nat.succ_le_succ henqueued.le, hlength, fun hmem => absurd hmem hposts⟩
  | leave i => exact h.leave hstep.1 hstep.2.1 hstep.2.2.1 hstep.2.2.2
  | closeStopChan =>
    have hstop : s.stop = .notCalled := hstep
    exact { h with
      stopChan := ⟨fun _ => nofun, fun _ => rfl⟩
      joined := nofun
      closed := h.closed.trans (by rw [hstop]; rfl)
      allLeft := nofun }
  | joinLoop =>
    obtain ⟨hstop, hloop⟩ := hstep
    exact h.moveStop (by rw [hstop]; nofun) nofun (fun _ => hloop) (by rw [hstop]; rfl) nofun
  | closePending =>
    have hstop : s.stop = .closing := hstep
    have hopen : s.closed = false := by rw [h.closed, hstop]; rfl
    exact { h with
      stopChan := ⟨fun _ => nofun, fun _ => h.stopChan.2 (by rw [hstop]; nofun)⟩
      joined := fun _ => h.joined (by rw [hstop]; rfl)
      closed := rfl
      pendingClosed := if_neg (by rw [hopen]; nofun)
      left := fun i hi => ⟨(h.left i hi).1, rfl⟩
      allLeft := nofun }
  | joinWorkers =>
    obtain ⟨hstop, hleft⟩ := hstep
    exact h.moveStop (by rw [hstop]; nofun) nofun (fun _ => h.joined (by rw [hstop]; rfl))
      (by rw [hstop]; rfl) fun _ => hleft

/-- Nothing is handed over at the start. -/
theorem Inv.initial : ({} : HandoffSys).Inv snd where
  moved := rfl
  accepted := rfl
  refused := rfl
  panicked := rfl
  numbers := rfl
  room := nofun
  stopChan := ⟨nofun, fun hne => absurd rfl hne⟩
  joined := nofun
  closed := rfl
  pendingClosed := rfl
  left := nofun
  allLeft := nofun
  workers _ := trivial
  records _ hr := absurd hr not_mem_nil

/-- A worker that has not returned is not blocked once the channel is closed. -/
theorem worker_goes_on {i : Nat} (hi : i < snd.concurrency) (hw : s.worker i ≠ .returned)
    (hclosed : s.pendingClosed = true) : ∃ a, a.isTick = false ∧ s.enabled snd a := by
  cases hpos : s.worker i with
  | receiving =>
    cases hpending : s.pending with
    | nil => exact ⟨.leave i, rfl, hi, hpos, hpending, hclosed⟩
    | cons page rest => exact ⟨.receive i page, rfl, hi, hpos, by rw [hpending]; rfl⟩
  | posting r => exact ⟨.post i r .failed, rfl, hi, hpos⟩
  | enqueueing r => exact ⟨.enqueue i r, rfl, hi, hpos⟩
  | returned => exact absurd hpos hw

/-- Until `Stop` has returned, there is a step that does not take the ticker. -/
theorem Inv.goes_on (h : s.Inv snd) (hstop : s.stopChan = true) (hne : s.stop ≠ .returned) :
    ∃ a, a.isTick = false ∧ s.enabled snd a := by
  cases hloop : s.loop with
  | selecting => exact ⟨.quit, rfl, hloop, hstop⟩
  | visiting active remaining =>
    cases active with
    | nil => exact ⟨.endRound remaining, rfl, hloop⟩
    | cons c cs => exact ⟨.check ⟨c, cs, remaining⟩, rfl, hloop⟩
  | checked t => exact ⟨.measure t, rfl, hloop⟩
  | draining t =>
    exact ⟨.drain t ⟨true, true, fun _ => .error .noRows, 0, true, true, true⟩ {}, rfl, hloop⟩
  | submitting t page => exact ⟨.submit t page, rfl, hloop⟩
  | renewing t => exact ⟨.renew t true, rfl, hloop⟩
  | returned =>
    cases hpos : s.stop with
    | notCalled => exact absurd hpos (h.stopChan.1 hstop)
    | joining => exact ⟨.joinLoop, rfl, hpos, hloop⟩
    | closing => exact ⟨.closePending, rfl, hpos⟩
    | waiting =>
      by_cases hall : ∀ i < snd.concurrency, s.worker i = .returned
      · exact ⟨.joinWorkers, rfl, hpos, hall⟩
      · push Not at hall
        obtain ⟨i, hi, hw⟩ := hall
        exact worker_goes_on hi hw (by rw [h.pendingClosed, h.closed, hpos]; rfl)
    | returned => exact absurd hpos hne

end HandoffSys

namespace HandoffRun

variable {snd : HandoffSender} {pageSize : Int} {lease : Duration}

/-- The invariant holds in every state of a run in which the jobs of each page are loaded. -/
theorem inv (r : HandoffRun snd pageSize lease)
    (hloads : ∀ i < r.len, ∀ t env db, r.act i = .drain t env db → env.populateErr = false) :
    ∀ i ≤ r.len, (r.state i).Inv snd := by
  refine r.invariant_of_acts
    (C := fun _ a => ∀ t env db, a = .drain t env db → env.populateErr = false) hloads ?_ ?_
  · rintro s rfl
    exact .initial
  · intro s a s' hloads h hstep
    obtain ⟨henabled, rfl⟩ := HandoffSys.step_eq_some.1 hstep
    exact h.step hloads henabled

end HandoffRun

/-- What becomes of the pages of push jobs that were moved. -/
structure HandoffSys.HandsOver (cfg : HandoffSenderConfiguration) (s : HandoffSys) : Prop where
  /-- `Submit` never sends on a closed channel -/
  panicked : s.panicked = false
  refused : s.refused = []
  moved : s.moved = s.accepted ++ s.loop.page.toList
  accepted : s.accepted = s.sent ++ s.pending
  once : s.moved.Nodup
  returned : s.stop = .returned → s.accepted = s.moved ∧ s.sent = s.moved ∧
    ∀ i < (newHandoffSender cfg).concurrency, s.worker i = .returned
  /-- what the calls of `send` that returned, and those that run, have done -/
  sends : ∀ r, r ∈ s.finished ∨ (∃ i, s.worker i = .posting r ∨ s.worker i = .enqueueing r) →
    r.enqueued ≤ 1 ∧ (r.posts.length : Int) ≤ max cfg.maxAttempts 1 ∧
    (.status 202 ∈ r.posts → r.enqueued = 0)
  /-- once `Stop` is called, a goroutine can go on until it has returned -/
  goes_on : s.stopChan = true → s.stop ≠ .returned →
    ∃ a, a.isTick = false ∧ s.enabled (newHandoffSender cfg) a

/-- In every interleaving in which the jobs of a page can be loaded, `Submit` accepts every page of
push jobs that was moved, and when `Stop` returns, every page was passed to `send` once. A call of
`send` makes at most `maxAttempts` requests and enqueues the jobs at most once, and not after an
answer 202. -/
theorem handoff_exactly_once (cfg : HandoffSenderConfiguration) (pageSize : Int) (lease : Duration)
    (r : HandoffRun (newHandoffSender cfg) pageSize lease)
    (hloads : ∀ i < r.len, ∀ t env db, r.act i = .drain t env db → env.populateErr = false) :
    ∀ i ≤ r.len, (r.state i).HandsOver cfg := by
  intro i hi
  have h := r.inv hloads i hi
  refine ⟨h.panicked, h.refused, h.moved, h.accepted, ?_, fun hstop => ?_, fun rec hrec => ?_,
    h.goes_on⟩
  · exact .of_map (·.number) (h.numbers ▸ nodup_range)
  · have hmoved : (r.state i).accepted = (r.state i).moved := by
      rw [h.moved, h.joined (by rw [hstop]; rfl)]
      exact (append_nil _).symm
    have hleft := h.allLeft hstop
    refine ⟨hmoved, ?_, hleft⟩
    rw [← hmoved, h.accepted, (h.left 0 (hleft 0 (newHandoffSender cfg).concurrency_pos)).1,
      append_nil]
  · have hok : rec.Ok (newHandoffSender cfg) := by
      rcases hrec with hmem | ⟨j, hw | hw⟩
      · exact h.records rec hmem
      · obtain ⟨henqueued, -, hlt⟩ : WorkerPos.Ok _ (.posting rec) := hw ▸ h.workers j
        exact ⟨henqueued.le.trans (Nat.zero_le 1), hlt.le, fun _ => henqueued⟩
      · obtain ⟨henqueued, -, hle⟩ : WorkerPos.Ok _ (.enqueueing rec) := hw ▸ h.workers j
        exact ⟨henqueued.le.trans (Nat.zero_le 1), hle, fun _ => henqueued⟩
    refine ⟨hok.enqueued, ?_, hok.accepted⟩
    have hposts := hok.posts
    simp only [newHandoffSender] at hposts
    split at hposts <;> omega

namespace Sample

def handoffConfiguration : HandoffSenderConfiguration where
  httpEnabled := true
  maxAttempts := 2
  concurrency := 1
  localFallback := true

def handoffPage : Page :=
  match (drainEnv.page 2 60 consumerXid.string parkedForBoth).1 with
  | .page _ jobs => ⟨0, jobs⟩
  | _ => ⟨0, []⟩

/-- `Stop` is called while the loop holds a page, and no node answers. -/
def handoffActs : List HandoffAction :=
  let t : Turn := ⟨consumerXid.string, [], []⟩
  let failed : List PostAnswer := [.status 503, .failed]
  [.tick [consumerXid.string], .check t, .measure t, .drain t drainEnv parkedForBoth,
    .closeStopChan, .submit t handoffPage, .receive 0 handoffPage,
    .post 0 ⟨handoffPage, [], 0⟩ (.status 503), .renew t true,
    .endRound [consumerXid.string], .check t, .quit, .joinLoop,
    .post 0 ⟨handoffPage, [.status 503], 0⟩ .failed, .closePending,
    .enqueue 0 ⟨handoffPage, failed, 0⟩, .leave 0, .joinWorkers]

def handoffRun : HandoffRun (newHandoffSender handoffConfiguration) 2 60 :=
  Run.ofActs {} handoffActs rfl (by decide +kernel)

end Sample

open Sample

theorem handoff_exactly_once_stopped :
    (handoffRun.state 18).stop = .returned ∧
    (handoffRun.state 18).moved = [handoffPage] ∧
    handoffPage.jobs.length = 2 ∧
    (handoffRun.state 18).sent = [handoffPage] := by
  have hloads : ∀ i < handoffRun.len, ∀ t env db,
      handoffRun.act i = .drain t env db → env.populateErr = false := by
    intro i hi t env db hact
    have hmem : handoffActs.getD i default ∈ handoffActs := by
      rw [getD_eq_getElem _ _ hi]
      exact getElem_mem hi
    rw [show handoffActs.getD i default = _ from hact] at hmem
    simp only [handoffActs, mem_cons, reduceCtorEq, false_or, HandoffAction.drain.injEq,
      not_mem_nil, or_false] at hmem
    rw [hmem.2.1]
    rfl
  have hstop : (handoffRun.state 18).stop = .returned := by decide +kernel
  have hmoved : (handoffRun.state 18).moved = [handoffPage] := by decide +kernel
  have hall := handoff_exactly_once handoffConfiguration 2 60 handoffRun hloads 18
    (by decide)
  exact ⟨hstop, hmoved, by decide +kernel, hmoved ▸ (hall.returned hstop).2.1⟩

end WebhookBroker
