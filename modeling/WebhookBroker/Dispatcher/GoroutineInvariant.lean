import WebhookBroker.Dispatcher.Goroutines

/-!
# What holds between the goroutines of a dispatcher

Each part of the invariant is about a few positions and channels, and names them, so that a step of
any other goroutine keeps it as it is.

* `ChannelInv`: the channel of a worker is with the worker, in the pool, or with the assigner, or it
  holds a job; so the pool and the channel have room whenever somebody sends to them.
* `WorkingInv`: `working` is set from the start of a worker to its end.
* `QuitInv`: the signal to quit is sent once, and stays until the worker takes it.
* `StopperInv`: the loops are stopped one after the other.
* `StopInv`: how far `Stop` and the goroutines that it starts have come.
-/

namespace WebhookBroker

open Lib List Function

/-- Has the worker put its channel in the pool since it took its last job? -/
def WorkLoop.isRegistered : WorkLoop → Bool
  | .selecting | .quitting | .returned => true
  | _ => false

def WorkLoop.isWorking : WorkLoop → Bool
  | .starting | .returned => false
  | _ => true

/-- The worker whose channel the assigner has taken from the pool. -/
def AssignLoop.channel : AssignLoop → Option Nat
  | .trying i | .waiting i | .sending i _ => some i
  | .selecting | .returned => none

def Stopper.rank : Stopper → Nat
  | .notStarted => 0
  | .stoppingDispatcher => 1
  | .closing => 2
  | .stoppingLoop .message => 3
  | .stoppingLoop .retry => 4
  | .stoppingLoop .stale => 5
  | .discarding => 6
  | .finishing => 7
  | .returned => 8

/-! ## The channels of the workers -/

structure ChannelInv (maxWorkers : Nat) (workerPool : List Nat) (assigner : AssignLoop)
    (worker : Nat → WorkLoop) (jobChannel : Nat → Option JobPtr) : Prop where
  started : ∀ i, worker i ≠ .starting → i < maxWorkers
  nodup : workerPool.Nodup
  pool : ∀ i ∈ workerPool,
    (worker i).isRegistered = true ∧ jobChannel i = none ∧ assigner.channel ≠ some i
  held : ∀ i, assigner.channel = some i → (worker i).isRegistered = true ∧ jobChannel i = none
  unread : ∀ i p, jobChannel i = some p → (worker i).isRegistered = true

section
variable {maxWorkers i : Nat} {workerPool : List Nat} {assigner assigner' : AssignLoop}
  {worker : Nat → WorkLoop} {jobChannel : Nat → Option JobPtr} {p : JobPtr}

section
variable (h : ChannelInv maxWorkers workerPool assigner worker jobChannel)
include h

theorem ChannelInv.of_not_registered (hi : (worker i).isRegistered = false) :
    i ∉ workerPool ∧ jobChannel i = none ∧ assigner.channel ≠ some i := by
  have hne : (worker i).isRegistered ≠ true := Bool.eq_false_iff.1 hi
  refine ⟨fun hmem => hne (h.pool i hmem).1, ?_, fun hheld => hne (h.held i hheld).1⟩
  cases hp : jobChannel i with
  | none => rfl
  | some p => exact absurd (h.unread i p hp) hne

/-- A channel with a job is neither in the pool nor with the assigner. -/
theorem ChannelInv.of_unread (hi : jobChannel i = some p) :
    i ∉ workerPool ∧ assigner.channel ≠ some i := by
  constructor
  · intro hmem
    rw [(h.pool i hmem).2.1] at hi
    cases hi
  · intro hheld
    rw [(h.held i hheld).2] at hi
    cases hi

theorem ChannelInv.moveAssigner
    (hchannel : ∀ i, assigner'.channel = some i → assigner.channel = some i) :
    ChannelInv maxWorkers workerPool assigner' worker jobChannel where
  started := h.started
  nodup := h.nodup
  pool i hi :=
    ⟨(h.pool i hi).1, (h.pool i hi).2.1, fun hheld => (h.pool i hi).2.2 (hchannel i hheld)⟩
  held i hi := h.held i (hchannel i hi)
  unread := h.unread

theorem ChannelInv.moveWorker {w : WorkLoop} (hi : i < maxWorkers)
    (hw : w.isRegistered = (worker i).isRegistered) :
    ChannelInv maxWorkers workerPool assigner (update worker i w) jobChannel := by
  have hsame : ∀ j, (update worker i w j).isRegistered = (worker j).isRegistered := by
    intro j
    by_cases hj : j = i
    · rw [hj, update_self, hw]
    · rw [update_of_ne hj]
  refine ⟨fun j hj => ?_, h.nodup, ?_, ?_, ?_⟩
  · by_cases hji : j = i
    · rwa [hji]
    · rw [update_of_ne hji] at hj
      exact h.started j hj
  · simp only [hsame]
    exact h.pool
  · simp only [hsame]
    exact h.held
  · simp only [hsame]
    exact h.unread

theorem ChannelInv.takeWorker (hhead : workerPool.head? = some i) :
    ChannelInv maxWorkers workerPool.tail (.trying i) worker jobChannel := by
  obtain ⟨pool, rfl⟩ := List.head?_eq_some_iff.1 hhead
  obtain ⟨hnot, hnodup⟩ := nodup_cons.1 h.nodup
  refine ⟨h.started, hnodup, fun j hj => ?_, fun j hj => ?_, h.unread⟩
  · have hpool := h.pool j (mem_cons_of_mem _ hj)
    refine ⟨hpool.1, hpool.2.1, fun heq => hnot ?_⟩
    cases heq
    exact hj
  · cases hj
    have hpool := h.pool i mem_cons_self
    exact ⟨hpool.1, hpool.2.1⟩

theorem ChannelInv.assign (hheld : assigner.channel = some i) :
    ChannelInv maxWorkers workerPool .selecting worker
      (update jobChannel i (some p)) := by
  refine ⟨h.started, h.nodup, fun j hj => ?_, nofun, fun j q hq => ?_⟩
  · have hji : j ≠ i := fun heq => (h.pool j hj).2.2 (heq ▸ hheld)
    rw [update_of_ne hji]
    exact ⟨(h.pool j hj).1, (h.pool j hj).2.1, nofun⟩
  · by_cases hji : j = i
    · rw [hji]
      exact (h.held i hheld).1
    · rw [update_of_ne hji] at hq
      exact h.unread j q hq

theorem ChannelInv.register (hi : worker i = .registering) :
    ChannelInv maxWorkers (workerPool ++ [i]) assigner (update worker i .selecting)
      jobChannel := by
  obtain ⟨hnot, hempty, hfree⟩ := h.of_not_registered (i := i) (by rw [hi]; rfl)
  refine ⟨fun j hj => ?_, ?_, fun j hj => ?_, fun j hj => ?_, fun j q hq => ?_⟩
  · by_cases hji : j = i
    · rw [hji]
      exact h.started i (by rw [hi]; decide)
    · rw [update_of_ne hji] at hj
      exact h.started j hj
  · exact nodup_append'.2 ⟨h.nodup, nodup_singleton i, disjoint_singleton.2 hnot⟩
  · rcases mem_append.1 hj with hj | hj
    · have hji : j ≠ i := fun heq => hnot (heq ▸ hj)
      rw [update_of_ne hji]
      exact h.pool j hj
    · obtain rfl := mem_singleton.1 hj
      rw [update_self]
      exact ⟨rfl, hempty, hfree⟩
  · have hji : j ≠ i := fun heq => hfree (heq ▸ hj)
    rw [update_of_ne hji]
    exact h.held j hj
  · have hji : j ≠ i := by
      rintro rfl
      rw [hempty] at hq
      cases hq
    rw [update_of_ne hji]
    exact h.unread j q hq

theorem ChannelInv.read :
    ChannelInv maxWorkers workerPool assigner worker (update jobChannel i none) := by
  have hnone : ∀ j, jobChannel j = none → update jobChannel i none j = none := by
    intro j hj
    by_cases hji : j = i
    · rw [hji, update_self]
    · rwa [update_of_ne hji]
  refine ⟨h.started, h.nodup, fun j hj => ?_, fun j hj => ?_, fun j q hq => ?_⟩
  · exact ⟨(h.pool j hj).1, hnone j (h.pool j hj).2.1, (h.pool j hj).2.2⟩
  · exact ⟨(h.held j hj).1, hnone j (h.held j hj).2⟩
  · by_cases hji : j = i
    · rw [hji, update_self] at hq
      cases hq
    · rw [update_of_ne hji] at hq
      exact h.unread j q hq

theorem ChannelInv.takeJob (hi : worker i = .selecting) (hp : jobChannel i = some p) :
    ChannelInv maxWorkers workerPool assigner (update worker i (.delivering p))
      (update jobChannel i none) := by
  obtain ⟨hnot, hfree⟩ := h.of_unread hp
  have hread := h.read (i := i)
  refine ⟨fun j hj => ?_, h.nodup, fun j hj => ?_, fun j hj => ?_, fun j q hq => ?_⟩
  · by_cases hji : j = i
    · rw [hji]
      exact h.started i (by rw [hi]; decide)
    · rw [update_of_ne hji] at hj
      exact h.started j hj
  · have hji : j ≠ i := fun heq => hnot (heq ▸ hj)
    rw [update_of_ne hji]
    exact hread.pool j hj
  · have hji : j ≠ i := fun heq => hfree (heq ▸ hj)
    rw [update_of_ne hji]
    exact hread.held j hj
  · have hji : j ≠ i := by
      rintro rfl
      rw [update_self] at hq
      cases hq
    rw [update_of_ne hji]
    exact hread.unread j q hq

end

end

variable {cfg : DispatcherConfig} {σ : DispatcherState} {a : DispatcherAction}

def DispatcherState.ChannelsOk (cfg : DispatcherConfig) (σ : DispatcherState) : Prop :=
  ChannelInv cfg.maxWorkers σ.workerPool σ.assigner σ.worker σ.jobChannel

theorem DispatcherState.isInitial.channelsOk (h : σ.isInitial cfg) : σ.ChannelsOk cfg := by
  refine ⟨fun i hi => absurd (h.worker i) hi, ?_, ?_, ?_, ?_⟩
  · rw [h.workerPool]
    exact nodup_nil
  · rw [h.workerPool]
    nofun
  · rw [h.assigner]
    nofun
  · intro i p hp
    rw [h.jobChannel] at hp
    cases hp

theorem DispatcherState.ChannelsOk.step (h : σ.ChannelsOk cfg) (ha : σ.enabled cfg a) :
    (σ.apply cfg a).ChannelsOk cfg := by
  have hstarted : ∀ {i w}, σ.worker i = w → w ≠ .starting → i < cfg.maxWorkers :=
    fun hi hw => h.started _ (hi ▸ hw)
  cases a with
  | takeWorker i => exact h.takeWorker ha.2
  | stopSelecting | stopWaiting i => exact h.moveAssigner nofun
  | tryNext i =>
    have hassigner : σ.assigner = .trying i := ha
    refine h.moveAssigner fun j hj => ?_
    rw [hassigner]
    revert hj
    simp only [apply]
    cases σ.lanes.sched.tryNext.1 <;> exact id
  | wakeUp i =>
    refine h.moveAssigner fun j hj => ?_
    rw [ha.1]
    exact hj
  | assign i p => exact h.assign (by rw [ha.1]; rfl)
  | start i => exact h.moveWorker ha.1 (by rw [ha.2]; rfl)
  | register i => exact h.register ha.1
  | takeJob i p => exact h.takeJob ha.1 ha.2
  | deliver i p =>
    have hi : σ.worker i = .delivering p := ha
    exact h.moveWorker (hstarted hi nofun) (by rw [hi]; rfl)
  | finish i p =>
    have hi : σ.worker i = .finishing p := ha
    exact h.moveWorker (hstarted hi nofun) (by rw [hi]; rfl)
  | signalDone i =>
    have hi : σ.worker i = .signalling := ha
    exact h.moveWorker (hstarted hi nofun) (by rw [hi]; rfl)
  | takeQuit i => exact h.moveWorker (hstarted ha.1 nofun) (by rw [ha.1]; rfl)
  | leave i =>
    have hi : σ.worker i = .quitting := ha
    exact h.moveWorker (hstarted hi nofun) (by rw [hi]; rfl)
  | release i p => exact h.read
  | _ => exact h

/-! ## Working and quitting -/

def DispatcherState.WorkingOk (σ : DispatcherState) : Prop :=
  ∀ i, σ.working i = (σ.worker i).isWorking

theorem DispatcherState.WorkingOk.step (h : σ.WorkingOk) (ha : σ.enabled cfg a) :
    (σ.apply cfg a).WorkingOk := by
  have hmove : ∀ {i w}, (σ.worker i).isWorking = w.isWorking →
      ∀ j, σ.working j = (update σ.worker i w j).isWorking := by
    intro i w hw j
    rw [h j]
    by_cases hj : j = i
    · rw [hj, update_self, hw]
    · rw [update_of_ne hj]
  cases a with
  | start i | leave i =>
    intro j
    simp only [apply]
    by_cases hj : j = i
    · rw [hj, update_self, update_self]
      rfl
    · rw [update_of_ne hj, update_of_ne hj]
      exact h j
  | register i => exact hmove (by rw [ha.1]; rfl)
  | takeJob i p => exact hmove (by rw [ha.1]; rfl)
  | takeQuit i => exact hmove (by rw [ha.1]; rfl)
  | deliver i p | finish i p | signalDone i =>
    exact hmove (by rw [show σ.worker i = _ from ha]; rfl)
  | _ => exact h

structure QuitInv (worker : WorkLoop) (quit : Bool) (stopCall : StopCall) (quitter : QuitCall) :
    Prop where
  before : stopCall = .notStarted ∨ stopCall = .calling → quitter = .notStarted
  after : stopCall = .finishing ∨ stopCall = .returned → quitter ≠ .notStarted
  slot : quit = true → quitter = .returned
  sent : quitter = .returned → quit = true ∨ worker = .quitting ∨ worker = .returned

def DispatcherState.QuitOk (σ : DispatcherState) : Prop :=
  ∀ i, QuitInv (σ.worker i) (σ.quit i) (σ.stopCall i) (σ.quitter i)

theorem DispatcherState.isInitial.quitOk (h : σ.isInitial cfg) : σ.QuitOk := by
  intro i
  rw [h.worker, h.quit, h.stopCall, h.quitter]
  exact ⟨fun _ => rfl, by simp, by simp, by simp⟩

theorem QuitInv.moveWorker {worker worker' : WorkLoop} {quit : Bool} {stopCall : StopCall}
    {quitter : QuitCall} (h : QuitInv worker quit stopCall quitter)
    (hw : worker = .quitting ∨ worker = .returned → worker' = .quitting ∨ worker' = .returned) :
    QuitInv worker' quit stopCall quitter :=
  ⟨h.before, h.after, h.slot, fun hsent => (h.sent hsent).imp_right hw⟩

theorem DispatcherState.QuitOk.of_ne {σ' : DispatcherState} (h : σ.QuitOk) (i : Nat)
    (hi : QuitInv (σ'.worker i) (σ'.quit i) (σ'.stopCall i) (σ'.quitter i))
    (hne : ∀ j, j ≠ i → σ'.worker j = σ.worker j ∧ σ'.quit j = σ.quit j ∧
      σ'.stopCall j = σ.stopCall j ∧ σ'.quitter j = σ.quitter j) : σ'.QuitOk := by
  intro j
  by_cases hj : j = i
  · rwa [hj]
  · obtain ⟨hworker, hquit, hcall, hquitter⟩ := hne j hj
    rw [hworker, hquit, hcall, hquitter]
    exact h j

theorem DispatcherState.QuitOk.step (h : σ.QuitOk) (ha : σ.enabled cfg a)
    (hspawn : ∀ i, σ.stop = .spawning i → σ.stopCall i = .notStarted) :
    (σ.apply cfg a).QuitOk := by
  have hmove : ∀ {i w w'}, σ.worker i = w → (w = .quitting ∨ w = .returned →
      w' = .quitting ∨ w' = .returned) → ∀ j,
      QuitInv (update σ.worker i w' j) (σ.quit j) (σ.stopCall j) (σ.quitter j) := by
    rintro i w w' rfl hw j
    by_cases hj : j = i
    · rw [hj, update_self]
      exact (h i).moveWorker hw
    · rw [update_of_ne hj]
      exact h j
  cases a with
  | start i => exact hmove ha.2 (by simp)
  | register i => exact hmove ha.1 (by simp)
  | takeJob i p => exact hmove ha.1 (by simp)
  | deliver i p | finish i p | signalDone i | leave i => exact hmove ha (by simp)
  | takeQuit i =>
    refine h.of_ne i ?_ fun j hj =>
      ⟨update_of_ne hj _ _, update_of_ne hj _ _, rfl, rfl⟩
    simp only [apply, update_self]
    exact ⟨(h i).before, (h i).after, nofun, fun _ => .inr (.inl rfl)⟩
  | stopWorker i =>
    have hcall : σ.stopCall i = .calling := ha
    have hnot := (h i).before (.inr hcall)
    refine h.of_ne i ?_ fun j hj =>
      ⟨rfl, rfl, update_of_ne hj _ _, update_of_ne hj _ _⟩
    simp only [apply, update_self]
    refine ⟨by simp, by simp, fun hquit => ?_, by simp⟩
    rw [(h i).slot hquit] at hnot
    cases hnot
  | stoppedWorker i =>
    have hcall : σ.stopCall i = .finishing := ha
    refine h.of_ne i ?_ fun j hj => ⟨rfl, rfl, update_of_ne hj _ _, rfl⟩
    simp only [apply, update_self]
    exact ⟨by simp, fun _ => (h i).after (.inl hcall), (h i).slot, (h i).sent⟩
  | sendQuit i =>
    refine h.of_ne i ?_ fun j hj =>
      ⟨rfl, update_of_ne hj _ _, rfl, update_of_ne hj _ _⟩
    simp only [apply, update_self]
    refine ⟨fun hcall => ?_, by simp, fun _ => rfl, fun _ => .inl rfl⟩
    have hsending := ha.1
    rw [(h i).before hcall] at hsending
    cases hsending
  | spawn i =>
    refine h.of_ne i ?_ fun j hj => ⟨rfl, rfl, update_of_ne hj _ _, rfl⟩
    simp only [apply, update_self]
    exact ⟨fun _ => (h i).before (.inl (hspawn i ha.1)), by simp, (h i).slot, (h i).sent⟩
  | _ => exact h

/-! ## Stopping the loops -/

structure StopperInv (recoveryWorkersEnabled : Bool) (dispatcher : DispatchLoop)
    (sender : Sender → SenderPos) (schedulerStop : Bool) (stopper : Stopper) : Prop where
  dispatcher : dispatcher = .returned ↔ Stopper.closing.rank ≤ stopper.rank
  schedulerStop : schedulerStop = true ↔ Stopper.closing.rank < stopper.rank
  loops : recoveryWorkersEnabled = true → ∀ l,
    (sender (.recovery l) = .returned ↔ (Stopper.stoppingLoop l).rank < stopper.rank)
  recovery : ∀ l, stopper = .stoppingLoop l → recoveryWorkersEnabled = true
  stale : ∀ p messages jobs, sender (.recovery .stale) ≠ .sending p messages jobs

section
variable {recoveryWorkersEnabled schedulerStop : Bool} {dispatcher dispatcher' : DispatchLoop}
  {sender : Sender → SenderPos} {stopper : Stopper}

theorem StopperInv.moveDispatcher
    (h : StopperInv recoveryWorkersEnabled dispatcher sender schedulerStop stopper)
    (hd : dispatcher ≠ .returned) (hd' : dispatcher' ≠ .returned) :
    StopperInv recoveryWorkersEnabled dispatcher' sender schedulerStop stopper :=
  ⟨(iff_of_false hd' hd).trans h.dispatcher, h.schedulerStop, h.loops, h.recovery, h.stale⟩

theorem StopperInv.moveSender {s : Sender} {pos : SenderPos}
    (h : StopperInv recoveryWorkersEnabled dispatcher sender schedulerStop stopper)
    (hs : sender s ≠ .returned) (hpos : pos ≠ .returned)
    (hstale : ∀ p messages jobs, pos = .sending p messages jobs → s ≠ .recovery .stale) :
    StopperInv recoveryWorkersEnabled dispatcher (update sender s pos) schedulerStop
      stopper := by
  refine ⟨h.dispatcher, h.schedulerStop, fun henabled l => ?_, h.recovery,
    fun p messages jobs => ?_⟩
  · by_cases hl : .recovery l = s
    · rw [← h.loops henabled l, hl, update_self]
      exact iff_of_false hpos hs
    · rw [update_of_ne hl]
      exact h.loops henabled l
  · by_cases hl : .recovery .stale = s
    · rw [hl, update_self]
      exact fun hsending => hstale p messages jobs hsending hl.symm
    · rw [update_of_ne hl]
      exact h.stale p messages jobs

end

def DispatcherState.StopperOk (cfg : DispatcherConfig) (σ : DispatcherState) : Prop :=
  StopperInv cfg.recoveryWorkersEnabled σ.dispatcher σ.sender σ.schedulerStop σ.stopper

theorem DispatcherState.isInitial.stopperOk (h : σ.isInitial cfg) : σ.StopperOk cfg := by
  refine ⟨?_, ?_, fun henabled l => ?_, ?_, ?_⟩
  · rw [h.dispatcher, h.stopper]
    decide
  · rw [h.schedulerStop, h.stopper]
    decide
  · rw [h.recovery, henabled, h.stopper]
    simp [Stopper.rank]
  · rw [h.stopper]
    nofun
  · rw [h.recovery]
    intro p messages jobs
    split <;> nofun

theorem DispatcherState.StopperOk.step (h : σ.StopperOk cfg) (ha : σ.enabled cfg a)
    (henter : σ.stop = .called → σ.stopper = .notStarted) : (σ.apply cfg a).StopperOk cfg := by
  cases a with
  | receive p => exact h.moveDispatcher (by rw [ha.1]; nofun) nofun
  | enqueue p =>
    refine h.moveDispatcher (by rw [show σ.dispatcher = _ from ha]; nofun) ?_
    simp only [apply]
    split <;> nofun
  | signalEnqueued =>
    exact h.moveDispatcher (by rw [show σ.dispatcher = _ from ha]; nofun) nofun
  | begin s messages jobs => exact h.moveSender (by rw [ha.1]; nofun) nofun nofun
  | dispatch s messages jobs | skip s p messages jobs | endPass s =>
    exact h.moveSender (by rw [show σ.sender s = _ from ha]; nofun) nofun nofun
  | queue s p messages jobs =>
    refine h.moveSender (by rw [ha.1]; nofun) nofun fun _ _ _ _ hs => ?_
    rw [hs] at ha
    cases ha.2
  | send s p messages jobs => exact h.moveSender (by rw [ha.1]; nofun) nofun nofun
  | panics l p messages jobs => exact h.moveSender (by rw [ha.1]; nofun) nofun nofun
  | handOver s p messages jobs =>
    have hsender : StopperInv cfg.recoveryWorkersEnabled σ.dispatcher
        (update σ.sender s (.visiting messages jobs)) σ.schedulerStop σ.stopper :=
      h.moveSender (by rw [ha.1]; nofun) nofun nofun
    exact hsender.moveDispatcher (by rw [ha.2.2]; nofun) nofun
  | stopDispatcher =>
    obtain ⟨-, hclosed, hloops, -, hstale⟩ := h
    rw [ha.1] at hclosed hloops
    refine ⟨by simp [apply], hclosed.trans (by simp [apply, Stopper.rank]), fun henabled l => ?_,
      nofun, hstale⟩
    cases l <;> exact (hloops henabled _).trans (by simp [apply, Stopper.rank])
  | closeScheduler =>
    obtain ⟨hdispatcher, -, hloops, -, hstale⟩ := h
    rw [show σ.stopper = _ from ha] at hdispatcher hloops
    have hreturned : σ.dispatcher = .returned := hdispatcher.2 le_rfl
    simp only [StopperOk, apply]
    split
    · rename_i henabled
      refine ⟨by simp [hreturned, Stopper.rank], by simp [Stopper.rank], fun _ l => ?_,
        fun _ _ => henabled, hstale⟩
      cases l <;> exact (hloops henabled _).trans (by simp [Stopper.rank])
    · rename_i hdisabled
      exact ⟨by simp [hreturned, Stopper.rank], by simp [Stopper.rank],
        fun henabled => absurd henabled hdisabled, nofun, hstale⟩
  | stopLoop l =>
    obtain ⟨hdispatcher, hclosed, hloops, hrecovery, hstale⟩ := h
    have henabled := hrecovery l ha.1
    rw [ha.1] at hdispatcher hclosed hloops
    have hreturned : σ.dispatcher = .returned := hdispatcher.2 (by cases l <;> decide)
    have hstop : σ.schedulerStop = true := hclosed.2 (by cases l <;> decide)
    have hafter : Stopper.closing.rank < l.afterStop.rank := by cases l <;> decide
    refine ⟨iff_of_true hreturned hafter.le, iff_of_true hstop hafter, fun _ k => ?_,
      fun _ _ => henabled, fun p messages jobs => ?_⟩
    · simp only [apply]
      by_cases hk : k = l
      · subst hk
        rw [update_self]
        exact iff_of_true rfl (by cases k <;> decide)
      · rw [update_of_ne fun heq => hk (Sender.recovery.inj heq)]
        refine (hloops henabled k).trans ?_
        revert hk
        cases k <;> cases l <;> decide
    · simp only [apply]
      by_cases hl : Sender.recovery .stale = .recovery l
      · rw [hl, update_self]
        nofun
      · rw [update_of_ne hl]
        exact hstale p messages jobs
  | discardQueued | stoppedLoops =>
    obtain ⟨hdispatcher, hclosed, hloops, -, hstale⟩ := h
    rw [show σ.stopper = _ from ha] at hdispatcher hclosed hloops
    refine ⟨hdispatcher.trans (by simp [apply, Stopper.rank]),
      hclosed.trans (by simp [apply, Stopper.rank]), fun henabled l => ?_, nofun, hstale⟩
    cases l <;> exact (hloops henabled _).trans (by simp [apply, Stopper.rank])
  | enter =>
    obtain ⟨hdispatcher, hclosed, hloops, -, hstale⟩ := h
    rw [henter ha.1] at hdispatcher hclosed hloops
    refine ⟨hdispatcher.trans (by simp [apply, Stopper.rank]),
      hclosed.trans (by simp [apply, Stopper.rank]), fun henabled l => ?_, nofun, hstale⟩
    cases l <;> exact (hloops henabled _).trans (by simp [apply, Stopper.rank])
  | _ => exact h

/-! ## `Stop` -/

/-- Has `Stop` started its goroutines, without having given up? -/
def StopPos.isStarted : StopPos → Bool
  | .notCalled | .called | .timedOut => false
  | _ => true

/-- Is `Stop` in `releaseUnreadJobs`, or has it returned from there? -/
def StopPos.isReleasing : StopPos → Bool
  | .checking | .awaiting | .releasing _ | .signalling _ | .returned => true
  | _ => false

/-- How many workers have their goroutine that stops them. -/
def StopPos.calls (maxWorkers : Nat) : StopPos → Nat
  | .notCalled | .called => 0
  | .spawning i => i
  | _ => maxWorkers

def StopPos.index : StopPos → Nat
  | .spawning i | .polling i _ | .releasing i => i
  | .signalling i => i + 1
  | _ => 0

structure StopInv (maxWorkers : Nat) (stop : StopPos) (stopper : Stopper)
    (stopCall : Nat → StopCall) : Prop where
  index : stop.index ≤ maxWorkers
  notStarted : stop = .notCalled ∨ stop = .called → stopper = .notStarted
  started : stop.isStarted = true → stopper ≠ .notStarted
  calls : stop ≠ .timedOut → ∀ i, (stopCall i = .notStarted ↔ stop.calls maxWorkers ≤ i)
  releasing : stop.isReleasing = true →
    stopper = .returned ∧ ∀ i < maxWorkers, stopCall i = .returned

section
variable {maxWorkers : Nat} {stop stop' : StopPos} {stopper stopper' : Stopper}
  {stopCall : Nat → StopCall}

section
variable (h : StopInv maxWorkers stop stopper stopCall)
include h

theorem StopInv.moveStopper (hs : stopper ≠ .notStarted) (hs' : stopper' ≠ .notStarted)
    (hreturned : stopper ≠ .returned) : StopInv maxWorkers stop stopper' stopCall :=
  ⟨h.index, fun hstop => absurd (h.notStarted hstop) hs, fun _ => hs', h.calls,
    fun hstop => absurd (h.releasing hstop).1 hreturned⟩

theorem StopInv.moveCall {i : Nat} {call call' : StopCall} (hi : stopCall i = call)
    (hcall : call ≠ .notStarted) (hcall' : call' ≠ .notStarted) (hreturned : call ≠ .returned) :
    StopInv maxWorkers stop stopper (update stopCall i call') := by
  subst hi
  refine ⟨h.index, h.notStarted, h.started, fun hstop j => ?_, fun hstop => ?_⟩
  · by_cases hj : j = i
    · rw [← h.calls hstop j, hj, update_self]
      exact iff_of_false hcall' hcall
    · rw [update_of_ne hj]
      exact h.calls hstop j
  · obtain ⟨hstopper, hall⟩ := h.releasing hstop
    refine ⟨hstopper, fun j hj => ?_⟩
    by_cases hji : j = i
    · rw [hji] at hj
      exact absurd (hall i hj) hreturned
    · rw [update_of_ne hji]
      exact hall j hj

theorem StopInv.moveStop (hindex : stop'.index ≤ maxWorkers) (hstarted : stop.isStarted = true)
    (hstarted' : stop'.isStarted = true) (hcalls : stop.calls maxWorkers = maxWorkers)
    (hcalls' : stop'.calls maxWorkers = maxWorkers)
    (hreleasing : stop'.isReleasing = true → stopper = .returned ∧ ∀ i < maxWorkers, stopCall i =
      .returned) : StopInv maxWorkers stop' stopper stopCall := by
  refine ⟨hindex, ?_, fun _ => h.started hstarted, fun _ i => ?_, hreleasing⟩
  · rintro (rfl | rfl) <;> cases hstarted'
  · have hne : stop ≠ .timedOut := by
      rintro rfl
      cases hstarted
    rw [hcalls', ← hcalls]
    exact h.calls hne i

end

end

def DispatcherState.StopOk (cfg : DispatcherConfig) (σ : DispatcherState) : Prop :=
  StopInv cfg.maxWorkers σ.stop σ.stopper σ.stopCall

theorem DispatcherState.isInitial.stopOk (h : σ.isInitial cfg) : σ.StopOk cfg := by
  rw [StopOk, h.stop, h.stopper]
  refine ⟨Nat.zero_le _, fun _ => rfl, nofun, fun _ i => ?_, nofun⟩
  exact iff_of_true (h.stopCall i) (Nat.zero_le i)

theorem DispatcherState.StopOk.step (h : σ.StopOk cfg) (ha : σ.enabled cfg a) :
    (σ.apply cfg a).StopOk cfg := by
  cases a with
  | stopWorker i | stoppedWorker i => exact h.moveCall ha nofun nofun nofun
  | stopDispatcher => exact h.moveStopper (by rw [ha.1]; nofun) nofun (by rw [ha.1]; nofun)
  | closeScheduler =>
    have hstopper : σ.stopper = .closing := ha
    refine h.moveStopper (by rw [hstopper]; nofun) ?_ (by rw [hstopper]; nofun)
    simp only [apply]
    split <;> nofun
  | stopLoop l =>
    refine h.moveStopper (by rw [ha.1]; nofun) ?_ (by rw [ha.1]; nofun)
    cases l <;> nofun
  | discardQueued | stoppedLoops =>
    have hstopper : σ.stopper = _ := ha
    exact h.moveStopper (by rw [hstopper]; nofun) nofun (by rw [hstopper]; nofun)
  | call =>
    have hstop : σ.stop = .notCalled := ha
    have hcalls := h.calls (by rw [hstop]; nofun)
    rw [hstop] at hcalls
    exact ⟨Nat.zero_le _, fun _ => h.notStarted (.inl hstop), nofun, fun _ => hcalls, nofun⟩
  | giveUp | contextDone =>
    exact ⟨Nat.zero_le _, by simp [apply], nofun, fun hne => absurd rfl hne, nofun⟩
  | enter =>
    have hcalls := h.calls (by rw [ha.1]; nofun)
    rw [ha.1] at hcalls
    exact ⟨Nat.zero_le _, by simp [apply], fun _ => nofun, fun _ => hcalls, nofun⟩
  | spawn i =>
    obtain ⟨hstop, hi⟩ := ha
    have hcalls := h.calls (by rw [hstop]; nofun)
    rw [hstop] at hcalls
    have hstarted := h.started (by rw [hstop]; rfl)
    refine ⟨hi, by simp [apply], fun _ => hstarted, fun _ j => ?_, nofun⟩
    simp only [apply, StopPos.calls] at hcalls ⊢
    by_cases hj : j = i
    · rw [hj, update_self]
      exact iff_of_false nofun (Nat.not_succ_le_self i)
    · rw [update_of_ne hj, hcalls j]
      omega
  | spawned =>
    have hstop : σ.stop = .spawning cfg.maxWorkers := ha
    exact h.moveStop (Nat.zero_le _) (by rw [hstop]; rfl) rfl (by rw [hstop]; rfl) rfl nofun
  | poll i localRun =>
    exact h.moveStop ha.2 (by rw [ha.1]; rfl) rfl (by rw [ha.1]; rfl) rfl nofun
  | polled localRun =>
    have hstop : σ.stop = .polling cfg.maxWorkers localRun := ha
    cases localRun with
    | true =>
      exact h.moveStop (Nat.zero_le _) (by rw [hstop]; rfl) rfl (by rw [hstop]; rfl) rfl nofun
    | false =>
      exact h.moveStop (Nat.zero_le _) (by rw [hstop]; rfl) rfl (by rw [hstop]; rfl) rfl nofun
  | wait =>
    exact h.moveStop (Nat.zero_le _) (by rw [ha.1]; rfl) rfl (by rw [ha.1]; rfl) rfl
      fun _ => ha.2
  | check =>
    have hstop : σ.stop = .checking := ha
    have hreleasing := h.releasing (by rw [hstop]; rfl)
    simp only [StopOk, apply]
    split <;> exact h.moveStop (Nat.zero_le _) (by rw [hstop]; rfl) rfl (by rw [hstop]; rfl) rfl
      fun _ => hreleasing
  | assignerDone =>
    exact h.moveStop (Nat.zero_le _) (by rw [ha.1]; rfl) rfl (by rw [ha.1]; rfl) rfl
      fun _ => h.releasing (by rw [ha.1]; rfl)
  | release i p | noJob i =>
    exact h.moveStop ha.2.1 (by rw [ha.1]; rfl) rfl (by rw [ha.1]; rfl) rfl
      fun _ => h.releasing (by rw [ha.1]; rfl)
  | signalReleased i =>
    have hstop : σ.stop = .signalling i := ha
    have hindex := h.index
    rw [hstop] at hindex
    exact h.moveStop hindex (by rw [hstop]; rfl) rfl (by rw [hstop]; rfl) rfl
      fun _ => h.releasing (by rw [hstop]; rfl)
  | stopped =>
    have hstop : σ.stop = .releasing cfg.maxWorkers := ha
    exact h.moveStop (Nat.zero_le _) (by rw [hstop]; rfl) rfl (by rw [hstop]; rfl) rfl
      fun _ => h.releasing (by rw [hstop]; rfl)
  | _ => exact h

structure DispatcherInv (cfg : DispatcherConfig) (σ : DispatcherState) : Prop where
  channels : σ.ChannelsOk cfg
  working : σ.WorkingOk
  quit : σ.QuitOk
  stopper : σ.StopperOk cfg
  stop : σ.StopOk cfg

theorem DispatcherState.isInitial.inv (h : σ.isInitial cfg) : DispatcherInv cfg σ := by
  refine ⟨h.channelsOk, fun i => ?_, h.quitOk, h.stopperOk, h.stopOk⟩
  rw [h.worker, h.working]
  rfl

theorem DispatcherInv.step (h : DispatcherInv cfg σ) (ha : σ.enabled cfg a) :
    DispatcherInv cfg (σ.apply cfg a) := by
  refine ⟨h.channels.step ha, h.working.step ha, h.quit.step ha fun i hstop => ?_,
    h.stopper.step ha fun hstop => h.stop.notStarted (.inr hstop), h.stop.step ha⟩
  have hcalls := h.stop.calls (by rw [hstop]; nofun) i
  rw [hstop] at hcalls
  exact hcalls.2 le_rfl

theorem DispatcherRun.inv (r : DispatcherRun cfg) {n : Nat} (hn : n ≤ r.len) :
    DispatcherInv cfg (r.state n) :=
  r.invariant (fun _ h => h.inv) (fun _ _ h ha => h.step ha) hn

end WebhookBroker
