import WebhookBroker.Dispatcher.GoroutineInvariant

/-!
# Can `Stop` come to an end? (`dispatcher/msgdispatcher.go`)

`Stop` polls the workers, waits for its goroutines and then for the assigner, and each of these
waits for others in turn (`WaitsFor`). `Stop` hangs when none of them can take a step
(`Deadlocked`). There is one way to get there (`BlockedBySend`): the loop of the dispatcher is
stopped first, so nobody takes a job from the queue any more, and then a recovery loop is to be
stopped that stands at its send to the full queue. Once there, `Stop` never returns
(`BlockedBySend.step`).
-/

namespace WebhookBroker

open List

open Lib Relation

/-- The goroutines of a dispatcher, and the timer of `Stop`. -/
inductive Goroutine where
  | stop
  | stopper
  | dispatcher
  | assigner
  | worker (i : Nat)
  | stopCall (i : Nat)
  | quitter (i : Nat)
  | sender (s : Sender)
  | timer
deriving DecidableEq

namespace DispatcherAction

/-- Who takes the step; a send without buffer is a step of both sides. -/
def goroutines : DispatcherAction → List Goroutine
  | .receive _ | .enqueue _ | .signalEnqueued => [.dispatcher]
  | .takeWorker _ | .stopSelecting | .tryNext _ | .wakeUp _ | .stopWaiting _ | .assign _ _ =>
    [.assigner]
  | .start i | .register i | .takeJob i _ | .deliver i _ | .finish i _ | .signalDone i
  | .takeQuit i | .leave i => [.worker i]
  | .stopWorker i | .stoppedWorker i => [.stopCall i]
  | .sendQuit i => [.quitter i]
  | .begin s _ _ | .dispatch s _ _ | .skip s _ _ _ | .queue s _ _ _ | .send s _ _ _ | .endPass s =>
    [.sender s]
  | .panics l _ _ _ => [.sender (.recovery l)]
  | .handOver s _ _ _ => [.sender s, .dispatcher]
  | .stopDispatcher => [.stopper, .dispatcher]
  | .stopLoop l => [.stopper, .sender (.recovery l)]
  | .closeScheduler | .discardQueued | .stoppedLoops => [.stopper]
  | .call | .giveUp | .enter | .spawn _ | .spawned | .poll _ _ | .polled _ | .wait | .check
  | .assignerDone | .contextDone | .release _ _ | .noJob _ | .signalReleased _ | .stopped => [.stop]
  | .timeOut => [.timer]

/-- Is it a step of the loop that reads `working` of all workers? -/
def isPoll : DispatcherAction → Bool
  | .poll _ _ | .polled _ => true
  | _ => false

end DispatcherAction

namespace DispatcherState

/-- The goroutine can take a step. A round of the polling loop of `Stop` counts only if no worker is
working, so that the loop can end. -/
def CanStep (cfg : DispatcherConfig) (σ : DispatcherState) (g : Goroutine) : Prop :=
  ∃ a : DispatcherAction, g ∈ a.goroutines ∧ σ.enabled cfg a ∧
    (a.isPoll = true → ∀ i < cfg.maxWorkers, σ.working i = false)

/-- The first goroutine cannot go on, or not for long, without the second. -/
inductive WaitsFor (cfg : DispatcherConfig) (σ : DispatcherState) : Goroutine → Goroutine → Prop
  -- the polling loop, `wg.Wait()` and `<-assignerDone` of `Stop`
  | working {j i : Nat} {localRun : Bool} : σ.stop = .polling j localRun → i < cfg.maxWorkers →
      σ.working i = true → WaitsFor cfg σ .stop (.worker i)
  | stopper : σ.stop = .waiting → σ.stopper ≠ .returned → WaitsFor cfg σ .stop .stopper
  | stopCall {i : Nat} : σ.stop = .waiting → i < cfg.maxWorkers → σ.stopCall i ≠ .returned →
      WaitsFor cfg σ .stop (.stopCall i)
  | assignerDone : σ.stop = .awaiting → WaitsFor cfg σ .stop .assigner
  -- the sends to the channels that stop the loops
  | dispatcherStop : σ.stopper = .stoppingDispatcher → WaitsFor cfg σ .stopper .dispatcher
  | loopStop {l : RecoveryLoop} : σ.stopper = .stoppingLoop l →
      WaitsFor cfg σ .stopper (.sender (.recovery l))
  -- the send to `jobQueue`, and the `select` on its other side
  | jobQueue {s : Sender} {p : JobPtr} {messages : Nat} {jobs : List JobPtr} :
      σ.sender s = .sending p messages jobs → WaitsFor cfg σ (.sender s) .dispatcher
  | job {s : Sender} : σ.dispatcher = .selecting → WaitsFor cfg σ .dispatcher (.sender s)
  | dispatcherStopped : σ.dispatcher = .selecting → WaitsFor cfg σ .dispatcher .stopper
  | loopStopped {l : RecoveryLoop} : σ.sender (.recovery l) = .selecting →
      WaitsFor cfg σ (.sender (.recovery l)) .stopper
  -- the send to `workerPool`, and the `select` of a worker
  | pool {i : Nat} : σ.worker i = .registering → WaitsFor cfg σ (.worker i) .assigner
  | assignment {i : Nat} : σ.worker i = .selecting → WaitsFor cfg σ (.worker i) .assigner
  | quitCall {i : Nat} : σ.worker i = .selecting → WaitsFor cfg σ (.worker i) (.stopCall i)
  | quit {i : Nat} : σ.worker i = .selecting → WaitsFor cfg σ (.worker i) (.quitter i)
  | quitSlot {i : Nat} : σ.quitter i = .sending → WaitsFor cfg σ (.quitter i) (.worker i)
  -- the two `select`s of the assigner, and its send to `jobChannel`
  | idleWorker {i : Nat} : σ.assigner = .selecting → WaitsFor cfg σ .assigner (.worker i)
  | selectStopped : σ.assigner = .selecting → WaitsFor cfg σ .assigner .stopper
  | enqueueSignal {i : Nat} : σ.assigner = .waiting i → WaitsFor cfg σ .assigner .dispatcher
  | doneSignal {i j : Nat} : σ.assigner = .waiting i → WaitsFor cfg σ .assigner (.worker j)
  | waitStopped {i : Nat} : σ.assigner = .waiting i → WaitsFor cfg σ .assigner .stopper
  | jobChannel {i : Nat} {p : JobPtr} : σ.assigner = .sending i p →
      WaitsFor cfg σ .assigner (.worker i)

/-- `Stop` has not returned, and no goroutine that it waits for, directly or indirectly, can take a
step, and neither can `Stop`. -/
def Deadlocked (cfg : DispatcherConfig) (σ : DispatcherState) : Prop :=
  (σ.stop ≠ .notCalled ∧ σ.stop ≠ .returned ∧ σ.stop ≠ .timedOut) ∧
    ∀ g, ReflTransGen (WaitsFor cfg σ) .stop g → ¬ σ.CanStep cfg g

/-- `Stop` is at `wg.Wait()` and waits only for the goroutine that stops the loops, which is to stop
a recovery loop that stands at its send to the full queue. -/
structure BlockedBySend (cfg : DispatcherConfig) (σ : DispatcherState) : Prop where
  stop : σ.stop = .waiting
  calls : ∀ i < cfg.maxWorkers, σ.stopCall i = .returned
  loop : ∃ l p messages jobs, σ.stopper = .stoppingLoop l ∧
    σ.sender (.recovery l) = .sending p messages jobs
  full : cfg.maxMessageQueueSize ≤ σ.jobQueue.length

end DispatcherState

section
variable {cfg : DispatcherConfig} {σ : DispatcherState}

open DispatcherState

theorem DispatcherState.CanStep.of_enabled {g : Goroutine} (a : DispatcherAction)
    (hg : a.goroutines.head? = some g) (ha : σ.enabled cfg a) (hpoll : a.isPoll = false) :
    σ.CanStep cfg g := by
  refine ⟨a, mem_of_head? hg, ha, fun h => ?_⟩
  rw [hpoll] at h
  cases h

/-! ## The workers and the assigner can always go on -/

theorem DispatcherInv.pool_room (h : DispatcherInv cfg σ) {i : Nat}
    (hi : σ.worker i = .registering) : σ.workerPool.length < cfg.maxWorkers := by
  have hnot : i ∉ σ.workerPool := (h.channels.of_not_registered (by rw [hi]; rfl)).1
  have hsub : ∀ j ∈ i :: σ.workerPool, j ∈ List.range cfg.maxWorkers := by
    intro j hj
    refine mem_range.2 (h.channels.started j ?_)
    rcases mem_cons.1 hj with rfl | hj
    · rw [hi]
      nofun
    · intro hstarting
      have hregistered := (h.channels.pool j hj).1
      rw [hstarting] at hregistered
      cases hregistered
  have hlen := (subperm_of_subset (nodup_cons.2 ⟨hnot, h.channels.nodup⟩) hsub).length_le
  rwa [length_range, length_cons] at hlen

/-- A worker that works can go on, or the goroutines that stop it can. -/
theorem DispatcherInv.worker_goes_on (h : DispatcherInv cfg σ) {j i : Nat} {localRun : Bool}
    (hstop : σ.stop = .polling j localRun) (hi : i < cfg.maxWorkers)
    (hworking : σ.working i = true) :
    ∃ g, ReflTransGen (WaitsFor cfg σ) (.worker i) g ∧ σ.CanStep cfg g := by
  have hself : σ.CanStep cfg (.worker i) →
      ∃ g, ReflTransGen (WaitsFor cfg σ) (.worker i) g ∧ σ.CanStep cfg g :=
    fun hstep => ⟨_, .refl, hstep⟩
  rw [h.working i] at hworking
  cases hw : σ.worker i with
  | starting | returned =>
    rw [hw] at hworking
    cases hworking
  | registering =>
    exact hself (.of_enabled (.register i) rfl ⟨hw, h.pool_room hw⟩ rfl)
  | delivering p =>
    exact hself (.of_enabled (.deliver i p) rfl hw rfl)
  | finishing p =>
    exact hself (.of_enabled (.finish i p) rfl hw rfl)
  | signalling =>
    exact hself (.of_enabled (.signalDone i) rfl hw rfl)
  | quitting =>
    exact hself (.of_enabled (.leave i) rfl hw rfl)
  | selecting =>
    cases hquit : σ.quit i with
    | true =>
      exact hself (.of_enabled (.takeQuit i) rfl ⟨hw, hquit⟩ rfl)
    | false =>
      cases hcall : σ.stopCall i with
      | notStarted =>
        have hcalls := (h.stop.calls (by rw [hstop]; nofun) i).1 hcall
        rw [hstop] at hcalls
        exact absurd hi (Nat.not_lt.2 hcalls)
      | calling =>
        exact ⟨_, .single (.quitCall hw),
          .of_enabled (.stopWorker i) rfl hcall rfl⟩
      | finishing =>
        exact ⟨_, .single (.quitCall hw),
          .of_enabled (.stoppedWorker i) rfl hcall rfl⟩
      | returned =>
        cases hquitter : σ.quitter i with
        | notStarted => exact absurd hquitter ((h.quit i).after (.inr hcall))
        | sending =>
          exact ⟨_, .single (.quit hw),
            .of_enabled (.sendQuit i) rfl ⟨hquitter, hquit⟩ rfl⟩
        | returned =>
          rcases (h.quit i).sent hquitter with hsent | hsent | hsent
          · rw [hquit] at hsent
            cases hsent
          · rw [hw] at hsent
            cases hsent
          · rw [hw] at hsent
            cases hsent

/-- After the scheduler is closed, the assigner can go on until it returns. -/
theorem DispatcherInv.assigner_goes_on (h : DispatcherInv cfg σ) (hclosed : σ.schedulerStop = true)
    (hassigner : σ.assigner ≠ .returned) : σ.CanStep cfg .assigner := by
  cases hpos : σ.assigner with
  | selecting =>
    exact .of_enabled .stopSelecting rfl ⟨hpos, hclosed⟩ rfl
  | trying i => exact .of_enabled (.tryNext i) rfl hpos rfl
  | waiting i =>
    exact .of_enabled (.stopWaiting i) rfl ⟨hpos, hclosed⟩ rfl
  | sending i p =>
    have hempty := (h.channels.held i (by rw [hpos]; rfl)).2
    exact .of_enabled (.assign i p) rfl ⟨hpos, hempty⟩ rfl
  | returned => exact absurd hpos hassigner

/-! ## The goroutine that stops the loops -/

/-- The goroutine that stops the loops can go on, or the loop that it is to stop can, unless that
loop stands at its send to the full queue. -/
theorem DispatcherInv.stopper_goes_on (h : DispatcherInv cfg σ) (hstarted : σ.stopper ≠ .notStarted)
    (hreturned : σ.stopper ≠ .returned)
    (hroom : ∀ l p messages jobs, σ.stopper = .stoppingLoop l →
      σ.sender (.recovery l) = .sending p messages jobs →
      σ.jobQueue.length < cfg.maxMessageQueueSize) :
    ∃ g, ReflTransGen (WaitsFor cfg σ) .stopper g ∧ σ.CanStep cfg g := by
  have hself : σ.CanStep cfg .stopper →
      ∃ g, ReflTransGen (WaitsFor cfg σ) .stopper g ∧ σ.CanStep cfg g :=
    fun hstep => ⟨_, .refl, hstep⟩
  cases hpos : σ.stopper with
  | notStarted => exact absurd hpos hstarted
  | returned => exact absurd hpos hreturned
  | closing =>
    exact hself (.of_enabled .closeScheduler rfl hpos rfl)
  | discarding =>
    exact hself (.of_enabled .discardQueued rfl hpos rfl)
  | finishing =>
    exact hself (.of_enabled .stoppedLoops rfl hpos rfl)
  | stoppingDispatcher =>
    cases hdispatcher : σ.dispatcher with
    | selecting =>
      exact hself (.of_enabled .stopDispatcher rfl ⟨hpos, hdispatcher⟩ rfl)
    | dispatching p =>
      exact ⟨_, .single (.dispatcherStop hpos),
        .of_enabled (.enqueue p) rfl hdispatcher rfl⟩
    | signalling =>
      exact ⟨_, .single (.dispatcherStop hpos),
        .of_enabled .signalEnqueued rfl hdispatcher rfl⟩
    | returned =>
      have hrank := h.stopper.dispatcher.1 hdispatcher
      rw [hpos] at hrank
      exact absurd hrank (by decide)
  | stoppingLoop l =>
    have hloop : σ.CanStep cfg (.sender (.recovery l)) →
        ∃ g, ReflTransGen (WaitsFor cfg σ) .stopper g ∧ σ.CanStep cfg g :=
      fun hstep => ⟨_, .single (.loopStop hpos), hstep⟩
    cases hsender : σ.sender (.recovery l) with
    | selecting =>
      exact hself (.of_enabled (.stopLoop l) rfl ⟨hpos, hsender⟩ rfl)
    | visiting messages jobs =>
      cases jobs with
      | cons p jobs =>
        exact hloop (.of_enabled (.skip _ p messages jobs) rfl hsender rfl)
      | nil =>
        cases messages with
        | zero =>
          exact hloop (.of_enabled (.endPass _) rfl hsender rfl)
        | succ messages =>
          exact hloop (.of_enabled (.dispatch _ messages []) rfl hsender rfl)
    | sending p messages jobs =>
      exact hloop (.of_enabled (.send _ p messages jobs) rfl
        ⟨hsender, hroom l p messages jobs hpos hsender⟩ rfl)
    | returned =>
      have hrank := (h.stopper.loops (h.stopper.recovery l hpos) l).1 hsender
      rw [hpos] at hrank
      exact absurd hrank (Nat.lt_irrefl _)

/-! ## `Stop` -/

/-- `Stop`, or something it waits for, can go on, unless a recovery loop stands at its send to the
full queue. -/
theorem DispatcherInv.stop_goes_on (h : DispatcherInv cfg σ)
    (hactive : σ.stop ≠ .notCalled ∧ σ.stop ≠ .returned ∧ σ.stop ≠ .timedOut)
    (hnot : ¬ σ.BlockedBySend cfg) :
    ∃ g, ReflTransGen (WaitsFor cfg σ) .stop g ∧ σ.CanStep cfg g := by
  have hself : σ.CanStep cfg .stop →
      ∃ g, ReflTransGen (WaitsFor cfg σ) .stop g ∧ σ.CanStep cfg g :=
    fun hstep => ⟨_, .refl, hstep⟩
  have hindex := h.stop.index
  cases hpos : σ.stop with
  | notCalled => exact absurd hpos hactive.1
  | returned => exact absurd hpos hactive.2.1
  | timedOut => exact absurd hpos hactive.2.2
  | called =>
    cases htime : σ.timedOut with
    | true =>
      exact hself (.of_enabled .giveUp rfl ⟨hpos, htime⟩ rfl)
    | false =>
      exact hself (.of_enabled .enter rfl ⟨hpos, htime⟩ rfl)
  | spawning i =>
    rw [hpos] at hindex
    rcases Nat.lt_or_eq_of_le hindex with hlt | heq
    · exact hself (.of_enabled (.spawn i) rfl ⟨hpos, hlt⟩ rfl)
    · refine hself (.of_enabled .spawned rfl ?_ rfl)
      rw [show i = cfg.maxWorkers from heq] at hpos
      exact hpos
  | polling i localRun =>
    by_cases hworking : ∃ j < cfg.maxWorkers, σ.working j = true
    · obtain ⟨j, hj, hj'⟩ := hworking
      obtain ⟨g, hg, hstep⟩ := h.worker_goes_on hpos hj hj'
      exact ⟨g, .head (.working hpos hj hj') hg, hstep⟩
    · have hidle : ∀ j < cfg.maxWorkers, σ.working j = false := by
        intro j hj
        exact Bool.eq_false_iff.2 fun hj' => hworking ⟨j, hj, hj'⟩
      rw [hpos] at hindex
      rcases Nat.lt_or_eq_of_le hindex with hlt | heq
      · exact hself ⟨.poll i localRun, mem_cons_self, ⟨hpos, hlt⟩,
          fun _ => hidle⟩
      · refine hself ⟨.polled localRun, mem_cons_self, ?_, fun _ => hidle⟩
        rw [show i = cfg.maxWorkers from heq] at hpos
        exact hpos
  | waiting =>
    by_cases hcalls : ∀ i < cfg.maxWorkers, σ.stopCall i = .returned
    · by_cases hreturned : σ.stopper = .returned
      · exact hself (.of_enabled .wait rfl ⟨hpos, hreturned, hcalls⟩ rfl)
      · obtain ⟨g, hg, hstep⟩ := h.stopper_goes_on (h.stop.started (by rw [hpos]; rfl)) hreturned
          fun l p messages jobs hl hsender => Nat.lt_of_not_le fun hfull =>
            hnot ⟨hpos, hcalls, ⟨l, p, messages, jobs, hl, hsender⟩, hfull⟩
        exact ⟨g, .head (.stopper hpos hreturned) hg, hstep⟩
    · simp only [not_forall] at hcalls
      obtain ⟨i, hi, hcall⟩ := hcalls
      refine ⟨_, .single (.stopCall hpos hi hcall), ?_⟩
      cases hcall' : σ.stopCall i with
      | notStarted =>
        have hle := (h.stop.calls (by rw [hpos]; nofun) i).1 hcall'
        rw [hpos] at hle
        exact absurd hi (Nat.not_lt.2 hle)
      | calling =>
        exact .of_enabled (.stopWorker i) rfl hcall' rfl
      | finishing =>
        exact .of_enabled (.stoppedWorker i) rfl hcall' rfl
      | returned => exact absurd hcall' hcall
  | checking => exact hself (.of_enabled .check rfl hpos rfl)
  | awaiting =>
    by_cases hassigner : σ.assigner = .returned
    · exact hself (.of_enabled .assignerDone rfl ⟨hpos, hassigner⟩ rfl)
    · have hclosed : σ.schedulerStop = true := by
        refine h.stopper.schedulerStop.2 ?_
        rw [(h.stop.releasing (by rw [hpos]; rfl)).1]
        decide
      exact ⟨_, .single (.assignerDone hpos), h.assigner_goes_on hclosed hassigner⟩
  | releasing i =>
    rw [hpos] at hindex
    rcases Nat.lt_or_eq_of_le hindex with hlt | heq
    · cases hjob : σ.jobChannel i with
      | none =>
        exact hself (.of_enabled (.noJob i) rfl ⟨hpos, hlt, hjob⟩ rfl)
      | some p =>
        exact hself (.of_enabled (.release i p) rfl ⟨hpos, hlt, hjob⟩ rfl)
    · refine hself (.of_enabled .stopped rfl ?_ rfl)
      rw [show i = cfg.maxWorkers from heq] at hpos
      exact hpos
  | signalling i =>
    exact hself (.of_enabled (.signalReleased i) rfl hpos rfl)

/-! ## The deadlock

What the goroutines need to go on from where they stand. -/

section
variable {a : DispatcherAction}

theorem DispatcherState.enabled_stop (hg : .stop ∈ a.goroutines) (ha : σ.enabled cfg a)
    (hstop : σ.stop = .waiting) : σ.stopper = .returned := by
  cases a with
  | wait => exact ha.2.1
  | call | spawned | polled localRun | check | signalReleased i | stopped =>
    cases hstop.symm.trans ha
  | giveUp | enter | spawn i | poll i localRun | assignerDone | contextDone | release i p
  | noJob i => cases hstop.symm.trans ha.1
  | _ => simp [DispatcherAction.goroutines] at hg

theorem DispatcherState.enabled_stopper (hg : .stopper ∈ a.goroutines) (ha : σ.enabled cfg a)
    {l : RecoveryLoop} (hl : σ.stopper = .stoppingLoop l) :
    σ.sender (.recovery l) = .selecting := by
  cases a with
  | stopLoop l' =>
    obtain rfl := Stopper.stoppingLoop.inj (hl.symm.trans ha.1)
    exact ha.2
  | stopDispatcher => cases hl.symm.trans ha.1
  | closeScheduler | discardQueued | stoppedLoops => cases hl.symm.trans ha
  | _ => simp [DispatcherAction.goroutines] at hg

theorem DispatcherState.enabled_dispatcher (hg : .dispatcher ∈ a.goroutines)
    (ha : σ.enabled cfg a) : σ.dispatcher ≠ .returned := by
  intro hreturned
  cases a with
  | receive p => cases hreturned.symm.trans ha.1
  | enqueue p | signalEnqueued => cases hreturned.symm.trans ha
  | stopDispatcher => cases hreturned.symm.trans ha.2
  | handOver s p messages jobs => cases hreturned.symm.trans ha.2.2
  | _ => simp [DispatcherAction.goroutines] at hg

theorem DispatcherState.enabled_sender {s : Sender} {p : JobPtr} {messages : Nat}
    {jobs : List JobPtr} (hg : .sender s ∈ a.goroutines) (ha : σ.enabled cfg a)
    (hs : σ.sender s = .sending p messages jobs) :
    σ.jobQueue.length < cfg.maxMessageQueueSize ∨ σ.dispatcher = .selecting := by
  cases a with
  | send s' p messages jobs => exact .inl ha.2
  | handOver s' p messages jobs => exact .inr ha.2.2
  | begin s' messages jobs =>
    obtain rfl : s = s' := by simpa [DispatcherAction.goroutines] using hg
    cases hs.symm.trans ha.1
  | queue s' p messages jobs =>
    obtain rfl : s = s' := by simpa [DispatcherAction.goroutines] using hg
    cases hs.symm.trans ha.1
  | dispatch s' messages jobs | skip s' p messages jobs | endPass s' =>
    obtain rfl : s = s' := by simpa [DispatcherAction.goroutines] using hg
    cases hs.symm.trans ha
  | panics l p messages jobs =>
    obtain rfl : s = .recovery l := by simpa [DispatcherAction.goroutines] using hg
    cases hs.symm.trans ha.1
  | stopLoop l =>
    obtain rfl : s = .recovery l := by simpa [DispatcherAction.goroutines] using hg
    cases hs.symm.trans ha.2
  | _ => simp [DispatcherAction.goroutines] at hg

end

theorem DispatcherInv.dispatcher_returned (h : DispatcherInv cfg σ) {l : RecoveryLoop}
    (hl : σ.stopper = .stoppingLoop l) : σ.dispatcher = .returned := by
  refine h.stopper.dispatcher.2 ?_
  rw [hl]
  cases l <;> decide

/-- Whatever `Stop` waits for then is the goroutine that stops the loops, the recovery loop, or the
loop of the dispatcher. -/
theorem DispatcherState.BlockedBySend.waitsFor (hblocked : σ.BlockedBySend cfg)
    (h : DispatcherInv cfg σ) {g : Goroutine} (hg : ReflTransGen (WaitsFor cfg σ) .stop g) :
    g = .stop ∨ g = .stopper ∨ g = .dispatcher ∨
      ∃ l, σ.stopper = .stoppingLoop l ∧ g = .sender (.recovery l) := by
  obtain ⟨hstop, hcalls, ⟨l, p, messages, jobs, hl, hsender⟩, -⟩ := hblocked
  have hdispatcher := h.dispatcher_returned hl
  induction hg with
  | refl => exact .inl rfl
  | @tail g g' _ hwaits ih =>
    rcases ih with rfl | rfl | rfl | ⟨l', hl', rfl⟩
    · cases hwaits with
      | working hpolling => cases hstop.symm.trans hpolling
      | stopper => exact .inr (.inl rfl)
      | stopCall _ hi hcall => exact absurd (hcalls _ hi) hcall
      | assignerDone hawaiting => cases hstop.symm.trans hawaiting
    · cases hwaits with
      | dispatcherStop hstopping => cases hl.symm.trans hstopping
      | loopStop hloop => exact .inr (.inr (.inr ⟨_, hloop, rfl⟩))
    · cases hwaits with
      | job hselecting => cases hdispatcher.symm.trans hselecting
      | dispatcherStopped hselecting => cases hdispatcher.symm.trans hselecting
    · cases hwaits with
      | jobQueue => exact .inr (.inr (.inl rfl))
      | loopStopped => exact .inr (.inl rfl)

theorem DispatcherState.BlockedBySend.deadlocked (hblocked : σ.BlockedBySend cfg)
    (h : DispatcherInv cfg σ) : σ.Deadlocked cfg := by
  have hwaits := fun g => hblocked.waitsFor (g := g) h
  obtain ⟨hstop, hcalls, ⟨l, p, messages, jobs, hl, hsender⟩, hfull⟩ := hblocked
  have hdispatcher := h.dispatcher_returned hl
  refine ⟨by simp [hstop], fun g hg ⟨a, hga, ha, _⟩ => ?_⟩
  rcases hwaits g hg with rfl | rfl | rfl | ⟨l', hl', rfl⟩
  · cases hl.symm.trans (enabled_stop hga ha hstop)
  · cases hsender.symm.trans (enabled_stopper hga ha hl)
  · exact enabled_dispatcher hga ha hdispatcher
  · obtain rfl : l = l' := Stopper.stoppingLoop.inj (hl.symm.trans hl')
    rcases enabled_sender hga ha hsender with hroom | hselecting
    · exact absurd hfull (Nat.not_le.2 hroom)
    · cases hdispatcher.symm.trans hselecting

/-- The deadlock is there to stay. -/
theorem DispatcherState.BlockedBySend.step {a : DispatcherAction} (hblocked : σ.BlockedBySend cfg)
    (h : DispatcherInv cfg σ) (ha : σ.enabled cfg a) : (σ.apply cfg a).BlockedBySend cfg := by
  obtain ⟨hstop, hcalls, ⟨l, p, messages, jobs, hl, hsender⟩, hfull⟩ := hblocked
  have hdispatcher := h.dispatcher_returned hl
  have hloop : ∃ l p messages jobs, σ.stopper = .stoppingLoop l ∧
      σ.sender (.recovery l) = .sending p messages jobs := ⟨l, p, messages, jobs, hl, hsender⟩
  have hother : ∀ {s pos}, s ≠ .recovery l → ∃ l p messages jobs, σ.stopper = .stoppingLoop l ∧
      Function.update σ.sender s pos (.recovery l) = .sending p messages jobs := by
    intro s pos hs
    refine ⟨l, p, messages, jobs, hl, ?_⟩
    rwa [Function.update_of_ne hs.symm]
  have hne : ∀ {s pos}, σ.sender s = pos → pos ≠ .sending p messages jobs → s ≠ .recovery l := by
    rintro s pos hs hpos rfl
    exact hpos (hs.symm.trans hsender)
  have hcall : ∀ {i call call'}, σ.stopCall i = call → call ≠ .returned →
      ∀ j < cfg.maxWorkers, Function.update σ.stopCall i call' j = .returned := by
    intro i call call' hi hcall j hj
    have hji : j ≠ i := by
      rintro rfl
      exact hcall (hi.symm.trans (hcalls j hj))
    rw [Function.update_of_ne hji]
    exact hcalls j hj
  cases a with
  | receive p => cases hdispatcher.symm.trans ha.1
  | stopWorker i | stoppedWorker i => exact ⟨hstop, hcall ha nofun, hloop, hfull⟩
  | begin s messages jobs => exact ⟨hstop, hcalls, hother (hne ha.1 nofun), hfull⟩
  | queue s p messages jobs => exact ⟨hstop, hcalls, hother (hne ha.1 nofun), hfull⟩
  | panics l p messages jobs => exact ⟨hstop, hcalls, hother (hne ha.1 nofun), hfull⟩
  | dispatch s messages jobs | skip s p messages jobs | endPass s =>
    exact ⟨hstop, hcalls, hother (hne ha nofun), hfull⟩
  | send s p messages jobs =>
    exact absurd ha.2 (Nat.not_lt.2 hfull)
  | handOver s p messages jobs => cases hdispatcher.symm.trans ha.2.2
  | stopDispatcher => cases hl.symm.trans ha.1
  | closeScheduler | discardQueued | stoppedLoops => cases hl.symm.trans ha
  | stopLoop l' =>
    obtain rfl := Stopper.stoppingLoop.inj (hl.symm.trans ha.1)
    cases hsender.symm.trans ha.2
  | wait => cases hl.symm.trans ha.2.1
  | call | spawned | polled localRun | check | signalReleased i | stopped =>
    cases hstop.symm.trans ha
  | giveUp | enter | assignerDone | contextDone => cases hstop.symm.trans ha.1
  | spawn i | poll i localRun => cases hstop.symm.trans ha.1
  | release i p | noJob i => cases hstop.symm.trans ha.1
  | _ => exact ⟨hstop, hcalls, hloop, hfull⟩

end

/-- In every state of every run, `Stop` and the goroutines that it waits for are in a deadlock, for
good, exactly if a recovery loop that is to be stopped stands at its send to the full queue. -/
theorem stop_deadlock_free_iff {cfg : DispatcherConfig} (r : DispatcherRun cfg) {n : Nat}
    (hn : n ≤ r.len) :
    (¬ (r.state n).Deadlocked cfg ↔ ¬ (r.state n).BlockedBySend cfg) ∧
    ((r.state n).BlockedBySend cfg → ∀ m, n ≤ m → m ≤ r.len → (r.state m).BlockedBySend cfg) := by
  refine ⟨not_congr ⟨fun hdead => ?_, fun hblocked => hblocked.deadlocked (r.inv hn)⟩,
    fun hblocked m hnm hm => ?_⟩
  · by_contra hnot
    obtain ⟨g, hg, hstep⟩ := (r.inv hn).stop_goes_on hdead.1 hnot
    exact hdead.2 g hg hstep
  · induction m, hnm using Nat.le_induction with
    | base => exact hblocked
    | succ m hnm ih =>
      obtain ⟨ha, heq⟩ := DispatcherState.step_eq_some.1 (r.next m (by omega))
      rw [heq]
      exact (ih (by omega)).step (r.inv (by omega)) ha

namespace Sample

def dispatcherConfig : DispatcherConfig where
  maxMessageQueueSize := 1
  maxWorkers := 1
  recoveryWorkersEnabled := true

def dispatcher : DispatcherState where
  lanes := lanes
  wake := false
  jobQueue := []
  workerPool := []
  dispatcher := .selecting
  assigner := .selecting
  worker _ := .starting
  working _ := false
  jobChannel _ := none
  quit _ := false
  stopCall _ := .notStarted
  quitter _ := .notStarted
  sender _ := .selecting
  schedulerStop := false
  stopper := .notStarted
  stop := .notCalled
  timedOut := false
  taken := []
  delivered := []
  released := []

theorem dispatcher_isInitial : dispatcher.isInitial dispatcherConfig := by
  constructor <;> first | exact lanes_isInitial | exact fun _ => rfl | exact ⟨rfl, rfl, rfl⟩ | rfl

def stopWorker : List DispatcherAction :=
  [.call, .enter, .spawn 0, .spawned, .stopWorker 0, .stoppedWorker 0, .sendQuit 0, .takeQuit 0,
   .leave 0, .poll 0 false, .polled false]

/-- The retry pass has two due jobs. The first fills the queue, and the loop of the dispatcher is
stopped before it takes it. -/
def stopDuringPass : List DispatcherAction :=
  ([.start 0, .register 0, .begin (.recovery .retry) 0 [0, 2],
   .queue (.recovery .retry) 0 0 [2], .send (.recovery .retry) 0 0 [2],
   .queue (.recovery .retry) 2 0 []] : List DispatcherAction) ++ stopWorker ++
  ([.stopDispatcher, .closeScheduler, .stopLoop .message] : List DispatcherAction)

end Sample

open Sample

theorem stop_deadlock_free_outside_pass :
    ∃ r : DispatcherRun dispatcherConfig, (r.state r.len).stop = .waiting ∧
      ¬ (r.state r.len).Deadlocked dispatcherConfig := by
  let r : DispatcherRun dispatcherConfig := Run.ofActs dispatcher
    (.start 0 :: .register 0 :: stopWorker) dispatcher_isInitial (by decide +kernel)
  have hqueue : (r.state r.len).jobQueue = [] := by decide +kernel
  refine ⟨r, by decide +kernel, (stop_deadlock_free_iff r le_rfl).1.2 fun hblocked => ?_⟩
  have hfull := hblocked.full
  rw [hqueue] at hfull
  exact absurd hfull (by decide)

/-- `Stop` never returns when it comes during a retry pass over more jobs than fit in the queue. -/
theorem stop_hangs_during_retry_pass :
    ∃ r : DispatcherRun dispatcherConfig,
      (r.state r.len).Deadlocked dispatcherConfig := by
  let r : DispatcherRun dispatcherConfig := Run.ofActs dispatcher
    stopDuringPass dispatcher_isInitial (by decide +kernel)
  refine ⟨r, DispatcherState.BlockedBySend.deadlocked ?_ (r.inv le_rfl)⟩
  exact ⟨by decide +kernel, by decide +kernel,
    ⟨.retry, 2, 0, [], by decide +kernel, by decide +kernel⟩, by decide +kernel⟩

end WebhookBroker
