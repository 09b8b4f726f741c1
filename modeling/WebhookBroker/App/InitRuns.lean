import WebhookBroker.App.Init

/-!
# Runs of `initApp`

In every run at most one node is between a successful `StartAppInit` and its `CompleteAppInit`: such
a node holds the row in the status initializing, with its own seed data, and only it can release it.

Two things do not follow from the conditional updates. The update of `StartAppInit` asks only that
nobody is initializing, so a node that read the row before another one's whole initialization claims
it again and stores the same seed data a second time. And a row whose node stopped while it held it
stays in the status initializing, in which every later node leaves it alone.
-/

namespace WebhookBroker

open Lib List

/-! ## The holder of the row -/

def AppSys.StartsFrom (app : AppRow) (s : AppSys) : Prop :=
  s.app = app ∧ (∀ n, s.pos n = .idle) ∧ s.seedRuns = [] ∧ s.seeded = [] ∧ s.completed = []

/-- What holds in every state of a run from the row `app₀`. -/
structure AppInv (app₀ : AppRow) (s : AppSys) : Prop where
  held : ∀ n d, (s.pos n).inside = true → (s.pos n).seed = some d → s.app = ⟨d, .initializing⟩
  one : ∀ m n, (s.pos m).inside = true → (s.pos n).inside = true → m = n
  last : s.app.status = .initialized →
    (∃ n, s.completed.head? = some (n, s.app.seedData)) ∨ (s.completed = [] ∧ s.app = app₀)
  seeded : ∀ n d, (s.pos n).seeded = true → (s.pos n).seed = some d → d ∈ s.seeded
  completed : ∀ e ∈ s.completed, e.2 ∈ s.seeded

variable {p : InitPos}

theorem InitPos.inside_of_seeded (h : p.seeded = true) : p.inside = true := by
  cases p <;> first | rfl | cases h

theorem InitPos.exists_seed (h : p.inside = true) : ∃ d, p.seed = some d := by
  cases p <;> first | exact ⟨_, rfl⟩ | cases h

theorem InitPos.Within.refl (p : InitPos) : p.Within p := .of_eq rfl rfl rfl

section
variable {app₀ : AppRow} {s s' : AppSys} {n : Nat} {p : InitPos}

theorem AppSys.goto_pos_self : (s.goto n p).pos n = p := Function.update_self ..

theorem AppSys.goto_pos_ne {m : Nat} (h : m ≠ n) : (s.goto n p).pos m = s.pos m :=
  Function.update_of_ne h ..

theorem AppSys.goto_within (h : p.inside = true → p.Within (s.pos n)) (m : Nat)
    (hm : ((s.goto n p).pos m).inside = true) : ((s.goto n p).pos m).Within (s.pos m) := by
  rcases eq_or_ne m n with rfl | hne
  · rw [goto_pos_self] at hm ⊢
    exact h hm
  · rw [goto_pos_ne hne]
    exact .refl _

theorem AppInv.startsFrom (h : s.StartsFrom app₀) : AppInv app₀ s where
  held n d hn := by
    rw [h.2.1 n] at hn
    cases hn
  one m n hm := by
    rw [h.2.1 m] at hm
    cases hm
  last _ := .inr ⟨h.2.2.2.2, h.1⟩
  seeded n d hn := by
    rw [h.2.1 n] at hn
    cases hn
  completed e he := by
    rw [h.2.2.2.2] at he
    cases he

/-- A step that leaves the row and the records alone and takes no node further. -/
theorem AppInv.of_within (h : AppInv app₀ s) (happ : s'.app = s.app)
    (hseeded : s'.seeded = s.seeded) (hcompleted : s'.completed = s.completed)
    (hpos : ∀ m, (s'.pos m).inside = true → (s'.pos m).Within (s.pos m)) : AppInv app₀ s' where
  held m d hm hd := happ ▸ h.held m d ((hpos m hm).inside hm) ((hpos m hm).seed d hd)
  one m k hm hk := h.one m k ((hpos m hm).inside hm) ((hpos k hk).inside hk)
  last := by
    rw [happ, hcompleted]
    exact h.last
  seeded m d hm hd := by
    have hw := hpos m (InitPos.inside_of_seeded hm)
    rw [hseeded]
    exact h.seeded m d (hw.seeded hm) (hw.seed d hd)
  completed := by
    rw [hcompleted, hseeded]
    exact h.completed

theorem AppInv.outside (h : AppInv app₀ s) (happ : s.app.status ≠ .initializing) (m : Nat) :
    (s.pos m).inside ≠ true := by
  intro hm
  obtain ⟨d, hd⟩ := InitPos.exists_seed hm
  exact happ (by rw [h.held m d hm hd])

theorem AppInv.effect {a : AppAct} (h : AppInv app₀ s) (he : AppEffect s a s') :
    AppInv app₀ s' := by
  cases he with
  | start n seed hidle =>
    refine h.of_within rfl rfl rfl (AppSys.goto_within fun hin => ?_)
    cases hin
  | quiet n p db hp => exact h.of_within rfl rfl rfl (AppSys.goto_within fun _ => hp)
  | started n seed now newID hpos happ =>
    have hself : ∀ m, ((s.goto n (.seeding seed seed.items)).pos m).inside = true → m = n := by
      intro m hm
      by_contra hne
      rw [AppSys.goto_pos_ne hne] at hm
      exact h.outside happ m hm
    refine ⟨fun m d hm hd => ?_, fun m k hm hk => (hself m hm).trans (hself k hk).symm,
      (fun hst => by cases hst), fun m d hm hd => ?_, h.completed⟩
    · obtain rfl := hself m hm
      rw [AppSys.goto_pos_self] at hd
      cases hd
      rfl
    · obtain rfl := hself m (InitPos.inside_of_seeded hm)
      rw [AppSys.goto_pos_self] at hm
      cases hm
  | startLost n seed hpos happ =>
    have hout : ∀ m, ((s.goto n (.loop seed)).pos m).inside ≠ true := by
      intro m hm
      exact h.outside happ m ((AppSys.goto_within (fun hin => by cases hin) m hm).inside hm)
    exact ⟨fun m _ hm => absurd hm (hout m), fun m _ hm => absurd hm (hout m),
      (fun hst => by cases hst), fun m _ hm => absurd (InitPos.inside_of_seeded hm) (hout m),
      h.completed⟩
  | seedingDone n seed hpos =>
    have hin : (s.pos n).inside = true := by rw [hpos]; rfl
    have hpos' : ∀ m, ((s.goto n (.complete seed)).pos m).inside = true →
        (s.pos m).inside = true ∧ ((s.goto n (.complete seed)).pos m).seed = (s.pos m).seed := by
      intro m hm
      rcases eq_or_ne m n with rfl | hne
      · exact ⟨hin, by rw [AppSys.goto_pos_self, hpos]; rfl⟩
      · rw [AppSys.goto_pos_ne hne] at hm ⊢
        exact ⟨hm, rfl⟩
    refine ⟨fun m d hm hd => h.held m d (hpos' m hm).1 ((hpos' m hm).2 ▸ hd),
      fun m k hm hk => h.one m k (hpos' m hm).1 (hpos' k hk).1, h.last, fun m d hm hd => ?_,
      fun e he => mem_cons_of_mem _ (h.completed e he)⟩
    obtain rfl := h.one m n (hpos' m (InitPos.inside_of_seeded hm)).1 hin
    rw [AppSys.goto_pos_self] at hd
    cases hd
    exact mem_cons_self
  | completed n seed hpos happ =>
    have hin : (s.pos n).inside = true := by rw [hpos]; rfl
    have hseed : (s.pos n).seed = some seed := by rw [hpos]; rfl
    have hout : ∀ m, ((s.goto n .idle).pos m).inside ≠ true := by
      intro m hm
      rcases eq_or_ne m n with rfl | hne
      · rw [AppSys.goto_pos_self] at hm
        cases hm
      · rw [AppSys.goto_pos_ne hne] at hm
        exact hne (h.one m n hm hin)
    refine ⟨fun m _ hm => absurd hm (hout m), fun m _ hm => absurd hm (hout m),
      fun _ => .inl ⟨n, ?_⟩, fun m _ hm => absurd (InitPos.inside_of_seeded hm) (hout m),
      fun e he => ?_⟩
    · simp [h.held n seed hin hseed]
    · rcases mem_cons.1 he with rfl | he
      · exact h.seeded n seed (by rw [hpos]; rfl) hseed
      · exact h.completed e he

end

section
variable [NetUrl] [SeedEncoding]

/-- A run of any number of nodes from a row. -/
abbrev AppRun (app₀ : AppRow) := Run (AppSys.StartsFrom app₀) appStep

theorem AppRun.inv {app₀ : AppRow} (r : AppRun app₀) {i : Nat} (hi : i ≤ r.len) :
    AppInv app₀ (r.state i) :=
  r.invariant (fun _ => AppInv.startsFrom) (fun _ _ _ h hstep => h.effect (appStep_effect hstep)) i
    hi

/-- At most one node at a time is between `StartAppInit` and `CompleteAppInit`, and an initialized
row has the seed data of the last node that completed, or is still the row of the start. -/
theorem initializing_alone {app₀ : AppRow} (r : AppRun app₀) (i : Nat) (hi : i ≤ r.len) :
    (∀ m n, ((r.state i).pos m).inside = true → ((r.state i).pos n).inside = true → m = n) ∧
    ((r.state i).app.status = .initialized →
      (∃ n, (r.state i).completed.head? = some (n, (r.state i).app.seedData)) ∨
      ((r.state i).completed = [] ∧ (r.state i).app = app₀)) :=
  ⟨(r.inv hi).one, (r.inv hi).last⟩

end

namespace Sample

def seed : SeedData := ⟨[⟨"p", "p", "t"⟩], [], []⟩

@[reducible] def seedEncoding : SeedEncoding := ⟨fun seed => seed.producers.map fun _ => 1, []⟩

def freshApp : AppRow := ⟨seed, .notInitialized⟩

def appSys : AppSys := { app := freshApp, db := {}, pos := fun _ => .idle }

/-- Both nodes read the fresh row before the first one initializes it. -/
def initActs : List AppAct :=
  [.start 0 seed, .start 1 seed, .run 0 .none 0 Xid.nil, .run 1 .none 0 Xid.nil,
    .run 0 .none 0 Xid.nil, .run 1 .none 0 Xid.nil, .run 0 .none 0 Xid.nil,
    .run 0 .none 0 Xid.nil, .run 0 .none 0 Xid.nil, .run 0 .none 0 Xid.nil,
    .run 0 .none 0 Xid.nil]

def appRun (acts : List AppAct)
    (h : (exec (@appStep seedEncoding netUrl) appSys acts).isSome) :
    @AppRun netUrl seedEncoding freshApp :=
  Run.ofActs appSys acts ⟨rfl, fun _ => rfl, rfl, rfl, rfl⟩ h

def initRun : @AppRun netUrl seedEncoding freshApp := appRun initActs (by decide +kernel)

def staleRun : @AppRun netUrl seedEncoding freshApp :=
  appRun (initActs ++ [.run 1 .none 0 Xid.nil]) (by decide +kernel)

end Sample

open Sample

theorem initializing_alone_stale :
    ((staleRun.state 12).pos 1).inside = true ∧
    (∀ m n, ((staleRun.state 12).pos m).inside = true →
      ((staleRun.state 12).pos n).inside = true → m = n) ∧
    (staleRun.state 11).app.status = .initialized ∧
    ∃ n, (staleRun.state 11).completed.head? =
      some (n, (staleRun.state 11).app.seedData) := by
  have h11 := (@initializing_alone netUrl seedEncoding _ staleRun 11
    (by decide)).2 rfl
  refine ⟨rfl, (@initializing_alone netUrl seedEncoding _ staleRun 12
    (by decide)).1, rfl, h11.resolve_right ?_⟩
  rintro ⟨-, happ⟩
  cases congrArg AppRow.status happ

/-! ## Seed data that is stored twice -/

/-- A node claims an initialized row that already has its seed data, which it did not have when the
node read it. -/
def AppSys.StaleStart (s : AppSys) (a : AppAct) : Prop :=
  s.app.status = .initialized ∧
    ∃ n now newID, a = .run n .none now newID ∧ s.pos n = .startUpdate s.app.seedData

/-- What holds in every state of a run with one seed data, from a row that is not initialized. -/
structure OneSeedInv (seed : SeedData) (s : AppSys) : Prop where
  seed_eq : ∀ n d, (s.pos n).seed = some d → d = seed
  row_eq : s.app.status ≠ .notInitialized → s.app.seedData = seed
  fresh : s.app.status = .notInitialized → s.seedRuns = []
  begun : (∃ n, (s.pos n).inside = true) ∨ s.app.status = .initialized → s.seedRuns ≠ []

section
variable {seed : SeedData} {s s' : AppSys} {a : AppAct}

theorem OneSeedInv.startsFrom {app₀ : AppRow} (h0 : app₀.status = .notInitialized)
    (h : s.StartsFrom app₀) : OneSeedInv seed s where
  seed_eq n d hd := by
    rw [h.2.1 n] at hd
    cases hd
  row_eq hst := absurd (h.1 ▸ h0) hst
  fresh _ := h.2.2.1
  begun hor := by
    rcases hor with ⟨n, hn⟩ | hst
    · rw [h.2.1 n] at hn
      cases hn
    · rw [h.1, h0] at hst
      cases hst

theorem OneSeedInv.goto_seed_eq (h : OneSeedInv seed s) {n : Nat}
    (hp : ∀ d, p.seed = some d → d = seed) (m : Nat) (d : SeedData)
    (hd : ((s.goto n p).pos m).seed = some d) : d = seed := by
  rcases eq_or_ne m n with rfl | hne
  · rw [AppSys.goto_pos_self] at hd
    exact hp d hd
  · rw [AppSys.goto_pos_ne hne] at hd
    exact h.seed_eq m d hd

theorem OneSeedInv.effect {app₀ : AppRow} (hinv : AppInv app₀ s) (h : OneSeedInv seed s)
    (hseed : ∀ n d, a = .start n d → d = seed) (he : AppEffect s a s') : OneSeedInv seed s' := by
  have hbegun : ∀ {n : Nat} {p : InitPos}, (p.inside = true → p.Within (s.pos n)) →
      (∃ m, ((s.goto n p).pos m).inside = true) ∨ s.app.status = .initialized →
      s.seedRuns ≠ [] := by
    intro n p hp hor
    refine h.begun (hor.imp_left fun ⟨m, hm⟩ => ⟨m, ?_⟩)
    exact (AppSys.goto_within hp m hm).inside hm
  cases he with
  | start n d hidle =>
    refine ⟨h.goto_seed_eq fun e he => ?_, h.row_eq, h.fresh, hbegun fun hin => by cases hin⟩
    cases he
    exact hseed n d rfl
  | quiet n p db hp =>
    exact ⟨h.goto_seed_eq fun d hd => h.seed_eq n d (hp.seed d hd), h.row_eq, h.fresh,
      hbegun fun _ => hp⟩
  | started n d now newID hpos happ =>
    have hd : d = seed := h.seed_eq n d (by rw [hpos]; rfl)
    refine ⟨h.goto_seed_eq fun e he => ?_, fun _ => hd, (fun hst => by cases hst),
      fun _ => cons_ne_nil _ _⟩
    cases he
    exact hd
  | startLost n d hpos happ =>
    have hd : d = seed := h.seed_eq n d (by rw [hpos]; rfl)
    refine ⟨h.goto_seed_eq fun e he => ?_, fun _ => hd, (fun hst => by cases hst), fun hor => ?_⟩
    · cases he
      exact hd
    · rcases hor with ⟨m, hm⟩ | hst
      · exact absurd ((AppSys.goto_within (fun hin => by cases hin) m hm).inside hm)
          (hinv.outside happ m)
      · cases hst
  | seedingDone n d hpos =>
    have hin : (s.pos n).inside = true := by rw [hpos]; rfl
    refine ⟨h.goto_seed_eq fun e he => ?_, h.row_eq, h.fresh, fun _ => h.begun (.inl ⟨n, hin⟩)⟩
    cases he
    exact h.seed_eq n d (by rw [hpos]; rfl)
  | completed n d hpos happ =>
    have hin : (s.pos n).inside = true := by rw [hpos]; rfl
    refine ⟨h.goto_seed_eq fun e he => ?_, fun _ => h.row_eq (by simp [happ]),
      (fun hst => by cases hst), fun _ => h.begun (.inl ⟨n, hin⟩)⟩
    cases he

/-- Only a start that is not stale claims a fresh row, and only once. -/
theorem OneSeedInv.seedRuns_le (h : OneSeedInv seed s)
    (hle : s.seedRuns.length ≤ 1) (hstale : ¬ s.StaleStart a) (he : AppEffect s a s') :
    s'.seedRuns.length ≤ 1 := by
  cases he with
  | started n d now newID hpos happ =>
    have hd : d = seed := h.seed_eq n d (by rw [hpos]; rfl)
    have hst : s.app.status = .notInitialized := by
      cases hst : s.app.status with
      | notInitialized => rfl
      | initializing => exact absurd hst happ
      | initialized =>
        refine absurd ⟨hst, n, now, newID, rfl, ?_⟩ hstale
        rw [hpos, hd, h.row_eq (by simp [hst])]
    simp [h.fresh hst]
  | start => exact hle
  | quiet => exact hle
  | startLost => exact hle
  | seedingDone => exact hle
  | completed => exact hle

theorem AppSys.StaleStart.seedRuns [NetUrl] [SeedEncoding] (hstale : s.StaleStart a)
    (hstep : appStep s a = some s') : ∃ e, s'.seedRuns = e :: s.seedRuns := by
  obtain ⟨hst, n, now, newID, rfl, hpos⟩ := hstale
  simp only [appStep, hpos, AppSys.run, hst, reduceCtorEq, if_false, if_true] at hstep
  cases hstep
  exact ⟨_, rfl⟩

end

/-- In a run of nodes with one seed data on a row that is not yet initialized, `createSeedData` is
run at most once exactly when no node claims the row on a stale read. -/
theorem seeded_once_iff [NetUrl] [SeedEncoding] {app₀ : AppRow} (r : AppRun app₀)
    (h0 : app₀.status = .notInitialized) (seed : SeedData)
    (hseed : ∀ i < r.len, ∀ n d, r.act i = .start n d → d = seed) :
    (∀ i ≤ r.len, (r.state i).seedRuns.length ≤ 1) ↔
      ∀ i < r.len, ¬ (r.state i).StaleStart (r.act i) := by
  have hinv := r.invariant_of_acts (C := fun _ a => ∀ n d, a = .start n d → d = seed)
      (P := fun s => AppInv app₀ s ∧ OneSeedInv seed s) hseed
      (fun _ h => ⟨.startsFrom h, .startsFrom h0 h⟩) fun _ _ _ ha h hstep =>
        ⟨h.1.effect (appStep_effect hstep), .effect h.1 h.2 ha (appStep_effect hstep)⟩
  constructor
  · intro hle i hi hstale
    obtain ⟨e, he⟩ := hstale.seedRuns (r.next i hi)
    have hbegun := (hinv i (by omega)).2.begun (.inr hstale.1)
    have hlen := hle (i + 1) (by omega)
    rw [he, length_cons] at hlen
    exact hbegun (eq_nil_of_length_eq_zero (by omega))
  · intro hstale i
    induction i with
    | zero =>
      intro _
      simp [r.start.2.2.1]
    | succ i ih =>
      intro hi
      exact (hinv i (by omega)).2.seedRuns_le (ih (by omega)) (hstale i (by omega))
        (appStep_effect (r.next i (by omega)))

theorem seeded_once_iff_init :
    (∀ i ≤ 11, (initRun.state i).seedRuns.length ≤ 1) ∧
    ((∀ i ≤ initRun.len, (initRun.state i).seedRuns.length ≤ 1) ↔
      ∀ i < initRun.len, ¬ (initRun.state i).StaleStart (initRun.act i)) := by
  refine ⟨by decide +kernel, @seeded_once_iff netUrl seedEncoding _ initRun rfl
    seed ?_⟩
  intro i hi n d hact
  have hmem : AppAct.start n d ∈ initActs := by
    have hget : initActs[i]? = some (AppAct.start n d) := by
      rw [List.getElem?_eq_getElem hi, ← hact]
      exact congrArg some (getD_eq_getElem _ _ hi).symm
    exact mem_of_getElem? hget
  simp only [initActs, mem_cons, AppAct.start.injEq, reduceCtorEq, not_mem_nil,
    or_false] at hmem
  rcases hmem with ⟨-, rfl⟩ | ⟨-, rfl⟩ <;> rfl

/-- Two nodes start once each with the same seed data on a fresh row, and both store it. -/
theorem seeded_twice :
    (staleRun.state 0).app.status = .notInitialized ∧
    (staleRun.state 12).seedRuns = [(1, seed), (0, seed)] := by
  decide +kernel

/-! ## A start after a node stopped -/

/-- The statements of a node without faults, with what it reads from the clock and the ids it
makes. -/
def faultlessRuns (n : Nat) (clocks : List (Time × Xid)) : List AppAct :=
  clocks.map fun c => .run n .none c.1 c.2

/-- The row is initialized with the seed data of the node, for which `createSeedData` came to its
end, and the node is done. -/
def AppSys.InitDone (s : AppSys) (n : Nat) (seed : SeedData) : Prop :=
  s.pos n = .idle ∧ s.app = ⟨seed, .initialized⟩ ∧ seed ∈ s.seeded

section
variable [NetUrl] [SeedEncoding]

/-- After `k` statements in which nothing fails the initialization is done. -/
def AppSys.EndsIn (s : AppSys) (n : Nat) (seed : SeedData) (k : Nat) : Prop :=
  ∀ clocks : List (Time × Xid), clocks.length = k →
    ∃ s', exec appStep s (faultlessRuns n clocks) = some s' ∧ s'.InitDone n seed

/-- A start of the node, in which nothing fails and nobody else runs, ends with the initialization
done, now or before. -/
def AppSys.Recovers (s : AppSys) (n : Nat) (seed : SeedData) : Prop :=
  ∃ k, ∀ clocks : List (Time × Xid), clocks.length = k →
    ∃ s', exec appStep s (.start n seed :: faultlessRuns n clocks) = some s' ∧ s'.InitDone n seed

section
variable {s : AppSys} {n : Nat} {seed : SeedData} {k : Nat}

theorem AppSys.EndsIn.zero (h : s.InitDone n seed) : s.EndsIn n seed 0 := by
  intro clocks hlen
  obtain rfl := eq_nil_of_length_eq_zero hlen
  exact ⟨s, rfl, h⟩

/-- One step without a fault, and the rest of the run. -/
theorem AppSys.EndsIn.step {p : InitPos} (hpos : s.pos n = p) (t : Time × Xid → AppSys)
    (hrun : ∀ c, s.run n .none c.1 c.2 p = some (t c)) (h : ∀ c, (t c).EndsIn n seed k) :
    s.EndsIn n seed (k + 1) := by
  intro clocks hlen
  obtain ⟨c, clocks, rfl⟩ := exists_cons_of_length_eq_add_one hlen
  obtain ⟨s', hs', hdone⟩ := h c clocks (by simpa using hlen)
  refine ⟨s', ?_, hdone⟩
  rw [faultlessRuns, map_cons, exec, appStep, hpos, hrun]
  exact hs'

section
variable {now : Time} {newID : Xid}

/-- `GetApp` finds an app that is to be initialized. -/
theorem AppSys.run_getApp (h : s.app.needsInit seed = true) :
    s.run n .none now newID (.getApp seed) = some (s.goto n (.loop seed)) := by
  simp [AppSys.run, h]

/-- The read of `StartAppInit` lets the update follow. -/
theorem AppSys.run_loop (h : s.app.startRead seed = .startUpdate seed) :
    s.run n .none now newID (.loop seed) = some (s.goto n (.startUpdate seed)) := by
  simp [AppSys.run, h]

/-- The update of `StartAppInit` takes the app, and the node seeds. -/
theorem AppSys.run_startUpdate (h : s.app.status ≠ .initializing) :
    s.run n .none now newID (.startUpdate seed) = some { s.goto n (.seeding seed seed.items) with
      app := ⟨seed, .initializing⟩, seedRuns := (n, seed) :: s.seedRuns } := by
  simp [AppSys.run, h]

/-- The read of `CompleteAppInit` finds the app that is initializing. -/
theorem AppSys.run_complete (h : s.app.status = .initializing) :
    s.run n .none now newID (.complete seed) = some (s.goto n (.completeUpdate seed)) := by
  simp [AppSys.run, h]

/-- The update of `CompleteAppInit` ends the initialization. -/
theorem AppSys.run_completeUpdate (h : s.app.status = .initializing) :
    s.run n .none now newID (.completeUpdate seed) = some { s.goto n .idle with
      app := { s.app with status := .initialized }, completed := (n, seed) :: s.completed } := by
  simp [AppSys.run, h]

end

/-- A node that seeds ends after its items, one step for each. -/
theorem AppSys.endsIn_seeding (todo : List SeedItem) (hpos : s.pos n = .seeding seed todo)
    (happ : s.app = ⟨seed, .initializing⟩) : s.EndsIn n seed (todo.length + 3) := by
  induction todo generalizing s with
  | nil =>
    refine .step hpos _ (fun _ => rfl) fun _ => ?_
    have hst : s.app.status = .initializing := by rw [happ]
    refine .step goto_pos_self _ (fun _ => run_complete hst) fun _ => ?_
    refine .step goto_pos_self _ (fun _ => run_completeUpdate hst) fun _ => ?_
    refine .zero ⟨goto_pos_self, ?_, mem_cons_self⟩
    simp [goto, happ]
  | cons item todo ih => exact .step hpos _ (fun _ => rfl) fun _ => ih goto_pos_self happ

theorem AppSys.recovers_iff_endsIn (hidle : s.pos n = .idle) :
    s.Recovers n seed ↔ ∃ k, (s.goto n (.getApp seed)).EndsIn n seed k := by
  simp only [Recovers, EndsIn, exec, appStep, hidle, if_true, Option.bind_some]

/-- `initApp` passes over a row that needs no initialization. -/
theorem AppSys.recovers_iff_of_passed (hidle : s.pos n = .idle)
    (hneeds : s.app.needsInit seed = false) :
    s.Recovers n seed ↔ s.app = ⟨seed, .initialized⟩ ∧ seed ∈ s.seeded := by
  have hrun : ∀ c : Time × Xid, (s.goto n (.getApp seed)).run n .none c.1 c.2 (.getApp seed) =
      some ((s.goto n (.getApp seed)).goto n .idle) := by
    intro c
    simp [AppSys.run, goto, hneeds]
  rw [recovers_iff_endsIn hidle]
  constructor
  · rintro ⟨k, hk⟩
    obtain ⟨s', hs', hdone⟩ := hk (List.replicate k (0, Xid.nil)) length_replicate
    cases k with
    | zero =>
      cases hs'
      exact absurd hdone.1 (by rw [goto_pos_self]; simp)
    | succ k =>
      rw [replicate_succ, faultlessRuns, map_cons, exec, appStep, goto_pos_self, hrun]
        at hs'
      cases k with
      | zero =>
        cases hs'
        exact hdone.2
      | succ k =>
        rw [replicate_succ, map_cons, Option.bind_some, exec, appStep, goto_pos_self]
          at hs'
        cases hs'
  · intro h
    exact ⟨1, .step goto_pos_self _ hrun fun _ => .zero ⟨goto_pos_self, h⟩⟩

theorem AppSys.recovers_of_needsInit (hidle : s.pos n = .idle)
    (hneeds : s.app.needsInit seed = true) : s.Recovers n seed := by
  have hst : s.app.status ≠ .initializing ∧ s.app.startRead seed = .startUpdate seed := by
    simp only [AppRow.needsInit, Bool.or_eq_true, Bool.and_eq_true, beq_iff_eq, bne_iff_ne]
      at hneeds
    rcases hneeds with h | ⟨h, hne⟩
    · simp [AppRow.startRead, h]
    · simp [AppRow.startRead, h, hne]
  refine (recovers_iff_endsIn hidle).2 ⟨seed.items.length + 3 + 1 + 1 + 1, ?_⟩
  refine .step goto_pos_self _ (fun _ => run_getApp hneeds) fun _ => ?_
  refine .step goto_pos_self _ (fun _ => run_loop hst.2) fun _ => ?_
  refine .step goto_pos_self _ (fun _ => run_startUpdate hst.1) fun _ => ?_
  exact endsIn_seeding _ goto_pos_self rfl

end

/-- After any run on a row that was not initialized, a start without failures ends with the node's
seed data initialized exactly when the row was not left in the status initializing and no other seed
data with the node's JSON text is initialized. -/
theorem recovers_iff {app₀ : AppRow} (r : AppRun app₀) (h0 : app₀.status = .notInitialized)
    (i : Nat) (hi : i ≤ r.len) (n : Nat) (hidle : (r.state i).pos n = .idle) (seed : SeedData) :
    (r.state i).Recovers n seed ↔ (r.state i).app.status ≠ .initializing ∧
      ((r.state i).app.status = .initialized →
        SeedEncoding.json (r.state i).app.seedData = SeedEncoding.json seed →
        (r.state i).app.seedData = seed) := by
  have hinv := r.inv hi
  rw [← SeedData.dataHash_eq_iff]
  cases hneeds : (r.state i).app.needsInit seed with
  | true =>
    refine iff_of_true (AppSys.recovers_of_needsInit hidle hneeds) ?_
    simp only [AppRow.needsInit, Bool.or_eq_true, Bool.and_eq_true, beq_iff_eq, bne_iff_ne]
      at hneeds
    rcases hneeds with h | ⟨h, hne⟩
    · simp [h]
    · simp [h, hne]
  | false =>
    rw [AppSys.recovers_iff_of_passed hidle hneeds]
    simp only [AppRow.needsInit, Bool.or_eq_false_iff, Bool.and_eq_false_imp, beq_iff_eq,
      beq_eq_false_iff_ne, bne_eq_false_iff_eq] at hneeds
    constructor
    · rintro ⟨happ, -⟩
      simp [happ]
    · rintro ⟨hst, hsame⟩
      have hinit : (r.state i).app.status = .initialized := by
        cases h : (r.state i).app.status with
        | notInitialized => exact absurd h hneeds.1
        | initializing => exact absurd h hst
        | initialized => rfl
      have hseed := hsame hinit (hneeds.2 hinit)
      refine ⟨by rw [← hseed, ← hinit], ?_⟩
      rcases hinv.last hinit with ⟨m, hm⟩ | ⟨-, happ⟩
      · rw [← hseed]
        exact hinv.completed _ (mem_of_mem_head? hm)
      · rw [happ, h0] at hinit
        cases hinit

end

theorem recovers_iff_init :
    (initRun.state 11).app = ⟨seed, .initialized⟩ ∧
    @AppSys.Recovers netUrl seedEncoding (initRun.state 11) 2 seed := by
  have happ : (initRun.state 11).app = ⟨seed, .initialized⟩ := by decide +kernel
  refine ⟨happ, (@recovers_iff netUrl seedEncoding _ initRun rfl 11
    (by decide +kernel) 2 (by decide +kernel) seed).2 ?_⟩
  simp [happ]

namespace Sample

def stoppedRun : @AppRun netUrl seedEncoding freshApp :=
  appRun [.start 0 seed, .run 0 .none 0 Xid.nil, .run 0 .none 0 Xid.nil, .run 0 .none 0 Xid.nil,
    .crash 0] (by decide +kernel)

end Sample

/-- A node that stops while it initializes leaves a row that no later start initializes. -/
theorem stopped_never_recovers :
    (∀ n < 2, (stoppedRun.state 5).pos n = .idle) ∧
    (stoppedRun.state 5).app = ⟨seed, .initializing⟩ ∧
    ¬ @AppSys.Recovers netUrl seedEncoding (stoppedRun.state 5) 1
      seed := by
  have happ : (stoppedRun.state 5).app = ⟨seed, .initializing⟩ := by decide +kernel
  refine ⟨by decide +kernel, happ, fun h => ?_⟩
  have hpassed := @AppSys.recovers_iff_of_passed netUrl seedEncoding
    (stoppedRun.state 5) 1 seed (by decide +kernel) (by decide +kernel)
  rw [hpassed, happ] at h
  cases congrArg AppRow.status h.1

end WebhookBroker
