import Mathlib

/-!
# Serving in turn

A server goes round a list of clients and takes up to `size` items from the backlog of each. A
client whose backlog is empty at its turn leaves the list. Each time something was taken, the server
asks whether it may go on, and stops if not.

While it serves, all clients that have something left were served equally often, or once more if
their turn of the round is over (`RoundRobin.InRound`); every step makes `RoundRobin.measure`
smaller, so the server comes to an end.
-/

namespace Lib

open List Function

structure RoundRobin (κ : Type*) where
  /-- the clients whose turn in this round is to come -/
  waiting : List κ
  /-- the clients that had their turn in this round -/
  served : List κ
  backlog : κ → Nat
  /-- how often something was taken from a client -/
  turns : κ → Nat
  /-- may the server go on? -/
  answers : List Bool
  /-- `true` when all clients have left, `false` when the server may not go on -/
  result : Option Bool

namespace RoundRobin

section
variable {κ : Type*} [DecidableEq κ]

/-- Something is taken from a client, with the clients after it. -/
def take (size : Nat) (c : κ) (cs : List κ) (s : RoundRobin κ) : RoundRobin κ :=
  { s with
    waiting := cs
    backlog := update s.backlog c (s.backlog c - size)
    turns := update s.turns c (s.turns c + 1) }

/-- The turn of a client, with the clients after it. -/
def serve (size : Nat) (answer : Bool) (c : κ) (cs : List κ) (s : RoundRobin κ) : RoundRobin κ :=
  if s.backlog c = 0 then { s with waiting := cs }
  else if answer then
    { s.take size c cs with served := s.served ++ [c], answers := s.answers ++ [true] }
  else
    { s.take size c cs with answers := s.answers ++ [false], result := some false }

def endRound (s : RoundRobin κ) : RoundRobin κ :=
  if s.served.isEmpty then { s with result := some true }
  else { s with waiting := s.served, served := [] }

/-- A step of the server; `answer` is what it is told if it asks. -/
def step (size : Nat) (answer : Bool) (s : RoundRobin κ) : RoundRobin κ :=
  match s.result with
  | some _ => s
  | none =>
    match s.waiting with
    | [] => s.endRound
    | c :: cs => s.serve size answer c cs

def start (clients : List κ) (backlog : κ → Nat) : RoundRobin κ where
  waiting := clients
  served := []
  backlog
  turns _ := 0
  answers := []
  result := none

def run (size : Nat) (answers : Nat → Bool) (s : RoundRobin κ) : Nat → RoundRobin κ
  | 0 => s
  | n + 1 => (s.run size answers n).step size (answers n)

end

section
variable {κ : Type*}

/-- In the middle of a round: the clients that have something left are in the list, and all of them
were served `k` times before this round. -/
structure InRound (clients : List κ) (k : Nat) (s : RoundRobin κ) : Prop where
  nodup : (s.waiting ++ s.served).Nodup
  mem : ∀ c ∈ s.waiting ++ s.served, c ∈ clients
  rest : ∀ c ∈ clients, 0 < s.backlog c → c ∈ s.waiting ++ s.served
  waiting_turns : ∀ c ∈ s.waiting, s.turns c = k
  served_turns : ∀ c ∈ s.served, s.turns c = k + 1

structure Inv (clients : List κ) (s : RoundRobin κ) : Prop where
  inRound : s.result = none → ∃ k, s.InRound clients k
  fair : ∃ k, ∀ c ∈ clients, 0 < s.backlog c → s.turns c = k ∨ s.turns c = k + 1
  done : s.result = some true → ∀ c ∈ clients, s.backlog c = 0
  stopped : s.result = some false ↔ false ∈ s.answers

variable {clients : List κ} {k : Nat} {s : RoundRobin κ}

theorem InRound.fair (h : s.InRound clients k) :
    ∃ k, ∀ c ∈ clients, 0 < s.backlog c → s.turns c = k ∨ s.turns c = k + 1 := by
  refine ⟨k, fun c hc hpos => ?_⟩
  rcases mem_append.1 (h.rest c hc hpos) with hmem | hmem
  · exact .inl (h.waiting_turns c hmem)
  · exact .inr (h.served_turns c hmem)

/-- A client that has nothing left leaves the list. -/
theorem InRound.leave {c : κ} {cs : List κ} (h : s.InRound clients k) (hs : s.waiting = c :: cs)
    (hc : s.backlog c = 0) : { s with waiting := cs }.InRound clients k := by
  obtain ⟨nodup, mem, rest, waiting_turns, served_turns⟩ := h
  rw [hs, cons_append] at nodup mem rest
  rw [hs] at waiting_turns
  refine ⟨(nodup_cons.1 nodup).2, fun d hd => mem d (mem_cons_of_mem _ hd),
    fun d hd hpos => ?_, fun d hd => waiting_turns d (mem_cons_of_mem _ hd), served_turns⟩
  rcases mem_cons.1 (rest d hd hpos) with rfl | hmem
  · exact absurd hc hpos.ne'
  · exact hmem

/-- A new round begins with the clients that were served. -/
theorem InRound.next (h : s.InRound clients k) (hs : s.waiting = []) :
    { s with waiting := s.served, served := [] }.InRound clients (k + 1) := by
  obtain ⟨nodup, mem, rest, -, served_turns⟩ := h
  rw [hs, nil_append] at nodup mem rest
  exact ⟨by simpa using nodup, by simpa using mem, by simpa using rest, served_turns, nofun⟩

/-- A client from which something was taken joins the served ones. -/
theorem InRound.take [DecidableEq κ] {s' : RoundRobin κ} {c : κ} {cs : List κ} {size : Nat}
    (h : s.InRound clients k) (hs : s.waiting = c :: cs) (hwaiting : s'.waiting = cs)
    (hserved : s'.served = s.served ++ [c])
    (hbacklog : s'.backlog = update s.backlog c (s.backlog c - size))
    (hturns : s'.turns = update s.turns c (s.turns c + 1)) : s'.InRound clients k := by
  obtain ⟨nodup, mem, rest, waiting_turns, served_turns⟩ := h
  rw [hs, cons_append] at nodup mem rest
  rw [hs] at waiting_turns
  obtain ⟨hnot, nodup⟩ := nodup_cons.1 nodup
  have hmem : ∀ d, d ∈ cs ++ (s.served ++ [c]) ↔ d ∈ c :: (cs ++ s.served) := by
    intro d
    simp only [mem_append, mem_cons, not_mem_nil, or_false]
    tauto
  constructor
  · rw [hwaiting, hserved, ← append_assoc]
    exact nodup_append'.2 ⟨nodup, nodup_singleton c, disjoint_singleton.2 hnot⟩
  · intro d hd
    rw [hwaiting, hserved, hmem] at hd
    exact mem d hd
  · intro d hd hpos
    rw [hwaiting, hserved, hmem]
    refine rest d hd ?_
    by_cases hdc : d = c
    · rw [hdc, hbacklog, update_self] at hpos
      rw [hdc]
      omega
    · rwa [hbacklog, update_of_ne hdc] at hpos
  · intro d hd
    rw [hwaiting] at hd
    have hdc : d ≠ c := fun heq => hnot (mem_append_left _ (heq ▸ hd))
    rw [hturns, update_of_ne hdc]
    exact waiting_turns d (mem_cons_of_mem _ hd)
  · intro d hd
    rw [hserved] at hd
    by_cases hdc : d = c
    · rw [hdc, hturns, update_self, waiting_turns c mem_cons_self]
    · rw [hturns, update_of_ne hdc]
      refine served_turns d ?_
      simpa [hdc] using hd

theorem Inv.step [DecidableEq κ] {size : Nat} {answer : Bool} (h : s.Inv clients) :
    (s.step size answer).Inv clients := by
  unfold RoundRobin.step
  cases hresult : s.result with
  | some b => exact h
  | none =>
    obtain ⟨k, hround⟩ := h.inRound hresult
    have hanswers : false ∉ s.answers := fun hmem => by
      have := h.stopped.2 hmem
      rw [hresult] at this
      cases this
    cases hwaiting : s.waiting with
    | nil =>
      simp only [endRound]
      split
      · rename_i hserved
        have hzero : ∀ c ∈ clients, s.backlog c = 0 := by
          intro c hc
          by_contra hpos
          have hmem := hround.rest c hc (Nat.pos_of_ne_zero hpos)
          rw [hwaiting, isEmpty_iff.1 hserved] at hmem
          cases hmem
        refine ⟨nofun, ⟨0, fun c hc hpos => absurd (hzero c hc) hpos.ne'⟩, fun _ => hzero, ?_⟩
        exact ⟨nofun, fun hmem => absurd hmem hanswers⟩
      · have hnext := hround.next hwaiting
        refine ⟨fun _ => ⟨k + 1, hnext⟩, hnext.fair, fun hdone => ?_, h.stopped⟩
        rw [hresult] at hdone
        cases hdone
    | cons c cs =>
      simp only [serve]
      split
      · rename_i hzero
        have hleave := hround.leave hwaiting hzero
        refine ⟨fun _ => ⟨k, hleave⟩, hleave.fair, fun hdone => ?_, h.stopped⟩
        rw [hresult] at hdone
        cases hdone
      · split
        · have htake : InRound clients k { s.take size c cs with
              served := s.served ++ [c], answers := s.answers ++ [true] } :=
            hround.take hwaiting rfl rfl rfl rfl
          refine ⟨fun _ => ⟨k, htake⟩, htake.fair, fun hdone => ?_, ?_⟩
          · rw [RoundRobin.take, hresult] at hdone
            cases hdone
          · simpa [RoundRobin.take, hresult] using hanswers
        · have htake : InRound clients k { s.take size c cs with served := s.served ++ [c] } :=
            hround.take hwaiting rfl rfl rfl rfl
          exact ⟨nofun, htake.fair, nofun, by simp⟩

theorem Inv.start (hnodup : clients.Nodup) (backlog : κ → Nat) :
    (RoundRobin.start clients backlog).Inv clients := by
  have hround : (RoundRobin.start clients backlog).InRound clients 0 := by
    refine ⟨?_, ?_, ?_, fun _ _ => rfl, nofun⟩
    · simpa [RoundRobin.start] using hnodup
    · simp [RoundRobin.start]
    · simp +contextual [RoundRobin.start]
  exact ⟨fun _ => ⟨0, hround⟩, hround.fair, nofun, by simp [RoundRobin.start]⟩

/-! ## Coming to an end -/

/-- What is left to do: the items, the turns of the clients that are in the list, and the end of the
round. -/
def measure (clients : List κ) (s : RoundRobin κ) : Nat :=
  match s.result with
  | some _ => 0
  | none => 2 * ((clients.map s.backlog).sum + (s.waiting ++ s.served).length) +
    (if s.waiting.isEmpty then 1 else 0) + 1

theorem sum_backlog_lt [DecidableEq κ] {c : κ} (hc : c ∈ clients) {backlog : κ → Nat} {n : Nat}
    (hn : n < backlog c) :
    (clients.map (update backlog c n)).sum < (clients.map backlog).sum := by
  refine sum_lt_sum _ _ (fun d _ => ?_) ⟨c, hc, by rwa [update_self]⟩
  by_cases hdc : d = c
  · rw [hdc, update_self]
    exact hn.le
  · rw [update_of_ne hdc]

section
variable [DecidableEq κ] {size : Nat}

/-- Every step leaves less to do. -/
theorem Inv.measure_step_lt (h : s.Inv clients) (hsize : 0 < size) (hresult : s.result = none)
    (answer : Bool) : (s.step size answer).measure clients < s.measure clients := by
  obtain ⟨k, hround⟩ := h.inRound hresult
  unfold RoundRobin.step
  rw [hresult]
  cases hwaiting : s.waiting with
  | nil =>
    simp only [endRound]
    split
    · simp [measure, hresult]
    · rename_i hserved
      simp [measure, hresult, hwaiting, hserved]
  | cons c cs =>
    have hc : c ∈ clients := hround.mem c (by simp [hwaiting])
    simp only [serve]
    split
    · simp only [measure, hresult, hwaiting, length_append, length_cons]
      cases cs <;> simp
      omega
    · rename_i hpos
      have hlt : s.backlog c - size < s.backlog c := by omega
      have hsum := sum_backlog_lt hc hlt
      split
      · simp only [measure, RoundRobin.take, hresult, hwaiting, length_append,
          length_cons, length_nil]
        cases cs <;> simp <;> omega
      · simp [measure, hresult]

theorem Inv.run (h : s.Inv clients) (size : Nat) (answers : Nat → Bool) (n : Nat) :
    (s.run size answers n).Inv clients := by
  induction n with
  | zero => exact h
  | succ n ih => exact ih.step

/-- The server comes to an end. -/
theorem Inv.exists_result (h : s.Inv clients) (hsize : 0 < size) (answers : Nat → Bool) :
    ∃ n, (s.run size answers n).result ≠ none := by
  by_contra hnone
  simp only [not_exists, not_not] at hnone
  have hle : ∀ n, (s.run size answers n).measure clients + n ≤ s.measure clients := by
    intro n
    induction n with
    | zero => exact le_rfl
    | succ n ih =>
      have hlt := (h.run size answers n).measure_step_lt hsize (hnone n) (answers n)
      rw [RoundRobin.run]
      omega
  have := hle (s.measure clients + 1)
  omega

end

end

end RoundRobin

end Lib
