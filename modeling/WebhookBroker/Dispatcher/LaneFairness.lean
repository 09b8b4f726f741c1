import WebhookBroker.Dispatcher.LaneRun

/-!
# Round robin

A lane that was served goes to the end of the ready list, and a lane that can run all the time
keeps its place before it (`Ahead`) until it is served itself. `tryNext` takes the first of the
ready lanes with the highest priority. So a lane is not served twice while another one with a job
of at least its priority can run all the time and is not served.
-/

namespace WebhookBroker

open Lib List

/-- The priority of the first job of the lane with the key. -/
def LaneScheduler.firstPriority (s : LaneScheduler) (key : String) : Nat :=
  ((s.lanes.lookup key).map s.headPriority).getD 0

def LaneScheduler.servedKey (s : LaneScheduler) : LaneAction → Option String
  | .tryNext => s.tryNext.1.map s.keyOf
  | _ => none

/-! ## Places in the ready list -/

theorem pair_sublist_of_mem {l l' : List LanePtr} {a b q : LanePtr} (hb : b ∈ l)
    (hold : a ∈ l → [b, a].Sublist l) (hl : l' = l ∨ l' = l ++ [q]) (ha : a ∈ l') :
    [b, a].Sublist l' := by
  rcases hl with rfl | rfl
  · exact hold ha
  · rcases mem_append.1 ha with ha | ha
    · exact (hold ha).trans (sublist_append_left l [q])
    · rw [mem_singleton.1 ha]
      exact (singleton_sublist.2 hb).append (List.Sublist.refl [q])

theorem mem_of_pair_sublist {before after : List LanePtr} {a b : LanePtr}
    (hnodup : (before ++ a :: after).Nodup) (h : [b, a].Sublist (before ++ a :: after)) :
    b ∈ before := by
  have hsplit := nodup_append.1 hnodup
  have hafter : a ∉ after := (nodup_cons.1 hsplit.2.1).1
  have hbefore : a ∉ before := fun ha => hsplit.2.2 a ha a mem_cons_self rfl
  obtain ⟨l₁, l₂, heq, h₁, h₂⟩ := sublist_append_iff.1 h
  match l₁, heq with
  | [], heq =>
    obtain rfl : [b, a] = l₂ := heq
    have htail : [a].Sublist after := cons_sublist_cons'.1 h₂ |>.elim
      (fun hsub => (sublist_cons_self b [a]).trans hsub) And.right
    exact absurd (singleton_sublist.1 htail) hafter
  | [_], heq =>
    obtain ⟨rfl, -⟩ := List.cons.inj heq
    exact singleton_sublist.1 h₁
  | _ :: _ :: _, heq =>
    obtain ⟨-, heq⟩ := List.cons.inj heq
    obtain ⟨rfl, -⟩ := List.cons.inj heq
    exact absurd (h₁.subset (mem_cons_of_mem _ mem_cons_self)) hbefore

/-! ## A lane that keeps its place -/

section
variable {s s' t : LaneScheduler} {out out' : List JobPtr} {a : LaneAction} {key keyA keyB : String}
  {ptr b : LanePtr} {p : JobPtr} {queue : PriorityQueue}

/-- In the ready list, the lane of `keyB` is before the one of `keyA`, if that one is there. -/
def Ahead (s : LaneScheduler) (keyB keyA : String) : Prop :=
  ∃ b, s.lanes.lookup keyB = some b ∧
    ∀ a, s.lanes.lookup keyA = some a → a ∈ s.ready → [b, a].Sublist s.ready

theorem markReadyLocked_ready (s : LaneScheduler) (ptr : LanePtr) :
    (s.markReadyLocked ptr).ready = s.ready ∨ (s.markReadyLocked ptr).ready = s.ready ++ [ptr] := by
  rcases markReadyLocked_cases s ptr with ⟨-, -, heq⟩ | ⟨-, heq⟩
  · exact .inr (by rw [heq])
  · exact .inl (by rw [heq])

theorem ahead_markReady (hk : s.lanes.lookup keyB = some b) (hb : b ∈ s.ready)
    (hold : ∀ a, s.lanes.lookup keyA = some a → a ∈ s.ready → [b, a].Sublist s.ready)
    (ptr : LanePtr) : Ahead (s.markReadyLocked ptr) keyB keyA := by
  refine ⟨b, (markReadyLocked_lanes s ptr).symm ▸ hk, fun a ha hmem => ?_⟩
  rw [markReadyLocked_lanes] at ha
  exact pair_sublist_of_mem hb (hold a ha) (markReadyLocked_ready s ptr) hmem

section
variable (h : SchedInv s out)
include h

theorem SchedInv.mem_ready_of_laneCanRun (hrun : s.laneCanRun key = true)
    (hk : s.lanes.lookup key = some ptr) : ptr ∈ s.ready := by
  rw [LaneScheduler.laneCanRun, hk, Option.any_some] at hrun
  exact (h.ready.mem ptr).2 ⟨key, hk, h.complete key ptr hk hrun⟩

theorem SchedInv.lookup_served (hserved : IsServed s ptr) (hs : Serves s t ptr p queue) :
    s.lanes.lookup (s.keyOf p) = some ptr := by
  obtain ⟨key, hk, -⟩ := (h.ready.mem ptr).1 hserved.mem
  have hp := hs.queue_perm.mem_iff.1 mem_cons_self
  rw [((h.jobs.lanes key ptr hk).2.queued p hp).1, hk]

/-- A lane that can run before and after a call that does not serve it keeps its place. -/
theorem LaneStep.ahead (h' : SchedInv s' out') (hstep : LaneStep s out a s')
    (hahead : Ahead s keyB keyA) (hB : s.laneCanRun keyB = true) (hB' : s'.laneCanRun keyB = true)
    (hno : s.servedKey a ≠ some keyB) : Ahead s' keyB keyA := by
  obtain ⟨b, hb, hA⟩ := hahead
  have hmem : b ∈ s.ready := h.mem_ready_of_laneCanRun hB hb
  cases hstep with
  | dropped | idle | held => exact ⟨b, hb, hA⟩
  | refreshed => exact ⟨b, hb, hA⟩
  | @accepted p ptr t _ _ hl =>
    have hready : (t.accept ptr p).ready = s.ready := hl.ready
    have hkeep : ∀ {key q}, s.lanes.lookup key = some q →
        (t.accept ptr p).lanes.lookup key = some q := hl.keep
    refine ahead_markReady (hkeep hb) (hready.symm ▸ hmem) (fun a ha hain => ?_) ptr
    rw [hready] at hain ⊢
    obtain ⟨key, hk, -⟩ := (h.ready.mem a).1 hain
    have hkey : key = keyA :=
      h'.jobs.key_inj (by rw [markReadyLocked_lanes, hkeep hk]) (by rw [markReadyLocked_lanes, ha])
    exact hA a (hkey ▸ hk) hain
  | @served ptr p queue t hnext hserved hs =>
    have hptr := h.lookup_served hserved hs
    have hne : b ≠ ptr := by
      rintro rfl
      refine hno ?_
      rw [LaneScheduler.servedKey, hnext, Option.map_some, h.jobs.key_inj hptr hb]
    refine ahead_markReady (hs.lanes.symm ▸ hb) ?_ (fun a ha hain => ?_) ptr
    · rw [hs.ready]
      exact (mem_erase_of_ne hne).2 hmem
    · rw [hs.ready] at hain ⊢
      rw [hs.lanes] at ha
      obtain ⟨hap, hain⟩ := h.ready.nodup.mem_erase_iff.1 hain
      have hsub := (hA a ha hain).erase ptr
      rwa [erase_of_not_mem] at hsub
      rintro (_ | ⟨_, _ | ⟨_, ⟨⟩⟩⟩)
      · exact hne rfl
      · exact hap rfl
  | @released p ptr t hm =>
    refine ahead_markReady (hm.lanes.symm ▸ hb) (hm.ready.symm ▸ hmem) (fun a ha hain => ?_) ptr
    rw [hm.ready] at hain ⊢
    rw [hm.lanes] at ha
    exact hA a ha hain
  | @deleted p ptr t hm =>
    have hlookup : ∀ {key q}, (t.lanes.erase (s.keyOf p)).lookup key = some q →
        s.lanes.lookup key = some q := fun hk =>
      hm.lanes ▸ (lookup_erase_eq_some.1 hk).2
    obtain ⟨b', hb', -⟩ := LaneScheduler.laneCanRun_iff.1 hB'
    cases hb.symm.trans (hlookup hb')
    refine ⟨b, hb', fun a ha hain => ?_⟩
    simp only [hm.ready] at hain ⊢
    exact hA a (hlookup ha) hain
  | discarded =>
    obtain ⟨b', hb', hrun⟩ := LaneScheduler.laneCanRun_iff.1 hB'
    exact absurd ((discardQueued_spec h.jobs).2.2 keyB b' hb').1 (ConsumerLane.canRun_iff.1 hrun).1

theorem LaneStep.served_cases (hstep : LaneStep s out a s') (hkey : s.servedKey a = some key) :
    ∃ ptr p queue t, IsServed s ptr ∧ Serves s t ptr p queue ∧ s.lanes.lookup key = some ptr ∧
      s' = t.markReadyLocked ptr := by
  cases hstep with
  | dropped | refreshed | accepted | held | released | deleted | discarded => cases hkey
  | idle hnone =>
    rw [LaneScheduler.servedKey, hnone] at hkey
    cases hkey
  | @served ptr p queue t hnext hserved hs =>
    rw [LaneScheduler.servedKey, hnext, Option.map_some] at hkey
    cases hkey
    exact ⟨ptr, p, queue, t, hserved, hs, h.lookup_served hserved hs, rfl⟩

/-- A lane that was served is at the end of the ready list. -/
theorem LaneStep.ahead_of_served (h' : SchedInv s' out') (hstep : LaneStep s out a s')
    (hA : s.servedKey a = some keyA) (hB' : s'.laneCanRun keyB = true) (hne : keyA ≠ keyB) :
    Ahead s' keyB keyA := by
  obtain ⟨ptr, p, queue, t, hserved, hs, hptr, rfl⟩ := hstep.served_cases h hA
  obtain ⟨b, hb, -⟩ := LaneScheduler.laneCanRun_iff.1 hB'
  have hb' : s.lanes.lookup keyB = some b := by
    rw [← hs.lanes, ← markReadyLocked_lanes t ptr, hb]
  have hbne : b ≠ ptr := by
    rintro rfl
    exact hne (h.jobs.key_inj hptr hb')
  have hbt : b ∈ t.ready := by
    have hmem := h'.mem_ready_of_laneCanRun hB' hb
    rcases markReadyLocked_ready t ptr with heq | heq
    · rwa [heq] at hmem
    · rw [heq, mem_append, mem_singleton] at hmem
      exact hmem.resolve_right hbne
  refine ahead_markReady (hs.lanes.symm ▸ hb') hbt (fun a ha hain => ?_) ptr
  rw [hs.lanes] at ha
  cases hptr.symm.trans ha
  rw [hs.ready] at hain
  exact absurd rfl (h.ready.nodup.mem_erase_iff.1 hain).1

theorem LaneStep.firstPriority_lt (hstep : LaneStep s out a s') (hA : s.servedKey a = some keyA)
    (hahead : Ahead s keyB keyA) : s.firstPriority keyB < s.firstPriority keyA := by
  obtain ⟨ptr, p, queue, t, hserved, hs, hptr, rfl⟩ := hstep.served_cases h hA
  obtain ⟨b, hb, hsub⟩ := hahead
  have hpair := hsub ptr hptr hserved.mem
  obtain ⟨before, after, heq, hlower⟩ := hserved.first
  have hnodup := h.ready.nodup
  rw [heq] at hpair hnodup
  rw [LaneScheduler.firstPriority, LaneScheduler.firstPriority, hb, hptr]
  exact hlower b (mem_of_pair_sublist hnodup hpair)

end

end

/-- In every run, if a lane is served at two steps and another lane can run in every state between
them, at last with a first job of at least the priority of the served one, then the other lane is
served in between. -/
theorem other_lane_served_between (r : LaneRun) {keyA keyB : String} (hne : keyA ≠ keyB) {i j : Nat}
    (hij : i < j) (hj : j < r.len)
    (hi : (r.state i).sched.servedKey (r.act i) = some keyA)
    (hA : (r.state j).sched.servedKey (r.act j) = some keyA)
    (hB : ∀ k, i < k → k ≤ j → (r.state k).sched.laneCanRun keyB = true)
    (hpriority : (r.state j).sched.firstPriority keyA ≤ (r.state j).sched.firstPriority keyB) :
    ∃ k, i < k ∧ k < j ∧ (r.state k).sched.servedKey (r.act k) = some keyB := by
  by_contra hno
  have hahead : ∀ k, i + 1 ≤ k → k ≤ j → Ahead (r.state k).sched keyB keyA := by
    intro k hk
    induction k, hk using Nat.le_induction with
    | base =>
      intro hk
      exact (r.laneStep (by omega)).ahead_of_served (r.schedInv (by omega)) (r.schedInv (by omega))
        hi (hB (i + 1) (by omega) hk) hne
    | succ k hk ih =>
      intro hkj
      exact (r.laneStep (by omega)).ahead (r.schedInv (by omega)) (r.schedInv (by omega))
        (ih (by omega)) (hB k (by omega) (by omega)) (hB (k + 1) (by omega) hkj)
        fun hserved => hno ⟨k, by omega, by omega, hserved⟩
  have hlt := (r.laneStep hj).firstPriority_lt (r.schedInv hj.le) hA (hahead j hij le_rfl)
  exact absurd hlt (Nat.not_lt.2 hpriority)

theorem other_lane_served_between_serve_in_turn :
    ∃ r : LaneRun, (r.state 4).sched.servedKey (r.act 4) = some "c/d" ∧
      (r.state 6).sched.servedKey (r.act 6) = some "c/d" ∧
      ∃ k, 4 < k ∧ k < 6 ∧ (r.state k).sched.servedKey (r.act k) = some "c/e" := by
  let r : LaneRun := Run.ofActs Sample.lanes Sample.serveInTurn Sample.lanes_isInitial
    (by decide +kernel)
  have hi : (r.state 4).sched.servedKey (r.act 4) = some "c/d" := by decide +kernel
  have hj : (r.state 6).sched.servedKey (r.act 6) = some "c/d" := by decide +kernel
  refine ⟨r, hi, hj, other_lane_served_between r (by decide) (by decide) (by decide) hi hj
    (fun k hk hk' => ?_) (by decide +kernel)⟩
  obtain rfl | rfl : k = 5 ∨ k = 6 := by omega
  · decide +kernel
  · decide +kernel

end WebhookBroker
