import WebhookBroker.Broker.Steps

/-!
# No hand-out to a paused consumer

A node's pause registry may be stale, and pauses come and go between any two steps of a worker.
Still no job enters `INFLIGHT` while its consumer or the broker is paused in the database, since
both statements that hand a job out check it. A worker calls the consumer's callback only after
such a hand-out of its own.
-/

namespace WebhookBroker

open Lib

section
variable [NetUrl] {cfg : Config}

theorem DbEffect.dispatchPause_mark {db db' : Db} {m : Mark} {now : Time} {job : DeliveryJob}
    (he : DbEffect db (.mark m now job) db') : db'.dispatchPause = db.dispatchPause := by
  cases he <;> rfl

theorem Sys.not_paused_of_enters_inflight {s s' : Sys} {a : Action}
    (h : Sys.step cfg s a = some s') (hi : s.db.Integrity) {j : Xid} {row : JobRow}
    (hrow : s'.db.place j = some (.job row)) (hin : row.status = .inflight)
    (hout : ¬ s.db.inflight j) :
    s'.db.dispatchPause = s.db.dispatchPause ∧
      ∀ d ∈ s.db.dispatchPause,
        d.scope ≠ row.consumerId.string ∧ d.scope ≠ globalDispatchPauseScope := by
  obtain ⟨u, env, m, job, row₀, ha, hop, -, -, -, -, -, -, hpaused⟩ :=
    Sys.enters_inflight h hi hrow hin hout
  refine ⟨?_, Db.effectivelyPaused_eq_false.1 hpaused⟩
  rcases Sys.step_db h with ⟨-, hdb⟩ | ⟨op, hop', hdb⟩
  · rw [hdb]
  · rw [hop] at hop'
    cases hop'
    exact (DbOp.step_effect hdb).dispatchPause_mark

/-- In every run, whatever the registries answer and however stale the copies are, no pause of its
consumer or of the broker is stored when a job enters `INFLIGHT`; and a worker calls the callback
only between a hand-out of its own and its settle write. -/
theorem no_hand_out_while_paused (r : SysRun cfg) :
    (∀ i j row, i < r.len → ¬ (r.state i).db.inflight j →
      (r.state (i + 1)).db.place j = some (.job row) → row.status = .inflight →
      ∀ d ∈ (r.state i).db.dispatchPause ++ (r.state (i + 1)).db.dispatchPause,
        d.scope ≠ row.consumerId.string ∧ d.scope ≠ globalDispatchPauseScope) ∧
    (∀ p t env job, p < r.len → r.act p = .run t env → (r.state p).threads t = .executing job →
      (∃ q < p, r.handsOut q t job.id ∧ ∀ k, q < k → k < p → (r.act k).thread ≠ some t) ∧
      (r.state (p + 1)).threads t = .settling job env.answer) := by
  refine ⟨?_, ?_⟩
  · intro i j row hi hout hrow hin d hd
    obtain ⟨hsame, hpause⟩ := Sys.not_paused_of_enters_inflight (r.next i hi)
      (r.integrity (by omega)) hrow hin hout
    rw [hsame] at hd
    exact hpause d (by simpa using hd)
  · intro p t env job hp ha hth
    refine ⟨r.handsOut_of_executing (by omega) hth, ?_⟩
    rw [Sys.step_eq (r.next p hp), ha]
    simp only [Sys.advance, Sys.setThread_self, hth, Thread.next]

end

/-- A job is dispatched, queued, handed out by thread 1 and its callback is called. -/
def Sample.deliver : List Action :=
  [.dispatch 0 message [job .push second] [],
   .run 0 {},
   .receive 1 0,
   .run 1 {},
   .run 1 { answer := true }]

open Sample

theorem no_hand_out_while_paused_deliver :
    ∃ r : @SysRun netUrl config,
      (r.state 4).db.job.map (·.status) = [.inflight] ∧
      ∃ q < 4, @SysRun.handsOut config netUrl r q 1 jobXid := by
  let _ := netUrl
  let r : SysRun config := Run.ofActs (sys .push) deliver
    ⟨by decide, fun _ => rfl⟩ (by decide +kernel)
  obtain ⟨job, hth⟩ : ∃ job : DeliveryJob, (r.state 4).threads 1 = .executing job ∧
      job.id = jobXid :=
    ⟨(markJobInflight second (job .push second)).copy, by decide +kernel, rfl⟩
  obtain ⟨⟨q, hq, hout, -⟩, -⟩ :=
    (no_hand_out_while_paused r).2 4 1 { answer := true } job (by decide) rfl hth.1
  rw [hth.2] at hout
  exact ⟨r, by decide +kernel, q, hq, hout⟩

end WebhookBroker
