import WebhookBroker.Broker.Steps
import WebhookBroker.Storage.Listing

/-!
# Pruning next to the broker (`prune/service.go`)

`PruneMessages` lists messages whose jobs are all delivered, writes them to the archive and deletes
them with their jobs. The listing is made of several queries, and the delete is a later transaction
that does not look at the status of the jobs again. `Cluster` runs any number of such threads next
to the broker, whose requests are those of the program: dead jobs are deleted with `GetMaxRetry()`,
and messages are removed by `PruneMessages` only.

What a pruning thread has listed stays prunable (`Db.Prunable`): a delivered job is never changed,
and a dispatched message never gets another job.
-/

namespace WebhookBroker

open Lib List

/-- Where a call of `PruneMessages` is. -/
inductive PruneThread where
  | idle
  /-- before `GetMessagesFromBeforeDurationThatAreCompletelyDelivered` -/
  | selecting
  /-- in it, before the next page, with the time it was called at -/
  | listing (calledAt : Time) (page : Pagination) (messages : List Message)
  | archiving (messages : List Message)
  /-- before `DeleteMessagesAndJobs` -/
  | deleting (messageIDs : List String) (moreMessages : Bool)
deriving DecidableEq

/-- What a step of the thread depends on: whether its database call fails, and how many messages are
archived before the archive fails. -/
structure PruneEnv where
  fault : Bool := false
  archived : Nat
deriving DecidableEq

def PruneThread.listed (messages : List Message) : PruneThread :=
  if messages.isEmpty then .idle else .archiving messages

section
variable (retention : Duration) (now : Time) (env : PruneEnv)

def PruneThread.op : PruneThread → Option DbOp
  | .deleting messageIDs _ => if env.fault then none else some (.deleteMessagesAndJobs messageIDs)
  | _ => none

/-- One page of the listing, 100 at a time. -/
def prunePage (db : Db) (calledAt : Time) (page : Pagination) : List MessageRow :=
  pageQuery MessageRow.key page 100
    (db.message.filter (isCompletelyDelivered db calledAt retention))

/-- Where the thread is after its step; `ok` says that its delete succeeded. -/
def PruneThread.next (db : Db) (ok : Bool) : PruneThread → PruneThread
  | .idle => .idle
  | .selecting => .listing now {} []
  | .listing calledAt page messages =>
    let pageMessages := (prunePage retention db calledAt page).map (·.load db)
    if env.fault || pageMessages.isEmpty then .listed messages
    else if (messages ++ pageMessages).length ≥ 1000 then .listed (messages ++ pageMessages)
    else .listing calledAt { page with next := pageMessages.getLast?.map (·.getCursor) }
      (messages ++ pageMessages)
  | .archiving messages =>
    -- the messages before the first one that is not archived are deleted
    if env.fault || env.archived = 0 then .idle
    else .deleting ((messages.take env.archived).map (·.id.string))
      (decide (messages.length ≤ env.archived))
  | .deleting _ moreMessages => if ok && moreMessages then .selecting else .idle

end

/-- The broker and the threads that prune. -/
structure Cluster where
  sys : Sys
  pruners : Nat → PruneThread

inductive ClusterAction where
  | broker (a : Action)
  /-- `PruneMessages` starts -/
  | prune (t : Nat)
  | runPrune (t : Nat) (env : PruneEnv)
  | crashPrune (t : Nat)

instance : Inhabited ClusterAction := ⟨.broker default⟩

/-- The requests that the controllers make: deletes of dead jobs have `GetMaxRetry()`, and messages
are not removed. -/
def Action.isController (cfg : Config) : Action → Bool
  | .request (.deleteDeadJob _ maxRetryCount)
  | .request (.deleteDeadJobsForConsumer _ maxRetryCount) => decide (maxRetryCount = cfg.maxRetry)
  | .request (.deleteMessagesAndJobs _) => false
  | _ => true

def Cluster.setPruner (c : Cluster) (t : Nat) (th : PruneThread) : Cluster :=
  { c with pruners := fun u => if u = t then th else c.pruners u }

section
variable [NetUrl] (cfg : Config) (retention : Duration)

def Cluster.opOf (c : Cluster) : ClusterAction → Option DbOp
  | .broker a => c.sys.opOf cfg a
  | .runPrune t env => (c.pruners t).op env
  | .prune _ | .crashPrune _ => none

def Cluster.step (c : Cluster) : ClusterAction → Option Cluster
  | .broker a =>
    if a.isController cfg then (Sys.step cfg c.sys a).map fun s => { c with sys := s } else none
  | .prune t => if c.pruners t = .idle then some (c.setPruner t .selecting) else none
  | .runPrune t env =>
    let next ok := (c.pruners t).next retention c.sys.clock env c.sys.db ok
    match (c.pruners t).op env with
    | none => some (c.setPruner t (next false))
    | some op => (DbOp.step c.sys.db op).map fun db =>
        { c.setPruner t (next !op.fails c.sys.db) with sys := { c.sys with db := db } }
  | .crashPrune t => some (c.setPruner t .idle)

def Cluster.isInitial (c : Cluster) : Prop := c.sys.isInitial ∧ ∀ t, c.pruners t = .idle

abbrev ClusterRun := Run Cluster.isInitial (Cluster.step cfg retention)

end

/-! ## What is listed stays prunable -/

/-- The messages with the id, if there are any, are dispatched and old enough, their jobs are all
delivered, and none is parked. -/
structure Db.Prunable (db : Db) (earliest : Time) (id : String) : Prop where
  dispatched : ∀ m ∈ db.message, m.id.string = id → m.status = .dispatched
  old : ∀ m ∈ db.message, m.id.string = id → m.createdAt ≤ earliest
  delivered : ∀ row ∈ db.job, row.messageId.string = id → row.status = .delivered
  unparked : ∀ p ∈ db.jobParking, p.messageId.string ≠ id

section
variable {db db' : Db} {earliest : Time} {id : String}

theorem Db.Prunable.mono (h : db.Prunable earliest id) {later : Time} (hle : earliest ≤ later) :
    db.Prunable later id where
  dispatched := h.dispatched
  old m hm hid := Int.le_trans (h.old m hm hid) hle
  delivered := h.delivered
  unparked := h.unparked

theorem prunable_of_mem_prunePage {retention : Duration} {calledAt : Time} {page : Pagination}
    (hids : (db.message.map (·.id)).Nodup) {row : MessageRow}
    (h : row ∈ prunePage retention db calledAt page) :
    db.Prunable (calledAt + sinceDelta retention) row.id.string := by
  obtain ⟨hmem, hrow⟩ := mem_filter.1 (mem_pageQuery h).1
  simp only [isCompletelyDelivered, Bool.and_eq_true, beq_iff_eq, decide_eq_true_eq,
    Bool.not_eq_true', any_eq_false, bne_iff_ne, not_and, not_not] at hrow
  obtain ⟨⟨⟨hstatus, hold⟩, hjobs⟩, hparked⟩ := hrow
  have hunique : ∀ m ∈ db.message, m.id.string = row.id.string → m = row := by
    intro m hm hid
    exact inj_on_of_nodup_map hids hm hmem (Xid.string_injective hid)
  constructor
  · intro m hm hid
    rw [hunique m hm hid]
    exact hstatus
  · intro m hm hid
    rw [hunique m hm hid]
    exact hold
  · intro job hjob hid
    exact hjobs job hjob (Xid.string_injective hid)
  · intro p hp hid
    exact hparked p hp (Xid.string_injective hid)

theorem Db.Prunable.update (h : db.Prunable earliest id) {q : JobRow → Bool} {f : JobRow → JobRow}
    (hid : ∀ row, (f row).messageId = row.messageId)
    (hq : ∀ row, q row = true → row.status ≠ .delivered) :
    ({ db with job := updateWhere q f db.job } : Db).Prunable earliest id where
  dispatched := h.dispatched
  old := h.old
  unparked := h.unparked
  delivered row hrow hmessage := by
    obtain ⟨row₀, hrow₀, rfl⟩ := mem_updateWhere.1 hrow
    split at hmessage
    · rename_i hmatch
      rw [hid] at hmessage
      exact absurd (h.delivered row₀ hrow₀ hmessage) (hq row₀ hmatch)
    · rename_i hmatch
      rw [if_neg hmatch]
      exact h.delivered row₀ hrow₀ hmessage

theorem Db.Prunable.ne_of_acknowledged (h : db.Prunable earliest id) {message : Message}
    (hack : db.message.countP (isAcknowledged message.id) = 1) : message.id.string ≠ id := by
  intro hid
  obtain ⟨m, hm, hmatch⟩ := countP_pos_iff.1 (hack ▸ Nat.one_pos)
  simp only [isAcknowledged, Bool.and_eq_true, Xid.like_iff, beq_iff_eq] at hmatch
  have hdispatched := h.dispatched m hm (hmatch.1 ▸ hid)
  rw [hmatch.2] at hdispatched
  cases hdispatched

theorem DbEffect.prunable [NetUrl] {op : DbOp} (he : DbEffect db op db')
    (h : db.Prunable earliest id) : db'.Prunable earliest id := by
  cases he with
  | unchanged => exact h
  | @dispatched now message deliveryJobs parkedJobs hfresh hvalid hack =>
    have hne := h.ne_of_acknowledged hack
    have hjobs : ∀ job ∈ deliveryJobs ++ parkedJobs, job.messageID.string ≠ id := by
      intro job hjob
      have hmessage := (Bool.and_eq_true_iff.1 (hvalid job hjob)).2
      rw [beq_iff_eq.1 hmessage]
      exact hne
    constructor
    · intro m hm hid
      obtain ⟨m₀, hm₀, rfl⟩ := mem_updateWhere.1 hm
      split at hid
      · rw [if_pos ‹_›]
        rfl
      · rw [if_neg ‹_›]
        exact h.dispatched m₀ hm₀ hid
    · intro m hm hid
      obtain ⟨m₀, hm₀, rfl⟩ := mem_updateWhere.1 hm
      split at hid
      · rw [if_pos ‹_›]
        exact h.old m₀ hm₀ hid
      · rw [if_neg ‹_›]
        exact h.old m₀ hm₀ hid
    · intro row hrow hid
      rcases mem_append.1 hrow with hrow | hrow
      · exact h.delivered row hrow hid
      · obtain ⟨job, hjob, rfl⟩ := mem_map.1 hrow
        exact absurd hid (hjobs job (mem_append_left _ hjob))
    · intro p hp
      rcases mem_append.1 hp with hp | hp
      · exact h.unparked p hp
      · have href := mem_map_of_mem (f := (·.ref)) hp
        rw [map_ref_numberFrom, map_map] at href
        obtain ⟨job, hjob, hpref⟩ := mem_map.1 href
        have hmessage : job.messageID = p.messageId := congrArg JobRef.messageId hpref
        rw [← hmessage]
        exact hjobs job (mem_append_right _ hjob)
  | @reparked now job row hrow hpaused =>
    have hmem : row ∈ db.job.filter (fun j => j.id == job.id && j.status == .queued) := by
      simp [hrow]
    obtain ⟨hmem, hmatch⟩ := mem_filter.1 hmem
    refine ⟨h.dispatched, h.old, ?_, ?_⟩
    · intro row' hrow' hid
      exact h.delivered row' (mem_deleteWhere.1 hrow').1 hid
    · intro p hp hid
      rcases mem_append.1 hp with hp | hp
      · exact h.unparked p hp hid
      · rw [mem_singleton.1 hp] at hid
        have hdelivered := h.delivered row hmem hid
        simp [hdelivered] at hmatch
  | @drained now c pageSize earliestNext rows hrows hcount =>
    have hparked : ∀ p ∈ rows, p ∈ db.jobParking := by
      intro p hp
      rw [hrows] at hp
      exact (mem_filter.1
        ((perm_insertionSort _ _).mem_iff.1 (mem_of_mem_take hp))).1
    refine ⟨h.dispatched, h.old, ?_, ?_⟩
    · intro row hrow hid
      rcases mem_append.1 hrow with hrow | hrow
      · exact h.delivered row hrow hid
      · obtain ⟨p, hp, rfl⟩ := mem_map.1 hrow
        exact absurd hid (h.unparked p (hparked p hp))
    · intro p hp
      exact h.unparked p (mem_deleteWhere.1 hp).1
  | @marked m now job hcount =>
    refine h.update (fun row => congrArg JobRef.messageId (m.ref_set now job row)) ?_
    intro row hrow hdelivered
    have hsource := Mark.status_of_guard (Bool.and_eq_true_iff.1 hrow).2
    rw [hdelivered] at hsource
    cases m <;> cases hsource
  | requeued | requeuedForConsumer =>
    refine h.update (fun _ => rfl) ?_
    intro row hrow hdelivered
    simp [hdelivered] at hrow
  | deleted | deletedForConsumer =>
    exact ⟨h.dispatched, h.old, fun row hrow => h.delivered row (mem_deleteWhere.1 hrow).1,
      h.unparked⟩
  | deletedMessages hparked =>
    exact ⟨fun m hm => h.dispatched m (mem_deleteWhere.1 hm).1,
      fun m hm => h.old m (mem_deleteWhere.1 hm).1,
      fun row hrow => h.delivered row (mem_deleteWhere.1 hrow).1, h.unparked⟩
  | paused | resumed | locked => exact ⟨h.dispatched, h.old, h.delivered, h.unparked⟩

end

def PruneThread.ids : PruneThread → List String
  | .listing _ _ messages | .archiving messages => messages.map (·.id.string)
  | .deleting messageIDs _ => messageIDs
  | .idle | .selecting => []

variable {retention : Duration}

theorem PruneThread.mem_ids_next {now : Time} {env : PruneEnv} {db : Db} {ok : Bool}
    {th : PruneThread} {id : String} (h : id ∈ (th.next retention now env db ok).ids) :
    id ∈ th.ids ∨ ∃ calledAt page messages, th = .listing calledAt page messages ∧
      ∃ row ∈ prunePage retention db calledAt page, row.id.string = id := by
  have hlisted : ∀ {messages : List Message}, id ∈ (PruneThread.listed messages).ids →
      id ∈ messages.map (·.id.string) := by
    intro messages hid
    unfold PruneThread.listed at hid
    split at hid
    · cases hid
    · exact hid
  cases th with
  | idle | selecting => cases h
  | listing calledAt page messages =>
    have hpage : id ∈ (messages ++ (prunePage retention db calledAt page).map (·.load db)).map
        (·.id.string) → id ∈ messages.map (·.id.string) ∨
          ∃ row ∈ prunePage retention db calledAt page, row.id.string = id := by
      intro hid
      rw [map_append, mem_append, map_map] at hid
      exact hid.imp_right mem_map.1
    have hcases : id ∈ messages.map (·.id.string) ∨
        ∃ row ∈ prunePage retention db calledAt page, row.id.string = id := by
      simp only [PruneThread.next] at h
      split at h
      · exact .inl (hlisted h)
      · split at h
        · exact hpage (hlisted h)
        · exact hpage h
    exact hcases.imp_right fun hrow => ⟨calledAt, page, messages, rfl, hrow⟩
  | archiving messages =>
    simp only [PruneThread.next] at h
    split at h
    · cases h
    · obtain ⟨m, hm, hid⟩ := mem_map.1 h
      exact .inl (mem_map.2 ⟨m, mem_of_mem_take hm, hid⟩)
  | deleting messageIDs moreMessages =>
    simp only [PruneThread.next] at h
    split at h <;> cases h

theorem PruneThread.next_eq_listing {now : Time} {env : PruneEnv} {db : Db} {ok : Bool}
    {th : PruneThread} {calledAt : Time} {page : Pagination} {messages : List Message}
    (h : th.next retention now env db ok = .listing calledAt page messages) :
    calledAt = now ∨ ∃ page₀ messages₀, th = .listing calledAt page₀ messages₀ := by
  have hlisted : ∀ ms : List Message, PruneThread.listed ms ≠ .listing calledAt page messages := by
    intro ms hms
    unfold PruneThread.listed at hms
    split at hms <;> cases hms
  cases th with
  | idle => cases h
  | selecting =>
    cases h
    exact .inl rfl
  | listing calledAt₀ page₀ messages₀ =>
    simp only [PruneThread.next] at h
    split at h
    · exact absurd h (hlisted _)
    · split at h
      · exact absurd h (hlisted _)
      · cases h
        exact .inr ⟨_, _, rfl⟩
  | archiving messages =>
    simp only [PruneThread.next] at h
    split at h <;> cases h
  | deleting messageIDs moreMessages =>
    simp only [PruneThread.next] at h
    split at h <;> cases h

/-- Everything that a step can do to a thread. -/
inductive PruneGoes (retention : Duration) (now : Time) (db : Db) :
    PruneThread → PruneThread → Prop
  | stay {th} : PruneGoes retention now db th th
  | stop {th} : PruneGoes retention now db th .idle
  | start {th} : PruneGoes retention now db th .selecting
  | next {th env ok} : PruneGoes retention now db th (th.next retention now env db ok)

/-- What the thread has listed is prunable. -/
structure PruneThread.Listed (retention : Duration) (now : Time) (db : Db) (th : PruneThread) :
    Prop where
  called : ∀ calledAt page messages, th = .listing calledAt page messages → calledAt ≤ now
  prunable : ∀ id ∈ th.ids, db.Prunable (now + sinceDelta retention) id

section
variable {now : Time} {db : Db} {th th' : PruneThread}

/-- What a thread has listed after its step it had listed before, or it reads it in this step. -/
theorem PruneGoes.listed (h : PruneGoes retention now db th th')
    (hids : (db.message.map (·.id)).Nodup) (hl : th.Listed retention now db) :
    th'.Listed retention now db := by
  cases h with
  | stay => exact hl
  | stop | start => exact ⟨nofun, nofun⟩
  | next =>
    refine ⟨fun calledAt page messages hth => ?_, fun id hid => ?_⟩
    · rcases PruneThread.next_eq_listing hth with rfl | ⟨page₀, messages₀, hth₀⟩
      · exact Int.le_refl _
      · exact hl.called calledAt page₀ messages₀ hth₀
    · rcases PruneThread.mem_ids_next hid with
        hold | ⟨calledAt, page, messages, hth, row, hrow, rfl⟩
      · exact hl.prunable id hold
      · exact (prunable_of_mem_prunePage hids hrow).mono
          (Int.add_le_add_right (hl.called calledAt page messages hth) _)

/-- It stays prunable while time passes and writes keep it so. -/
theorem PruneThread.Listed.mono (hl : th.Listed retention now db) {now' : Time} {db' : Db}
    (hnow : now ≤ now')
    (hdb : ∀ id ∈ th.ids, ∀ earliest, db.Prunable earliest id → db'.Prunable earliest id) :
    th.Listed retention now' db' where
  called calledAt page messages hth := Int.le_trans (hl.called calledAt page messages hth) hnow
  prunable id hid := (hdb id hid _ (hl.prunable id hid)).mono (Int.add_le_add_right hnow _)

end

theorem PruneGoes.set {now : Time} {db : Db} {pruners : Nat → PruneThread} {t : Nat}
    {th : PruneThread} (h : PruneGoes retention now db (pruners t) th) (u : Nat) :
    PruneGoes retention now db (pruners u) (if u = t then th else pruners u) := by
  split
  · rename_i hu
    rw [hu]
    exact h
  · exact .stay

section
variable [NetUrl] {cfg : Config} {retention : Duration} {c c' : Cluster} {a : ClusterAction}

section
variable (h : Cluster.step cfg retention c a = some c')
include h

theorem Cluster.step_cases :
    (∃ a', a = .broker a' ∧ a'.isController cfg = true ∧ Sys.step cfg c.sys a' = some c'.sys ∧
      c'.pruners = c.pruners) ∨
    (c'.sys.clock = c.sys.clock ∧
      ((c.opOf cfg a = none ∧ c'.sys.db = c.sys.db) ∨
        ∃ t env op, a = .runPrune t env ∧ (c.pruners t).op env = some op ∧
          DbOp.step c.sys.db op = some c'.sys.db) ∧
      ∀ u, PruneGoes retention c.sys.clock c.sys.db (c.pruners u) (c'.pruners u)) := by
  cases a with
  | broker a =>
    simp only [Cluster.step] at h
    split at h
    · rename_i hcontroller
      obtain ⟨s, hs, rfl⟩ := Option.map_eq_some_iff.1 h
      exact .inl ⟨a, rfl, hcontroller, hs, rfl⟩
    · cases h
  | prune t =>
    simp only [Cluster.step] at h
    split at h
    · cases h
      exact .inr ⟨rfl, .inl ⟨rfl, rfl⟩, PruneGoes.start.set⟩
    · cases h
  | runPrune t env =>
    simp only [Cluster.step] at h
    split at h
    · rename_i hop
      cases h
      exact .inr ⟨rfl, .inl ⟨hop, rfl⟩, PruneGoes.next.set⟩
    · rename_i op hop
      obtain ⟨db, hdb, rfl⟩ := Option.map_eq_some_iff.1 h
      exact .inr ⟨rfl, .inr ⟨t, env, op, rfl, hop, hdb⟩, PruneGoes.next.set⟩
  | crashPrune t =>
    cases h
    exact .inr ⟨rfl, .inl ⟨rfl, rfl⟩, PruneGoes.stop.set⟩

theorem Cluster.step_db :
    (c.opOf cfg a = none ∧ c'.sys.db = c.sys.db) ∨
      ∃ op, c.opOf cfg a = some op ∧ DbOp.step c.sys.db op = some c'.sys.db := by
  rcases Cluster.step_cases h with ⟨a', rfl, -, hs, -⟩ | ⟨-, hsame | ⟨t, env, op, rfl, hop, hdb⟩, -⟩
  · exact Sys.step_db hs
  · exact .inl hsame
  · exact .inr ⟨op, hop, hdb⟩

/-- A delete of the cluster removes dead jobs with `GetMaxRetry()`, or it removes the messages that
a pruning thread has archived. -/
theorem Cluster.opOf_isDelete {op : DbOp} (hop : c.opOf cfg a = some op)
    (hdelete : op.isDelete = true) :
    (∃ job, op = .deleteDeadJob job cfg.maxRetry) ∨
    (∃ consumer, op = .deleteDeadJobsForConsumer consumer cfg.maxRetry) ∨
    ∃ t env ids moreMessages, a = .runPrune t env ∧ c.pruners t = .deleting ids moreMessages ∧
      op = .deleteMessagesAndJobs ids := by
  rcases Cluster.step_cases h with
    ⟨a', rfl, hcontroller, -, -⟩ | ⟨-, ⟨hnone, -⟩ | ⟨t, env, _, rfl, hop', -⟩, -⟩
  · obtain rfl := Sys.opOf_isDelete hop hdelete
    cases op with
    | deleteDeadJob job maxRetryCount =>
      exact .inl ⟨job, by rw [of_decide_eq_true hcontroller]⟩
    | deleteDeadJobsForConsumer consumer maxRetryCount =>
      exact .inr (.inl ⟨consumer, by rw [of_decide_eq_true hcontroller]⟩)
    | deleteMessagesAndJobs ids => cases hcontroller
    | _ => cases hdelete
  · rw [hop] at hnone
    cases hnone
  · refine .inr (.inr ⟨t, env, ?_⟩)
    cases hop'.symm.trans hop
    unfold PruneThread.op at hop'
    split at hop'
    · rename_i ids moreMessages hth
      split at hop'
      · cases hop'
      · cases hop'
        exact ⟨ids, moreMessages, rfl, hth, rfl⟩
    · cases hop'

end

/-- What the threads have listed is prunable. -/
def Cluster.Listed (retention : Duration) (c : Cluster) : Prop :=
  ∀ u, (c.pruners u).Listed retention c.sys.clock c.sys.db

section
variable (h : Cluster.step cfg retention c a = some c')
include h

theorem Cluster.step_clock : c.sys.clock ≤ c'.sys.clock := by
  rcases Cluster.step_cases h with ⟨a', -, -, hs, -⟩ | ⟨hclock, -, -⟩
  · exact Sys.step_clock hs
  · rw [hclock]

theorem Cluster.step_integrity (hi : c.sys.db.Integrity) : c'.sys.db.Integrity := by
  rcases Cluster.step_db h with ⟨-, hdb⟩ | ⟨op, -, hdb⟩
  · rw [hdb]
    exact hi
  · exact hi.effect (DbOp.step_effect hdb)

theorem Cluster.step_listed (hi : c.sys.db.Integrity) (hl : c.Listed retention) :
    c'.Listed retention := by
  intro u
  have hgoes : PruneGoes retention c.sys.clock c.sys.db (c.pruners u) (c'.pruners u) := by
    rcases Cluster.step_cases h with ⟨-, -, -, -, hsame⟩ | ⟨-, -, hgoes⟩
    · rw [hsame]
      exact .stay
    · exact hgoes u
  refine (hgoes.listed hi.messages (hl u)).mono (Cluster.step_clock h) fun id _ earliest hid => ?_
  rcases Cluster.step_db h with ⟨-, hdb⟩ | ⟨op, -, hdb⟩
  · rw [hdb]
    exact hid
  · exact (DbOp.step_effect hdb).prunable hid

end

theorem ClusterRun.listed (r : ClusterRun cfg retention) {n : Nat} (hn : n ≤ r.len) :
    (r.state n).sys.db.Integrity ∧ (r.state n).Listed retention := by
  refine r.invariant (P := fun c => c.sys.db.Integrity ∧ c.Listed retention) ?_ ?_ n hn
  · intro c hc
    refine ⟨hc.1.1.integrity, fun u => ?_⟩
    rw [hc.2 u]
    exact ⟨nofun, nofun⟩
  · intro c a c' hinv h
    exact ⟨Cluster.step_integrity h hinv.1, Cluster.step_listed h hinv.1 hinv.2⟩

end

end WebhookBroker
