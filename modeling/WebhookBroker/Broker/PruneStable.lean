import WebhookBroker.Broker.Prune
import WebhookBroker.Storage.Writes

/-!
# Pruning next to all writes of the broker (`prune/service.go`)

`PruneMessages` deletes messages that earlier statements selected, and the delete does not look at
them again. Here any number of such threads run next to every write of the broker (`StorageOp`),
with any arguments and in any order. The delete is right nevertheless, since what a thread has
listed stays prunable. A message that is created has a new id, as `xid` gives them out, so it is
none of those that were listed.
-/

namespace WebhookBroker

open Lib List

/-- The database, the clock, the ids of all messages so far and the threads that prune. -/
structure PruneSys where
  db : Db
  clock : Time
  used : List Xid
  pruners : Nat → PruneThread

inductive PruneAction where
  | write (op : StorageOp)
  | tick (elapsed : Nat)
  | prune (t : Nat)
  | runPrune (t : Nat) (env : PruneEnv)
  | crashPrune (t : Nat)

instance : Inhabited PruneAction := ⟨.tick 0⟩

/-- The id of the message that the write creates. -/
def StorageOp.createdID : StorageOp → Option Xid
  | .createMessage message => some message.id
  | _ => none

/-- The write is one of the broker: only `PruneMessages` deletes messages, and ids are new. -/
def StorageOp.isBroker (used : List Xid) : StorageOp → Bool
  | .job (.deleteMessagesAndJobs _) => false
  | .createMessage message => !used.contains message.id
  | _ => true

def PruneSys.setPruner (s : PruneSys) (t : Nat) (th : PruneThread) : PruneSys :=
  { s with pruners := fun u => if u = t then th else s.pruners u }

section
variable [NetUrl] (retention : Duration)

def PruneSys.step (s : PruneSys) : PruneAction → Option PruneSys
  | .write op =>
    if op.isBroker s.used then
      (StorageOp.step s.db op).map fun db => { s with db, used := s.used ++ op.createdID.toList }
    else none
  | .tick elapsed => some { s with clock := s.clock + elapsed }
  | .prune t => if s.pruners t = .idle then some (s.setPruner t .selecting) else none
  | .runPrune t env =>
    let next ok := (s.pruners t).next retention s.clock env s.db ok
    match (s.pruners t).op env with
    | none => some (s.setPruner t (next false))
    | some op => (DbOp.step s.db op).map fun db =>
        { s.setPruner t (next !op.fails s.db) with db }
  | .crashPrune t => some (s.setPruner t .idle)

/-- No thread prunes, and the ids of the messages are known. -/
def PruneSys.isInitial (s : PruneSys) : Prop :=
  s.db.Sound ∧ (∀ m ∈ s.db.message, m.id ∈ s.used) ∧ ∀ t, s.pruners t = .idle

abbrev PruneRun := Run PruneSys.isInitial (PruneSys.step retention)

end

section
variable [NetUrl] {retention : Duration} {s s' : PruneSys} {a : PruneAction}

/-- A step writes, lets time pass or moves the pruning threads, one of which may delete. -/
inductive PruneStep (retention : Duration) (s : PruneSys) : PruneAction → PruneSys → Prop
  | wrote {op db} (hop : op.isBroker s.used = true) (hs : StorageOp.step s.db op = some db) :
      PruneStep retention s (.write op) { s with db, used := s.used ++ op.createdID.toList }
  | ticked {elapsed : Nat} :
      PruneStep retention s (.tick elapsed) { s with clock := s.clock + elapsed }
  | moved {a pruners} (hgoes : ∀ u, PruneGoes retention s.clock s.db (s.pruners u) (pruners u)) :
      PruneStep retention s a { s with pruners }
  | deleted {t env ids moreMessages db pruners}
      (hth : s.pruners t = .deleting ids moreMessages)
      (he : DbEffect s.db (.deleteMessagesAndJobs ids) db)
      (hgoes : ∀ u, PruneGoes retention s.clock s.db (s.pruners u) (pruners u)) :
      PruneStep retention s (.runPrune t env) { s with db, pruners }

theorem PruneSys.step_cases (h : PruneSys.step retention s a = some s') :
    PruneStep retention s a s' := by
  cases a with
  | write op =>
    rw [PruneSys.step, Option.ite_none_right_eq_some] at h
    obtain ⟨hop, h⟩ := h
    obtain ⟨db, hdb, rfl⟩ := Option.map_eq_some_iff.1 h
    exact .wrote hop hdb
  | tick elapsed =>
    cases h
    exact .ticked
  | prune t =>
    rw [PruneSys.step, Option.ite_none_right_eq_some] at h
    obtain rfl := Option.some.inj h.2
    exact .moved PruneGoes.start.set
  | runPrune t env =>
    rw [PruneSys.step] at h
    dsimp only at h
    split at h
    · cases h
      exact .moved PruneGoes.next.set
    · rename_i op hop
      obtain ⟨db, hdb, rfl⟩ := Option.map_eq_some_iff.1 h
      unfold PruneThread.op at hop
      split at hop
      · rename_i ids moreMessages hth
        rw [Option.ite_none_left_eq_some] at hop
        obtain rfl := Option.some.inj hop.2
        exact .deleted hth (DbOp.step_effect hdb) PruneGoes.next.set
      · cases hop
  | crashPrune t =>
    cases h
    exact .moved PruneGoes.stop.set

/-! ## What is listed stays prunable -/

variable {db db' : Db}

theorem StorageEffect.prunable {op : StorageOp} {used : List Xid} {earliest : Time} {id : String}
    (he : StorageEffect db op db') (hop : op.isBroker used = true)
    (hid : id ∈ used.map (·.string)) (h : db.Prunable earliest id) : db'.Prunable earliest id := by
  cases he with
  | job he => exact he.prunable h
  | records => exact ⟨h.dispatched, h.old, h.delivered, h.unparked⟩
  | @created message =>
    have hne : message.id.string ≠ id := by
      rintro rfl
      obtain ⟨x, hx, heq⟩ := mem_map.1 hid
      rw [Xid.string_injective heq] at hx
      simp [StorageOp.isBroker, hx] at hop
    have hold : ∀ m ∈ db.message ++ [message.toRow], m.id.string = id → m ∈ db.message := by
      intro m hm hmid
      rcases mem_append.1 hm with hm | hm
      · exact hm
      · rw [mem_singleton.1 hm] at hmid
        exact absurd hmid hne
    exact ⟨fun m hm hmid => h.dispatched m (hold m hm hmid) hmid,
      fun m hm hmid => h.old m (hold m hm hmid) hmid, h.delivered, h.unparked⟩

variable {m : MessageRow}

theorem DbEffect.message_id_mem {op : DbOp} (he : DbEffect db op db') (hm : m ∈ db'.message) :
    m.id ∈ db.message.map (·.id) := by
  rcases he.mem_message hm with hm | ⟨m₀, hm₀, now, rfl⟩
  · exact mem_map_of_mem hm
  · exact mem_map_of_mem (f := (·.id)) hm₀

theorem StorageEffect.message_id_mem {op : StorageOp} (he : StorageEffect db op db')
    (hm : m ∈ db'.message) : m.id ∈ db.message.map (·.id) ++ op.createdID.toList := by
  cases he with
  | job he => exact mem_append_left _ (he.message_id_mem hm)
  | records => exact mem_append_left _ (mem_map_of_mem hm)
  | created =>
    rcases mem_append.1 hm with hm | hm
    · exact mem_append_left _ (mem_map_of_mem hm)
    · rw [mem_singleton.1 hm]
      exact mem_append_right _ (mem_singleton.2 rfl)

/-- All ids of messages are known, and so are those that a thread has listed, which are prunable. -/
structure PruneSys.Inv (retention : Duration) (s : PruneSys) : Prop where
  sound : s.db.Sound
  used : ∀ m ∈ s.db.message, m.id ∈ s.used
  listed : ∀ u, (s.pruners u).Listed retention s.clock s.db
  known : ∀ u, ∀ id ∈ (s.pruners u).ids, id ∈ s.used.map (·.string)

/-- The threads list messages whose ids are known. -/
theorem PruneSys.Inv.known_goes (h : s.Inv retention) {u : Nat} {th : PruneThread}
    (hgoes : PruneGoes retention s.clock s.db (s.pruners u) th) {id : String} (hid : id ∈ th.ids) :
    id ∈ s.used.map (·.string) := by
  cases hgoes with
  | stay => exact h.known u id hid
  | stop | start => cases hid
  | next =>
    rcases PruneThread.mem_ids_next hid with hold | ⟨calledAt, page, -, -, row, hrow, rfl⟩
    · exact h.known u id hold
    · exact mem_map_of_mem (h.used row (mem_filter.1 (mem_pageQuery hrow).1).1)

theorem PruneStep.inv (hs : PruneStep retention s a s') (h : s.Inv retention) :
    s'.Inv retention := by
  have hmessages := h.sound.integrity.messages
  cases hs with
  | @wrote op db hop hs =>
    have he := StorageOp.step_effect hs
    refine ⟨StorageOp.step_sound h.sound hs, fun m hm => ?_, fun u => ?_, fun u id hid => ?_⟩
    · rcases mem_append.1 (he.message_id_mem hm) with hm | hm
      · obtain ⟨m₀, hm₀, heq⟩ := mem_map.1 hm
        exact mem_append_left _ (heq ▸ h.used m₀ hm₀)
      · exact mem_append_right _ hm
    · exact (h.listed u).mono (Int.le_refl _) fun id hid earliest hprunable =>
        he.prunable hop (h.known u id hid) hprunable
    · exact map_subset _ (subset_append_left _ _) (h.known u id hid)
  | @ticked elapsed =>
    refine ⟨h.sound, h.used, fun u => ?_, h.known⟩
    exact (h.listed u).mono (Int.le_add_of_nonneg_right (Int.natCast_nonneg _)) fun _ _ _ => id
  | moved hgoes =>
    exact ⟨h.sound, h.used, fun u => (hgoes u).listed hmessages (h.listed u),
      fun u _ hid => h.known_goes (hgoes u) hid⟩
  | deleted hth he hgoes =>
    refine ⟨h.sound.effect he, fun m hm => ?_, fun u => ?_,
      fun u _ hid => h.known_goes (hgoes u) hid⟩
    · obtain ⟨m₀, hm₀, heq⟩ := mem_map.1 (he.message_id_mem hm)
      exact heq ▸ h.used m₀ hm₀
    · exact ((hgoes u).listed hmessages (h.listed u)).mono (Int.le_refl _) fun _ _ _ => he.prunable

theorem PruneRun.inv (r : PruneRun retention) {n : Nat} (hn : n ≤ r.len) :
    (r.state n).Inv retention := by
  refine r.invariant (fun s hs => ?_) (fun s a s' h hs => (PruneSys.step_cases hs).inv h) n hn
  obtain ⟨hsound, hused, hidle⟩ := hs
  refine ⟨hsound, hused, fun u => ?_, fun u id hid => ?_⟩
  · rw [hidle u]
    exact ⟨nofun, nofun⟩
  · rw [hidle u] at hid
    cases hid

/-! ## What is removed -/

theorem DbEffect.removes_message {op : DbOp} (he : DbEffect db op db') (hm : m ∈ db.message)
    (hgone : m.id ∉ db'.message.map (·.id)) :
    ∃ ids, op = .deleteMessagesAndJobs ids ∧ m.id.string ∈ ids := by
  cases he with
  | @dispatched now message =>
    have hids : (updateWhere (isAcknowledged message.id) (·.setDispatched now) db.message).map
        (·.id) = db.message.map (·.id) := map_updateWhere fun _ _ => rfl
    exact absurd (hids ▸ mem_map_of_mem hm) hgone
  | @deletedMessages ids hparked =>
    refine ⟨ids, rfl, contains_iff_mem.1 (Bool.of_not_eq_false fun hkept => hgone ?_)⟩
    have hleft : m ∈ deleteWhere (fun m => ids.contains m.id.string) db.message :=
      mem_deleteWhere.2 ⟨hm, hkept⟩
    exact mem_map_of_mem hleft
  | unchanged | reparked | drained | marked | requeued | requeuedForConsumer | deleted
  | deletedForConsumer | paused | resumed | locked =>
    exact absurd (mem_map_of_mem hm) hgone

theorem PruneStep.removes_message (hs : PruneStep retention s a s') (hm : m ∈ s.db.message)
    (hgone : m.id ∉ s'.db.message.map (·.id)) :
    ∃ t env, a = .runPrune t env ∧ m.id.string ∈ (s.pruners t).ids := by
  cases hs with
  | @wrote op db hop hs =>
    cases StorageOp.step_effect hs with
    | job he =>
      obtain ⟨ids, rfl, -⟩ := he.removes_message hm hgone
      cases hop
    | records => exact absurd (mem_map_of_mem hm) hgone
    | created =>
      exact absurd (mem_map_of_mem (f := (·.id)) (mem_append_left _ hm)) hgone
  | ticked | moved => exact absurd (mem_map_of_mem hm) hgone
  | @deleted t env ids moreMessages db pruners hth he =>
    obtain ⟨ids', heq, hid⟩ := he.removes_message hm hgone
    cases heq
    exact ⟨t, env, rfl, by rw [hth]; exact hid⟩

/-- A message that disappears is removed by a pruning thread, and at that moment it is `DISPATCHED`,
created before the retention limit, its jobs are all `DELIVERED` and none is parked. -/
theorem pruned_message_was_delivered (r : PruneRun retention) {i : Nat} (hi : i < r.len)
    {m : MessageRow} (hm : m ∈ (r.state i).db.message)
    (hgone : m.id ∉ (r.state (i + 1)).db.message.map (·.id)) :
    (∃ t env, r.act i = .runPrune t env) ∧ m.status = .dispatched ∧
      m.createdAt ≤ (r.state i).clock + sinceDelta retention ∧
      (∀ row ∈ (r.state i).db.job, row.messageId = m.id → row.status = .delivered) ∧
      ∀ p ∈ (r.state i).db.jobParking, p.messageId ≠ m.id := by
  obtain ⟨t, env, hact, hid⟩ := (PruneSys.step_cases (r.next i hi)).removes_message hm hgone
  have hprunable := ((r.inv (Nat.le_of_lt hi)).listed t).prunable _ hid
  refine ⟨⟨t, env, hact⟩, hprunable.dispatched m hm rfl, hprunable.old m hm rfl, ?_, ?_⟩
  · intro row hrow heq
    exact hprunable.delivered row hrow (congrArg Xid.string heq)
  · intro p hp heq
    exact hprunable.unparked p hp (congrArg Xid.string heq)

end

/-- A message that no consumer gets is dispatched, and then pruned: two pages are read, the second
of which is empty. -/
def Sample.pruneOne : List PruneAction :=
  [.write (.storeProducer 1 producerXid producer), .write (.storeChannel 1 channelXid channel),
   .write (.createMessage message), .write (.job (.dispatchMessageWithParking 2 message [] [])),
   .prune 0, .runPrune 0 ⟨false, 1⟩, .runPrune 0 ⟨false, 1⟩, .runPrune 0 ⟨false, 1⟩,
   .runPrune 0 ⟨false, 1⟩, .runPrune 0 ⟨false, 1⟩]

def Sample.pruneOneRun : @PruneRun netUrl 0 :=
  Run.ofActs ⟨{}, 10, [], fun _ => .idle⟩ pruneOne ⟨@Db.sound_empty netUrl, nofun, fun _ => rfl⟩
    (by decide +kernel)

open Sample

theorem pruned_message_was_delivered_one :
    ∃ r : @PruneRun netUrl 0, ∃ m ∈ (r.state 9).db.message,
      m.id ∉ (r.state 10).db.message.map (·.id) ∧
      m.status = .dispatched ∧ m.createdAt ≤ (r.state 9).clock + sinceDelta 0 := by
  have hlen : pruneOneRun.len = 10 := rfl
  have hbefore : (pruneOneRun.state 9).db.message.length = 1 := by decide +kernel
  have hafter : (pruneOneRun.state 10).db.message.length = 0 := by decide +kernel
  generalize pruneOneRun = r at hlen hbefore hafter
  obtain ⟨m, hm⟩ := exists_mem_of_length_pos (hbefore ▸ Nat.one_pos)
  have hgone : m.id ∉ (r.state 10).db.message.map (·.id) := by
    rw [eq_nil_of_length_eq_zero hafter]
    exact not_mem_nil
  obtain ⟨-, hstatus, hold, -⟩ :=
    @pruned_message_was_delivered netUrl 0 r 9 (by omega) m hm hgone
  exact ⟨r, m, hm, hgone, hstatus, hold⟩

end WebhookBroker
