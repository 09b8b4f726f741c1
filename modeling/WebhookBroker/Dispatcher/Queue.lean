import WebhookBroker.Lib.Heap
import WebhookBroker.Data.Model

/-!
# Jobs in memory and their queue (`dispatcher/common.go`, `dispatcher/queue.go`)

The dispatcher passes pointers to `Job` values around, and the same value can be reached from a
queue and from the map of held jobs. A pointer is a `JobPtr`, and what it points to is given by a
memory `JobPtr → Job`. `PriorityQueue` is a heap of pointers in the order of `Job.less`.
-/

namespace WebhookBroker

open Lib

/-- `Job`: a delivery job and its order in the queue. -/
structure Job where
  data : DeliveryJob
  priority : Nat
  /-- the order in which the job entered the dispatcher -/
  seq : Nat
deriving DecidableEq

def newJob (job : DeliveryJob) : Job := { data := job, priority := job.priority, seq := 0 }

abbrev JobPtr := Nat

/-- `jobs.Less`: the higher priority first, then first in, first out. -/
def Job.less (a b : Job) : Bool :=
  if a.priority ≠ b.priority then decide (a.priority > b.priority) else decide (a.seq < b.seq)

theorem Job.less_eq_false {a b : Job} :
    a.less b = false ↔ a.priority < b.priority ∨ (a.priority = b.priority ∧ b.seq ≤ a.seq) := by
  unfold Job.less
  split <;> simp only [decide_eq_false_iff_not] <;> omega

theorem Job.less_eq_true {a b : Job} :
    a.less b = true ↔ b.priority < a.priority ∨ (a.priority = b.priority ∧ a.seq < b.seq) := by
  unfold Job.less
  split <;> simp only [decide_eq_true_eq] <;> omega

/-- The order of the jobs that pointers point to. -/
def jobLess (jobAt : JobPtr → Job) (p q : JobPtr) : Bool := (jobAt p).less (jobAt q)

theorem weakOrder_jobLess (jobAt : JobPtr → Job) : Heap.WeakOrder (jobLess jobAt) where
  asymm h := by
    rw [jobLess, Job.less_eq_true] at h
    rw [jobLess, Job.less_eq_false]
    omega
  trans h h' := by
    rw [jobLess, Job.less_eq_false] at h h' ⊢
    omega

/-- The waiting jobs of a `PriorityQueue`, in the order of its heap. -/
abbrev PriorityQueue := List JobPtr

namespace PriorityQueue

variable (jobAt : JobPtr → Job)

/-- `PriorityQueue.Enqueue`, apart from the counter. -/
def enqueue (queue : PriorityQueue) (p : JobPtr) : PriorityQueue :=
  Heap.push (jobLess jobAt) queue p

def peek (queue : PriorityQueue) : Option JobPtr := queue.head?

/-- `PriorityQueue.Dequeue`, apart from the counter; on an empty queue it panics. -/
def dequeue (queue : PriorityQueue) : Option (JobPtr × PriorityQueue) :=
  Heap.pop (jobLess jobAt) queue

theorem enqueue_perm (queue : PriorityQueue) (p : JobPtr) :
    (enqueue jobAt queue p).Perm (p :: queue) :=
  Heap.push_perm _ queue p

theorem length_enqueue (queue : PriorityQueue) (p : JobPtr) :
    (enqueue jobAt queue p).length = queue.length + 1 :=
  (enqueue_perm jobAt queue p).length_eq

theorem enqueue_ne_nil (queue : PriorityQueue) (p : JobPtr) : enqueue jobAt queue p ≠ [] :=
  List.ne_nil_of_length_eq_add_one (length_enqueue jobAt queue p)

end PriorityQueue

end WebhookBroker
