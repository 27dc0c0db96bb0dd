import NetShare.Workqueue
import NetShare.Reasoning.Mealy

/-!
# The work queue is a bounded FIFO

The ring of `Workqueue` against a list of at most `capacity - 1` packets.  Each operation is one
atomic step; a `popX` step is taken only where its wait is over.
-/

namespace NetShare

open Reasoning

/-- The calls on a queue that the workers make. -/
inductive QueueOp (α : Type) where
  | push (workPacket : α)
  | popSize (size : Nat)
  | popAll
  | releaseAll
deriving DecidableEq

/-- What a call shows its caller; of a push, whether the packet was kept. -/
inductive QueueAnswer (α : Type) where
  | pushed (accepted : Bool)
  | nullptr
  | packets (list : List α)
  | released
deriving DecidableEq

namespace QueueAnswer

variable {α β : Type}

def ofList : Option (List α) → QueueAnswer α
  | none => .nullptr
  | some list => .packets list

def map (f : α → β) : QueueAnswer α → QueueAnswer β
  | .pushed accepted => .pushed accepted
  | .nullptr => .nullptr
  | .packets list => .packets (list.map f)
  | .released => .released

end QueueAnswer

variable {α : Type}

/-- One call on the ring: its answer and the indices of `buffer` it touched. -/
def Workqueue.call (q : Workqueue α) :
    QueueOp α → Option ((QueueAnswer (Option α) × List Nat) × Workqueue α)
  | .push p =>
    let r := q.push p
    some ((.pushed r.accepted, r.accessed), r.queue)
  | .popSize size =>
    if q.waitDone then
      let r := q.popSize size
      some ((.ofList r.list, r.accessed), r.queue)
    else none
  | .popAll =>
    if q.waitDone then
      let r := q.popAll
      some ((.ofList r.list, r.accessed), r.queue)
    else none
  | .releaseAll => some ((.released, []), q.releaseAll)

/-- One call on the list. -/
def fifoCall {bound : Nat} (f : BoundedFifo α bound) :
    QueueOp α → Option (QueueAnswer α × BoundedFifo α bound)
  | .push p => some (.pushed (decide (f.items.length < bound)), f.push p)
  | .popSize size =>
    if f.ready then
      let (list, rest) := f.take size
      some (.ofList list, rest)
    else none
  | .popAll =>
    if f.ready then
      let (list, rest) := f.takeAll
      some (.ofList list, rest)
    else none
  | .releaseAll => some (.released, f.release)

def ringMachine : Mealy (Workqueue α) (QueueOp α) (QueueAnswer (Option α) × List Nat) :=
  ⟨Workqueue.call⟩

def fifoMachine (bound : Nat) : Mealy (BoundedFifo α bound) (QueueOp α) (QueueAnswer α) :=
  ⟨fifoCall⟩

/-- The ring has this capacity and holds the packets of the list. -/
structure Represents (capacity : Nat) (q : Workqueue α) (f : BoundedFifo α (capacity - 1)) :
    Prop where
  holds : q.Holds f.items
  released_eq : q.released = f.released
  capacity_eq : q.capacity = capacity

/-- Same answer, and every index of the array the call touched lies inside it. -/
def AnswersAlike (capacity : Nat) (a : QueueAnswer (Option α) × List Nat) (b : QueueAnswer α) :
    Prop :=
  a.1 = b.map some ∧ ∀ i ∈ a.2, i < capacity

namespace Represents

variable {capacity : Nat} {q : Workqueue α} {f : BoundedFifo α (capacity - 1)}

-- The wait predicates say the same of both queues.
theorem waitDone_eq (h : Represents capacity q f) : q.waitDone = f.ready := by
  rw [Workqueue.waitDone, BoundedFifo.ready, h.holds.empty_eq, h.released_eq]

-- A push is dropped by both queues or by neither.
theorem push (h : Represents capacity q f) (p : α) :
    AnswersAlike capacity (.pushed (q.push p).accepted, (q.push p).accessed)
        (.pushed (decide (f.items.length < capacity - 1)) : QueueAnswer α) ∧
      Represents capacity (q.push p).queue (f.push p) := by
  have hsize := h.holds.size_eq
  have hcap := h.capacity_eq
  have hle := f.le_bound
  by_cases hfull : q.size = q.capacity - 1
  · have hnot : ¬ f.items.length < capacity - 1 := by omega
    rw [Workqueue.push_full hfull, BoundedFifo.push, dif_neg hnot, decide_eq_false hnot]
    exact ⟨⟨rfl, fun i hi => absurd hi List.not_mem_nil⟩, h⟩
  · have hlt : f.items.length < capacity - 1 := by
      have := h.holds.wf.size_lt
      omega
    obtain ⟨hacc, hholds, hidx⟩ := Workqueue.push_room h.holds hfull p
    rw [hcap] at hidx
    rw [hacc, BoundedFifo.push, dif_pos hlt, decide_eq_true hlt]
    refine ⟨⟨rfl, hidx⟩, hholds, ?_, ?_⟩
    · rw [Workqueue.push_released]; exact h.released_eq
    · rw [Workqueue.push_capacity]; exact hcap

/-- On a released queue both sides answer with nothing and stay as they are. -/
theorem pop_released (h : Represents capacity q f) (hrel : q.released = true) (n : Nat) :
    AnswersAlike capacity (.ofList q.popReleased.list, q.popReleased.accessed)
        (.ofList (f.take n).1) ∧
      Represents capacity q.popReleased.queue (f.take n).2 := by
  have hf : f.released = true := h.released_eq ▸ hrel
  rw [BoundedFifo.take, if_pos hf]
  exact ⟨⟨rfl, fun i hi => absurd hi List.not_mem_nil⟩, h⟩

-- The oldest packets are those at the front of the list.
theorem popSize (h : Represents capacity q f) (n : Nat) :
    AnswersAlike capacity (.ofList (q.popSize n).list, (q.popSize n).accessed)
        (.ofList (f.take n).1) ∧
      Represents capacity (q.popSize n).queue (f.take n).2 := by
  unfold Workqueue.popSize
  cases hrel : q.released with
  | true => exact h.pop_released hrel n
  | false =>
    have hf : f.released = false := h.released_eq ▸ hrel
    obtain ⟨hlist, -, hholds⟩ := Workqueue.popSizeLocked_holds h.holds hrel n
    have hidx := Workqueue.popSizeLocked_accessed h.holds.wf n
    rw [h.capacity_eq] at hidx
    simp only [Bool.false_eq_true, if_false, BoundedFifo.take, hf]
    refine ⟨⟨by rw [hlist]; rfl, hidx⟩, hholds, ?_, ?_⟩
    · rw [Workqueue.popSizeLocked_queue_released]; exact h.released_eq
    · rw [Workqueue.popSizeLocked_queue_capacity]; exact h.capacity_eq

theorem popAll (h : Represents capacity q f) :
    AnswersAlike capacity (.ofList q.popAll.list, q.popAll.accessed) (.ofList f.takeAll.1) ∧
      Represents capacity q.popAll.queue f.takeAll.2 := by
  unfold Workqueue.popAll BoundedFifo.takeAll
  cases hrel : q.released with
  | true => exact h.pop_released hrel _
  | false =>
    have hf : f.released = false := h.released_eq ▸ hrel
    obtain ⟨hlist, -, hholds⟩ := Workqueue.popAllLocked_holds h.holds hrel
    have hidx := Workqueue.popAllLocked_accessed h.holds.wf
    rw [h.capacity_eq] at hidx
    simp only [Bool.false_eq_true, if_false, BoundedFifo.take, hf, List.take_length]
    refine ⟨⟨by rw [hlist]; rfl, hidx⟩, ?_, ?_, ?_⟩
    · simpa only [BoundedFifo.dropOldest, List.drop_length] using hholds
    · rw [Workqueue.popAllLocked_queue_released]; exact h.released_eq
    · rw [Workqueue.popAllLocked_queue_capacity]; exact h.capacity_eq

-- Only the flag changes.
theorem releaseAll (h : Represents capacity q f) :
    Represents capacity q.releaseAll f.release :=
  ⟨h.holds.releaseAll, rfl, h.capacity_eq⟩

end Represents

/-- Call by call, the ring accepts what the list accepts and answers the same. -/
theorem ring_simulates_fifo (capacity : Nat) :
    (ringMachine : Mealy (Workqueue α) _ _).Simulates (fifoMachine (capacity - 1))
      (Represents capacity) (AnswersAlike capacity) := by
  intro q f op h
  cases op with
  | push p => exact .some (h.push p)
  | popSize n =>
    simp only [ringMachine, fifoMachine, Workqueue.call, fifoCall, h.waitDone_eq]
    cases f.ready
    · exact .none
    · exact .some (h.popSize n)
  | popAll =>
    simp only [ringMachine, fifoMachine, Workqueue.call, fifoCall, h.waitDone_eq]
    cases f.ready
    · exact .none
    · exact .some h.popAll
  | releaseAll =>
    exact .some ⟨⟨rfl, fun i hi => absurd hi List.not_mem_nil⟩, h.releaseAll⟩

/-- **The work queue is a bounded FIFO.**  From a fresh queue, over every sequence of calls, the
ring accepts exactly the calls that the list of at most `capacity - 1` packets accepts, gives the
same answers, touches no cell outside its array and ends holding the packets of the list. -/
theorem workqueue_refines_fifo (capacity : Nat) (hcap : 1 ≤ capacity) (ops : List (QueueOp α)) :
    Option.Rel
      (fun a b => List.Forall₂ (AnswersAlike capacity) a.1 b.1 ∧ Represents capacity a.2 b.2)
      (ringMachine.run (Workqueue.new capacity) ops)
      ((fifoMachine (capacity - 1)).run BoundedFifo.empty ops) :=
  (ring_simulates_fifo capacity).run ⟨Workqueue.new_holds hcap, rfl, rfl⟩ ops

/-- Capacity 3, past the end of the array and onto a full queue. -/
def wrappingCalls : List (QueueOp Nat) :=
  [.push 1, .push 2, .push 3, .popSize 1, .push 4, .popAll, .releaseAll, .push 5, .popSize 3]

theorem workqueue_refines_fifo_wrapping :
    ((fifoMachine 2).run BoundedFifo.empty wrappingCalls).map Prod.fst =
        some [.pushed true, .pushed true, .pushed false, .packets [1], .pushed true,
          .packets [2, 4], .released, .pushed true, .nullptr] ∧
      Option.Rel (fun a b => List.Forall₂ (AnswersAlike 3) a.1 b.1 ∧ Represents 3 a.2 b.2)
        (ringMachine.run (Workqueue.new 3) wrappingCalls)
        ((fifoMachine 2).run BoundedFifo.empty wrappingCalls) :=
  ⟨by decide, workqueue_refines_fifo 3 (by decide) wrappingCalls⟩

end NetShare
