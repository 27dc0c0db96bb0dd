import NetShare.WorkqueueFifo
import NetShare.Reasoning.Machine

/-!
# Taking a single packet

`Workqueue::pop`, which advances `start` by a rule of its own and does not look at `released` after
its wait, against `popSize(1)`.
-/

namespace NetShare

open Reasoning

variable {α : Type}

/-! ## 1. The function -/

/-- What `pop` does: the pointer it returns, the queue it leaves and the index of `buffer` it
read. -/
structure SinglePopResult (α : Type) where
  packet : Option α
  queue : Workqueue α
  accessed : Nat

namespace Workqueue

/-- `addToStart()`, the form without an argument. -/
def addOneToStart (q : Workqueue α) : Workqueue α :=
  if q.start = q.capacity then { q with start := 0 } else { q with start := q.start + 1 }

/-- `pop` taken as one step; meant for states in which its wait is over.  `size` is a `size_t`. -/
def pop (q : Workqueue α) : SinglePopResult α :=
  let oldStart := q.start
  let q := q.addOneToStart
  { packet := q.buffer oldStart
    queue := { q with size := sizeTDec q.size }
    accessed := oldStart }

/-- The value of `size` in its `size_t`. -/
def wrapSize (q : Workqueue α) : Workqueue α := { q with size := q.size % 2 ^ 64 }

end Workqueue

/-- A call on the queue. -/
inductive SinglePopLabel (α : Type) where
  | pop
  | call (op : QueueOp α)
deriving DecidableEq

/-- The calls on a queue of this capacity, `pop` among them. -/
def singlePopMachine (α : Type) (capacity : Nat) :
    Machine (Workqueue α) (SinglePopLabel α) where
  init q := q = Workqueue.new capacity
  next q
    | .pop => if q.waitDone then some q.pop.queue else none
    | .call op => (q.call op).map fun r => r.2.wrapSize

/-! ## 2. What is asked of it -/

/-- Where it returns, `pop` reads inside the array, takes on a queue that is not released what
`popSize(1)` takes, and leaves no packets on a released queue that has none. -/
structure PopAgrees (q : Workqueue α) : Prop where
  inside : q.pop.accessed < q.capacity
  packet : q.released = false → (q.popSize 1).list = some [q.pop.packet]
  start : q.released = false → q.pop.queue.start = (q.popSize 1).queue.start
  end_ : q.released = false → q.pop.queue.end_ = (q.popSize 1).queue.end_
  size : q.released = false → q.pop.queue.size = (q.popSize 1).queue.size
  released : q.released = true → q.empty = true → q.pop.queue.size = 0

/-- `start` is not in the last cell, and once the queue is released it is in the array and there is
a packet. -/
def PopsInside (q : Workqueue α) : Prop :=
  (q.released = false → q.start ≠ q.capacity - 1) ∧
    (q.released = true → q.start ≠ q.capacity ∧ q.empty = false)

instance (q : Workqueue α) : Decidable (PopsInside q) := inferInstanceAs (Decidable (_ ∧ _))

/-- Every `pop` of a run is taken there. -/
def EveryPopInside (q : Workqueue α) (a : SinglePopLabel α) : Prop := a = .pop → PopsInside q

instance [DecidableEq α] (q : Workqueue α) (a : SinglePopLabel α) :
    Decidable (EveryPopInside q a) := inferInstanceAs (Decidable (_ → _))

/-! ## 3. One step -/

namespace Workqueue

@[simp] theorem addOneToStart_size (q : Workqueue α) : q.addOneToStart.size = q.size := by
  unfold addOneToStart; split <;> rfl

@[simp] theorem addOneToStart_capacity (q : Workqueue α) :
    q.addOneToStart.capacity = q.capacity := by
  unfold addOneToStart; split <;> rfl

@[simp] theorem addOneToStart_released (q : Workqueue α) :
    q.addOneToStart.released = q.released := by
  unfold addOneToStart; split <;> rfl

@[simp] theorem addOneToStart_buffer (q : Workqueue α) : q.addOneToStart.buffer = q.buffer := by
  unfold addOneToStart; split <;> rfl

theorem pop_queue (q : Workqueue α) :
    q.pop.queue = { q.addOneToStart with size := sizeTDec q.size } := by
  rw [← q.addOneToStart_size]
  rfl

-- Inside the array the rule never wraps.
theorem addOneToStart_start {q : Workqueue α} (h : q.start < q.capacity) :
    q.addOneToStart.start = q.start + 1 := by
  rw [addOneToStart, if_neg (Nat.ne_of_lt h)]

/-- One packet is never split. -/
theorem popSize_one {q : Workqueue α} (hrel : q.released = false) (hsize : 0 < q.size)
    (hstart : q.start < q.capacity) :
    q.popSize 1 =
      { list := some [q.buffer q.start]
        actualSize := some 1
        queue := { q.addToStart 1 with size := q.size - 1 }
        accessed := [q.start] } := by
  have hone : (if q.size < 1 then q.size else 1) = 1 := if_neg (by omega)
  have hsplit : q.needsSplitt 1 = false := decide_eq_false (by omega)
  simp only [popSize, popSizeLocked, hrel, hone, takeFront, hsplit, Bool.false_eq_true, if_false]
  rfl

-- Both ways to take a packet differ in nothing but the wrap of `start`.
theorem pop_eq {q : Workqueue α} (hrel : q.released = false) (hsize : 0 < q.size)
    (hlt : q.size < 2 ^ 64) (hstart : q.start + 1 < q.capacity) :
    q.popSize 1 =
      { list := some [q.pop.packet]
        actualSize := some 1
        queue := q.pop.queue
        accessed := [q.pop.accessed] } := by
  have hnext : q.addToStart 1 = q.addOneToStart := by
    rw [addToStart, if_neg (by omega), addOneToStart, if_neg (by omega)]
  have hdec := sizeTDec_of_pos hsize hlt
  rw [popSize_one hrel hsize (by omega), hnext]
  simp only [pop, addOneToStart_buffer, addOneToStart_size, hdec]

theorem wrapSize_of_lt {q : Workqueue α} (h : q.size < 2 ^ 64) : q.wrapSize = q := by
  rw [wrapSize, Nat.mod_eq_of_lt h]

/-- Once released, only a push changes anything, and not `start`. -/
theorem call_released {q : Workqueue α} (hrel : q.released = true) {op : QueueOp α}
    {r : (QueueAnswer (Option α) × List Nat) × Workqueue α} (hcall : q.call op = some r) :
    r.2.released = true ∧ r.2.start = q.start ∧ r.2.capacity = q.capacity := by
  cases op with
  | push p =>
    obtain rfl := Option.some.inj hcall
    refine ⟨(q.push_released p).trans hrel, ?_, q.push_capacity p⟩
    show (q.push p).queue.start = q.start
    unfold Workqueue.push
    split
    · rfl
    · exact q.addToEnd_start
  | popSize n =>
    have hqueue : q.popSize n = q.popReleased := by rw [Workqueue.popSize, if_pos hrel]
    simp only [Workqueue.call, hqueue] at hcall
    split at hcall
    · obtain rfl := Option.some.inj hcall
      exact ⟨hrel, rfl, rfl⟩
    · cases hcall
  | popAll =>
    have hqueue : q.popAll = q.popReleased := by rw [Workqueue.popAll, if_pos hrel]
    simp only [Workqueue.call, hqueue] at hcall
    split at hcall
    · obtain rfl := Option.some.inj hcall
      exact ⟨hrel, rfl, rfl⟩
    · cases hcall
  | releaseAll =>
    obtain rfl := Option.some.inj hcall
    exact ⟨rfl, rfl, rfl⟩

end Workqueue

/-- What holds as long as every `pop` is taken where it should be: before the release the queue is
a bounded list, and after it `start` has not left the array by more than one. -/
structure StartsInside (capacity : Nat) (q : Workqueue α) : Prop where
  capacity_eq : q.capacity = capacity
  start_le : q.start ≤ capacity
  represents : q.released = false → ∃ f, Represents capacity q f

namespace StartsInside

variable {capacity : Nat} {q q' : Workqueue α}

theorem of_represents {f : BoundedFifo α (capacity - 1)} (h : Represents capacity q f) :
    StartsInside capacity q where
  capacity_eq := h.capacity_eq
  start_le := h.capacity_eq ▸ h.holds.wf.start_le
  represents _ := ⟨f, h⟩

/-- Before that every call does what it does to the list. -/
theorem call_represents {f : BoundedFifo α (capacity - 1)} (hcap : capacity < 2 ^ 64)
    (h : Represents capacity q f) {op : QueueOp α}
    {r : (QueueAnswer (Option α) × List Nat) × Workqueue α} (hcall : q.call op = some r) :
    ∃ f', Represents capacity r.2.wrapSize f' := by
  have hrel := ring_simulates_fifo capacity q f op h
  rw [show ringMachine.next q op = some r from hcall] at hrel
  cases hnext : (fifoMachine (capacity - 1)).next f op with
  | none =>
    rw [hnext] at hrel
    nomatch hrel
  | some r' =>
    rw [hnext] at hrel
    have hboth : Represents capacity r.2 r'.2 := by
      cases hrel with
      | some hpair => exact hpair.2
    have hsize := hboth.holds.wf.size_lt
    have hsame := hboth.capacity_eq
    rw [Workqueue.wrapSize_of_lt (by omega)]
    exact ⟨r'.2, hboth⟩

theorem size_pos (hwait : q.waitDone = true) (hrel : q.released = false) : 0 < q.size := by
  rw [Workqueue.waitDone, hrel, Bool.or_false, Bool.not_eq_true'] at hwait
  have hne : q.size ≠ 0 := ne_of_beq_false hwait
  omega

theorem next (hcap : capacity < 2 ^ 64) (h : StartsInside capacity q) {a : SinglePopLabel α}
    (hok : EveryPopInside q a) (hn : (singlePopMachine α capacity).next q a = some q') :
    StartsInside capacity q' := by
  cases a with
  | pop =>
    obtain ⟨hwait, hq'⟩ := Option.ite_none_right_eq_some.mp hn
    obtain rfl := Option.some.inj hq'
    obtain ⟨hkept, hreleased⟩ := hok rfl
    have hle := h.start_le
    have hsame := h.capacity_eq
    cases hrel : q.released with
    | true =>
      obtain ⟨hinside, -⟩ := hreleased hrel
      rw [Workqueue.pop_queue]
      refine ⟨q.addOneToStart_capacity.trans hsame, ?_, fun hunreleased => ?_⟩
      · show q.addOneToStart.start ≤ capacity
        rw [Workqueue.addOneToStart_start (by omega)]
        omega
      · have hkeeps := q.addOneToStart_released.trans hrel
        exact absurd (hkeeps.symm.trans hunreleased) (by decide)
    | false =>
      obtain ⟨f, hf⟩ := h.represents hrel
      have hlast := hkept hrel
      have hsize := size_pos hwait hrel
      have hlt := hf.holds.wf.size_lt
      have hstart := hf.holds.wf.start_lt (by omega)
      have hone := Workqueue.pop_eq hrel hsize (by omega) (by omega)
      have hnext := (hf.popSize 1).2
      rw [hone] at hnext
      exact of_represents hnext
  | call op =>
    obtain ⟨r, hcall, rfl⟩ := Option.map_eq_some_iff.mp hn
    cases hrel : q.released with
    | true =>
      obtain ⟨hreleased, hstart, hcapacity⟩ := Workqueue.call_released hrel hcall
      refine ⟨hcapacity.trans h.capacity_eq, ?_, fun hunreleased => ?_⟩
      · show r.2.start ≤ capacity
        rw [hstart]
        exact h.start_le
      · exact absurd (hreleased.symm.trans hunreleased) (by decide)
    | false =>
      obtain ⟨f, hf⟩ := h.represents hrel
      obtain ⟨f', hf'⟩ := call_represents hcap hf hcall
      exact of_represents hf'

theorem of_reachWhile (hcap : 2 ≤ capacity) (hlt : capacity < 2 ^ 64)
    (h : (singlePopMachine α capacity).ReachWhile EveryPopInside q) : StartsInside capacity q := by
  refine h.invariant ?_ fun q a q' hq hok hn => hq.next hlt hok hn
  rintro _ rfl
  exact of_represents (f := .empty) ⟨Workqueue.new_holds (by omega), rfl, rfl⟩

end StartsInside

/-! ## 4. When a single packet is taken rightly -/

/-- **After calls whose every `pop` was taken inside the array, the next one agrees with
`popSize(1)` exactly if it is taken there too.** -/
theorem pop_agrees_iff {capacity : Nat} (hcap : 2 ≤ capacity) (hlt : capacity < 2 ^ 64)
    {q : Workqueue α} (h : (singlePopMachine α capacity).ReachWhile EveryPopInside q)
    (hwait : q.waitDone = true) : PopAgrees q ↔ PopsInside q := by
  have hinv := StartsInside.of_reachWhile hcap hlt h
  have hsame := hinv.capacity_eq
  have hle := hinv.start_le
  cases hrel : q.released with
  | true =>
    constructor
    · intro hagrees
      have hinside : q.start < q.capacity := hagrees.inside
      refine ⟨fun hfalse => absurd (hrel.symm.trans hfalse) (by decide), fun _ => ⟨by omega, ?_⟩⟩
      by_contra hempty
      rw [Bool.not_eq_false] at hempty
      have hzero : q.size = 0 := eq_of_beq hempty
      have hsize : sizeTDec q.size = 0 := by
        have hleft := hagrees.released hrel hempty
        rwa [Workqueue.pop_queue] at hleft
      rw [hzero] at hsize
      exact absurd hsize (by decide)
    · intro ⟨_, hreleased⟩
      obtain ⟨hinside, hempty⟩ := hreleased hrel
      have hfalse {P : Prop} (hunreleased : q.released = false) : P :=
        absurd (hrel.symm.trans hunreleased) (by decide)
      refine ⟨?_, hfalse, hfalse, hfalse, hfalse, fun _ hsome => ?_⟩
      · show q.start < q.capacity
        omega
      · exact absurd (hempty.symm.trans hsome) (by decide)
  | false =>
    obtain ⟨f, hf⟩ := hinv.represents hrel
    have hsize := StartsInside.size_pos hwait hrel
    have hlt' := hf.holds.wf.size_lt
    have hstart := hf.holds.wf.start_lt (by omega)
    have htrue {P : Prop} (hreleased : q.released = true) : P :=
      absurd (hrel.symm.trans hreleased) (by decide)
    constructor
    · intro hagrees
      refine ⟨fun _ hlast => ?_, htrue⟩
      have hboth := hagrees.start hrel
      rw [Workqueue.popSize_one hrel hsize hstart, Workqueue.pop_queue] at hboth
      have hone := Workqueue.addOneToStart_start hstart
      have hwrap : (q.addToStart 1).start = q.start + 1 - q.capacity := by
        rw [Workqueue.addToStart, if_pos (by omega)]
      have hnext : q.addOneToStart.start = (q.addToStart 1).start := hboth
      omega
    · intro ⟨hkept, _⟩
      have hlast := hkept hrel
      have hone := Workqueue.pop_eq hrel hsize (by omega) (by omega)
      constructor
      case inside => exact hstart
      case packet => exact fun _ => by rw [hone]
      case start => exact fun _ => by rw [hone]
      case end_ => exact fun _ => by rw [hone]
      case size => exact fun _ => by rw [hone]
      case released => exact htrue

/-- Capacity 4, after one packet has been taken singly. -/
theorem pop_agrees_iff_onePacket :
    let q := (((singlePopMachine Nat 4).runWhile EveryPopInside (Workqueue.new 4)
      [.call (.push 7), .pop, .call (.push 8)]).get (by decide))
    PopAgrees q ↔ PopsInside q :=
  pop_agrees_iff (by decide) (by decide)
    ⟨_, rfl, Machine.leads_of_runWhile (Option.some_get _).symm⟩ (by decide)

/-- One packet in the last cell: `start` ends outside the array. -/
theorem pop_leavesArray :
    ¬ ∀ (capacity : Nat) (q : Workqueue Nat), 2 ≤ capacity → capacity < 2 ^ 64 →
      (singlePopMachine Nat capacity).Reach q → q.waitDone = true → PopAgrees q := by
  intro hclaim
  have hrun : (singlePopMachine Nat 2).run (Workqueue.new 2) [.call (.push 7)] =
      some ((Workqueue.new 2).push 7).queue := rfl
  have hagrees := hclaim 2 _ (by decide) (by decide) (Machine.reach_of_run rfl hrun) rfl
  exact absurd (hagrees.start rfl) (by decide)

end NetShare
