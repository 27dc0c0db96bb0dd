import NetShare.Reasoning.Ring
import Mathlib.Algebra.Group.Nat.Defs
import Mathlib.Data.List.Forall2

/-!
# The work queue

`Workqueue` from `Workqueue.h` and `Workqueue.cpp`: a ring of packet pointers with one slot kept
unused.  `end` and `start` are indices into the ring; a fresh queue has `end = 0`, `start = 1`.
No `size_t` sum of the model can wrap: every index is at most the capacity and the capacity is the
length of an allocated array of pointers.

The functions that the mutex makes atomic are split only where the source itself gives it up: each
`popX` has a test of `released` before the lock and a locked part after the wait.  The loops over
the batches that are handed out count with `size_t`, and theirs can.
-/

namespace NetShare

open Reasoning

/-- `size_t` increment of a loop index on x64. -/
def sizeTInc (i : Nat) : Nat := (i + 1) % 2 ^ 64

/-- `size_t` decrement of a loop index on x64: 0 wraps to the greatest value. -/
def sizeTDec (i : Nat) : Nat := (i + 2 ^ 64 - 1) % 2 ^ 64

-- The loops never get near the wrap-around as long as a batch fits the memory.
theorem sizeTInc_of_lt {i : Nat} (h : i + 1 < 2 ^ 64) : sizeTInc i = i + 1 :=
  Nat.mod_eq_of_lt h

-- Only 0 wraps.
theorem sizeTDec_of_pos {n : Nat} (hpos : 0 < n) (hlt : n < 2 ^ 64) : sizeTDec n = n - 1 := by
  unfold sizeTDec
  omega

/-- The decrement of a retry is undone by the increment of the loop, wrapped or not. -/
theorem sizeTInc_sizeTDec {i : Nat} (h : i < 2 ^ 64) : sizeTInc (sizeTDec i) = i := by
  unfold sizeTInc sizeTDec
  omega

/-- The queue object.  `buffer i` is the pointer in cell `i` of the array, `none` for `nullptr`. -/
structure Workqueue (α : Type) where
  released : Bool := false
  buffer : Nat → Option α := fun _ => none
  capacity : Nat
  size : Nat := 0
  end_ : Nat := 0
  start : Nat := 1

/-- What a locked `popX` does: the returned array (`none` for `nullptr`), what it stored through
its out-parameter (`none` if it stored nothing), the queue it leaves and the indices of `buffer`
it read. -/
structure PopResult (α : Type) where
  list : Option (List (Option α))
  actualSize : Option Nat
  queue : Workqueue α
  accessed : List Nat

/-- What `push` does.  A refused packet is deleted and nobody is notified. -/
structure PushResult (α : Type) where
  accepted : Bool
  queue : Workqueue α
  accessed : List Nat

namespace Workqueue

variable {α : Type}

/-- The constructor: an array of `_capacity` null pointers. -/
def new (capacity : Nat) : Workqueue α := { capacity }

/-! ## 1. Index arithmetic of the header -/

def empty (q : Workqueue α) : Bool := q.size == 0

def ableToInputPacket (q : Workqueue α) : Bool := !(q.size == q.capacity - 1)

def addToEnd (q : Workqueue α) : Workqueue α :=
  if q.end_ = q.capacity - 1 then { q with end_ := 0 } else { q with end_ := q.end_ + 1 }

/-- `addToStart(size_t)`, the form the batch functions use. -/
def addToStart (q : Workqueue α) (size : Nat) : Workqueue α :=
  if q.start + size ≥ q.capacity then { q with start := q.start + size - q.capacity }
  else { q with start := q.start + size }

def needsSplitt (q : Workqueue α) (wantsToRemove : Nat) : Bool :=
  decide (q.start + wantsToRemove > q.capacity)

def getSplitSize (q : Workqueue α) : Nat := q.capacity - q.start

/-! ## 2. Operations -/

def push (q : Workqueue α) (workPacket : α) : PushResult α :=
  if !q.ableToInputPacket then
    { accepted := false, queue := q, accessed := [] }
  else
    let q := q.addToEnd
    { accepted := true
      queue := { q with
        size := q.size + 1
        buffer := Function.update q.buffer q.end_ (some workPacket) }
      accessed := [q.end_] }

/-- The predicate of `hasPackets.wait`. -/
def waitDone (q : Workqueue α) : Bool := !q.empty || q.released

/-- The tail that `popSize` and `popAll` share: copy `k` pointers out, in two parts where they
wrap, and advance `start`. -/
def takeFront (q : Workqueue α) (k : Nat) : List (Option α) × Workqueue α × List Nat :=
  let rest := { q.addToStart k with size := q.size - k }
  if q.needsSplitt k then
    let fSplit := q.getSplitSize
    (cellRun q.buffer q.start fSplit ++ cellRun q.buffer 0 (k - fSplit), rest,
      List.range' q.start fSplit ++ List.range' 0 (k - fSplit))
  else
    (cellRun q.buffer q.start k, rest, List.range' q.start k)

/-- `popSize` from the return of the wait on.  The out-parameter is written before the second test
of `released`. -/
def popSizeLocked (q : Workqueue α) (size : Nat) : PopResult α :=
  let actualSize := if q.size < size then q.size else size
  if q.released then
    { list := none, actualSize := some actualSize, queue := q, accessed := [] }
  else
    let (list, queue, accessed) := q.takeFront actualSize
    { list := some list, actualSize := some actualSize, queue, accessed }

/-- `popAll` from the return of the wait on. -/
def popAllLocked (q : Workqueue α) : PopResult α :=
  if q.released then
    { list := none, actualSize := some 0, queue := q, accessed := [] }
  else
    let (list, queue, accessed) := q.takeFront q.size
    { list := some list, actualSize := some q.size, queue, accessed }

/-- The exit before the lock: nothing is stored through the out-parameter. -/
def popReleased (q : Workqueue α) : PopResult α :=
  { list := none, actualSize := none, queue := q, accessed := [] }

/-- `popSize` taken as one step; meant for states in which its wait is over. -/
def popSize (q : Workqueue α) (size : Nat) : PopResult α :=
  if q.released then q.popReleased else q.popSizeLocked size

/-- `popAll` taken as one step; meant for states in which its wait is over. -/
def popAll (q : Workqueue α) : PopResult α :=
  if q.released then q.popReleased else q.popAllLocked

def releaseAll (q : Workqueue α) : Workqueue α := { q with released := true }

/-! ## 3. The invariant -/

/-- The pointers in the queue, oldest first. -/
def contents (q : Workqueue α) : List (Option α) :=
  ringWindow q.buffer q.capacity q.start q.size

/-- `end` is the cell of the newest packet: the next one goes where the window stops.  With
capacity 1 the initial `start` lies outside the array, and no packet ever gets in. -/
structure WellFormed (q : Workqueue α) : Prop where
  size_lt : q.size < q.capacity
  start_le : q.start ≤ q.capacity
  start_lt : 2 ≤ q.capacity → q.start < q.capacity
  end_lt : q.end_ < q.capacity
  end_next : (q.end_ + 1) % q.capacity = (q.start + q.size) % q.capacity

/-- The queue is well formed and the packets in it are `items`, oldest first. -/
structure Holds (q : Workqueue α) (items : List α) : Prop where
  wf : q.WellFormed
  contents_eq : q.contents = items.map some

theorem Holds.size_eq {q : Workqueue α} {items : List α} (h : q.Holds items) :
    q.size = items.length := by
  have hlen := congrArg List.length h.contents_eq
  rwa [contents, ringWindow_length, List.length_map] at hlen

-- `empty` looks at the counter, which is the length.
theorem Holds.empty_eq {q : Workqueue α} {items : List α} (h : q.Holds items) :
    q.empty = items.isEmpty := by
  rw [empty, h.size_eq]
  cases items <;> rfl

-- A fresh queue has `end` just before `start`.
theorem new_holds {capacity : Nat} (hcap : 1 ≤ capacity) :
    (new capacity : Workqueue α).Holds [] := by
  refine ⟨⟨hcap, hcap, fun h2 => h2, hcap, ?_⟩, rfl⟩
  simp only [new, Nat.zero_add, Nat.add_zero]

theorem Holds.releaseAll {q : Workqueue α} {items : List α} (h : q.Holds items) :
    q.releaseAll.Holds items :=
  ⟨⟨h.wf.size_lt, h.wf.start_le, h.wf.start_lt, h.wf.end_lt, h.wf.end_next⟩, h.contents_eq⟩

/-! ## 4. `push` -/

-- The wrap-around of `end` is the successor modulo the capacity.
theorem addToEnd_end {q : Workqueue α} (h : q.WellFormed) :
    q.addToEnd.end_ = (q.start + q.size) % q.capacity := by
  rw [← h.end_next, addToEnd]
  have hlt := h.end_lt
  split
  next hlast => rw [hlast, Nat.sub_add_cancel (by omega), Nat.mod_self]
  next hlast => rw [Nat.mod_eq_of_lt (by omega)]

@[simp] theorem addToEnd_start (q : Workqueue α) : q.addToEnd.start = q.start := by
  unfold addToEnd; split <;> rfl

@[simp] theorem addToEnd_size (q : Workqueue α) : q.addToEnd.size = q.size := by
  unfold addToEnd; split <;> rfl

@[simp] theorem addToEnd_capacity (q : Workqueue α) : q.addToEnd.capacity = q.capacity := by
  unfold addToEnd; split <;> rfl

@[simp] theorem addToEnd_buffer (q : Workqueue α) : q.addToEnd.buffer = q.buffer := by
  unfold addToEnd; split <;> rfl

@[simp] theorem addToEnd_released (q : Workqueue α) : q.addToEnd.released = q.released := by
  unfold addToEnd; split <;> rfl

/-- A push on a queue that holds `capacity - 1` packets does nothing. -/
theorem push_full {q : Workqueue α} (hfull : q.size = q.capacity - 1) (p : α) :
    q.push p = { accepted := false, queue := q, accessed := [] } := by
  simp [push, ableToInputPacket, hfull]

-- The packet is stored at the moved `end`.
theorem push_eq_of_room {q : Workqueue α} (hroom : q.size ≠ q.capacity - 1) (p : α) :
    q.push p =
      { accepted := true
        queue := { q.addToEnd with
          size := q.addToEnd.size + 1
          buffer := Function.update q.addToEnd.buffer q.addToEnd.end_ (some p) }
        accessed := [q.addToEnd.end_] } := by
  simp [push, ableToInputPacket, hroom]

/-- Any other push appends its packet and writes one cell of the array. -/
theorem push_room {q : Workqueue α} {items : List α} (h : q.Holds items)
    (hroom : q.size ≠ q.capacity - 1) (p : α) :
    (q.push p).accepted = true ∧ (q.push p).queue.Holds (items ++ [p]) ∧
      (∀ i ∈ (q.push p).accessed, i < q.capacity) := by
  have hlt := h.wf.size_lt
  have hend := addToEnd_end h.wf
  have hpos : 0 < q.capacity := by omega
  rw [push_eq_of_room hroom]
  refine ⟨rfl, ⟨⟨?_, ?_, ?_, ?_, ?_⟩, ?_⟩, ?_⟩
  · show q.addToEnd.size + 1 < q.addToEnd.capacity
    rw [addToEnd_size, addToEnd_capacity]
    omega
  · show q.addToEnd.start ≤ q.addToEnd.capacity
    rw [addToEnd_start, addToEnd_capacity]
    exact h.wf.start_le
  · show 2 ≤ q.addToEnd.capacity → q.addToEnd.start < q.addToEnd.capacity
    rw [addToEnd_start, addToEnd_capacity]
    exact h.wf.start_lt
  · show q.addToEnd.end_ < q.addToEnd.capacity
    rw [hend, addToEnd_capacity]
    exact Nat.mod_lt _ hpos
  · show (q.addToEnd.end_ + 1) % q.addToEnd.capacity =
      (q.addToEnd.start + (q.addToEnd.size + 1)) % q.addToEnd.capacity
    rw [hend, addToEnd_capacity, addToEnd_start, addToEnd_size, Nat.mod_add_mod, Nat.add_assoc]
  · show ringWindow (Function.update q.addToEnd.buffer q.addToEnd.end_ (some p))
      q.addToEnd.capacity q.addToEnd.start (q.addToEnd.size + 1) = (items ++ [p]).map some
    rw [addToEnd_capacity, addToEnd_start, addToEnd_size, addToEnd_buffer, hend,
      ringWindow_push _ _ hlt, List.map_append, ← h.contents_eq]
    rfl
  · intro i hi
    rw [List.mem_singleton] at hi
    rw [hi, hend]
    exact Nat.mod_lt _ hpos

/-- A push is accepted exactly when there is room. -/
theorem push_accepted_iff (q : Workqueue α) (p : α) :
    (q.push p).accepted = true ↔ q.size ≠ q.capacity - 1 := by
  by_cases hfull : q.size = q.capacity - 1
  · simp [push_full hfull, hfull]
  · simp [push_eq_of_room hfull, hfull]

-- A full queue drops the packet and is as it was.
theorem push_queue_of_refused {q : Workqueue α} {p : α} (h : (q.push p).accepted = false) :
    (q.push p).queue = q := by
  have hfull : q.size = q.capacity - 1 := by
    by_contra hroom
    rw [(push_accepted_iff q p).mpr hroom] at h
    contradiction
  rw [push_full hfull]

theorem push_size_of_accepted {q : Workqueue α} {p : α} (h : (q.push p).accepted = true) :
    (q.push p).queue.size = q.size + 1 := by
  rw [push_eq_of_room ((push_accepted_iff q p).mp h)]
  exact congrArg (· + 1) (addToEnd_size q)

@[simp] theorem push_capacity (q : Workqueue α) (p : α) :
    (q.push p).queue.capacity = q.capacity := by
  unfold push; split <;> simp

@[simp] theorem push_released (q : Workqueue α) (p : α) :
    (q.push p).queue.released = q.released := by
  unfold push; split <;> simp

/-! ## 5. `popSize` and `popAll` -/

-- The subtraction of `addToStart` is the sum modulo the capacity.
theorem addToStart_start {q : Workqueue α} (h : q.WellFormed) {k : Nat} (hk : k ≤ q.size) :
    (q.addToStart k).start = (q.start + k) % q.capacity := by
  have hs := h.start_le
  have hlt := h.size_lt
  unfold addToStart
  split
  next hwrap =>
    rw [Nat.mod_eq_sub_mod hwrap, Nat.mod_eq_of_lt (by omega)]
  next hwrap => rw [Nat.mod_eq_of_lt (by omega)]

@[simp] theorem addToStart_end (q : Workqueue α) (k : Nat) : (q.addToStart k).end_ = q.end_ := by
  unfold addToStart; split <;> rfl

@[simp] theorem addToStart_capacity (q : Workqueue α) (k : Nat) :
    (q.addToStart k).capacity = q.capacity := by
  unfold addToStart; split <;> rfl

@[simp] theorem addToStart_buffer (q : Workqueue α) (k : Nat) :
    (q.addToStart k).buffer = q.buffer := by
  unfold addToStart; split <;> rfl

@[simp] theorem addToStart_released (q : Workqueue α) (k : Nat) :
    (q.addToStart k).released = q.released := by
  unfold addToStart; split <;> rfl

theorem takeFront_queue (q : Workqueue α) (k : Nat) :
    (q.takeFront k).2.1 = { q.addToStart k with size := q.size - k } := by
  unfold takeFront; split <;> rfl

/-- Both copies together read the oldest `k` cells of the window. -/
theorem takeFront_list {q : Workqueue α} (h : q.WellFormed) {k : Nat} (hk : k ≤ q.size) :
    (q.takeFront k).1 = ringWindow q.buffer q.capacity q.start k := by
  have hs := h.start_le
  have hlt := h.size_lt
  unfold takeFront needsSplitt getSplitSize
  split
  next hsplit =>
    rw [decide_eq_true_eq] at hsplit
    rw [ringWindow_eq_two_runs _ hs (by omega) (by omega)]
  next hsplit =>
    rw [decide_eq_true_eq] at hsplit
    rw [ringWindow_eq_cellRun _ (by omega)]

-- Both `std::copy` ranges of the wrapped case are inside the buffer.
theorem takeFront_accessed {q : Workqueue α} (h : q.WellFormed) {k : Nat} (hk : k ≤ q.size) :
    ∀ i ∈ (q.takeFront k).2.2, i < q.capacity := by
  have hs := h.start_le
  have hlt := h.size_lt
  unfold takeFront needsSplitt getSplitSize
  intro i hi
  split at hi
  next hsplit =>
    rw [List.mem_append] at hi
    rcases hi with hi | hi
    · exact mem_range'_lt hi (by omega)
    · exact mem_range'_lt hi (by omega)
  next hsplit =>
    rw [decide_eq_true_eq] at hsplit
    exact mem_range'_lt hi (by omega)

/-- Taking `k` packets out of the ring is taking them off the front of the list. -/
theorem takeFront_holds {q : Workqueue α} {items : List α} (h : q.Holds items) {k : Nat}
    (hk : k ≤ items.length) :
    (q.takeFront k).1 = (items.take k).map some ∧ (q.takeFront k).2.1.Holds (items.drop k) := by
  have hsize := h.size_eq
  have hk' : k ≤ q.size := by omega
  have hpos : 0 < q.capacity := Nat.lt_of_le_of_lt (Nat.zero_le _) h.wf.size_lt
  have hstart := addToStart_start h.wf hk'
  have hstartlt : (q.start + k) % q.capacity < q.capacity := Nat.mod_lt _ hpos
  constructor
  · rw [takeFront_list h.wf hk', List.map_take, ← h.contents_eq, contents, ringWindow_take _ hk']
  rw [takeFront_queue]
  refine ⟨⟨?_, ?_, ?_, ?_, ?_⟩, ?_⟩
  · show q.size - k < (q.addToStart k).capacity
    have := h.wf.size_lt
    rw [addToStart_capacity]
    omega
  · show (q.addToStart k).start ≤ (q.addToStart k).capacity
    rw [hstart, addToStart_capacity]
    omega
  · intro _
    show (q.addToStart k).start < (q.addToStart k).capacity
    rw [hstart, addToStart_capacity]
    exact hstartlt
  · show (q.addToStart k).end_ < (q.addToStart k).capacity
    rw [addToStart_end, addToStart_capacity]
    exact h.wf.end_lt
  · show ((q.addToStart k).end_ + 1) % (q.addToStart k).capacity =
      ((q.addToStart k).start + (q.size - k)) % (q.addToStart k).capacity
    rw [addToStart_end, addToStart_capacity, hstart, h.wf.end_next, Nat.mod_add_mod,
      show q.start + k + (q.size - k) = q.start + q.size by omega]
  · show ringWindow (q.addToStart k).buffer (q.addToStart k).capacity (q.addToStart k).start
      (q.size - k) = (items.drop k).map some
    rw [addToStart_buffer, addToStart_capacity, hstart, List.map_drop, ← h.contents_eq, contents,
      ringWindow_drop _ hk']

/-- On a queue that is not released, the locked part of `popSize` hands out the oldest packets. -/
theorem popSizeLocked_holds {q : Workqueue α} {items : List α} (h : q.Holds items)
    (hrel : q.released = false) (n : Nat) :
    (q.popSizeLocked n).list = some ((items.take n).map some) ∧
      (q.popSizeLocked n).actualSize = some (min items.length n) ∧
      (q.popSizeLocked n).queue.Holds (items.drop n) := by
  have hmin : (if q.size < n then q.size else n) = min items.length n := by
    rw [h.size_eq]
    split <;> omega
  obtain ⟨hlist, hqueue⟩ := takeFront_holds h (Nat.min_le_left items.length n)
  simp only [popSizeLocked, hrel, hmin, Bool.false_eq_true, if_false]
  refine ⟨?_, trivial, ?_⟩
  · rw [hlist, List.take_eq_take_min (i := n), Nat.min_comm]
  · rwa [show items.drop (min items.length n) = items.drop n by
      rw [List.drop_eq_drop_iff]; omega] at hqueue

-- `popAll` takes as many packets as there are.
theorem popAllLocked_holds {q : Workqueue α} {items : List α} (h : q.Holds items)
    (hrel : q.released = false) :
    q.popAllLocked.list = some (items.map some) ∧
      q.popAllLocked.actualSize = some items.length ∧ q.popAllLocked.queue.Holds [] := by
  obtain ⟨hlist, hqueue⟩ := takeFront_holds h (Nat.le_refl items.length)
  rw [List.take_length] at hlist
  rw [List.drop_length] at hqueue
  simp only [popAllLocked, hrel, h.size_eq, Bool.false_eq_true, if_false]
  exact ⟨by rw [hlist], trivial, hqueue⟩

@[simp] theorem takeFront_capacity (q : Workqueue α) (k : Nat) :
    (q.takeFront k).2.1.capacity = q.capacity := by
  rw [takeFront_queue]; exact addToStart_capacity q k

@[simp] theorem takeFront_released (q : Workqueue α) (k : Nat) :
    (q.takeFront k).2.1.released = q.released := by
  rw [takeFront_queue]; exact addToStart_released q k

@[simp] theorem popSizeLocked_queue_capacity (q : Workqueue α) (n : Nat) :
    (q.popSizeLocked n).queue.capacity = q.capacity := by
  unfold popSizeLocked
  dsimp only
  split
  · rfl
  · exact takeFront_capacity q _

@[simp] theorem popSizeLocked_queue_released (q : Workqueue α) (n : Nat) :
    (q.popSizeLocked n).queue.released = q.released := by
  unfold popSizeLocked
  dsimp only
  split
  · rfl
  · exact takeFront_released q _

@[simp] theorem popAllLocked_queue_capacity (q : Workqueue α) :
    q.popAllLocked.queue.capacity = q.capacity := by
  unfold popAllLocked
  split
  · rfl
  · exact takeFront_capacity q _

@[simp] theorem popAllLocked_queue_released (q : Workqueue α) :
    q.popAllLocked.queue.released = q.released := by
  unfold popAllLocked
  split
  · rfl
  · exact takeFront_released q _

theorem popSizeLocked_accessed {q : Workqueue α} (h : q.WellFormed) (n : Nat) :
    ∀ i ∈ (q.popSizeLocked n).accessed, i < q.capacity := by
  unfold popSizeLocked
  dsimp only
  split
  · exact fun i hi => absurd hi List.not_mem_nil
  · exact takeFront_accessed h (by split <;> omega)

theorem popAllLocked_accessed {q : Workqueue α} (h : q.WellFormed) :
    ∀ i ∈ q.popAllLocked.accessed, i < q.capacity := by
  unfold popAllLocked
  split
  · exact fun i hi => absurd hi List.not_mem_nil
  · exact takeFront_accessed h (Nat.le_refl _)

end Workqueue

end NetShare
