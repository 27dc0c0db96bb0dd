import Mathlib.Data.List.Basic
import Mathlib.Logic.Function.Basic
import Mathlib.Tactic.Common

/-!
# Bounded queues and rings

A first-in first-out queue of at most `bound` elements that can be released: a push on a full queue
is dropped, and once the queue is released readers get nothing and the contents stay.

A ring is a queue laid out in a circular array.  The contents of a ring are the cells met walking
`n` places from `start`, indices taken modulo the capacity.  The lemmas say how the walk changes
when a cell is written behind it, when its front is cut off, and how it reads as one or two
contiguous runs of the array.
-/

namespace Reasoning

/-! ## 1. Bounded queues -/

/-- The bound is part of the value: an overfull queue cannot be built. -/
structure BoundedFifo (α : Type*) (bound : Nat) where
  items : List α
  released : Bool
  le_bound : items.length ≤ bound

namespace BoundedFifo

variable {α : Type*} {bound : Nat}

def empty : BoundedFifo α bound :=
  ⟨[], false, Nat.zero_le _⟩

def push (q : BoundedFifo α bound) (x : α) : BoundedFifo α bound :=
  if h : q.items.length < bound then
    ⟨q.items ++ [x], q.released, by rw [List.length_append, List.length_singleton]; omega⟩
  else q

/-- Removes the oldest `n` elements, or all there are. -/
def dropOldest (q : BoundedFifo α bound) (n : Nat) : BoundedFifo α bound :=
  ⟨q.items.drop n, q.released, by have := q.le_bound; rw [List.length_drop]; omega⟩

/-- The oldest `n` elements, or all there are, unless the queue is released. -/
def take (q : BoundedFifo α bound) (n : Nat) : Option (List α) × BoundedFifo α bound :=
  if q.released then (none, q) else (some (q.items.take n), q.dropOldest n)

def takeAll (q : BoundedFifo α bound) : Option (List α) × BoundedFifo α bound :=
  q.take q.items.length

def release (q : BoundedFifo α bound) : BoundedFifo α bound :=
  { q with released := true }

/-- A reader may go on when there is something to read or nothing more to wait for. -/
def ready (q : BoundedFifo α bound) : Bool :=
  !q.items.isEmpty || q.released

end BoundedFifo

/-! ## 2. Rings -/

variable {α : Type*}

/-- The `n` cells from `start` on, wrapping at `cap`. -/
def ringWindow (cells : Nat → α) (cap start n : Nat) : List α :=
  (List.range n).map fun i => cells ((start + i) % cap)

/-- The `n` contiguous cells from index `i` on. -/
def cellRun (cells : Nat → α) (i n : Nat) : List α :=
  (List.range' i n).map cells

variable (cells : Nat → α) {cap start n k : Nat}

@[simp] theorem ringWindow_length : (ringWindow cells cap start n).length = n := by
  simp [ringWindow]

-- A contiguous run is what `std::copy` copies.
theorem cellRun_eq_range :
    cellRun cells start n = (List.range n).map fun i => cells (start + i) := by
  rw [cellRun, List.range'_eq_map_range, List.map_map]
  rfl

/-- Two offsets less than a full turn apart are different cells. -/
theorem ring_index_ne {i : Nat} (hi : i < n) (hn : n < cap) :
    (start + i) % cap ≠ (start + n) % cap := by
  intro h
  have hd := Nat.sub_mod_eq_zero_of_mod_eq h.symm
  rw [show start + n - (start + i) = n - i by omega] at hd
  have := Nat.le_of_dvd (by omega) (Nat.dvd_of_mod_eq_zero hd)
  omega

/-- Writing the cell just behind the window appends to it. -/
theorem ringWindow_push (x : α) (hn : n < cap) :
    ringWindow (Function.update cells ((start + n) % cap) x) cap start (n + 1) =
      ringWindow cells cap start n ++ [x] := by
  unfold ringWindow
  rw [List.range_succ, List.map_append, List.map_singleton, Function.update_self]
  congr 1
  apply List.map_congr_left
  intro i hi
  rw [Function.update_of_ne (ring_index_ne (List.mem_range.mp hi) hn)]

/-- A window splits at any place; the rest starts where the front ends. -/
theorem ringWindow_split (hk : k ≤ n) :
    ringWindow cells cap start n =
      ringWindow cells cap start k ++ ringWindow cells cap ((start + k) % cap) (n - k) := by
  unfold ringWindow
  conv_lhs => rw [show n = k + (n - k) by omega, List.range_add, List.map_append, List.map_map]
  congr 1
  apply List.map_congr_left
  intro i _
  simp only [Function.comp, Nat.mod_add_mod, Nat.add_assoc]

-- Taking and dropping from a window gives windows again.
theorem ringWindow_take (hk : k ≤ n) :
    (ringWindow cells cap start n).take k = ringWindow cells cap start k := by
  rw [ringWindow_split cells hk, List.take_left' (ringWindow_length cells)]

theorem ringWindow_drop (hk : k ≤ n) :
    (ringWindow cells cap start n).drop k = ringWindow cells cap ((start + k) % cap) (n - k) := by
  rw [ringWindow_split cells hk, List.drop_left' (ringWindow_length cells)]

/-- A window that does not reach past the end of the array is one run. -/
theorem ringWindow_eq_cellRun (h : start + n ≤ cap) :
    ringWindow cells cap start n = cellRun cells start n := by
  rw [cellRun_eq_range]
  apply List.map_congr_left
  intro i hi
  rw [Nat.mod_eq_of_lt (by have := List.mem_range.mp hi; omega)]

/-- A window that passes the end of the array is the run up to the end and one from the start. -/
theorem ringWindow_eq_two_runs (hs : start ≤ cap) (hwrap : cap ≤ start + n) (hn : n ≤ cap) :
    ringWindow cells cap start n =
      cellRun cells start (cap - start) ++ cellRun cells 0 (n - (cap - start)) := by
  rw [ringWindow_split cells (show cap - start ≤ n by omega),
    ringWindow_eq_cellRun cells (by omega : start + (cap - start) ≤ cap),
    show (start + (cap - start)) % cap = 0 by rw [Nat.add_sub_cancel' hs, Nat.mod_self],
    ringWindow_eq_cellRun cells (by omega : 0 + (n - (cap - start)) ≤ cap)]

-- Every index of a run that ends inside the buffer is inside it.
theorem mem_range'_lt {i j : Nat} (h : j ∈ List.range' i n) (hb : i + n ≤ cap) : j < cap := by
  rw [List.mem_range'_1] at h
  omega

end Reasoning
