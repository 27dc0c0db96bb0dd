import NetShare.Reasoning.Threads
import Mathlib.Data.Multiset.AddSub
import Mathlib.Algebra.Order.Group.Multiset

/-!
# Relays — a queue handed out in batches to workers that pass the items on

Every item accepted is in the queue, held by a worker or sent, and in one of these places only.
With a single worker the items also leave in the order in which they came.
-/

namespace Reasoning

/-- All lists oldest first. -/
structure Relay (α ι : Type*) where
  accepted : List α
  queued : List α
  held : ι → List α
  sent : List α

namespace Relay

variable {α ι : Type*} [DecidableEq ι]

/-- What may happen to a relay: nothing, a new item, a worker with nothing left taking a batch, or
a worker sending the first item it holds. -/
inductive Move : Relay α ι → Relay α ι → Prop where
  | stay (r : Relay α ι) : Move r r
  | accept (r : Relay α ι) (x : α) :
      Move r { r with accepted := r.accepted ++ [x], queued := r.queued ++ [x] }
  | take (r : Relay α ι) (i : ι) (k : Nat) (idle : r.held i = []) :
      Move r { r with
        queued := r.queued.drop k
        held := Function.update r.held i (r.queued.take k) }
  | send (r : Relay α ι) (i : ι) (x : α) (rest : List α) (first : r.held i = x :: rest) :
      Move r { r with held := Function.update r.held i rest, sent := r.sent ++ [x] }

variable [Fintype ι]

/-- The items accepted are the disjoint union of those sent, queued and held. -/
def Conserved (r : Relay α ι) : Prop :=
  (r.accepted : Multiset α) = r.sent + r.queued + ∑ i, (r.held i : Multiset α)

omit [DecidableEq ι] [Fintype ι] in
/-- If there is only one worker, the items are in order all the way. -/
def InOrder (r : Relay α ι) : Prop :=
  ∀ i, (∀ j, j = i) → r.accepted = r.sent ++ r.held i ++ r.queued

-- Every kind of move takes a packet from one place to the next, or adds it at both ends.
theorem Move.conserved {r r' : Relay α ι} (hm : r.Move r') (h : r.Conserved) : r'.Conserved := by
  unfold Conserved at *
  cases hm with
  | stay => exact h
  | accept x =>
    simp only [← Multiset.coe_add, h]
    abel
  | take i k idle =>
    have hsum := sum_update_add (fun l : List α => (l : Multiset α)) r.held i (r.queued.take k)
    have hqueue : (r.queued : Multiset α) = r.queued.take k + r.queued.drop k := by
      rw [Multiset.coe_add, List.take_append_drop]
    simp only [idle, Multiset.coe_nil, add_zero] at hsum
    simp only [h, hsum, hqueue]
    abel
  | send i x rest first =>
    have hsum := sum_update_add (fun l : List α => (l : Multiset α)) r.held i rest
    have hheld : (r.held i : Multiset α) = ([x] : List α) + (rest : Multiset α) := by
      rw [first, Multiset.coe_add, List.singleton_append]
    have hcancel : ∑ j, (r.held j : Multiset α) =
        ([x] : List α) + ∑ j, (Function.update r.held i rest j : Multiset α) := by
      rw [hheld, ← add_assoc] at hsum
      have := add_right_cancel hsum
      rw [← this, add_comm]
    simp only [← Multiset.coe_add, h, hcancel]
    abel

omit [Fintype ι] in
-- With one worker the places are queues one behind the other.
theorem Move.inOrder {r r' : Relay α ι} (hm : r.Move r') (h : r.InOrder) : r'.InOrder := by
  intro i hone
  have hi := h i hone
  cases hm with
  | stay => exact hi
  | accept x => simp only [hi, List.append_assoc]
  | take j k idle =>
    obtain rfl := hone j
    rw [idle, List.append_nil] at hi
    simp only [Function.update_self, List.append_assoc, List.take_append_drop, hi]
  | send j x rest first =>
    obtain rfl := hone j
    simp only [Function.update_self, hi, first, List.append_assoc, List.nil_append,
      List.cons_append]

end Relay

end Reasoning
