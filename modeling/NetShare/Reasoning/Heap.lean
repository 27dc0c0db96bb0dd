import Mathlib.Logic.Function.Basic
import Mathlib.Tactic.Common

/-!
# A heap of objects

Objects are made and deleted one by one.  To use or delete one that is not there is an error of the
program, and the operation gives `none`.
-/

namespace Reasoning

/-- Nothing has been made yet from `next` on. -/
structure Heap (β : Type*) where
  next : Nat := 0
  object : Nat → Option β := fun _ => none
  fresh : ∀ a, next ≤ a → object a = none := by exact fun _ _ => rfl

namespace Heap

variable {β : Type*}

def Live (h : Heap β) (a : Nat) : Prop := (h.object a).isSome = true

theorem Live.lt {h : Heap β} {a : Nat} (ha : h.Live a) : a < h.next := by
  by_contra hge
  rw [Live, h.fresh a (Nat.le_of_not_lt hge)] at ha
  exact Bool.false_ne_true ha

/-- `new`: the address and the heap with the object. -/
def new (h : Heap β) (b : β) : Nat × Heap β :=
  (h.next,
    { next := h.next + 1
      object := Function.update h.object h.next (some b)
      fresh := by
        intro a ha
        rw [Function.update_of_ne (by omega)]
        exact h.fresh a (by omega) })

/-- A use of the object at `a` that may change it. -/
def modify (h : Heap β) (a : Nat) (f : β → β) : Option (Heap β) :=
  match hb : h.object a with
  | none => none
  | some b =>
    some { h with
      object := Function.update h.object a (some (f b))
      fresh := by
        intro c hc
        have hne : c ≠ a := by
          rintro rfl
          rw [h.fresh c hc] at hb
          cases hb
        rw [Function.update_of_ne hne]
        exact h.fresh c hc }

/-- `delete`. -/
def delete (h : Heap β) (a : Nat) : Option (Heap β) :=
  if (h.object a).isSome then
    some { h with
      object := Function.update h.object a none
      fresh := by
        intro c hc
        by_cases hca : c = a
        · rw [hca, Function.update_self]
        · rw [Function.update_of_ne hca]
          exact h.fresh c hc }
  else none

variable {h h' : Heap β} {a c : Nat}

@[simp] theorem new_fst (h : Heap β) (b : β) : (h.new b).1 = h.next := rfl

theorem live_new_self (h : Heap β) (b : β) : (h.new b).2.Live h.next := by
  show (Function.update h.object h.next (some b) h.next).isSome = true
  rw [Function.update_self]
  rfl

theorem Live.new (ha : h.Live a) (b : β) : (h.new b).2.Live a := by
  show (Function.update h.object h.next (some b) a).isSome = true
  rw [Function.update_of_ne (Nat.ne_of_lt ha.lt)]
  exact ha

-- A use succeeds on an object that is there, and leaves which objects are there.
theorem exists_modify (ha : h.Live a) (f : β → β) :
    ∃ h', h.modify a f = some h' ∧ ∀ c, h.Live c → h'.Live c := by
  obtain ⟨b, hb⟩ := Option.isSome_iff_exists.mp ha
  unfold modify
  split
  next hnone => rw [hnone] at hb; cases hb
  next b' _ =>
    refine ⟨_, rfl, fun c hc => ?_⟩
    show (Function.update h.object a (some (f b')) c).isSome = true
    by_cases hca : c = a
    · rw [hca, Function.update_self]
      rfl
    · rw [Function.update_of_ne hca]
      exact hc

theorem exists_delete (ha : h.Live a) :
    ∃ h', h.delete a = some h' ∧ ¬ h'.Live a ∧ ∀ c, c ≠ a → h.Live c → h'.Live c := by
  refine ⟨_, if_pos ha, ?_, fun c hca hc => ?_⟩
  · show ¬ (Function.update h.object a none a).isSome = true
    rw [Function.update_self]
    exact Bool.false_ne_true
  · show (Function.update h.object a none c).isSome = true
    rw [Function.update_of_ne hca]
    exact hc

end Heap

end Reasoning
