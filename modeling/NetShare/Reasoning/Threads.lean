import Mathlib.Algebra.BigOperators.Group.Finset.Basic
import Mathlib.Algebra.BigOperators.Ring.Finset
import Mathlib.Data.Fintype.BigOperators
import Mathlib.Logic.Function.Basic
import Mathlib.Tactic.Abel

/-!
# Families of threads

The local states of a family of threads are a function of the thread; a step changes one of them.
A quantity summed over the family changes by what that one thread contributes.  A mutex that guards
a section of their code belongs to the thread that is inside, so there is at most one.
-/

namespace Reasoning

/-! ## 1. Sums over a family -/

section

open Finset

variable {ι τ : Type*} [Fintype ι]

/-- The sum over the family before and after one thread moves. -/
theorem sum_update_add [DecidableEq ι] {M : Type*} [AddCommMonoid M] (g : τ → M) (f : ι → τ)
    (i : ι) (x : τ) :
    ∑ j, g (Function.update f i x j) + g (f i) = ∑ j, g (f j) + g x := by
  rw [← add_sum_erase univ (fun j => g (Function.update f i x j)) (mem_univ i),
    ← add_sum_erase univ (fun j => g (f j)) (mem_univ i), Function.update_self]
  have hrest : ∑ j ∈ univ.erase i, g (Function.update f i x j) = ∑ j ∈ univ.erase i, g (f j) :=
    sum_congr rfl fun j hj => by rw [Function.update_of_ne (ne_of_mem_erase hj)]
  rw [hrest]
  abel

/-- How many threads of the family are in a state of the given kind. -/
def countThreads (p : τ → Bool) (f : ι → τ) : Nat :=
  (univ.filter fun i => p (f i)).card

-- Counted as a sum, so that one change of one thread is one summand.
theorem countThreads_eq_sum (p : τ → Bool) (f : ι → τ) :
    countThreads p f = ∑ i, (p (f i)).toNat := by
  rw [countThreads, card_filter]
  exact sum_congr rfl fun i _ => by cases p (f i) <;> rfl

theorem countThreads_update [DecidableEq ι] (p : τ → Bool) (f : ι → τ) (i : ι) (x : τ) :
    countThreads p (Function.update f i x) + (p (f i)).toNat =
      countThreads p f + (p x).toNat := by
  rw [countThreads_eq_sum, countThreads_eq_sum]
  exact sum_update_add (fun y => (p y).toNat) f i x

-- A count that is not zero has a thread to show for it.
theorem exists_of_countThreads_pos {p : τ → Bool} {f : ι → τ} (h : 0 < countThreads p f) :
    ∃ i, p (f i) = true := by
  obtain ⟨i, hi⟩ := card_pos.mp h
  exact ⟨i, (mem_filter.mp hi).2⟩

end

/-! ## 2. A mutex -/

variable {ι τ : Type*}

/-- The mutex is held by the thread that is inside. -/
def Exclusive (inside : τ → Bool) (mutex : Option ι) (pc : ι → τ) : Prop :=
  ∀ i, inside (pc i) = true ↔ mutex = some i

namespace Exclusive

variable {inside : τ → Bool} {mutex : Option ι} {pc : ι → τ}

theorem outside (h : ∀ i, inside (pc i) = false) : Exclusive inside none pc := by
  intro i
  rw [h i]
  exact ⟨fun hno => absurd hno Bool.false_ne_true, fun hno => by cases hno⟩

/-- **Mutual exclusion.** -/
theorem eq_of_inside (h : Exclusive inside mutex pc) {i j : ι} (hi : inside (pc i) = true)
    (hj : inside (pc j) = true) : i = j := by
  rw [h i] at hi
  rw [h j, hi] at hj
  exact Option.some.inj hj

theorem outside_of_free (h : Exclusive inside none pc) (i : ι) : inside (pc i) = false := by
  rw [← Bool.not_eq_true, h i]
  exact fun hno => by cases hno

variable [DecidableEq ι]

theorem lock (h : Exclusive inside none pc) (i : ι) {x : τ} (hx : inside x = true) :
    Exclusive inside (some i) (Function.update pc i x) := by
  intro j
  by_cases hj : j = i
  · subst hj
    rw [Function.update_self]
    exact iff_of_true hx rfl
  · rw [Function.update_of_ne hj, h.outside_of_free j]
    apply iff_of_false Bool.false_ne_true
    intro heq
    exact hj (Option.some.inj heq).symm

theorem unlock {i : ι} (h : Exclusive inside (some i) pc) {x : τ} (hx : inside x = false) :
    Exclusive inside none (Function.update pc i x) := by
  apply outside
  intro j
  by_cases hj : j = i
  · subst hj
    rw [Function.update_self]
    exact hx
  · rw [Function.update_of_ne hj, ← Bool.not_eq_true, h j]
    intro heq
    exact hj (Option.some.inj heq).symm

/-- A step inside or outside. -/
theorem move (h : Exclusive inside mutex pc) {i : ι} {x : τ} (hx : inside x = inside (pc i)) :
    Exclusive inside mutex (Function.update pc i x) := by
  intro j
  by_cases hj : j = i
  · subst hj
    rw [Function.update_self, hx]
    exact h j
  · rw [Function.update_of_ne hj]
    exact h j

end Exclusive

end Reasoning
