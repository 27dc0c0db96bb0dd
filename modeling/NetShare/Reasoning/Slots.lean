import Mathlib.Data.List.Basic
import Mathlib.Logic.Function.Basic
import Mathlib.Tactic.Common

/-!
# Slots — places handed out in order and filled later

A block of memory whose slots are handed out one after the other.  Whoever gets a slot owes it one
item and fills it later, in no particular order; a slot that nobody owes holds its item.
-/

namespace Reasoning

variable {α ι : Type*}

/-- `items` are due in the slots from 0 on: what is owed is due, and what is due is there unless it
is still owed. -/
structure Slots (block : Nat → Option α) (owes : ι → Option (Nat × α)) (items : List α) : Prop where
  due : ∀ i k x, owes i = some (k, x) → items[k]? = some x
  there : ∀ k x, items[k]? = some x → block k = some x ∨ ∃ i, owes i = some (k, x)

namespace Slots

variable {block : Nat → Option α} {owes owes' : ι → Option (Nat × α)} {items : List α}

/-- Nothing is due, whatever the block holds. -/
theorem empty (howes : ∀ i, owes i = none) : Slots block owes [] where
  due i k x h := by
    rw [howes i] at h
    contradiction
  there _ _ h := by contradiction

/-- **What nobody owes is there.** -/
theorem settled (h : Slots block owes items) (howes : ∀ i, owes i = none) {k : Nat}
    (hk : k < items.length) : block k = some items[k] := by
  rcases h.there k items[k] (List.getElem?_eq_getElem hk) with hthere | ⟨i, hi⟩
  · exact hthere
  · rw [howes i] at hi
    contradiction

-- Nobody owes a slot that was not handed out.
theorem lt_length (h : Slots block owes items) {i : ι} {k : Nat} {x : α}
    (hi : owes i = some (k, x)) : k < items.length :=
  (List.getElem?_eq_some_iff.mp (h.due i k x hi)).1

/-- Only who owes what matters. -/
theorem congr (h : Slots block owes items) (hsame : ∀ i, owes' i = owes i) :
    Slots block owes' items := by
  rwa [funext hsame]

variable [DecidableEq ι]

/-- The next slot is handed out. -/
theorem reserve (h : Slots block owes items) {i : ι} (hi : owes i = none) (x : α)
    (hsame : owes' = Function.update owes i (some (items.length, x))) :
    Slots block owes' (items ++ [x]) where
  due j k y hj := by
    rw [hsame] at hj
    by_cases hji : j = i
    · subst hji
      rw [Function.update_self] at hj
      obtain ⟨rfl, rfl⟩ := Prod.mk.inj (Option.some.inj hj)
      exact List.getElem?_concat_length
    · rw [Function.update_of_ne hji] at hj
      rw [List.getElem?_append_left (h.lt_length hj)]
      exact h.due j k y hj
  there k y hk := by
    rw [hsame]
    by_cases hlast : k = items.length
    · subst hlast
      rw [List.getElem?_concat_length] at hk
      obtain rfl := Option.some.inj hk
      exact .inr ⟨i, Function.update_self ..⟩
    · have hlt : k < items.length := by
        have hbound := (List.getElem?_eq_some_iff.mp hk).1
        rw [List.length_append, List.length_singleton] at hbound
        omega
      rw [List.getElem?_append_left hlt] at hk
      rcases h.there k y hk with hthere | ⟨j, hj⟩
      · exact .inl hthere
      · have hji : j ≠ i := by
          rintro rfl
          rw [hi] at hj
          contradiction
        exact .inr ⟨j, by rw [Function.update_of_ne hji, hj]⟩

/-- A slot is filled by who owes it. -/
theorem fill (h : Slots block owes items) {i : ι} {k : Nat} {x : α} (hi : owes i = some (k, x))
    (hsame : owes' = Function.update owes i none) :
    Slots (Function.update block k (some x)) owes' items where
  due j l y hj := by
    rw [hsame] at hj
    by_cases hji : j = i
    · subst hji
      rw [Function.update_self] at hj
      contradiction
    · rw [Function.update_of_ne hji] at hj
      exact h.due j l y hj
  there l y hl := by
    rw [hsame]
    have hdue := h.due i k x hi
    by_cases hlk : l = k
    · subst hlk
      rw [hdue] at hl
      obtain rfl := Option.some.inj hl
      exact .inl (Function.update_self ..)
    · rw [Function.update_of_ne hlk]
      rcases h.there l y hl with hthere | ⟨j, hj⟩
      · exact .inl hthere
      · have hji : j ≠ i := by
          rintro rfl
          rw [hi] at hj
          exact hlk (Prod.mk.inj (Option.some.inj hj)).1.symm
        exact .inr ⟨j, by rw [Function.update_of_ne hji, hj]⟩

end Slots

end Reasoning
