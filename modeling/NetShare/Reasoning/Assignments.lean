import Mathlib.Data.List.Induction
import Mathlib.Tactic.Common

/-!
# Assignments — sequences of values given to keys

What a sequence of assignments leaves in a field is the last value of the field's key, and what it
collects under a key are all of them, in order.  Both depend on nothing but the values of that one
key, so assignments to different keys may change places.
-/

namespace Reasoning

namespace Assignments

variable {κ ν σ : Type*}

/-- **The rule for a fold.**  A step that adds one assignment to a meaning adds them all. -/
theorem foldl_eq {step : σ → κ × ν → σ} {meaning : List (κ × ν) → σ}
    (hstep : ∀ as a, step (meaning as) a = meaning (as ++ [a])) (as : List (κ × ν)) :
    as.foldl step (meaning []) = meaning as := by
  induction as using List.reverseRecOn with
  | nil => rfl
  | append_singleton as a ih =>
    rw [List.foldl_append, ih]
    exact hstep as a

variable [DecidableEq κ]

/-- The values given to a key, in order. -/
def valuesOf (key : κ) (as : List (κ × ν)) : List ν :=
  (as.filter fun a => a.1 = key).map Prod.snd

/-- The last one. -/
def lastOf (key : κ) (as : List (κ × ν)) : Option ν := (valuesOf key as).getLast?

@[simp] theorem valuesOf_nil (key : κ) : valuesOf key ([] : List (κ × ν)) = [] := rfl

@[simp] theorem lastOf_nil (key : κ) : lastOf key ([] : List (κ × ν)) = none := rfl

theorem valuesOf_concat (key : κ) (as : List (κ × ν)) (a : κ × ν) :
    valuesOf key (as ++ [a]) = if a.1 = key then valuesOf key as ++ [a.2] else valuesOf key as := by
  by_cases h : a.1 = key
  · simp [valuesOf, h]
  · simp [valuesOf, h]

theorem lastOf_concat (key : κ) (as : List (κ × ν)) (a : κ × ν) :
    lastOf key (as ++ [a]) = if a.1 = key then some a.2 else lastOf key as := by
  rw [lastOf, valuesOf_concat]
  split
  · exact List.getLast?_concat
  · rfl

end Assignments

end Reasoning
