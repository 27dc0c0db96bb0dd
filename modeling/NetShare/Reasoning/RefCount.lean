import Mathlib.Logic.Function.Basic
import Mathlib.Tactic.Common

/-!
# Reference counts

The strong count of an object that several handles share, as an integer.  Copying, dropping or
using a handle while the count is not positive is a misuse, which is never forgotten.  `Held r k`
says that there has been none and that the count is `k`; its rules need that `k` is positive.
-/

namespace Reasoning

structure RefCount where
  count : Int := 0
  misused : Bool := false
deriving DecidableEq

namespace RefCount

/-- A first handle to a new object. -/
def create (r : RefCount) : RefCount := { r with count := 1 }

/-- Access to the object through a handle. -/
def use (r : RefCount) : RefCount := { r with misused := r.misused || decide (r.count ≤ 0) }

def copy (r : RefCount) : RefCount := { r.use with count := r.count + 1 }

/-- A handle is destroyed or set to null. -/
def drop (r : RefCount) : RefCount := { r.use with count := r.count - 1 }

/-- The object is destroyed with the last handle. -/
def released (r : RefCount) : Bool := r.count == 0

/-- The count is `k` and nothing has been misused. -/
structure Held (r : RefCount) (k : Int) : Prop where
  count : r.count = k
  kept : r.misused = false

namespace Held

variable {r : RefCount} {k : Int}

theorem new : Held {} 0 := ⟨rfl, rfl⟩

theorem create (h : Held r k) : Held r.create 1 := ⟨rfl, h.kept⟩

theorem use (h : Held r k) (hpos : 0 < k) : Held r.use k := by
  refine ⟨h.count, ?_⟩
  show (r.misused || decide (r.count ≤ 0)) = false
  rw [h.kept, h.count, decide_eq_false (by omega), Bool.or_false]

theorem copy (h : Held r k) (hpos : 0 < k) : Held r.copy (k + 1) :=
  ⟨congrArg (· + 1) h.count, (h.use hpos).kept⟩

theorem drop (h : Held r k) (hpos : 0 < k) : Held r.drop (k - 1) :=
  ⟨congrArg (· - 1) h.count, (h.use hpos).kept⟩

-- The count of an object is one number.
theorem cast (h : Held r k) {k' : Int} (heq : k = k') : Held r k' := heq ▸ h

theorem released_iff (h : Held r k) : r.released = true ↔ k = 0 := by
  rw [released, h.count, beq_iff_eq]

/-- With no handle left every use of one is a misuse. -/
theorem misused_use (h : Held r k) (hnone : k ≤ 0) : r.use.misused = true := by
  show (r.misused || decide (r.count ≤ 0)) = true
  rw [h.count, decide_eq_true hnone, Bool.or_true]

end Held

/-! ## Misuse is not forgotten -/

variable {r : RefCount}

theorem misused_use (h : r.misused = true) : r.use.misused = true := by
  show (r.misused || decide (r.count ≤ 0)) = true
  rw [h, Bool.true_or]

theorem misused_drop (h : r.misused = true) : r.drop.misused = true := misused_use h

end RefCount

end Reasoning
