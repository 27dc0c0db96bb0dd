import Mathlib.Data.List.Basic
import Mathlib.Tactic.Common

/-!
# Binary input files with a fail bit

Reading past the end stores the bytes there are and sets the fail bit; once it is set, a read
stores nothing.  The bytes stored go over the front of the destination, whose other bytes stay.
-/

namespace Reasoning

/-- The unread bytes of a file and the fail bit. -/
structure InputFile where
  rest : List UInt8
  failed : Bool := false
deriving DecidableEq

namespace InputFile

/-- Reads `n` bytes: the bytes it stores and the file after it. -/
def read (f : InputFile) (n : Nat) : List UInt8 × InputFile :=
  if f.failed then ([], f)
  else if n ≤ f.rest.length then (f.rest.take n, { f with rest := f.rest.drop n })
  else (f.rest, { rest := [], failed := true })

/-- The bytes `new` stored over the front of `old`. -/
def overwrite (old new : List UInt8) : List UInt8 := new ++ old.drop new.length

-- Reading what was written stops exactly where the rest begins.
theorem read_append (bs rest : List UInt8) :
    read { rest := bs ++ rest } bs.length = (bs, { rest }) := by
  simp [read]

-- Once the fail bit is set, nothing is read and the file stays as it is.
theorem read_of_failed {f : InputFile} (h : f.failed = true) (n : Nat) : f.read n = ([], f) := by
  rw [read, if_pos h]

/-- A read that did not fail took exactly its bytes off the front. -/
theorem read_sound {f g : InputFile} {n : Nat} {bs : List UInt8} (h : f.read n = (bs, g))
    (hok : g.failed = false) : bs.length = n ∧ f = { rest := bs ++ g.rest } := by
  obtain ⟨rest, failed⟩ := f
  unfold read at h
  split at h
  next hfailed =>
    obtain ⟨-, rfl⟩ := Prod.mk.inj h
    exact absurd (hok.symm.trans hfailed) Bool.false_ne_true
  next hfailed =>
    obtain rfl : failed = false := Bool.eq_false_iff.mpr hfailed
    split at h
    next hfits =>
      obtain ⟨rfl, rfl⟩ := Prod.mk.inj h
      refine ⟨List.length_take_of_le hfits, ?_⟩
      rw [List.take_append_drop]
    next =>
      obtain ⟨-, rfl⟩ := Prod.mk.inj h
      exact absurd hok.symm Bool.false_ne_true

-- What a reader gets back determines what was in front of the rest, and the rest.
theorem inj_of_read {α : Type} {reader : InputFile → α × InputFile} {x y : α}
    {bs bs' rest rest' : List UInt8} (h : reader { rest := bs } = (x, { rest }))
    (h' : reader { rest := bs' } = (y, { rest := rest' })) (heq : bs = bs') :
    x = y ∧ rest = rest' := by
  rw [heq, h'] at h
  obtain ⟨rfl, hfile⟩ := Prod.mk.inj h
  exact ⟨rfl, (congrArg InputFile.rest hfile).symm⟩

theorem read_length (f : InputFile) (n : Nat) : (f.read n).1.length ≤ n := by
  unfold read
  split
  · exact Nat.zero_le n
  · split
    · exact List.length_take_le n f.rest
    · show f.rest.length ≤ n
      omega

/-- A file that has failed has been read to its end.  Then the fail bit makes no difference to what
a read stores. -/
def AtEndIfFailed (f : InputFile) : Prop := f.failed = true → f.rest = []

-- What a read stores and leaves is the same whether the bytes suffice or not.
theorem AtEndIfFailed.read {f : InputFile} (h : f.AtEndIfFailed) (n : Nat) :
    (f.read n).1 = f.rest.take n ∧ (f.read n).2.rest = f.rest.drop n ∧
      (f.read n).2.AtEndIfFailed := by
  unfold InputFile.read
  split
  next hfailed =>
    rw [h hfailed, List.take_nil, List.drop_nil]
    exact ⟨rfl, rfl, h⟩
  next hfailed =>
    split
    next => exact ⟨rfl, rfl, fun hf => absurd hf hfailed⟩
    next hshort =>
      have hlen : f.rest.length ≤ n := by omega
      exact ⟨(List.take_of_length_le hlen).symm, (List.drop_eq_nil_of_le hlen).symm, fun _ => rfl⟩

-- Bytes that agree with what they are stored over change nothing.
theorem overwrite_of_prefix {old new : List UInt8} (h : new <+: old) : overwrite old new = old := by
  obtain ⟨rest, rfl⟩ := h
  rw [overwrite, List.drop_left]

-- A read that gives all bytes leaves none of the old ones.
theorem overwrite_full {old new : List UInt8} (h : old.length = new.length) :
    overwrite old new = new := by
  rw [overwrite, ← h, List.drop_length, List.append_nil]

end InputFile

end Reasoning
