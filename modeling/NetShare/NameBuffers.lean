import NetShare.DamagedConfig

/-!
# The buffers of the names

The indices at which `readString` stores, against the length of the buffer that it asked for.  The
length of a string comes from the file unchecked, and one more than it is computed in `size_t`.
-/

namespace NetShare

open Reasoning

/-- If the buffer could be allocated, every index stored at is inside it. -/
def StringRead.InBounds (r : StringRead) : Prop :=
  r.thrown = false → ∀ i ∈ r.stored, i < r.allocated

/-- The lengths that the names loop reads in a file with these bytes, with `n` names to go and the
`i`-th next: up to the first whose buffer cannot be allocated, or whose name has no room in the
vector. -/
def lengthsFrom (p : Platform) (mem : Uninitialised) (bytes : List UInt8) :
    Nat → Nat → Nat → List Nat
  | 0, _, _ => []
  | n + 1, i, offset =>
    let size := lengthAt p bytes offset (mem.size i)
    size ::
      if (size + 1) % 256 ^ p.sizeT ≤ p.maxAlloc ∧ i < p.maxNames then
        lengthsFrom p mem bytes n (i + 1) (offset + p.sizeT + size)
      else []

/-- All of them; the number of names stands in front of the first. -/
def nameLengths (p : Platform) (mem : Uninitialised) (bytes : List UInt8) : List Nat :=
  lengthsFrom p mem bytes (lengthAt p bytes countOffset mem.numberOfNames) 0
    (countOffset + p.sizeT)

/-- At most so many bytes are stored as were asked for. -/
theorem readChars_length (size : Nat) (f : InputFile) : (readChars size f).1.length ≤ size := by
  unfold readChars
  split
  · exact InputFile.read_length f size
  · exact Nat.zero_le size

-- A length that was read fits its `size_t`.
theorem readSizeT_lt (p : Platform) (old : Nat) (f : InputFile) :
    (p.readSizeT old f).1 < 256 ^ p.sizeT := by
  have hread := InputFile.read_length f p.sizeT
  have hlength : (InputFile.overwrite (p.writeSizeT old) (f.read p.sizeT).1).length = p.sizeT := by
    rw [InputFile.overwrite, List.length_append, List.length_drop, Platform.writeSizeT,
      ByteOrder.bytes_length]
    omega
  have hlt := p.order.nat_lt (InputFile.overwrite (p.writeSizeT old) (f.read p.sizeT).1)
  rwa [hlength] at hlt

namespace AppConfig

variable {p : Platform} (mem : Uninitialised)

/-- **One `readString` stores inside its buffer exactly if the length is not the greatest
`size_t`.**  One more than this is 0. -/
theorem readString_inBounds_iff (i : Nat) (f : InputFile) :
    (readString p mem i f).InBounds ↔ (p.readSizeT (mem.size i) f).1 + 1 ≠ 256 ^ p.sizeT := by
  have hlt := readSizeT_lt p (mem.size i) f
  unfold readString
  generalize p.readSizeT (mem.size i) f = r at hlt ⊢
  obtain ⟨size, f'⟩ := r
  have hchars := readChars_length size f'
  dsimp only at hlt ⊢
  by_cases hgreatest : size + 1 = 256 ^ p.sizeT
  · have hzero : (size + 1) % 256 ^ p.sizeT = 0 := by rw [hgreatest, Nat.mod_self]
    rw [hzero, if_pos (Nat.zero_le _)]
    refine iff_of_false (fun hin => ?_) (not_not.mpr hgreatest)
    have hlast := hin rfl size (List.mem_append_right _ (List.mem_singleton_self size))
    exact absurd hlast (Nat.not_lt_zero size)
  · have hnext : (size + 1) % 256 ^ p.sizeT = size + 1 := Nat.mod_eq_of_lt (by omega)
    rw [hnext]
    refine iff_of_true ?_ hgreatest
    split
    next =>
      intro _ j hj
      show j < size + 1
      obtain hj | hj := List.mem_append.mp hj
      · have := List.mem_range.mp hj
        omega
      · have := List.mem_singleton.mp hj
        omega
    next => exact fun hfalse => absurd hfalse.symm Bool.false_ne_true

/-- The names loop, up to the first length that is the greatest. -/
theorem readNames_inBounds_iff {bytes : List UInt8} {n i offset : Nat} {f : InputFile}
    (hend : f.AtEndIfFailed) (hrest : f.rest = bytes.drop offset) :
    (∀ r ∈ (readNames p mem n i f).2.2.1, r.InBounds) ↔
      ∀ size ∈ lengthsFrom p mem bytes n i offset, size + 1 ≠ 256 ^ p.sizeT := by
  induction n generalizing i offset f with
  | zero => exact iff_of_true (fun _ h => absurd h List.not_mem_nil) fun _ h =>
      absurd h List.not_mem_nil
  | succ n ih =>
    have hfirst := readString_inBounds_iff (p := p) mem i f
    obtain ⟨hlength, hrest', hend'⟩ := p.readSizeT_at hend hrest (mem.size i)
    rw [hlength] at hfirst
    rw [readNames, lengthsFrom]
    dsimp only
    generalize lengthAt p bytes offset (mem.size i) = size at hfirst hlength ⊢
    have hlt := readSizeT_lt p (mem.size i) f
    rw [hlength] at hlt
    have hthrown : (readString p mem i f).thrown = true ↔
        ¬ (size + 1) % 256 ^ p.sizeT ≤ p.maxAlloc := by
      simp only [readString, hlength]
      split
      next hfits => exact iff_of_false Bool.false_ne_true (not_not.mpr hfits)
      next hfits => exact iff_of_true rfl hfits
    by_cases hgo : (size + 1) % 256 ^ p.sizeT ≤ p.maxAlloc ∧ i < p.maxNames
    · have hgo' : ¬ ((readString p mem i f).thrown = true ∨ p.maxNames ≤ i) := by
        rw [hthrown]
        omega
      rw [if_neg hgo', if_pos hgo, List.forall_mem_cons, List.forall_mem_cons, hfirst]
      apply and_congr_right
      intro hsmall
      -- any other length that can be allocated is a valid count too
      have hcount : size < 2 ^ 63 := by
        have hmax := p.maxAlloc_le
        rw [Nat.mod_eq_of_lt (by omega)] at hgo
        omega
      have hchars := readChars_rest hend' size (.inl hcount)
      rw [hrest', List.drop_drop] at hchars
      have hfile : (readString p mem i f).file =
          (readChars size (p.readSizeT (mem.size i) f).2).2 := by
        simp only [readString, hlength]
        rw [if_pos hgo.1]
      rw [← hfile] at hchars
      exact ih hchars.2 hchars.1
    · have hstop : (readString p mem i f).thrown = true ∨ p.maxNames ≤ i := by
        rw [hthrown]
        omega
      rw [if_pos hstop, if_neg hgo, List.forall_mem_singleton, List.forall_mem_singleton, hfirst]

end AppConfig

/-- **Every name is read into its own buffer exactly if none of the lengths is the greatest
`size_t`.** -/
theorem names_inBounds_iff (p : Platform) (mem : Uninitialised) (old : AppConfig)
    (bytes : List UInt8) :
    (∀ r ∈ (old.read p mem { rest := bytes }).strings, r.InBounds) ↔
      ∀ size ∈ nameLengths p mem bytes, size + 1 ≠ 256 ^ p.sizeT := by
  obtain ⟨f, hend, hrest, hstrings, -⟩ := AppConfig.read_eq (p := p) bytes old mem
  rw [hstrings]
  exact AppConfig.readNames_inBounds_iff mem hend hrest

/-- A file with one name, whose length is the greatest `size_t`, and nothing behind it. -/
def greatestLength : List UInt8 :=
  List.replicate countOffset 0 ++ (1 :: List.replicate 7 0) ++ List.replicate 8 255

theorem greatestLength_outside :
    ¬ ∀ (mem : Uninitialised) (old : AppConfig) (bytes : List UInt8),
      ∀ r ∈ (old.read .x64 mem { rest := bytes }).strings, r.InBounds := by
  intro hclaim
  have hin := hclaim zeroMemory oneName greatestLength
  obtain ⟨f, hend, hrest, hstrings, -⟩ :=
    AppConfig.read_eq (p := .x64) greatestLength oneName zeroMemory
  rw [hstrings] at hin
  have hlengths := (AppConfig.readNames_inBounds_iff zeroMemory hend hrest).mp hin
  exact hlengths (2 ^ 64 - 1) (by decide) (by decide)

end NetShare
