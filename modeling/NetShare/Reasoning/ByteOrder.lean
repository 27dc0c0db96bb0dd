import Mathlib.Algebra.Order.Ring.Nat
import Mathlib.Tactic.Common

/-!
# Fixed-width naturals as bytes

A natural stored in `w` bytes, least significant byte first or last.  Bits that do not fit are
dropped; what fits comes back.
-/

namespace Reasoning

inductive ByteOrder where
  | little
  | big
deriving DecidableEq

/-- The `w` low bytes of `n`, least significant first. -/
def bytesLE : Nat → Nat → List UInt8
  | 0, _ => []
  | w + 1, n => UInt8.ofNat n :: bytesLE w (n / 256)

def natLE : List UInt8 → Nat
  | [] => 0
  | b :: bs => b.toNat + 256 * natLE bs

@[simp] theorem bytesLE_length (w n : Nat) : (bytesLE w n).length = w := by
  induction w generalizing n with
  | zero => rfl
  | succ w ih => rw [bytesLE, List.length_cons, ih]

-- Reading the bytes back gives the number modulo the width.
theorem natLE_bytesLE (w n : Nat) : natLE (bytesLE w n) = n % 256 ^ w := by
  induction w generalizing n with
  | zero => rw [bytesLE, natLE, pow_zero, Nat.mod_one]
  | succ w ih =>
    have hlow : (UInt8.ofNat n).toNat = n % 256 := UInt8.toNat_ofNat'
    rw [bytesLE, natLE, ih, hlow, pow_succ', Nat.mod_mul]

-- Bytes that were read are the bytes of the number they stand for.
theorem bytesLE_natLE (bs : List UInt8) : bytesLE bs.length (natLE bs) = bs := by
  induction bs with
  | nil => rfl
  | cons b bs ih =>
    have hb : b.toNat < 256 := b.toNat_lt
    have hlow : UInt8.ofNat (b.toNat + 256 * natLE bs) = b := by
      apply UInt8.toNat_inj.mp
      rw [UInt8.toNat_ofNat']
      omega
    have hrest : (b.toNat + 256 * natLE bs) / 256 = natLE bs := by omega
    rw [natLE, List.length_cons, bytesLE, hlow, hrest, ih]

/-- The bytes of `n` in memory, in the given order. -/
def ByteOrder.bytes (o : ByteOrder) (w n : Nat) : List UInt8 :=
  match o with
  | .little => bytesLE w n
  | .big => (bytesLE w n).reverse

/-- The natural that the bytes in memory stand for. -/
def ByteOrder.nat (o : ByteOrder) (bs : List UInt8) : Nat :=
  match o with
  | .little => natLE bs
  | .big => natLE bs.reverse

@[simp] theorem ByteOrder.bytes_length (o : ByteOrder) (w n : Nat) :
    (o.bytes w n).length = w := by
  cases o
  · exact bytesLE_length w n
  · rw [ByteOrder.bytes, List.length_reverse, bytesLE_length]

-- The byte order does not matter as long as both sides use the same.
theorem ByteOrder.nat_bytes (o : ByteOrder) (w n : Nat) : o.nat (o.bytes w n) = n % 256 ^ w := by
  cases o
  · exact natLE_bytesLE w n
  · rw [ByteOrder.bytes, ByteOrder.nat, List.reverse_reverse, natLE_bytesLE]

theorem ByteOrder.nat_bytes_of_lt (o : ByteOrder) {w n : Nat} (h : n < 256 ^ w) :
    o.nat (o.bytes w n) = n := by
  rw [nat_bytes, Nat.mod_eq_of_lt h]

theorem ByteOrder.bytes_nat (o : ByteOrder) (bs : List UInt8) :
    o.bytes bs.length (o.nat bs) = bs := by
  cases o
  · exact bytesLE_natLE bs
  · rw [ByteOrder.bytes, ByteOrder.nat, ← List.length_reverse, bytesLE_natLE, List.reverse_reverse]

theorem ByteOrder.nat_lt (o : ByteOrder) (bs : List UInt8) : o.nat bs < 256 ^ bs.length := by
  have hmod := o.nat_bytes bs.length (o.nat bs)
  rw [bytes_nat] at hmod
  rw [hmod]
  exact Nat.mod_lt _ (Nat.pow_pos (by decide))

end Reasoning
