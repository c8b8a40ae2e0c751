/-!
Bytes and shorts, the two cell sizes of the machine.

A short is stored as two bytes, the high one first.  Splitting and joining are
written as arithmetic, so that their values in `Nat` are quotient, remainder
and sum.  As text both have a fixed number of lower-case hexadecimal digits.
-/

namespace StackComputer

abbrev Byte := UInt8

abbrev Short := UInt16

inductive Width where
  | byte
  | short
  deriving DecidableEq, Repr

def Width.size : Width → Nat
  | .byte => 1
  | .short => 2

namespace Short

def hi (w : Short) : Byte := (w / 256).toUInt8

def lo (w : Short) : Byte := w.toUInt8

def ofBytes (hi lo : Byte) : Short := hi.toUInt16 * 256 + lo.toUInt16

theorem toNat_hi (w : Short) : (hi w).toNat = w.toNat / 256 := by
  have := w.toNat_lt
  simp only [hi, UInt16.toNat_toUInt8, UInt16.toNat_div]
  change w.toNat / 256 % 2 ^ 8 = w.toNat / 256
  omega

theorem toNat_lo (w : Short) : (lo w).toNat = w.toNat % 256 := by
  simp [lo]

theorem toNat_ofBytes (h l : Byte) : (ofBytes h l).toNat = 256 * h.toNat + l.toNat := by
  have := h.toNat_lt
  have := l.toNat_lt
  simp only [ofBytes, UInt16.toNat_add, UInt16.toNat_mul, UInt8.toNat_toUInt16]
  change (h.toNat * 256 % 2 ^ 16 + l.toNat) % 2 ^ 16 = _
  omega

@[simp] theorem hi_ofBytes (h l : Byte) : hi (ofBytes h l) = h := by
  have := l.toNat_lt
  apply UInt8.toNat_inj.mp
  rw [toNat_hi, toNat_ofBytes]
  omega

@[simp] theorem lo_ofBytes (h l : Byte) : lo (ofBytes h l) = l := by
  have := l.toNat_lt
  apply UInt8.toNat_inj.mp
  rw [toNat_lo, toNat_ofBytes]
  omega

@[simp] theorem ofBytes_hi_lo (w : Short) : ofBytes (hi w) (lo w) = w := by
  apply UInt16.toNat_inj.mp
  rw [toNat_ofBytes, toNat_hi, toNat_lo]
  omega

theorem toNat_min (x y : Short) : (min x y).toNat = min x.toNat y.toNat := by
  change (if x ≤ y then x else y).toNat = _
  split
  · next h =>
      rw [UInt16.le_iff_toNat_le] at h
      omega
  · next h =>
      rw [UInt16.le_iff_toNat_le] at h
      omega

theorem toNat_max (x y : Short) : (max x y).toNat = max x.toNat y.toNat := by
  change (if x ≤ y then y else x).toNat = _
  split
  · next h =>
      rw [UInt16.le_iff_toNat_le] at h
      omega
  · next h =>
      rw [UInt16.le_iff_toNat_le] at h
      omega

end Short

theorem Byte.toNat_mod_lt (b : Byte) : b.toNat % 16 < 16 :=
  Nat.mod_lt _ (by decide)

theorem Byte.forall_ofNat {P : Byte → Prop} (h : ∀ n < 256, P (.ofNat n)) (b : Byte) : P b := by
  have hb := h b.toNat b.toNat_lt
  rwa [UInt8.ofNat_toNat] at hb

/-- The two's complement reading of a byte, as a short: from -128 to 127. -/
def Byte.signExtend (b : Byte) : Short :=
  if b < 128 then b.toUInt16 else b.toUInt16 - 256

/-! ## Digits -/

namespace Hex

def byte (b : Byte) : List Char :=
  [Nat.digitChar (b.toNat / 16), Nat.digitChar (b.toNat % 16)]

def short (w : Short) : List Char :=
  byte w.hi ++ byte w.lo

end Hex

end StackComputer
