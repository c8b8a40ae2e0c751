import StackComputer.Word

/-!
Port memory and the masks that say which ports have a device behind them.

There are 256 ports in 16 slots of 16.  A mask has one bit per port of a slot;
a clear bit means that the port is plain storage.
-/

namespace StackComputer

structure Ports where
  bytes : Vector Byte 256
  deriving DecidableEq, Repr

namespace Ports

def zero : Ports := ⟨Vector.replicate 256 0⟩

instance : Inhabited Ports := ⟨zero⟩

def read (p : Ports) (i : Byte) : Byte :=
  have : i.toNat < 256 := i.toNat_lt
  p.bytes[i.toNat]

def write (p : Ports) (i : Byte) (v : Byte) : Ports :=
  ⟨p.bytes.set i.toNat v i.toNat_lt⟩

def readShort (p : Ports) (i : Byte) : Short :=
  .ofBytes (p.read i) (p.read (i + 1))

def writeShort (p : Ports) (i : Byte) (v : Short) : Ports :=
  (p.write i v.hi).write (i + 1) v.lo

def readBytes (p : Ports) (i : Byte) : Nat → List Byte
  | 0 => []
  | n + 1 => p.read i :: p.readBytes (i + 1) n

def slotSize : Nat := 16

def slotBase (i : Byte) : Byte := i / 16 * 16

def slot (p : Ports) (i : Byte) : List Byte :=
  p.readBytes (slotBase i) slotSize

theorem read_write (p : Ports) (i j : Byte) (v : Byte) :
    (p.write i v).read j = if i = j then v else p.read j := by
  simp only [read, write, Vector.getElem_set, UInt8.toNat_inj]

@[simp] theorem read_write_self (p : Ports) (i : Byte) (v : Byte) : (p.write i v).read i = v := by
  simp [read_write]

theorem read_write_ne (p : Ports) {i j : Byte} (v : Byte) (h : i ≠ j) :
    (p.write i v).read j = p.read j := by
  simp [read_write, h]

@[simp] theorem read_zero (i : Byte) : zero.read i = 0 := by
  simp [read, zero]

theorem readShort_writeShort (p : Ports) (i : Byte) (v : Short) :
    (p.writeShort i v).readShort i = v := by
  have hne : i + 1 ≠ i := by
    rw [ne_eq, ← UInt8.toNat_inj, UInt8.toNat_add]
    change ¬(i.toNat + 1) % 256 = i.toNat
    omega
  rw [readShort, writeShort, read_write_ne _ _ hne, read_write_self, read_write_self,
    Short.ofBytes_hi_lo]

theorem ext_read {p q : Ports} (h : ∀ i, p.read i = q.read i) : p = q := by
  obtain ⟨p⟩ := p
  obtain ⟨q⟩ := q
  congr 1
  apply Vector.ext
  intro i hi
  have := h (UInt8.ofNatLT i hi)
  simpa only [read, UInt8.toNat_ofNatLT] using this

end Ports

/-- One mask per slot; bit `k` of a mask stands for port `k` of its slot. -/
structure Mask where
  slots : Vector Short 16
  deriving DecidableEq, Repr

namespace Mask

def none : Mask := ⟨Vector.replicate 16 0⟩

def all : Mask := ⟨Vector.replicate 16 0xffff⟩

instance : Inhabited Mask := ⟨none⟩

/-- The mask of a slot; of the slot's number only the low four bits count. -/
def get (m : Mask) (slot : Byte) : Short :=
  have : slot.toNat % 16 < 16 := slot.toNat_mod_lt
  m.slots[slot.toNat % 16]

def set (m : Mask) (slot : Byte) (bits : Short) : Mask :=
  ⟨m.slots.set (slot.toNat % 16) bits slot.toNat_mod_lt⟩

def test (m : Mask) (i : Byte) : Bool :=
  (m.get (i / 16)).toNat.testBit (i.toNat % 16)

theorem get_set (m : Mask) (s t : Byte) (bits : Short) :
    (m.set s bits).get t = if s.toNat % 16 = t.toNat % 16 then bits else m.get t := by
  simp only [get, set, Vector.getElem_set]

@[simp] theorem test_none (i : Byte) : none.test i = false := by
  simp [test, get, none]

@[simp] theorem test_all (i : Byte) : all.test i = true := by
  have hbits : ∀ k < 16, (0xffff : Short).toNat.testBit k = true := by decide
  simpa [test, get, all] using hbits _ i.toNat_mod_lt

end Mask

end StackComputer
