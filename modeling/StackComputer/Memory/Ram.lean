import StackComputer.Word

/-!
Main memory: 64 KiB addressed by a short, so that addresses wrap around by
themselves.
-/

namespace StackComputer

structure Ram where
  bytes : Vector Byte 65536
  deriving DecidableEq, Repr

namespace Ram

def zero : Ram := ⟨Vector.replicate 65536 0⟩

instance : Inhabited Ram := ⟨zero⟩

def read (r : Ram) (a : Short) : Byte :=
  have : a.toNat < 65536 := a.toNat_lt
  r.bytes[a.toNat]

def write (r : Ram) (a : Short) (v : Byte) : Ram :=
  ⟨r.bytes.set a.toNat v a.toNat_lt⟩

def readShort (r : Ram) (a : Short) : Short :=
  .ofBytes (r.read a) (r.read (a + 1))

def writeShort (r : Ram) (a : Short) (v : Short) : Ram :=
  (r.write a v.hi).write (a + 1) v.lo

def readCell (r : Ram) (w : Width) (a : Short) : Short :=
  match w with
  | .byte => (r.read a).toUInt16
  | .short => r.readShort a

def writeCell (r : Ram) (w : Width) (a : Short) (v : Short) : Ram :=
  match w with
  | .byte => r.write a v.lo
  | .short => r.writeShort a v

def programStart : Short := 0x0100

def programRoom : Nat := 0xff00

/-- Memory that holds `program` and nothing else.  What finds no room is dropped. -/
def ofProgram (program : Array Byte) : Ram :=
  ⟨.ofFn fun i => if i.val < 256 then 0 else program.getD (i.val - 256) 0⟩

def excess (program : Array Byte) : Array Byte :=
  program.extract programRoom

def writeBytes : Ram → Short → List Byte → Ram
  | r, _, [] => r
  | r, a, b :: bs => writeBytes (r.write a b) (a + 1) bs

def readBytes (r : Ram) (a : Short) : Nat → List Byte
  | 0 => []
  | n + 1 => r.read a :: r.readBytes (a + 1) n

theorem read_write (r : Ram) (a b : Short) (v : Byte) :
    (r.write a v).read b = if a = b then v else r.read b := by
  simp only [read, write, Vector.getElem_set, UInt16.toNat_inj]

@[simp] theorem read_write_self (r : Ram) (a : Short) (v : Byte) : (r.write a v).read a = v := by
  simp [read_write]

theorem read_write_ne (r : Ram) {a b : Short} (v : Byte) (h : a ≠ b) :
    (r.write a v).read b = r.read b := by
  simp [read_write, h]

@[simp] theorem read_zero (a : Short) : zero.read a = 0 := by
  simp [read, zero]

theorem ext_read {r s : Ram} (h : ∀ a, r.read a = s.read a) : r = s := by
  obtain ⟨r⟩ := r
  obtain ⟨s⟩ := s
  congr 1
  apply Vector.ext
  intro i hi
  have := h (UInt16.ofNatLT i hi)
  simpa only [read, UInt16.toNat_ofNatLT] using this

/-! ## Bytes in a row -/

theorem toNat_sub_eq_succ {a x : Short} (h : a ≠ x) :
    (x - a).toNat = (x - (a + 1)).toNat + 1 := by
  have ha := a.toNat_lt
  have hx := x.toNat_lt
  rw [Ne, ← UInt16.toNat_inj] at h
  rw [UInt16.toNat_sub, UInt16.toNat_sub, UInt16.toNat_add]
  change _ = (2 ^ 16 - (a.toNat + 1) % 2 ^ 16 + x.toNat) % 2 ^ 16 + 1
  omega

theorem toNat_sub_succ_self (a : Short) : (a - (a + 1)).toNat = 65535 := by
  have ha := a.toNat_lt
  rw [UInt16.toNat_sub, UInt16.toNat_add]
  change (2 ^ 16 - (a.toNat + 1) % 2 ^ 16 + a.toNat) % 2 ^ 16 = _
  omega

theorem read_writeBytes {bs : List Byte} (hbs : bs.length ≤ 65536) (a : Short) (r : Ram)
    (x : Short) : (r.writeBytes a bs).read x = bs.getD (x - a).toNat (r.read x) := by
  induction bs generalizing a r with
  | nil => rfl
  | cons b bs ih =>
      have hlength : bs.length < 65536 := hbs
      rw [writeBytes, ih (by omega), read_write]
      by_cases hx : a = x
      · subst hx
        rw [if_pos rfl, toNat_sub_succ_self, List.getD_eq_getElem?_getD,
          List.getElem?_eq_none (by omega), UInt16.sub_self]
        rfl
      · rw [if_neg hx, toNat_sub_eq_succ hx, List.getD_cons_succ]

theorem ofProgram_eq_writeBytes {program : Array Byte} (h : program.size ≤ programRoom) :
    ofProgram program = zero.writeBytes programStart program.toList := by
  have hroom : program.size ≤ 65280 := h
  apply ext_read
  intro x
  have hlt := x.toNat_lt
  have hsub : (x - programStart).toNat = (65280 + x.toNat) % 65536 := UInt16.toNat_sub x 0x0100
  rw [read_writeBytes (show program.size ≤ 65536 by omega), read_zero, hsub]
  simp only [read, ofProgram, Vector.getElem_ofFn, List.getD_eq_getElem?_getD,
    Array.getD_eq_getD_getElem?, Array.getElem?_toList]
  split
  · have hnone : program[(65280 + x.toNat) % 65536]? = none :=
      Array.getElem?_eq_none (by omega)
    rw [hnone, Option.getD_none]
  · have hindex : (65280 + x.toNat) % 65536 = x.toNat - 256 := by omega
    rw [hindex]

end Ram

end StackComputer
