import Mathlib.Logic.ExistsUnique
import StackComputer.Instruction
import StackComputer.Port

/-!
# The bytes of the instructions

Which byte stands for which instruction, bit by bit and without regard to how a
byte is decoded.  The operations with modes have numbers from 1 to 31, which
fill the low five bits; bit 5 is the short flag, bit 6 the return flag and bit 7
the keep flag.  Where the low five bits are 0 the byte is a literal if bit 7 is
set, and else one of four instructions without modes.
-/

namespace StackComputer

namespace Op

def number : Op → Nat
  | .brk | .jci | .jmi | .jsi | .lit => 0
  | .inc => 1
  | .pop => 2
  | .nip => 3
  | .swp => 4
  | .rot => 5
  | .dup => 6
  | .ovr => 7
  | .equ => 8
  | .neq => 9
  | .gth => 10
  | .lth => 11
  | .jmp => 12
  | .jcn => 13
  | .jsr => 14
  | .sth => 15
  | .ldz => 16
  | .stz => 17
  | .ldr => 18
  | .str => 19
  | .lda => 20
  | .sta => 21
  | .dei => 22
  | .deo => 23
  | .add => 24
  | .sub => 25
  | .mul => 26
  | .div => 27
  | .and => 28
  | .ora => 29
  | .eor => 30
  | .sft => 31

theorem number_lt (op : Op) : op.number < 32 := by
  cases op <;> decide

end Op

namespace Instruction

def flaggedWidth (b : Byte) : Width :=
  if b.bit 5 then .short else .byte

/-- `i.HasByte b`: the byte `b` stands for the instruction `i`. -/
inductive HasByte : Instruction → Byte → Prop
  | brk : HasByte ⟨.brk, ⟨.byte, false, false⟩⟩ 0x00
  | jci : HasByte ⟨.jci, ⟨.byte, false, false⟩⟩ 0x20
  | jmi : HasByte ⟨.jmi, ⟨.byte, false, false⟩⟩ 0x40
  | jsi : HasByte ⟨.jsi, ⟨.byte, false, false⟩⟩ 0x60
  | lit {b : Byte} (hlow : b.toNat % 32 = 0) (hhigh : b.bit 7) :
      HasByte ⟨.lit, ⟨flaggedWidth b, false, b.bit 6⟩⟩ b
  | moded {op : Op} {b : Byte} (hop : op.number ≠ 0) (hlow : b.toNat % 32 = op.number) :
      HasByte ⟨op, ⟨flaggedWidth b, b.bit 7, b.bit 6⟩⟩ b

/-! ## Decoding -/

theorem table_of_number {op : Op} (hop : op.number ≠ 0) {n : Nat} (hn : n < 32)
    (h : n = op.number) : table[n] = op := by
  subst h
  cases op <;> first | rfl | exact absurd rfl hop

theorem number_table {n : Nat} (hn : n < 32) : table[n].number = n := by
  revert n
  decide

theorem widthOf_eq_flaggedWidth (b : Byte) : widthOf b = flaggedWidth b := by
  revert b
  apply Byte.forall_ofNat
  decide +kernel

theorem keepFlag_eq_bit (b : Byte) : decide (b &&& 0x80 ≠ 0) = b.bit 7 := by
  revert b
  apply Byte.forall_ofNat
  decide +kernel

theorem returnFlag_eq_bit (b : Byte) : decide (b &&& 0x40 ≠ 0) = b.bit 6 := by
  revert b
  apply Byte.forall_ofNat
  decide +kernel

theorem mod_eq_zero_iff {b : Byte} : b % 32 = 0 ↔ b.toNat % 32 = 0 := by
  rw [← UInt8.toNat_inj, UInt8.toNat_mod]
  rfl

theorem bit_iff_not_mem {b : Byte} (hlow : b.toNat % 32 = 0) :
    b.bit 7 ↔ b ∉ [0x00, 0x20, 0x40, 0x60] := by
  revert hlow
  revert b
  apply Byte.forall_ofNat
  decide +kernel

theorem decode_lit {b : Byte} (hlow : b.toNat % 32 = 0) (hhigh : b.bit 7) :
    decode b = ⟨.lit, ⟨flaggedWidth b, false, b.bit 6⟩⟩ := by
  have hmem := (bit_iff_not_mem hlow).mp hhigh
  simp only [List.mem_cons, List.not_mem_nil, or_false, not_or] at hmem
  obtain ⟨hbrk, hjci, hjmi, hjsi⟩ := hmem
  rw [decode, if_pos (mod_eq_zero_iff.mpr hlow), if_neg hbrk, if_neg hjci, if_neg hjmi,
    if_neg hjsi, widthOf_eq_flaggedWidth, returnFlag_eq_bit]

theorem decode_moded {b : Byte} (hlow : b.toNat % 32 ≠ 0) (hlt : b.toNat % 32 < 32) :
    decode b = ⟨table[b.toNat % 32], ⟨flaggedWidth b, b.bit 7, b.bit 6⟩⟩ := by
  rw [decode, if_neg (mt mod_eq_zero_iff.mp hlow)]
  dsimp only
  rw [widthOf_eq_flaggedWidth, keepFlag_eq_bit, returnFlag_eq_bit]

theorem hasByte_decode (b : Byte) : (decode b).HasByte b := by
  by_cases hlow : b.toNat % 32 = 0
  · by_cases hhigh : b.bit 7
    · rw [decode_lit hlow hhigh]
      exact .lit hlow hhigh
    · have hmem := Decidable.not_not.mp (mt (bit_iff_not_mem hlow).mpr hhigh)
      simp only [List.mem_cons, List.not_mem_nil, or_false] at hmem
      obtain rfl | rfl | rfl | rfl := hmem
      · exact .brk
      · exact .jci
      · exact .jmi
      · exact .jsi
  · have hlt : b.toNat % 32 < 32 := Nat.mod_lt _ (by decide)
    have hnumber := number_table hlt
    rw [decode_moded hlow hlt]
    exact .moded (hnumber.symm ▸ hlow) hnumber.symm

/-- The bits of a byte give the operation, the width and the other flags that it decodes to. -/
theorem hasByte_iff {i : Instruction} {b : Byte} : i.HasByte b ↔ decode b = i := by
  constructor
  · intro h
    cases h with
    | brk => rfl
    | jci => rfl
    | jmi => rfl
    | jsi => rfl
    | lit hlow hhigh => exact decode_lit hlow hhigh
    | @moded op _ hop hlow =>
        rw [decode_moded (hlow ▸ hop) (hlow ▸ op.number_lt), table_of_number hop _ hlow]
  · rintro rfl
    exact hasByte_decode b

theorem existsUnique_hasByte (b : Byte) : ∃! i : Instruction, i.HasByte b :=
  ⟨decode b, hasByte_decode b, fun _ h => (hasByte_iff.mp h).symm⟩

end Instruction

end StackComputer
