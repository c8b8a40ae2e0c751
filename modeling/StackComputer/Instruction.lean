import StackComputer.Word

/-!
The instruction set.

The low five bits of an instruction byte choose one of 31 operations and the
high three bits its mode.  Where the low five bits are zero the high three
choose between stopping, the three jumps with an inline distance, and the
literals.

An operation is described by three tables: the cells that it takes from its
stack (`Op.operands`), what it then does (`Op.action`) and where it goes on
(`Op.following`).
-/

namespace StackComputer

inductive Op where
  | brk | jci | jmi | jsi | lit
  | inc | pop | nip | swp | rot | dup | ovr
  | equ | neq | gth | lth
  | jmp | jcn | jsr | sth
  | ldz | stz | ldr | str | lda | sta | dei | deo
  | add | sub | mul | div | and | ora | eor | sft
  deriving DecidableEq, Repr

/--
The mode of an instruction: the width of its cells, whether its operands stay
on the stack, and whether it works on the return stack.
-/
structure Mode where
  width : Width
  keep : Bool
  onReturn : Bool
  deriving DecidableEq, Repr

structure Instruction where
  op : Op
  mode : Mode
  deriving DecidableEq, Repr

namespace Instruction

def table : Vector Op 32 :=
  #v[.brk, .inc, .pop, .nip, .swp, .rot, .dup, .ovr,
     .equ, .neq, .gth, .lth, .jmp, .jcn, .jsr, .sth,
     .ldz, .stz, .ldr, .str, .lda, .sta, .dei, .deo,
     .add, .sub, .mul, .div, .and, .ora, .eor, .sft]

def widthOf (b : Byte) : Width :=
  if b &&& 0x20 = 0 then .byte else .short

def decode (b : Byte) : Instruction :=
  if b % 32 = 0 then
    if b = 0x00 then ⟨.brk, ⟨.byte, false, false⟩⟩
    else if b = 0x20 then ⟨.jci, ⟨.byte, false, false⟩⟩
    else if b = 0x40 then ⟨.jmi, ⟨.byte, false, false⟩⟩
    else if b = 0x60 then ⟨.jsi, ⟨.byte, false, false⟩⟩
    else ⟨.lit, ⟨widthOf b, false, b &&& 0x40 ≠ 0⟩⟩
  else
    have : b.toNat % 32 < 32 := Nat.mod_lt _ (by decide)
    ⟨table[b.toNat % 32], ⟨widthOf b, b &&& 0x80 ≠ 0, b &&& 0x40 ≠ 0⟩⟩

end Instruction

/--
What an operation works on: the address after the instruction byte, the short
stored there, and the operands, of which the first is the topmost.
-/
structure Arguments where
  next : Short
  inlined : Short
  first : Short
  second : Short
  third : Short
  deriving DecidableEq, Repr

/-- Operands that are not there count as 0; no operation looks at one of those. -/
def Arguments.ofList (next inlined : Short) (values : List Short) : Arguments :=
  ⟨next, inlined, values.getD 0 0, values.getD 1 0, values.getD 2 0⟩

/-- A jump goes to an absolute short, or by a signed byte from the next instruction. -/
def jumpTarget (w : Width) (next v : Short) : Short :=
  match w with
  | .byte => next + Byte.signExtend v.lo
  | .short => v

namespace Op

/-- The widths of the cells that an operation takes from its stack, topmost first. -/
def operands (w : Width) : Op → List Width
  | .brk | .jmi | .jsi | .lit => []
  | .jci | .ldz | .ldr | .dei => [.byte]
  | .lda => [.short]
  | .inc | .pop | .dup | .jmp | .jsr | .sth => [w]
  | .jcn => [w, .byte]
  | .stz | .str | .deo | .sft => [.byte, w]
  | .sta => [.short, w]
  | .rot => [w, w, w]
  | .nip | .swp | .ovr | .equ | .neq | .gth | .lth
  | .add | .sub | .mul | .div | .and | .ora | .eor => [w, w]

def following (w : Width) (x : Arguments) : Op → Short
  | .jci => if x.first = 0 then x.next + 2 else x.next + 2 + x.inlined
  | .jmi | .jsi => x.next + 2 + x.inlined
  | .lit => match w with
      | .byte => x.next + 1
      | .short => x.next + 2
  | .jmp | .jsr => jumpTarget w x.next x.first
  | .jcn => if x.second = 0 then x.next else jumpTarget w x.next x.first
  | _ => x.next

end Op

end StackComputer
