import StackComputer.Instruction
import StackComputer.Stack

/-!
What an operation does once it has its operands.

An action does not depend on the machine, only on the operands and the bytes
after the instruction.  Values are computed as shorts in either width; a byte
cell keeps the low byte.
-/

namespace StackComputer

inductive Action where
  | stop
  | fail (cause : Cause)
  | push (cells : List Cell)
  | stash (cell : Cell)
  | load (address : Short)
  | store (address value : Short)
  | input (port : Byte)
  | output (port : Byte) (value : Short)
  deriving DecidableEq, Repr

def Cell.ofBool (b : Bool) : Cell :=
  ⟨.byte, if b then 1 else 0⟩

/-- A right shift by the low nibble of `amount`, then a left shift by the high one. -/
def shift (v amount : Short) : Short :=
  (v >>> (amount % 16)) <<< (amount / 16)

def Op.action (w : Width) (x : Arguments) : Op → Action
  | .brk => .stop
  | .jci | .jmi | .jmp | .jcn | .pop => .push []
  | .jsi => .stash ⟨.short, x.next + 2⟩
  | .jsr => .stash ⟨.short, x.next⟩
  | .sth => .stash ⟨w, x.first⟩
  | .lit => .push [match w with
      | .byte => ⟨.byte, x.inlined.hi.toUInt16⟩
      | .short => ⟨.short, x.inlined⟩]
  | .inc => .push [⟨w, x.first + 1⟩]
  | .nip => .push [⟨w, x.first⟩]
  | .swp => .push [⟨w, x.first⟩, ⟨w, x.second⟩]
  | .rot => .push [⟨w, x.second⟩, ⟨w, x.first⟩, ⟨w, x.third⟩]
  | .dup => .push [⟨w, x.first⟩, ⟨w, x.first⟩]
  | .ovr => .push [⟨w, x.second⟩, ⟨w, x.first⟩, ⟨w, x.second⟩]
  | .equ => .push [.ofBool (x.second == x.first)]
  | .neq => .push [.ofBool (x.second != x.first)]
  | .gth => .push [.ofBool (x.first < x.second)]
  | .lth => .push [.ofBool (x.second < x.first)]
  | .ldz | .lda => .load x.first
  | .ldr => .load (x.next + Byte.signExtend x.first.lo)
  | .stz | .sta => .store x.first x.second
  | .str => .store (x.next + Byte.signExtend x.first.lo) x.second
  | .dei => .input x.first.lo
  | .deo => .output x.first.lo x.second
  | .add => .push [⟨w, x.second + x.first⟩]
  | .sub => .push [⟨w, x.second - x.first⟩]
  | .mul => .push [⟨w, x.second * x.first⟩]
  | .div => if x.first = 0 then .fail .divideByZero else .push [⟨w, x.second / x.first⟩]
  | .and => .push [⟨w, x.second &&& x.first⟩]
  | .ora => .push [⟨w, x.second ||| x.first⟩]
  | .eor => .push [⟨w, x.second ^^^ x.first⟩]
  | .sft => .push [⟨w, shift x.second x.first⟩]

end StackComputer
