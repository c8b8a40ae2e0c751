import StackComputer.Word

/-!
Faults: the reasons for which the processor gives up on an instruction.
-/

namespace StackComputer

inductive Cause where
  | underflow
  | overflow
  | divideByZero
  deriving DecidableEq, Repr

namespace Cause

def code : Cause → Byte
  | .underflow => 1
  | .overflow => 2
  | .divideByZero => 3

def message : Cause → String
  | .underflow => "stack underflow"
  | .overflow => "stack overflow"
  | .divideByZero => "division by zero"

end Cause

/-- A fault names its cause, the faulting instruction byte and where it was fetched from. -/
structure Fault where
  cause : Cause
  address : Short
  instruction : Byte
  deriving DecidableEq, Repr

def Fault.message (f : Fault) : String :=
  f.cause.message ++ " at 0x" ++ String.ofList (Hex.short f.address) ++
    " (instruction 0x" ++ String.ofList (Hex.byte f.instruction) ++ ")"

end StackComputer
