import StackComputer.Port

/-!
What the host sends to the console: bytes of standard input and of arguments,
each with a type that tells them apart.
-/

namespace StackComputer

inductive ByteType where
  | input
  | argument
  | separator
  | last
  deriving DecidableEq, Repr

def ByteType.code : ByteType → Byte
  | .input => 1
  | .argument => 2
  | .separator => 3
  | .last => 4

structure ConsoleEvent where
  byte : Byte
  type : ByteType
  deriving DecidableEq, Repr

namespace ConsoleEvent

def newline : Byte := 0x0a

/-- Each argument is sent byte by byte and ends in a newline, whose type marks the last one. -/
def ofArguments : List (List Byte) → List ConsoleEvent
  | [] => []
  | [a] => a.map (⟨·, .argument⟩) ++ [⟨newline, .last⟩]
  | a :: b :: rest =>
      a.map (⟨·, .argument⟩) ++ ⟨newline, .separator⟩ :: ofArguments (b :: rest)

def store (e : ConsoleEvent) (p : Ports) : Ports :=
  (p.write Port.consoleByte e.byte).write Port.consoleType e.type.code

end ConsoleEvent

def utf8Bytes (s : String) : List Byte :=
  s.toUTF8.data.toList

end StackComputer
