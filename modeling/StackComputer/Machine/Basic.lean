import StackComputer.Memory.Ports
import StackComputer.Memory.Ram
import StackComputer.Stack

/-!
The processor's state: memory, ports with their masks, and the working and the
return stack.
-/

namespace StackComputer

structure Machine where
  ram : Ram
  ports : Ports
  inputs : Mask
  outputs : Mask
  wst : Stack
  rst : Stack
  deriving DecidableEq, Repr

namespace Machine

def fresh : Machine := ⟨.zero, .zero, .none, .none, .empty, .empty⟩

instance : Inhabited Machine := ⟨fresh⟩

/-- The return stack if `r` is set, the working stack otherwise. -/
def stack (m : Machine) (r : Bool) : Stack :=
  if r then m.rst else m.wst

def setHeight (m : Machine) (r : Bool) (n : Nat) : Machine :=
  match m, r with
  | ⟨ram, ports, inputs, outputs, wst, rst⟩, false =>
      ⟨ram, ports, inputs, outputs, wst.setHeight n, rst⟩
  | ⟨ram, ports, inputs, outputs, wst, rst⟩, true =>
      ⟨ram, ports, inputs, outputs, wst, rst.setHeight n⟩

def pushCells (m : Machine) (r : Bool) (cells : List Cell) : Except Cause Unit × Machine :=
  match m, r with
  | ⟨ram, ports, inputs, outputs, wst, rst⟩, false =>
      let (result, wst) := wst.pushCells cells
      (result, ⟨ram, ports, inputs, outputs, wst, rst⟩)
  | ⟨ram, ports, inputs, outputs, wst, rst⟩, true =>
      let (result, rst) := rst.pushCells cells
      (result, ⟨ram, ports, inputs, outputs, wst, rst⟩)

def load (m : Machine) (program : Array Byte) : Machine :=
  { m with ram := .ofProgram program }

def connect (m : Machine) (slot : Byte) (inputs outputs : Short) : Machine :=
  { m with inputs := m.inputs.set slot inputs, outputs := m.outputs.set slot outputs }

/-- While this port is not zero, no evaluation starts. -/
def haltPort : Byte := 0x0f

def halted (m : Machine) : Bool :=
  m.ports.read haltPort != 0

def writePort (m : Machine) (i v : Byte) : Machine :=
  { m with ports := m.ports.write i v }

def writeCell (m : Machine) (w : Width) (a v : Short) : Machine :=
  { m with ram := m.ram.writeCell w a v }

end Machine

end StackComputer
