import StackComputer.Machine.Basic

/-!
The bus between the processor and its devices.

A device is what answers on the masked ports and what hears of faults.  It acts
on the whole configuration, so it may change the machine and may start another
evaluation.
-/

namespace StackComputer

structure Config (σ : Type) where
  machine : Machine
  device : σ
  deriving DecidableEq, Repr

/--
`input` answers a read of a port.  `output` is told of a write after the byte
has been stored.  `halt` is told of a fault and decides the result of the
evaluation that it ends.
-/
structure Device (σ : Type) where
  input : Byte → Config σ → Byte × Config σ
  output : Byte → Config σ → Config σ
  halt : Fault → Config σ → Bool × Config σ

def Device.inert : Device Unit where
  input i c := (c.machine.ports.read i, c)
  output _ c := c
  halt _ c := (false, c)

namespace Config

variable {σ : Type}

def pushCells (c : Config σ) (r : Bool) (cells : List Cell) : Except Cause Unit × Config σ :=
  match c with
  | ⟨m, d⟩ =>
      let (result, m) := m.pushCells r cells
      (result, ⟨m, d⟩)

def setHeight (c : Config σ) (r : Bool) (n : Nat) : Config σ :=
  match c with
  | ⟨m, d⟩ => ⟨m.setHeight r n, d⟩

def writeCell (c : Config σ) (w : Width) (a v : Short) : Config σ :=
  match c with
  | ⟨m, d⟩ => ⟨m.writeCell w a v, d⟩

def input (dev : Device σ) (i : Byte) (c : Config σ) : Byte × Config σ :=
  if c.machine.inputs.test i then dev.input i c
  else (c.machine.ports.read i, c)

/-- A write to port `i`: the byte is stored, then the device is told if the output mask says so. -/
def output (dev : Device σ) (i v : Byte) (c : Config σ) : Config σ :=
  match c with
  | ⟨m, d⟩ =>
      let m := m.writePort i v
      if m.outputs.test i then dev.output i ⟨m, d⟩ else ⟨m, d⟩

/-- A short is read from port `i` and then the next one, high byte first. -/
def inputCell (dev : Device σ) (w : Width) (i : Byte) (c : Config σ) : Short × Config σ :=
  match w with
  | .byte =>
      let (v, c) := c.input dev i
      (v.toUInt16, c)
  | .short =>
      let (hi, c) := c.input dev i
      let (lo, c) := c.input dev (i + 1)
      (.ofBytes hi lo, c)

def outputCell (dev : Device σ) (w : Width) (i : Byte) (v : Short) (c : Config σ) : Config σ :=
  match w with
  | .byte => c.output dev i v.lo
  | .short => (c.output dev i v.hi).output dev (i + 1) v.lo

end Config

end StackComputer
