import StackComputer.Instruction.Action
import StackComputer.Machine.Device

/-!
One instruction: fetch, take the operands, act.

Operands are taken before anything else happens, so a missing one leaves memory
and devices as they were.  The cells that were there have been popped by then,
unless the instruction keeps its operands.
-/

namespace StackComputer

inductive Outcome where
  | next (address : Short)
  | stop
  | fault (cause : Cause)
  deriving DecidableEq, Repr

def Outcome.ofPush (address : Short) : Except Cause Unit → Outcome
  | .ok () => .next address
  | .error e => .fault e

namespace Config

variable {σ : Type}

def act (dev : Device σ) (mode : Mode) (next : Short) (c : Config σ) :
    Action → Outcome × Config σ
  | .stop => (.stop, c)
  | .fail e => (.fault e, c)
  | .push cells =>
      let (result, c) := c.pushCells mode.onReturn cells
      (.ofPush next result, c)
  | .stash cell =>
      let (result, c) := c.pushCells (!mode.onReturn) [cell]
      (.ofPush next result, c)
  | .load a =>
      let v := c.machine.ram.readCell mode.width a
      let (result, c) := c.pushCells mode.onReturn [⟨mode.width, v⟩]
      (.ofPush next result, c)
  | .store a v => (.next next, c.writeCell mode.width a v)
  | .input i =>
      let (v, c) := c.inputCell dev mode.width i
      let (result, c) := c.pushCells mode.onReturn [⟨mode.width, v⟩]
      (.ofPush next result, c)
  | .output i v => (.next next, c.outputCell dev mode.width i v)

/-- Executes an instruction whose byte has been fetched; `next` is the address after it. -/
def execute (dev : Device σ) (i : Instruction) (next : Short) (c : Config σ) :
    Outcome × Config σ :=
  let found := (c.machine.stack i.mode.onReturn).operands (i.op.operands i.mode.width)
  let inlined := c.machine.ram.readShort next
  let c := if i.mode.keep then c else c.setHeight i.mode.onReturn found.height
  if found.complete then
    let x := Arguments.ofList next inlined found.values
    c.act dev i.mode (i.op.following i.mode.width x) (i.op.action i.mode.width x)
  else
    (.fault .underflow, c)

def step (dev : Device σ) (pc : Short) (c : Config σ) : Outcome × Config σ :=
  c.execute dev (.decode (c.machine.ram.read pc)) (pc + 1)

end Config

end StackComputer
