import StackComputer.Proofs.Machine.Invariant
import StackComputer.Proofs.Safety.Storage

/-!
# The checked processor

The processor runs with checked stacks and memory and with a device whose own
answers are checked.  If these agree with a plain device as long as some
property of the device's state holds, and the plain device keeps this property,
then no evaluation panics.
-/

namespace StackComputer

structure CheckedDevice (σ : Type) where
  input : Byte → Config σ → Checked (Byte × Config σ)
  output : Byte → Config σ → Checked (Config σ)
  halt : Fault → Config σ → Bool × Config σ

/-- While `Q` holds of the device's state, no reaction panics and all are those of `dev`. -/
structure CheckedDevice.Agrees {σ : Type} (checked : CheckedDevice σ) (dev : Device σ)
    (Q : σ → Prop) : Prop where
  input : ∀ i c, Q c.device → checked.input i c = .ok (dev.input i c)
  output : ∀ i c, Q c.device → checked.output i c = .ok (dev.output i c)
  halt : checked.halt = dev.halt
  keeps : dev.Keeps fun c => Q c.device

namespace Config.Checked

open StackComputer.Checked

variable {σ : Type}

def pushCells (c : Config σ) (r : Bool) (cells : List Cell) :
    Checked (Except Cause Unit × Config σ) :=
  match c, r with
  | ⟨⟨ram, ports, inputs, outputs, wst, rst⟩, d⟩, false => do
      let (result, wst) ← Stack.Checked.pushCells wst cells
      pure (result, ⟨⟨ram, ports, inputs, outputs, wst, rst⟩, d⟩)
  | ⟨⟨ram, ports, inputs, outputs, wst, rst⟩, d⟩, true => do
      let (result, rst) ← Stack.Checked.pushCells rst cells
      pure (result, ⟨⟨ram, ports, inputs, outputs, wst, rst⟩, d⟩)

def writeCell (c : Config σ) (w : Width) (a v : Short) : Checked (Config σ) := do
  let ram ← Ram.Checked.writeCell c.machine.ram w a v
  pure ⟨{ c.machine with ram := ram }, c.device⟩

def input (dev : CheckedDevice σ) (i : Byte) (c : Config σ) : Checked (Byte × Config σ) :=
  if c.machine.inputs.test i then dev.input i c
  else pure (c.machine.ports.read i, c)

def output (dev : CheckedDevice σ) (i v : Byte) (c : Config σ) : Checked (Config σ) :=
  match c with
  | ⟨m, d⟩ =>
      let m := m.writePort i v
      if m.outputs.test i then dev.output i ⟨m, d⟩ else pure ⟨m, d⟩

def inputCell (dev : CheckedDevice σ) (w : Width) (i : Byte) (c : Config σ) :
    Checked (Short × Config σ) :=
  match w with
  | .byte => do
      let (v, c) ← input dev i c
      pure (v.toUInt16, c)
  | .short => do
      let (hi, c) ← input dev i c
      let (lo, c) ← input dev (i + 1) c
      pure (.ofBytes hi lo, c)

def outputCell (dev : CheckedDevice σ) (w : Width) (i : Byte) (v : Short) (c : Config σ) :
    Checked (Config σ) :=
  match w with
  | .byte => output dev i v.lo c
  | .short => do
      let c ← output dev i v.hi c
      output dev (i + 1) v.lo c

def act (dev : CheckedDevice σ) (mode : Mode) (next : Short) (c : Config σ) :
    Action → Checked (Outcome × Config σ)
  | .stop => pure (.stop, c)
  | .fail e => pure (.fault e, c)
  | .push cells => do
      let (result, c) ← pushCells c mode.onReturn cells
      pure (.ofPush next result, c)
  | .stash cell => do
      let (result, c) ← pushCells c (!mode.onReturn) [cell]
      pure (.ofPush next result, c)
  | .load a => do
      let v ← Ram.Checked.readCell c.machine.ram mode.width a
      let (result, c) ← pushCells c mode.onReturn [⟨mode.width, v⟩]
      pure (.ofPush next result, c)
  | .store a v => do
      let c ← writeCell c mode.width a v
      pure (.next next, c)
  | .input i => do
      let (v, c) ← inputCell dev mode.width i c
      let (result, c) ← pushCells c mode.onReturn [⟨mode.width, v⟩]
      pure (.ofPush next result, c)
  | .output i v => do
      let c ← outputCell dev mode.width i v c
      pure (.next next, c)

def execute (dev : CheckedDevice σ) (i : Instruction) (next : Short) (c : Config σ) :
    Checked (Outcome × Config σ) := do
  let s := c.machine.stack i.mode.onReturn
  let found ← Stack.Checked.operandsBelow s (i.op.operands i.mode.width) s.height
  let inlined ← Ram.Checked.readShort c.machine.ram next
  let c := if i.mode.keep then c else c.setHeight i.mode.onReturn found.height
  if found.complete then
    let x := Arguments.ofList next inlined found.values
    act dev i.mode (i.op.following i.mode.width x) c (i.op.action i.mode.width x)
  else
    pure (.fault .underflow, c)

def step (dev : CheckedDevice σ) (pc : Short) (c : Config σ) : Checked (Outcome × Config σ) := do
  let instruction ← Ram.Checked.read c.machine.ram pc
  execute dev (.decode instruction) (pc + 1) c

def run (dev : CheckedDevice σ) : Nat → Short → Config σ → Checked (Option (Bool × Config σ))
  | 0, _, _ => pure none
  | fuel + 1, pc, c => do
      let instruction ← Ram.Checked.read c.machine.ram pc
      match ← step dev pc c with
      | (.next pc', c') => run dev fuel pc' c'
      | (.stop, c') => pure (some (true, c'))
      | (.fault cause, c') => pure (some (dev.halt ⟨cause, pc, instruction⟩ c'))

def eval (dev : CheckedDevice σ) (fuel : Nat) (pc : Short) (c : Config σ) :
    Checked (Option (Bool × Config σ)) :=
  if pc = 0 ∨ c.machine.halted then pure (some (false, c)) else run dev fuel pc c

/-! ## No evaluation panics -/

theorem pushCells_eq (c : Config σ) (r : Bool) (cells : List Cell) :
    pushCells c r cells = .ok (c.pushCells r cells) := by
  cases r with
  | false =>
      rw [pushCells, Stack.Checked.pushCells_eq]
      rfl
  | true =>
      rw [pushCells, Stack.Checked.pushCells_eq]
      rfl

theorem writeCell_eq (c : Config σ) (w : Width) (a v : Short) :
    writeCell c w a v = .ok (c.writeCell w a v) := by
  rw [writeCell, Ram.Checked.writeCell_eq]
  rfl

end Config.Checked

namespace CheckedDevice.Agrees

open StackComputer.Checked

variable {σ : Type} {checked : CheckedDevice σ} {dev : Device σ} {Q : σ → Prop} {c : Config σ}

theorem busInput (h : checked.Agrees dev Q) (i : Byte) (hc : Q c.device) :
    Config.Checked.input checked i c = .ok (c.input dev i) := by
  unfold Config.Checked.input Config.input
  split
  · exact h.input i c hc
  · rfl

theorem busOutput (h : checked.Agrees dev Q) (i v : Byte) (hc : Q c.device) :
    Config.Checked.output checked i v c = .ok (c.output dev i v) := by
  unfold Config.Checked.output Config.output
  dsimp only
  split
  · exact h.output i _ hc
  · rfl

theorem inputCell (h : checked.Agrees dev Q) (w : Width) (i : Byte) (hc : Q c.device) :
    Config.Checked.inputCell checked w i c = .ok (c.inputCell dev w i) := by
  cases w with
  | byte =>
      rw [Config.Checked.inputCell, h.busInput i hc]
      rfl
  | short =>
      have hfirst : Q (c.input dev i).2.device := h.keeps.input c i hc
      rw [Config.Checked.inputCell, h.busInput i hc, ok_bind]
      dsimp only
      rw [h.busInput (i + 1) hfirst]
      rfl

theorem outputCell (h : checked.Agrees dev Q) (w : Width) (i : Byte) (v : Short)
    (hc : Q c.device) :
    Config.Checked.outputCell checked w i v c = .ok (c.outputCell dev w i v) := by
  cases w with
  | byte => exact h.busOutput i v.lo hc
  | short =>
      have hfirst : Q (c.output dev i v.hi).device := h.keeps.output c i v.hi hc
      rw [Config.Checked.outputCell, h.busOutput i v.hi hc, ok_bind, h.busOutput _ _ hfirst]
      rfl

theorem act (h : checked.Agrees dev Q) (mode : Mode) (next : Short) (hc : Q c.device)
    (a : Action) : Config.Checked.act checked mode next c a = .ok (c.act dev mode next a) := by
  cases a with
  | stop => rfl
  | fail e => rfl
  | push cells =>
      rw [Config.Checked.act, Config.Checked.pushCells_eq]
      rfl
  | stash cell =>
      rw [Config.Checked.act, Config.Checked.pushCells_eq]
      rfl
  | load a =>
      rw [Config.Checked.act, Ram.Checked.readCell_eq, ok_bind, Config.Checked.pushCells_eq]
      rfl
  | store a v =>
      rw [Config.Checked.act, Config.Checked.writeCell_eq]
      rfl
  | input i =>
      rw [Config.Checked.act, h.inputCell mode.width i hc, ok_bind]
      dsimp only
      rw [Config.Checked.pushCells_eq]
      rfl
  | output i v =>
      rw [Config.Checked.act, h.outputCell mode.width i v hc]
      rfl

theorem execute (h : checked.Agrees dev Q) (i : Instruction) (next : Short) (hc : Q c.device) :
    Config.Checked.execute checked i next c = .ok (c.execute dev i next) := by
  have hpopped (n : Nat) :
      Q (if i.mode.keep then c else c.setHeight i.mode.onReturn n).device := by
    split
    · exact hc
    · exact h.keeps.setHeight c i.mode.onReturn n hc
  have hheight := (c.machine.stack i.mode.onReturn).height_le
  rw [Config.Checked.execute, Config.execute]
  dsimp only
  rw [Stack.Checked.operandsBelow_eq _ _ hheight, ok_bind, Ram.Checked.readShort_eq, ok_bind]
  change (if (Stack.operands _ _).complete = true then _ else _) = _
  split
  · exact h.act i.mode _ (hpopped _) _
  · rfl

theorem step (h : checked.Agrees dev Q) (pc : Short) (hc : Q c.device) :
    Config.Checked.step checked pc c = .ok (c.step dev pc) := by
  rw [Config.Checked.step, Ram.Checked.read_eq, ok_bind, h.execute _ _ hc]
  rfl

theorem run (h : checked.Agrees dev Q) (fuel : Nat) (pc : Short) (hc : Q c.device) :
    Config.Checked.run checked fuel pc c = .ok (Config.run dev fuel pc c) := by
  induction fuel generalizing pc c with
  | zero => rfl
  | succ fuel ih =>
      have hkept := h.keeps.step pc hc
      rw [Config.Checked.run, Ram.Checked.read_eq, ok_bind, h.step pc hc, ok_bind, Config.run]
      cases hstep : c.step dev pc with
      | mk outcome c' =>
          rw [hstep] at hkept
          cases outcome with
          | next pc' => exact ih pc' hkept
          | stop => rfl
          | fault cause =>
              dsimp only
              rw [h.halt]
              rfl

theorem eval (h : checked.Agrees dev Q) (fuel : Nat) (pc : Short) (hc : Q c.device) :
    Config.Checked.eval checked fuel pc c = .ok (Config.eval dev fuel pc c) := by
  unfold Config.Checked.eval Config.eval
  split
  · rfl
  · exact h.run fuel pc hc

end CheckedDevice.Agrees

end StackComputer
