import StackComputer.Peripherals.Basic
import StackComputer.Proofs.Machine.Execution

/-!
# Devices that leave the stacks alone

A device may act on the whole machine, its stacks included.  One that neither
looks at them nor touches them answers in the same way whatever they hold, and
what it leaves behind differs in nothing but the stacks it was given.  One that
looks at them without touching them leaves behind the stacks it was given.
-/

namespace StackComputer

/-- The device leaves the stacks alone, at least on reads and on writes to ports in `P`. -/
structure Device.Blind {σ : Type} (dev : Device σ) (P : Byte → Prop) : Prop where
  input : ∀ i c r s, dev.input i (c.setStack r s) =
    ((dev.input i c).1, (dev.input i c).2.setStack r s)
  output : ∀ i c r s, P i → dev.output i (c.setStack r s) = (dev.output i c).setStack r s

def Action.written (w : Width) : Action → List Byte
  | .output i _ =>
      match w with
      | .byte => [i]
      | .short => [i, i + 1]
  | _ => []

namespace Config

variable {σ : Type} (c : Config σ) (r : Bool) (s : Stack)

@[simp] theorem ports_setStack : (c.setStack r s).machine.ports = c.machine.ports := by
  cases r <;> rfl

@[simp] theorem inputs_setStack : (c.setStack r s).machine.inputs = c.machine.inputs := by
  cases r <;> rfl

def writtenPorts (i : Instruction) (next : Short) : List Byte :=
  (i.op.action i.mode.width (c.arguments i next)).written i.mode.width

theorem writtenPorts_of_ne_deo {i : Instruction} (hi : i.op ≠ .deo) (next : Short) :
    c.writtenPorts i next = [] := by
  obtain ⟨op, mode⟩ := i
  unfold writtenPorts
  cases op with
  | deo => contradiction
  | div =>
      rw [Op.action]
      split <;> rfl
  | _ => rfl

theorem writeCell_setStack (w : Width) (a v : Short) :
    (c.setStack r s).writeCell w a v = (c.writeCell w a v).setStack r s := by
  cases r <;> rfl

end Config

namespace Device.Blind

variable {σ : Type} {dev : Device σ} {P : Byte → Prop} {r : Bool} {s : Stack}

theorem busInput (h : dev.Blind P) (i : Byte) (c : Config σ) :
    (c.setStack r s).input dev i = ((c.input dev i).1, (c.input dev i).2.setStack r s) := by
  unfold Config.input
  rw [Config.inputs_setStack, Config.ports_setStack]
  split
  · exact h.input i c r s
  · rfl

theorem busOutput (h : dev.Blind P) {i : Byte} (hi : P i) (v : Byte) (c : Config σ) :
    (c.setStack r s).output dev i v = (c.output dev i v).setStack r s := by
  have houtput := h.output i ⟨c.machine.writePort i v, c.device⟩ r s hi
  cases r with
  | false =>
      change (if c.machine.outputs.test i then _ else _) =
        Config.setStack (if c.machine.outputs.test i then _ else _) false s
      split
      · exact houtput
      · rfl
  | true =>
      change (if c.machine.outputs.test i then _ else _) =
        Config.setStack (if c.machine.outputs.test i then _ else _) true s
      split
      · exact houtput
      · rfl

theorem inputCell (h : dev.Blind P) (w : Width) (i : Byte) (c : Config σ) :
    (c.setStack r s).inputCell dev w i =
      ((c.inputCell dev w i).1, (c.inputCell dev w i).2.setStack r s) := by
  cases w with
  | byte =>
      rw [Config.inputCell, h.busInput]
      rfl
  | short =>
      rw [Config.inputCell, h.busInput]
      dsimp only
      rw [h.busInput]
      rfl

theorem outputCell (h : dev.Blind P) {w : Width} {i : Byte} {v : Short}
    (hw : ∀ p ∈ (Action.output i v).written w, P p) (c : Config σ) :
    (c.setStack r s).outputCell dev w i v = (c.outputCell dev w i v).setStack r s := by
  cases w with
  | byte => exact h.busOutput (hw i (.head _)) v.lo c
  | short =>
      rw [Config.outputCell, h.busOutput (hw i (.head _)),
        h.busOutput (hw (i + 1) (.tail _ (.head _)))]
      rfl

theorem produce (h : dev.Blind P) {w : Width} {a : Action} (ha : ∀ p ∈ a.written w, P p)
    (c : Config σ) :
    (c.setStack r s).produce dev w a =
      ((c.produce dev w a).1, (c.produce dev w a).2.setStack r s) := by
  cases a with
  | load a =>
      rw [Config.produce, Config.ram_setStack]
      rfl
  | store a v => exact congrArg (Prod.mk []) (c.writeCell_setStack r s w a v)
  | input i =>
      rw [Config.produce, h.inputCell]
      rfl
  | output i v => exact congrArg (Prod.mk []) (h.outputCell ha c)
  | _ => rfl

theorem stack_produce (h : dev.Blind P) {w : Width} {a : Action} (ha : ∀ p ∈ a.written w, P p)
    (c : Config σ) (r : Bool) :
    (c.produce dev w a).2.machine.stack r = c.machine.stack r := by
  have hsame := h.produce (r := r) (s := c.machine.stack r) ha c
  rw [Config.setStack_stack] at hsame
  have hstack := congrArg (fun x => x.2.machine.stack r) hsame
  dsimp only at hstack
  rw [hstack, Config.stack_setStack_self]

end Device.Blind

/-! ## Devices that only look -/

/-- The device changes neither stack, though it may look at both. -/
structure Device.SparesStacks {σ : Type} (dev : Device σ) : Prop where
  input : ∀ i c r, (dev.input i c).2.machine.stack r = c.machine.stack r
  output : ∀ i c r, (dev.output i c).machine.stack r = c.machine.stack r

namespace Device.SparesStacks

variable {σ : Type} {dev : Device σ}

theorem busInput (h : dev.SparesStacks) (i : Byte) (c : Config σ) (r : Bool) :
    (c.input dev i).2.machine.stack r = c.machine.stack r := by
  unfold Config.input
  split
  · exact h.input i c r
  · rfl

theorem busOutput (h : dev.SparesStacks) (i v : Byte) (c : Config σ) (r : Bool) :
    (c.output dev i v).machine.stack r = c.machine.stack r := by
  unfold Config.output
  dsimp only
  split
  · exact h.output i _ r
  · rfl

theorem inputCell (h : dev.SparesStacks) (w : Width) (i : Byte) (c : Config σ) (r : Bool) :
    (c.inputCell dev w i).2.machine.stack r = c.machine.stack r := by
  cases w with
  | byte => exact h.busInput i c r
  | short => exact (h.busInput (i + 1) _ r).trans (h.busInput i c r)

theorem outputCell (h : dev.SparesStacks) (w : Width) (i : Byte) (v : Short) (c : Config σ)
    (r : Bool) : (c.outputCell dev w i v).machine.stack r = c.machine.stack r := by
  cases w with
  | byte => exact h.busOutput i v.lo c r
  | short => exact (h.busOutput (i + 1) v.lo _ r).trans (h.busOutput i v.hi c r)

theorem produce (h : dev.SparesStacks) (w : Width) (a : Action) (c : Config σ) (r : Bool) :
    (c.produce dev w a).2.machine.stack r = c.machine.stack r := by
  cases a with
  | input i => exact h.inputCell w i c r
  | output i v => exact h.outputCell w i v c r
  | _ => rfl

end Device.SparesStacks

/-! ## The devices there are -/

theorem Device.inert_sparesStacks : Device.inert.SparesStacks where
  input _ _ _ := rfl
  output _ _ _ := rfl

namespace Peripherals

theorem output_debug (c : Config Peripherals) :
    output Port.debug c = { c with device := { c.device with
      stderr := c.device.stderr ++ (StackReport.text c.machine).map Char.toUInt8 } } := rfl

theorem exists_output {i : Byte} (hi : i ≠ Port.debug) (ram : Ram) (ports : Ports)
    (p : Peripherals) : ∃ ram' ports' p', ∀ inputs outputs wst rst,
      output i ⟨⟨ram, ports, inputs, outputs, wst, rst⟩, p⟩ =
        ⟨⟨ram', ports', inputs, outputs, wst, rst⟩, p'⟩ := by
  unfold output
  split
  · unfold outputSystem
    split
    · exact ⟨_, _, _, fun _ _ _ _ => rfl⟩
    · split
      · exact ⟨ram, ports, p.requestExit (ports.read Port.state), fun _ _ _ _ => rfl⟩
      · split
        · exact ⟨ram, ports, p.mapScreen (·.setPalette (paletteOf ports)), fun _ _ _ _ => rfl⟩
        · exact ⟨ram, ports, p, fun _ _ _ _ => rfl⟩
  · split
    · unfold outputConsole
      dsimp only
      split
      · exact ⟨_, _, _, fun _ _ _ _ => rfl⟩
      · split <;> exact ⟨_, _, _, fun _ _ _ _ => rfl⟩
    · split <;> exact ⟨_, _, _, fun _ _ _ _ => rfl⟩

theorem machine_output (i : Byte) (c : Config Peripherals) :
    ∃ ram ports, (output i c).machine = { c.machine with ram := ram, ports := ports } := by
  by_cases hi : i = Port.debug
  · exact ⟨c.machine.ram, c.machine.ports, by rw [hi, output_debug]⟩
  · obtain ⟨ram, ports, p, houtput⟩ := exists_output hi c.machine.ram c.machine.ports c.device
    exact ⟨ram, ports, congrArg Config.machine (houtput _ _ _ _)⟩

theorem device_sparesStacks : device.SparesStacks where
  input _ _ _ := rfl
  output i c r := by
    obtain ⟨ram, ports, hmachine⟩ := machine_output i c
    change (output i c).machine.stack r = c.machine.stack r
    rw [hmachine]
    rfl

theorem device_blind : device.Blind (· ≠ Port.debug) where
  input i c r s := by
    cases r <;> rfl
  output i c r s hi := by
    obtain ⟨⟨ram, ports, inputs, outputs, wst, rst⟩, p⟩ := c
    obtain ⟨ram', ports', p', houtput⟩ := exists_output hi ram ports p
    change output i (Config.setStack _ r s) = Config.setStack (output i _) r s
    rw [houtput]
    cases r <;> exact houtput ..

end Peripherals

end StackComputer
