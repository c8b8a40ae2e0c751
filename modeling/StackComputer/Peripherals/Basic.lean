import StackComputer.Machine.Run
import StackComputer.Peripherals.Command
import StackComputer.Peripherals.Console
import StackComputer.Screen.Control

/-!
The peripherals: system, console and screen as one device.

Only three slots have something behind them.  `output` acts on a port by its
slot; the system slot reaches into memory, the palette and the error stream.
-/

namespace StackComputer

/-!
## The report on the stacks

A line shows the top eight bytes of a stack, bottom first.  Places below the
bottom read 00, and a bar stands where the stack begins, if that is in sight.
-/

namespace StackReport

def line (label : List Char) (s : Stack) : List Char :=
  label ++ [' '] ++
    [7, 6, 5, 4, 3, 2, 1, 0].flatMap (fun k =>
      Hex.byte (s.peek k) ++ [if k = s.height then '|' else ' ']) ++
    ['<', '\n']

def text (m : Machine) : List Char :=
  line ['W', 'S', 'T'] m.wst ++ line ['R', 'S', 'T'] m.rst

end StackReport

/-! ## State -/

/--
What the peripherals remember between instructions.  `exit` is the requested
exit code and `fault` the latest fault not yet reported; the two streams hold
what the host has not collected yet.
-/
structure Peripherals where
  exit : Option Byte
  stdout : Array Byte
  stderr : Array Byte
  screen : Screen
  fault : Option Fault
  notices : Array Notice
  deriving DecidableEq, Repr

namespace Peripherals

def defaultWidth : Short := 512

def defaultHeight : Short := 320

def notify (p : Peripherals) : Option Notice → Peripherals
  | none => p
  | some n => { p with notices := p.notices.push n }

theorem notify_eq (p : Peripherals) (n : Option Notice) :
    p.notify n = { p with notices := (p.notify n).notices } := by
  cases n <;> rfl

@[simp] theorem screen_notify (p : Peripherals) (n : Option Notice) :
    (p.notify n).screen = p.screen := by
  rw [notify_eq]

def fresh : Peripherals :=
  let p : Peripherals := ⟨none, #[], #[], .ofSize defaultWidth defaultHeight, none, #[]⟩
  p.notify (Screen.blank.resizeNotice? defaultWidth defaultHeight)

instance : Inhabited Peripherals := ⟨fresh⟩

/-! ## Ports -/

def runCommand (ports : Ports) (ram : Ram) (p : Peripherals) : Ram × Peripherals :=
  let command := Command.fetch ram (ports.readShort Port.command)
  (command.run ram, p.notify command.refusal?)

/-- Any value but 0 asks for an exit; the high bit is dropped from the code. -/
def requestExit (v : Byte) (p : Peripherals) : Peripherals :=
  if v = 0 then p else { p with exit := some (v % 128) }

theorem requestExit_eq (v : Byte) (p : Peripherals) :
    p.requestExit v = { p with exit := (p.requestExit v).exit } := by
  unfold requestExit
  split <;> rfl

def paletteOf (ports : Ports) : Palette :=
  .ofChannels (ports.readShort Port.red) (ports.readShort Port.green) (ports.readShort Port.blue)

def mapScreen (f : Screen → Screen) (p : Peripherals) : Peripherals :=
  match p with
  | ⟨exit, stdout, stderr, screen, fault, notices⟩ =>
      ⟨exit, stdout, stderr, f screen, fault, notices⟩

def outputSystem (i : Byte) (c : Config Peripherals) : Config Peripherals :=
  if i = Port.commandRun then
    match c with
    | ⟨⟨ram, ports, inputs, outputs, wst, rst⟩, p⟩ =>
        let (ram, p) := p.runCommand ports ram
        ⟨⟨ram, ports, inputs, outputs, wst, rst⟩, p⟩
  else if i = Port.state then
    { c with device := c.device.requestExit (c.machine.ports.read Port.state) }
  else if Port.isPalette i then
    let palette := paletteOf c.machine.ports
    { c with device := c.device.mapScreen (·.setPalette palette) }
  else if i = Port.debug then
    let report := (StackReport.text c.machine).map Char.toUInt8
    { c with device := { c.device with stderr := c.device.stderr ++ report } }
  else c

def outputConsole (i : Byte) (c : Config Peripherals) : Config Peripherals :=
  let v := c.machine.ports.read i
  if i = Port.write then
    { c with device := { c.device with stdout := c.device.stdout.push v } }
  else if i = Port.error then
    { c with device := { c.device with stderr := c.device.stderr.push v } }
  else c

def outputScreen (i : Byte) (c : Config Peripherals) : Config Peripherals :=
  match c with
  | ⟨⟨ram, ports, inputs, outputs, wst, rst⟩,
      ⟨exit, stdout, stderr, screen, fault, notices⟩⟩ =>
      let notice := screen.outputNotice? i ports
      let (ports, screen) := screen.output i ram ports
      ⟨⟨ram, ports, inputs, outputs, wst, rst⟩,
        notify ⟨exit, stdout, stderr, screen, fault, notices⟩ notice⟩

def output (i : Byte) (c : Config Peripherals) : Config Peripherals :=
  if i / 16 = 0 then outputSystem i c
  else if i / 16 = 1 then outputConsole i c
  else if i / 16 = 2 then outputScreen i c
  else c

def input (i : Byte) (c : Config Peripherals) : Byte × Config Peripherals :=
  let v :=
    if i / 16 = 2 then c.device.screen.input i c.machine.ports
    else c.machine.ports.read i
  (v, c)

def halt (f : Fault) (c : Config Peripherals) : Bool × Config Peripherals :=
  (false, { c with device := { c.device with fault := some f }.notify (some (.fault f)) })

def device : Device Peripherals := ⟨input, output, halt⟩

end Peripherals

end StackComputer
