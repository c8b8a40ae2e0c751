import StackComputer.Peripherals.Basic
import StackComputer.Screen.Overlay

/-!
The computer as the host drives it: a machine with its peripherals.

Every call that runs a program takes fuel for each evaluation it starts, and
has no result if one of them uses it up.  What the guest has written, and
whether it has faulted or asked for an exit, is told in reports; collecting a
report empties both streams and forgets the fault.
-/

namespace StackComputer

abbrev Computer := Config Peripherals

structure Report where
  width : Short
  height : Short
  resized : Bool
  frame : Array Color
  stdout : Array Byte
  stderr : Array Byte
  exit : Option Byte
  fault : Option Fault
  deriving DecidableEq, Repr

namespace Computer

def fresh : Computer := ⟨.fresh, .fresh⟩

instance : Inhabited Computer := ⟨fresh⟩

def mapPorts (f : Ports → Ports) (c : Computer) : Computer :=
  match c with
  | ⟨⟨ram, ports, inputs, outputs, wst, rst⟩, p⟩ =>
      ⟨⟨ram, f ports, inputs, outputs, wst, rst⟩, p⟩

def mapScreen (f : Screen → Screen) (c : Computer) : Computer :=
  match c with
  | ⟨m, p⟩ => ⟨m, p.mapScreen f⟩

def evalAt (fuel : Nat) (pc : Short) (c : Computer) : Option (Bool × Computer) :=
  Config.eval Peripherals.device fuel pc c

def evalVector (fuel : Nat) (port : Byte) (c : Computer) : Option Computer :=
  (evalAt fuel (c.machine.ports.readShort port) c).map Prod.snd

/-! ## Starting a program -/

def wire (m : Machine) : Machine :=
  Port.wiring.foldl (fun m w => m.connect w.slot w.inputs w.outputs) m

/--
Readies the peripherals for a program, of which `excess` bytes found no room in
memory.  The screen keeps its cells if it has the default size already.
-/
def reset (excess : Nat) (c : Computer) : Computer :=
  match c with
  | ⟨m, ⟨_, stdout, stderr, screen, _, notices⟩⟩ =>
      let tooLarge := if excess = 0 then none else some (.programTooLarge excess)
      let size := screen.resizeNotice? Peripherals.defaultWidth Peripherals.defaultHeight
      let screen := screen.resize Peripherals.defaultWidth Peripherals.defaultHeight
      let p : Peripherals := ⟨none, stdout, stderr, screen, none, notices⟩
      ⟨wire m, (p.notify tooLarge).notify size⟩

def announceArguments (args : List String) (c : Computer) : Computer :=
  if args.isEmpty then c
  else c.mapPorts (·.write Port.consoleType ByteType.input.code)

def start (program : Array Byte) (args : List String) (c : Computer) : Computer :=
  match c with
  | ⟨m, p⟩ => announceArguments args (reset (Ram.excess program).size ⟨m.load program, p⟩)

def boot (fuel : Nat) (program : Array Byte) (args : List String) (c : Computer) :
    Option (Bool × Computer) :=
  evalAt fuel Ram.programStart (start program args c)

/-! ## Console -/

def deliver (fuel : Nat) (c : Computer) (e : ConsoleEvent) : Option Computer :=
  evalVector fuel Port.consoleVector (mapPorts e.store c)

def deliverAll (fuel : Nat) : List ConsoleEvent → Computer → Option Computer
  | [], c => some c
  | e :: es, c =>
      match deliver fuel c e with
      | none => none
      | some c' => deliverAll fuel es c'

/-- Delivers all arguments; the type port is left as for standard input. -/
def sendArguments (fuel : Nat) (args : List String) (c : Computer) : Option Computer :=
  (deliverAll fuel (ConsoleEvent.ofArguments (args.map utf8Bytes)) c).map
    (mapPorts (·.write Port.consoleType ByteType.input.code))

def sendByte (fuel : Nat) (b : Byte) (c : Computer) : Option Computer :=
  deliver fuel c ⟨b, .input⟩

/-! ## Screen -/

def isDebugging (c : Computer) : Bool :=
  c.machine.ports.read Port.debug != 0

/-- Renders what is pending.  The overlay is drawn afterwards, so it shows in the next frame. -/
def render (c : Computer) : Computer :=
  let debugging := isDebugging c
  let c := if debugging then mapScreen Screen.markAll c else c
  if c.device.screen.isPending then
    let c := mapScreen Screen.render c
    if debugging then
      match c with
      | ⟨m, p⟩ => ⟨m, p.mapScreen (·.drawOverlay m)⟩
    else c
  else c

def tick (fuel : Nat) (c : Computer) : Option Computer :=
  (evalVector fuel Port.screenVector c).map render

/-! ## Reports -/

/-- Tells the present state, then empties the streams and forgets the fault and the resizing. -/
def report (c : Computer) : Report × Computer :=
  match c with
  | ⟨m, ⟨exit, stdout, stderr, screen, fault, notices⟩⟩ =>
      let (resized, screen) := screen.takeResized
      (⟨screen.width, screen.height, resized, screen.frame, stdout, stderr, exit, fault⟩,
        ⟨m, ⟨exit, #[], #[], screen, none, notices⟩⟩)

def takeNotices (c : Computer) : Array Notice × Computer :=
  match c with
  | ⟨m, p⟩ => (p.notices, ⟨m, { p with notices := #[] }⟩)

end Computer

end StackComputer
