import StackComputer.Computer
import StackComputer.Host.Files
import StackComputer.Text.Quoted

/-!
A run without a display: a program is started, given its arguments and its
input, and then some ticks of the display.

The run ends early after the step in which the guest asks for an exit.  The
final frame can be saved as a picture, also then.  How pictures are saved is up
to the host.
-/

namespace StackComputer

namespace Batch

/-- What a run is started with.  `program` is what came of reading the file at `path`. -/
structure Job where
  path : String
  program : Except FileError (Array Byte)
  args : List String
  input : Option (List Byte)
  frames : Nat
  screenshot : Option String

structure Picture where
  width : Short
  height : Short
  pixels : Array Color
  deriving DecidableEq, Repr

/-- What a run leaves behind.  `picture` is absent if none was saved. -/
structure Result where
  exitCode : Byte
  stdout : Array Byte
  stderr : Array Byte
  picture : Option Picture
  deriving DecidableEq, Repr

/-! ## Errors of the host -/

inductive HostError where
  | open (path : String) (cause : FileError)
  | save (path : String) (cause : String)
  deriving DecidableEq, Repr

def HostError.message (e : HostError) : String :=
  let (tried, cause) := match e with
    | .open path cause => ("open " ++ Quoted.quote path, cause.message)
    | .save path cause => ("save " ++ Quoted.quote path, cause)
  "Error: failed to " ++ tried ++ "\n\nCaused by:\n    " ++ cause ++ "\n"

def Result.ofError (stdout stderr : Array Byte) (e : HostError) : Result :=
  ⟨1, stdout, stderr ++ utf8Bytes e.message, none⟩

/-! ## Steps -/

/-- A computer together with all that its reports have told so far. -/
structure Session where
  computer : Computer
  stdout : Array Byte
  stderr : Array Byte
  exit : Option Byte
  deriving DecidableEq, Repr

namespace Session

def collect (stdout stderr : Array Byte) (c : Computer) : Session :=
  let (r, c) := c.report
  ⟨c, stdout ++ r.stdout, stderr ++ r.stderr, r.exit⟩

def advance (step : Computer → Option Computer) (s : Session) : Option Session :=
  match s with
  | ⟨c, stdout, stderr, none⟩ => (step c).map (collect stdout stderr)
  | ⟨c, stdout, stderr, some e⟩ => some ⟨c, stdout, stderr, some e⟩

def feed (fuel : Nat) : List Byte → Session → Option Session
  | [], s => some s
  | b :: bs, s =>
      match s.advance (Computer.sendByte fuel b) with
      | none => none
      | some s' => feed fuel bs s'

def tick (fuel : Nat) : Nat → Session → Option Session
  | 0, s => some s
  | n + 1, s =>
      if s.exit.isSome || s.computer.machine.halted then some s
      else
        match s.advance (Computer.tick fuel) with
        | none => none
        | some s' => tick fuel n s'

def start (fuel : Nat) (program : Array Byte) (args : List String) : Option Session :=
  (Computer.boot fuel program args .fresh).map fun (_, c) => collect #[] #[] c

def run (fuel : Nat) (program : Array Byte) (args : List String) (input : List Byte)
    (frames : Nat) : Option Session :=
  match start fuel program args with
  | none => none
  | some s =>
      match s.advance (Computer.sendArguments fuel args) with
      | none => none
      | some s =>
          match s.feed fuel input with
          | none => none
          | some s => s.tick fuel frames

def picture (s : Session) : Picture :=
  let screen := s.computer.device.screen
  ⟨screen.width, screen.height, screen.frame⟩

end Session

def Session.finish (save : String → Picture → Except String Unit) (screenshot : Option String)
    (s : Session) : Result :=
  match screenshot with
  | none => ⟨s.exit.getD 0, s.stdout, s.stderr, none⟩
  | some path =>
      match save path s.picture with
      | .ok () => ⟨s.exit.getD 0, s.stdout, s.stderr, some s.picture⟩
      | .error cause => .ofError s.stdout s.stderr (.save path cause)

/-- Runs a job on a host that saves pictures as `save` says, or tells why it cannot. -/
def Job.run (fuel : Nat) (save : String → Picture → Except String Unit) (job : Job) :
    Option Result :=
  match job.program with
  | .error e => some (.ofError #[] #[] (.open job.path e))
  | .ok program =>
      (Session.run fuel program job.args (job.input.getD []) job.frames).map
        (Session.finish save job.screenshot)

end Batch

end StackComputer
