/-!
The words of the command line: a program, options, and after two dashes the
arguments for the program.
-/

namespace StackComputer

structure CommandLine where
  program : String
  frames : Nat
  readsInput : Bool
  screenshot : Option String
  args : List String
  deriving DecidableEq, Repr

namespace CommandLine

def usage : String :=
  "usage: PROGRAM [--frames N] [--stdin] [--screenshot FILE] [-- ARGS]"

structure Options where
  program : Option String
  frames : Nat
  readsInput : Bool
  screenshot : Option String
  deriving DecidableEq, Repr

def Options.complete? (p : Options) (args : List String) : Option CommandLine :=
  p.program.map (⟨·, p.frames, p.readsInput, p.screenshot, args⟩)

def parseFrom? (p : Options) : List String → Option CommandLine
  | [] => p.complete? []
  | "--" :: args => p.complete? args
  | "--stdin" :: rest => parseFrom? { p with readsInput := true } rest
  | "--frames" :: n :: rest =>
      match n.toNat? with
      | none => none
      | some n => parseFrom? { p with frames := n } rest
  | "--screenshot" :: file :: rest => parseFrom? { p with screenshot := some file } rest
  | word :: rest =>
      if word.startsWith "-" || p.program.isSome then none
      else parseFrom? { p with program := some word } rest

def parse? (words : List String) : Option CommandLine :=
  parseFrom? ⟨none, 1, false, none⟩ words

end CommandLine

end StackComputer
