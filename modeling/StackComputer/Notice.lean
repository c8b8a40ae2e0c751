import StackComputer.Fault

/-!
Notices: what the peripherals tell the host's log.
-/

namespace StackComputer

inductive Severity where
  | error
  | warn
  | debug
  deriving DecidableEq, Repr

inductive Notice where
  | fault (fault : Fault)
  | invalidSize (width height : Short)
  | resized (width height : Short)
  | fillBank (bank : Short)
  | copyBanks (source target : Short)
  | unknownCommand (code : Byte)
  | programTooLarge (excess : Nat)
  deriving DecidableEq, Repr

namespace Notice

def severity : Notice → Severity
  | .fault _ => .error
  | .resized _ _ => .debug
  | _ => .warn

def sizeText (width height : Short) : String :=
  toString width.toNat ++ "×" ++ toString height.toNat

def message : Notice → String
  | .fault f => f.message
  | .invalidSize w h => "invalid screen size " ++ sizeText w h
  | .resized w h => "resized screen to " ++ sizeText w h
  | .fillBank b => "fill: unsupported bank " ++ toString b.toNat
  | .copyBanks s t =>
      "copy: unsupported banks " ++ toString s.toNat ++ " -> " ++ toString t.toNat
  | .unknownCommand c => "invalid expansion opcode 0x" ++ String.ofList (Hex.byte c)
  | .programTooLarge n =>
      "ROM is too large; ignoring " ++ toString n ++ " bytes past the end of memory"

end Notice

end StackComputer
