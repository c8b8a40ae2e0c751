import StackComputer.Memory.Ram
import StackComputer.Notice

/-!
Memory commands: fills and copies that a guest asks the system port for.

A command lies in memory, its code byte first and its arguments after it.  All
of it is read before anything is written.
-/

namespace StackComputer

inductive Command where
  | fill (length bank start : Short) (value : Byte)
  | copyUp (length sourceBank source targetBank target : Short)
  | copyDown (length sourceBank source targetBank target : Short)
  | unknown (code : Byte)
  deriving DecidableEq, Repr

namespace Ram

def fill (v : Byte) : Nat → Short → Ram → Ram
  | 0, _, r => r
  | n + 1, a, r => fill v n (a + 1) (r.write a v)

def copyUp : Nat → Short → Short → Ram → Ram
  | 0, _, _, r => r
  | n + 1, s, t, r => copyUp n (s + 1) (t + 1) (r.write t (r.read s))

def copyDown : Nat → Short → Short → Ram → Ram
  | 0, _, _, r => r
  | n + 1, s, t, r => copyDown n s t (r.write (t + .ofNat n) (r.read (s + .ofNat n)))

end Ram

namespace Command

def fetch (ram : Ram) (a : Short) : Command :=
  let code := ram.read a
  if code = 0 then
    .fill (ram.readShort (a + 1)) (ram.readShort (a + 3)) (ram.readShort (a + 5)) (ram.read (a + 7))
  else if code = 1 then
    .copyUp (ram.readShort (a + 1)) (ram.readShort (a + 3)) (ram.readShort (a + 5))
      (ram.readShort (a + 7)) (ram.readShort (a + 9))
  else if code = 2 then
    .copyDown (ram.readShort (a + 1)) (ram.readShort (a + 3)) (ram.readShort (a + 5))
      (ram.readShort (a + 7)) (ram.readShort (a + 9))
  else .unknown code

/-- Why a command is not carried out.  There is no memory besides bank 0. -/
def refusal? : Command → Option Notice
  | .fill _ bank _ _ => if bank = 0 then none else some (.fillBank bank)
  | .copyUp _ sb _ tb _ | .copyDown _ sb _ tb _ =>
      if sb = 0 ∧ tb = 0 then none else some (.copyBanks sb tb)
  | .unknown code => some (.unknownCommand code)

def apply : Command → Ram → Ram
  | .fill length _ start value, r => r.fill value length.toNat start
  | .copyUp length _ source _ target, r => r.copyUp length.toNat source target
  | .copyDown length _ source _ target, r => r.copyDown length.toNat source target
  | .unknown _, r => r

def run (c : Command) (r : Ram) : Ram :=
  match c.refusal? with
  | some _ => r
  | none => c.apply r

end Command

end StackComputer
