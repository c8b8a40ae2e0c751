import StackComputer.Batch.Job
import StackComputer.Image.Format

/-!
Batch runs on a host that knows a picture's format by its path, and writes only
one of the formats.
-/

namespace StackComputer

namespace Batch

inductive SaveError where
  | format (e : Image.FormatError)
  | file (e : FileError)
  deriving DecidableEq, Repr

def SaveError.message : SaveError → String
  | .format e => e.message
  | .file e => e.message

/--
Whether a picture can be saved at `path`.  The extension has to be that of a
format; then the file is created, and only then has the format to be one that
can be written.
-/
def checkSave (create : String → Except FileError Unit) (path : String) : Except SaveError Unit :=
  match Image.Format.ofPath path with
  | .error e => .error (.format e)
  | .ok f =>
      match create path with
      | .error e => .error (.file e)
      | .ok () => if f = .png then .ok () else .error (.format (.unsupported f))

def run (fuel : Nat) (create : String → Except FileError Unit) (job : Job) : Option Result :=
  job.run fuel fun path _ => (checkSave create path).mapError SaveError.message

end Batch

end StackComputer
