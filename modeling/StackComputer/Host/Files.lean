/-!
The host's files: their names, the errors they make, and where a file can be
created.

A name consists of parts between slashes.  An empty part and a single dot name
the directory reached so far, two dots the one above it.
-/

namespace StackComputer

namespace Path

def parts (path : String) : List String :=
  path.splitOn "/"

def isStay (part : String) : Bool :=
  part.isEmpty || part = "."

def fileName? (path : String) : Option String :=
  match ((parts path).filter (!isStay ·)).getLast? with
  | some ".." => none
  | last => last

def suffix? (name : List Char) : Option (List Char) :=
  let reversed := name.reverse
  match reversed.dropWhile (· ≠ '.') with
  | [] | [_] => none
  | _ => some (reversed.takeWhile (· ≠ '.')).reverse

def extension? (path : String) : Option String :=
  ((fileName? path).bind (suffix? ·.toList)).map String.ofList

end Path

structure FileError where
  description : String
  code : Nat
  deriving DecidableEq, Repr

namespace FileError

def missing : FileError := ⟨"No such file or directory", 2⟩

def notDirectory : FileError := ⟨"Not a directory", 20⟩

def isDirectory : FileError := ⟨"Is a directory", 21⟩

def nameTooLong : FileError := ⟨"File name too long", 36⟩

def message (e : FileError) : String :=
  e.description ++ " (os error " ++ toString e.code ++ ")"

end FileError

namespace Files

def maxPart : Nat := 255

def maxPath : Nat := 4095

/--
Follows the parts of a path to a file that is to be created.  The way starts in
a directory that holds `files` and no directories; `up` counts the levels above
it, of which nothing else is known.
-/
def follow (files : List String) : Nat → List String → Except FileError Unit
  | _, [] => .error .isDirectory
  | up, part :: rest =>
      if Path.isStay part then follow files up rest
      else if part = ".." then follow files (up + 1) rest
      else if rest.all String.isEmpty && !rest.isEmpty then .error .isDirectory
      else if maxPart < part.utf8ByteSize then .error .nameTooLong
      else if rest.isEmpty then .ok ()
      else if up = 0 ∧ part ∈ files then .error .notDirectory
      else .error .missing

/--
Whether a file can be created at `path`, seen from a directory with only plain
`files`.  A path from the root leaves that directory at once.
-/
def create (files : List String) (path : String) : Except FileError Unit :=
  if maxPath < path.utf8ByteSize then .error .nameTooLong
  else follow files (if path.startsWith "/" then 1 else 0) (Path.parts path)

end Files

end StackComputer
