import StackComputer.Batch
import StackComputer.CommandLine
import StackComputer.Image.Png

/-!
The command: reads a program and its input, runs it, and writes what it leaves.
-/

namespace StackComputer

def instructionLimit : Nat := 1000000000000000000

partial def readAll (stream : IO.FS.Stream) (read : ByteArray) : IO ByteArray := do
  let more ← stream.read 65536
  if more.isEmpty then return read else readAll stream (read ++ more)

def fileError : IO.Error → FileError
  | .noFileOrDirectory .. => .missing
  | .inappropriateType _ code details => ⟨details, code.toNat⟩
  | .invalidArgument _ code details => ⟨details, code.toNat⟩
  | .permissionDenied _ code details => ⟨details, code.toNat⟩
  | .resourceExhausted _ code details => ⟨details, code.toNat⟩
  | .resourceBusy code details => ⟨details, code.toNat⟩
  | e => ⟨toString e, 5⟩

def readProgram (path : String) : IO (Except FileError (Array Byte)) := do
  try
    let bytes ← IO.FS.readBinFile path
    return .ok bytes.data
  catch e => return .error (fileError e)

def writeAll (stream : IO.FS.Stream) (bytes : Array Byte) : IO Unit := do
  stream.write ⟨bytes⟩
  stream.flush

def savePicture (path : Option String) (r : Batch.Result) : IO Batch.Result := do
  match path, r.picture with
  | some path, some p =>
      try
        IO.FS.writeBinFile path ⟨Png.encode p.width p.height p.pixels⟩
        return r
      catch e => return .ofError r.stdout r.stderr (.save path (fileError e).message)
  | _, _ => return r

def runCommand (c : CommandLine) : IO UInt32 := do
  let program ← readProgram c.program
  let input ←
    if c.readsInput then
      let bytes ← readAll (← IO.getStdin) .empty
      pure (some bytes.data.toList)
    else pure none
  let job : Batch.Job := ⟨c.program, program, c.args, input, c.frames, c.screenshot⟩
  match Batch.run instructionLimit (fun _ => .ok ()) job with
  | none =>
      IO.eprintln "the instruction limit was reached"
      return 1
  | some r =>
      let r ← savePicture c.screenshot r
      writeAll (← IO.getStdout) r.stdout
      writeAll (← IO.getStderr) r.stderr
      return r.exitCode.toUInt32

end StackComputer

def main (words : List String) : IO UInt32 := do
  match StackComputer.CommandLine.parse? words with
  | none =>
      IO.eprintln StackComputer.CommandLine.usage
      return 2
  | some c => StackComputer.runCommand c
