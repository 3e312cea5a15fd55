import Std.Time.DateTime.Timestamp
import SymbolAtlas.Command.Execute

set_option autoImplicit false

/-! # The program

The commands run on the real system: its files, its clocks and its outputs. -/

namespace SymbolAtlas.Main

def causeOf : IO.Error → FileCause
  | .noFileOrDirectory _ _ _ => .notFound
  | .permissionDenied _ _ _ => .notPermitted
  | .inappropriateType _ code details =>
    if code = 20 then .notDirectory else if code = 21 then .isDirectory else .other details
  | .invalidArgument _ code details =>
    if code = 36 then .nameTooLong else if code = 22 then .invalidPath else .other details
  | e => .other e.toString

/-- Runs an operation on a path; what the system refuses becomes an error of the operation. -/
def attempt {α : Type} (operation path : String) (action : IO α) : IO (Except FileError α) := do
  try
    return .ok (← action)
  catch e =>
    return .error ⟨operation, path, causeOf e⟩

/-- Reads a file. A directory can be opened and fails when it is read. -/
def readBytes (path : String) : IO (Except FileError (List UInt8)) := do
  match ← attempt "open" path (IO.FS.readBinFile path) with
  | .ok bytes => return .ok bytes.toList
  | .error e => return .error (if e.cause = .isDirectory then { e with operation := "read" } else e)

def kindAt (path : String) : IO FileKind := do
  let info ← ((← IO.currentDir) / path).metadata
  return if info.type == .dir then .directory else .file

/-- Writes bytes and lets them appear at once. -/
def write (stream : IO.FS.Stream) (bytes : ByteArray) : IO Unit := do
  stream.write bytes
  stream.flush

def currentInstant : IO Instant := do
  let nanos := (← Std.Time.Timestamp.now).toNanosecondsSinceUnixEpoch.val
  return { seconds := Int.fdiv nanos 1000000000, nanos := Int.fmod nanos 1000000000 }

instance : Host IO where
  workingDir := return (← IO.currentDir).toString
  environment name := return (← IO.getEnv name).getD ""
  now := currentInstant
  ticks := IO.monoNanosNow
  readFile := readBytes
  openFile path := attempt "open" path do
    let _ ← kindAt path
  stat path := attempt "stat" path (kindAt path)
  writeFile path bytes := attempt "open" path (IO.FS.writeBinFile path bytes.toByteArray)
  appendFile path bytes := do
    let handle ← IO.FS.Handle.mk path .append
    handle.write bytes.toByteArray
  makeDirs path := attempt "mkdir" path (IO.FS.createDirAll path)
  removeTree path := do
    match ← attempt "rename" path (kindAt path) with
    | .error e => return if e.cause = .notFound then .ok false else .error e
    | .ok _ => attempt "rename" path do
      IO.FS.removeDirAll path
      return true
  print text := do write (← IO.getStdout) text.toUTF8
  printError text := do write (← IO.getStderr) text.toUTF8
  printBytes bytes := do write (← IO.getStdout) bytes.toByteArray
  printErrorBytes bytes := do write (← IO.getStderr) bytes.toByteArray

end SymbolAtlas.Main

/-- Runs the command line; the result is the exit code. -/
def main (args : List String) : IO UInt32 :=
  SymbolAtlas.Command.main args
