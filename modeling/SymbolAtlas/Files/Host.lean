import SymbolAtlas.Files.Tree
import SymbolAtlas.Text.Utf8
import SymbolAtlas.Trace.Instant

set_option autoImplicit false

/-! # The host of a program

What the program asks of the system it runs on. The commands are written against this interface, so
that they can be run on a file tree in memory (`World`) as well as on the real system. -/

namespace SymbolAtlas

/-- Whether a directory or a file stands at a path. -/
inductive FileKind where
  | directory
  | file
  deriving DecidableEq, Repr

/-- The services of the host. -/
class Host (m : Type → Type) where
  /-- The directory that relative paths are taken from. -/
  workingDir : m String
  /-- A variable of the environment; empty if it is not set. -/
  environment (name : String) : m String
  /-- The time of day. -/
  now : m Instant
  /-- A clock for durations, in nanoseconds. -/
  ticks : m Nat
  /-- The bytes of a file. -/
  readFile (path : String) : m (Except FileError (List UInt8))
  /-- Opens a file without reading it. -/
  openFile (path : String) : m (Except FileError Unit)
  /-- What stands at a path. -/
  stat (path : String) : m (Except FileError FileKind)
  /-- Writes a file, over one that is there. -/
  writeFile (path : String) (bytes : List UInt8) : m (Except FileError Unit)
  /-- Adds to the end of a file. -/
  appendFile (path : String) (bytes : List UInt8) : m Unit
  /-- Makes a directory and those above it. -/
  makeDirs (path : String) : m (Except FileError Unit)
  /-- Removes a directory with all it holds; the result tells whether it was there. -/
  removeTree (path : String) : m (Except FileError Bool)
  /-- Writes to the standard output. -/
  print (text : String) : m Unit
  /-- Writes to the standard error output. -/
  printError (text : String) : m Unit
  /-- Writes bytes, which need not be text, to the standard output. -/
  printBytes (bytes : List UInt8) : m Unit
  /-- Writes bytes, which need not be text, to the standard error output. -/
  printErrorBytes (bytes : List UInt8) : m Unit

/-- A system in memory. Its outputs are kept as text, in which bytes that are none are replaced. -/
structure World where
  tree : FileTree := {}
  workingDir : String := "/"
  environment : List (String × String) := []
  now : Instant := {}
  output : String := ""
  errors : String := ""

namespace World

/-- A path from the root. -/
def rooted (w : World) (path : String) : String :=
  if Path.isAbsolute path then path else w.workingDir ++ "/" ++ path

/-- A path from the root, if it is one that can be looked up. -/
def lookedUp (w : World) (path : String) : Except FileCause String :=
  match FileTree.pathFault? path with
  | some cause => .error cause
  | none => .ok (w.rooted path)

def find (w : World) (path : String) : Except FileCause FileNode := do
  w.tree.find (← w.lookedUp path)

/-- The bytes of a file. A directory can be opened but not read. -/
def readFile (w : World) (path : String) : Except FileError (List UInt8) :=
  match w.find path with
  | .ok (.file bytes) => .ok bytes
  | .ok .directory => .error ⟨"read", path, .isDirectory⟩
  | .error cause => .error ⟨"open", path, cause⟩

def openFile (w : World) (path : String) : Except FileError Unit :=
  match w.find path with
  | .ok _ => .ok ()
  | .error cause => .error ⟨"open", path, cause⟩

def stat (w : World) (path : String) : Except FileError FileKind :=
  match w.find path with
  | .ok (.file _) => .ok .file
  | .ok .directory => .ok .directory
  | .error cause => .error ⟨"stat", path, cause⟩

def writeFile (w : World) (path : String) (bytes : List UInt8) :
    Except FileError Unit × World :=
  match w.lookedUp path >>= fun rooted => w.tree.write rooted bytes with
  | .ok tree => (.ok (), { w with tree })
  | .error cause => (.error ⟨"open", path, cause⟩, w)

def makeDirs (w : World) (path : String) : Except FileError Unit × World :=
  match w.tree.makeDirs [] (Path.Clean.ofText (w.rooted path)).parts with
  | .ok tree => (.ok (), { w with tree })
  | .error (place, cause) => (.error ⟨"mkdir", "/" ++ "/".intercalate place, cause⟩, w)

def removeTree (w : World) (path : String) : Except FileError Bool × World :=
  match w.lookedUp path >>= w.tree.place with
  | .ok place =>
    if (w.tree.node? place).isSome then (.ok true, { w with tree := w.tree.remove place })
    else (.ok false, w)
  | .error .notFound => (.ok false, w)
  | .error cause => (.error ⟨"rename", path, cause⟩, w)

/-- Puts a file at a path with the directories above it; a path that ends in a slash is a
directory. What cannot be put is left out. -/
def install (w : World) (path : String) (bytes : List UInt8) : World :=
  if path.endsWith "/" then (w.makeDirs path).2
  else ((w.makeDirs (Path.directory path)).2.writeFile path bytes).2

def erase (w : World) (path : String) : World :=
  { w with tree := w.tree.remove (Path.Clean.ofText (w.rooted path)).parts }

def bytes? (w : World) (path : String) : Option (List UInt8) :=
  (w.readFile path).toOption

def names? (w : World) (path : String) : Option (List String) :=
  match w.find path with
  | .ok .directory =>
    some ((w.tree.names (Path.Clean.ofText (w.rooted path)).parts).mergeSort (· ≤ ·))
  | _ => none

end World

instance : Host (StateM World) where
  workingDir := return (← get).workingDir
  environment name := return ((← get).environment.lookup name).getD ""
  now := return (← get).now
  ticks := return 0
  readFile path := return (← get).readFile path
  openFile path := return (← get).openFile path
  stat path := return (← get).stat path
  writeFile path bytes := modifyGet (·.writeFile path bytes)
  appendFile path bytes := modify fun w =>
    match w.readFile path with
    | .ok before => (w.writeFile path (before ++ bytes)).2
    | .error _ => w
  makeDirs path := modifyGet (·.makeDirs path)
  removeTree path := modifyGet (·.removeTree path)
  print text := modify fun w => { w with output := w.output ++ text }
  printError text := modify fun w => { w with errors := w.errors ++ text }
  printBytes bytes := modify fun w => { w with output := w.output ++ Text.Utf8.toText bytes }
  printErrorBytes bytes := modify fun w => { w with errors := w.errors ++ Text.Utf8.toText bytes }

end SymbolAtlas
