import SymbolAtlas.Files.Error
import SymbolAtlas.Path

set_option autoImplicit false

/-! # File trees

Directories and files by their parts from the root. The root is always there. A path is walked part
by part: every part but the last must be a directory, `.` and empty parts stay, `..` goes up. A name
has at most 255 bytes, a path at most 4095, and neither holds a zero byte. -/

namespace SymbolAtlas

/-- What stands at a place. -/
inductive FileNode where
  | directory
  | file (bytes : List UInt8)
  deriving DecidableEq, Repr

/-- The nodes below the root, by their parts. -/
structure FileTree where
  nodes : List (List String × FileNode) := []

namespace FileTree

def node? (t : FileTree) (place : List String) : Option FileNode :=
  if place.isEmpty then some .directory else t.nodes.lookup place

def put (t : FileTree) (place : List String) (node : FileNode) : FileTree :=
  ⟨t.nodes.filter (·.1 ≠ place) ++ [(place, node)]⟩

def remove (t : FileTree) (place : List String) : FileTree :=
  ⟨t.nodes.filter fun (p, _) => !place.isPrefixOf p⟩

def names (t : FileTree) (place : List String) : List String :=
  (t.nodes.filter fun (p, _) => p.length = place.length + 1 && place.isPrefixOf p).filterMap
    (·.1.getLast?)

/-- The most bytes of a name. -/
def maxName : Nat := 255

/-- The most bytes of a path. -/
def maxPath : Nat := 4095

def nameFault? (name : String) : Option FileCause :=
  if name.contains '\x00' then some .invalidPath
  else if maxName < name.utf8ByteSize then some .nameTooLong
  else none

/-- Why no file can be looked up at a path, whatever the tree holds. -/
def pathFault? (path : String) : Option FileCause :=
  if path.contains '\x00' then some .invalidPath
  else if path == "" then some .notFound
  else if maxPath < path.utf8ByteSize then some .nameTooLong
  else none

/-- Walks on from a place. The last part may name a place where nothing stands. -/
def walk (t : FileTree) (place : List String) : List String → Except FileCause (List String)
  | [] => .ok place
  | part :: rest =>
    match t.node? place with
    | none => .error .notFound
    | some (.file _) => .error .notDirectory
    | some .directory =>
      if part == "" || part == "." then t.walk place rest
      else if part == ".." then t.walk place.dropLast rest
      else
        match nameFault? part with
        | some cause => .error cause
        | none => t.walk (place ++ [part]) rest

def place (t : FileTree) (path : String) : Except FileCause (List String) :=
  t.walk [] (Path.split path)

def find (t : FileTree) (path : String) : Except FileCause FileNode := do
  match t.node? (← t.place path) with
  | some node => .ok node
  | none => .error .notFound

/-- The parts above the name that a path ends with, if a slash follows that name. -/
def aboveSlashed? (path : String) : Option (List String) :=
  match (Path.split path).reverse with
  | "" :: parts =>
    match parts.dropWhile (· == "") with
    | name :: above => if name == "." || name == ".." then none else some above.reverse
    | [] => none
  | _ => none

/-- Writes a file, which need not be there yet. A name with a slash after it is taken for that of a
directory. -/
def write (t : FileTree) (path : String) (bytes : List UInt8) : Except FileCause FileTree := do
  if let some above := aboveSlashed? path then
    let _ ← t.walk [] (above ++ [""])
    throw .isDirectory
  let place ← t.place path
  match t.node? place with
  | some .directory => .error .isDirectory
  | _ => .ok (t.put place (.file bytes))

/-- Makes the directories `place` and `place ++ rest`, as far as they are missing. The error names
the place of the one that cannot be made. -/
def makeDirs (t : FileTree) (place : List String) :
    (rest : List String) → Except (List String × FileCause) FileTree
  | [] => .ok t
  | part :: rest =>
    let next := place ++ [part]
    match t.node? next, nameFault? part with
    | some .directory, _ => t.makeDirs next rest
    | some (.file _), _ => .error (next, .notDirectory)
    | none, some cause => .error (next, cause)
    | none, none => (t.put next .directory).makeDirs next rest

end FileTree

end SymbolAtlas
