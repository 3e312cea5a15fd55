import SymbolAtlas.Files.Host
import SymbolAtlas.Toml.Shape

set_option autoImplicit false

/-! # Project files

A project file sets defaults for the commands run in its directory and below. The nearest one above
a directory counts. -/

namespace SymbolAtlas.Project

def fileName : String := "symgraph.toml"

/-- What a project file sets. -/
structure Config where
  path : String
  /-- The directory of the file. -/
  root : String
  manifest : String := ""
  /-- The keys of the entry points. -/
  entry : List String := []
  /-- The number of workers; zero if it is not set. -/
  jobs : Int := 0
  /-- Whether closures are cached, if that is set. -/
  cache : Option Bool := none
  deriving DecidableEq, Repr

/-- Why a project file could not be used. -/
inductive Error where
  | unreachable (path : String) (e : FileError)
  | unreadable (path : String) (e : FileError)
  | malformed (path : String) (e : Toml.ReadError)
  | unknownKeys (path : String) (keys : List Toml.Key)
  | negativeJobs (path : String)

def Error.message : Error → String
  | .unreachable path e => "failed to stat " ++ Text.quote path ++ ": " ++ e.message
  | .unreadable path e => path ++ ": failed to parse TOML: " ++ e.message
  | .malformed path e => path ++ ": failed to parse TOML: " ++ e.message
  | .unknownKeys path keys =>
    path ++ ": unknown keys: " ++ ", ".intercalate (keys.map Toml.Key.toText)
  | .negativeJobs path => path ++ ": [build].jobs must not be negative"

def shape : List (String × Toml.Shape) := [
  ("graph", .record "main.graphConfig" [("manifest", .text), ("entry", .list .text)]),
  ("build", .record "main.buildConfig" [("jobs", .integer), ("cache", .boolean)])]

/-- The manifest as seen from the directory of the project file. -/
def locateManifest (root manifest : String) : String :=
  let trimmed := Text.trim manifest
  if trimmed == "" || Path.isAbsolute trimmed then manifest else Path.join [root, trimmed]

def ofBytes (path : String) (bytes : List UInt8) : Except Error Config :=
  match Toml.Document.read shape bytes with
  | .error e => .error (.malformed path e)
  | .ok (fields, unknown) =>
    if !unknown.isEmpty then .error (.unknownKeys path unknown)
    else
      let graph := Toml.Fields.table fields "graph"
      let build := Toml.Fields.table fields "build"
      let jobs := Toml.Fields.integer build "jobs"
      if jobs < 0 then .error (.negativeJobs path)
      else
        let root := Path.directory path
        .ok {
          path, root, jobs
          manifest := locateManifest root (Toml.Fields.text graph "manifest")
          entry := Toml.Fields.texts graph "entry"
          cache := Toml.Fields.boolean? build "cache" }

variable {m : Type → Type} [Monad m] [Host m]

def load (path : String) : m (Except Error Config) := do
  match ← Host.readFile path with
  | .error e => return .error (.unreadable path e)
  | .ok bytes => return ofBytes path bytes

/-- A directory given by its parts and all above it, the nearest first. -/
def upward (parts : List String) : List String :=
  ((List.range (parts.length + 1)).map fun n => "/" ++ "/".intercalate (parts.take n)).reverse

/-- The first of some directories that holds a project file. -/
def search : List String → m (Except Error (Option String))
  | [] => return .ok none
  | directory :: rest => do
    let candidate := Path.join [directory, fileName]
    match ← Host.stat candidate with
    | .ok _ => return .ok (some candidate)
    | .error e =>
      if e.cause = .notFound then search rest
      else return .error (.unreachable candidate e)

def find (start : String) : m (Except Error (Option String)) := do
  let start := if start == "" then "." else start
  search (upward (Path.Clean.ofText (Path.absolute (← Host.workingDir) start)).parts)

/-- The settings of the nearest project file above a directory. -/
def discover (start : String) : m (Except Error (Option Config)) := do
  match ← find start with
  | .error e => return .error e
  | .ok none => return .ok none
  | .ok (some path) =>
    match ← load path with
    | .error e => return .error e
    | .ok config => return .ok (some config)

end SymbolAtlas.Project
