import SymbolAtlas.Cache.Payload
import SymbolAtlas.Files.Host
import SymbolAtlas.Text.Hex

set_option autoImplicit false

/-! # The store of cached runs

Payloads are kept in files named by the digest of the manifest. A file that cannot be read as a
payload for its digest is as good as none. -/

namespace SymbolAtlas.Cache

/-- Why the store could not be used. -/
inductive Error where
  | file (e : FileError)
  /-- There is no directory to keep the store in. -/
  | noHome

def Error.message : Error → String
  | .file e => e.message
  | .noHome => "$HOME is not defined"

/-- A store in a directory. -/
structure Store where
  directory : String

namespace Store

variable {m : Type → Type} [Monad m] [Host m]

def payloadDir (s : Store) : String :=
  Path.join [s.directory, "closures"]

def entryPath (s : Store) (digest : List UInt8) : String :=
  Path.join [s.payloadDir, Text.Hex.ofBytes digest ++ ".mp"]

/-- Opens the store in a directory, which is made if it is missing. -/
def openAt (directory : String) : m (Except FileError Store) := do
  match ← Host.makeDirs directory with
  | .error e => return .error e
  | .ok _ => return .ok ⟨directory⟩

/-- Opens the store of an application, below the user's directory for caches. -/
def openFor (application : String) : m (Except Error Store) := do
  let caches ← Host.environment "XDG_CACHE_HOME"
  let home ← Host.environment "HOME"
  if caches == "" && home == "" then return .error .noHome
  let base := if caches == "" then Path.join [home, ".cache"] else caches
  match ← openAt (Path.join [base, application]) with
  | .error e => return .error (.file e)
  | .ok s => return .ok s

/-- Keeps a payload under a digest, in the current version. -/
def put (s : Store) (digest : List UInt8) (p : StoredPayload) : m (Except FileError Unit) := do
  match ← Host.makeDirs s.payloadDir with
  | .error e => return .error e
  | .ok _ =>
    let current : StoredPayload := { p with schema := Payload.currentSchema }
    Host.writeFile (s.entryPath digest) current.encode

def putSome (s : Store) (digest : List UInt8) : Option StoredPayload → m (Except FileError Unit)
  | none => return .ok ()
  | some p => s.put digest p

def accept? (digest : List UInt8) (bytes : List UInt8) : Option StoredPayload := do
  let p ← Payload.decode? bytes
  if p.schema = Payload.currentSchema ∧ p.hash = digest then some p else none

def get (s : Store) (digest : List UInt8) : m (Except FileError (Option StoredPayload)) := do
  let path := s.entryPath digest
  match ← Host.openFile path with
  | .error e => return if e.cause = .notFound then .ok none else .error e
  | .ok _ =>
    match ← Host.readFile path with
    | .error _ => return .ok none
    | .ok bytes => return .ok (accept? digest bytes)

/-- Drops everything. A store whose directory is gone is left as it is. -/
def dropAll (s : Store) : m (Except FileError Unit) := do
  match ← Host.removeTree s.directory with
  | .error e => return .error e
  | .ok false => return .ok ()
  | .ok true => Host.makeDirs s.directory

end Store

end SymbolAtlas.Cache
