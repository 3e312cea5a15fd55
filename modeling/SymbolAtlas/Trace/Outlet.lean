import SymbolAtlas.Files.Host
import SymbolAtlas.Trace.Tracer

set_option autoImplicit false

/-! # Where traces are written

What a tracer has written is passed on to a file or to the error output. A file is closed once;
nothing that is traced afterwards reaches it. -/

namespace SymbolAtlas

/-- The output of a trace could not be opened. -/
structure OutletError where
  file : FileError

def OutletError.message (e : OutletError) : String :=
  "failed to open trace output: " ++ e.file.message

/-- Where a trace is written. -/
inductive Outlet where
  /-- The error output, which stays open. -/
  | errorOutput
  | file (path : String) (isOpen : Bool)
  deriving DecidableEq, Repr

namespace Outlet

variable {m : Type → Type} [Monad m] [Host m]

/-- Opens the output of a tracer. A named file is made anew; no name and a dash stand for the error
output. A tracer that only keeps events has no use for a file. -/
def openFor (t : Tracer) (name : String) : m (Except OutletError Outlet) := do
  if t.stream.isNone || name == "" || name == "-" then return .ok .errorOutput
  match ← Host.writeFile name [] with
  | .error e => return .error ⟨e⟩
  | .ok _ => return .ok (.file name true)

def flush (o : Outlet) (trace : Trace) : m Trace := do
  let (text, trace) := TraceM.drain.run trace
  if text != "" then
    match o with
    | .file path _ => Host.appendFile path (Text.Utf8.encode text)
    | .errorOutput => Host.printError text
  return trace

/-- Closes a file, which must be open, and the stream that is written to it. -/
def close (o : Outlet) (trace : Trace) : Except FileError (Outlet × Trace) :=
  match o with
  | .errorOutput => .ok (o, trace)
  | .file path true => .ok (.file path false, (TraceM.close.run trace).2)
  | .file path false => .error ⟨"close", path, .closed⟩

end Outlet

end SymbolAtlas
