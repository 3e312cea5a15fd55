import SymbolAtlas.Cache.Store
import SymbolAtlas.Command.Verb
import SymbolAtlas.Manifest.Program
import SymbolAtlas.Project
import SymbolAtlas.Trace.Outlet

set_option autoImplicit false

/-! # Errors of commands -/

namespace SymbolAtlas.Command

/-- Why a command failed. -/
inductive CommandError where
  | unknownCommand (word : String) (parent : Verb) (suggestions : List Verb)
  | wrongArguments (expected received : Nat)
  | flag (e : FlagError)
  | project (e : Project.Error)
  | noManifest
  | colorMode (mode : String)
  | outputFormat (format : String)
  | traceLevel (text : String)
  | traceFormat (text : String)
  | traceOutput (e : OutletError)
  | file (e : FileError)
  | manifest (e : Manifest.Error)
  | symbol (e : SymbolError)
  | unknownSymbol (key : String)
  | undeclaredSymbol (key : String)
  | unknownKind (text : String)
  | noEntryPoints
  | findings (errors warnings : Nat)
  | cache (e : Cache.Error)
  | fault (f : Fault)

namespace CommandError

/-- The commands that may have been meant, one a line. -/
def suggestionText (suggestions : List Verb) : String :=
  if suggestions.isEmpty then ""
  else "\n\nDid you mean this?\n" ++ String.join (suggestions.map fun c => "\t" ++ c.name ++ "\n")

def message : CommandError → String
  | .unknownCommand word parent suggestions =>
    "unknown command " ++ Text.quote word ++ " for " ++ Text.quote parent.path ++
      suggestionText suggestions
  | .wrongArguments expected received =>
    "accepts " ++ toString expected ++ " arg(s), received " ++ toString received
  | .flag e => e.message
  | .project e => e.message
  | .noManifest =>
    "no manifest given\nplease pass --manifest or add [graph].manifest to symgraph.toml"
  | .colorMode mode => "unsupported color mode " ++ Text.quote mode ++ " (must be auto, on or off)"
  | .outputFormat format => "unsupported format " ++ Text.quote format
      ++ " (must be pretty or json)"
  | .traceLevel text => "invalid trace level: " ++ TraceLevel.unknownMessage text
  | .traceFormat text => "invalid trace format: " ++ TraceFormat.unknownMessage text
  | .traceOutput e => "failed to create tracer: " ++ e.message
  | .file e => e.message
  | .manifest e => e.message
  | .symbol e => e.message
  | .unknownSymbol key => "unknown symbol " ++ Text.quote key
  | .undeclaredSymbol key => "symbol " ++ Text.quote key ++ " is not declared"
  | .unknownKind text => Kind.unknownMessage text
  | .noEntryPoints => "no entry points: pass symbols or set [graph].entry in symgraph.toml"
  | .findings errors warnings =>
    toString errors ++ " error(s), " ++ toString warnings ++ " warning(s)"
  | .cache e => e.message
  | .fault f => f.message

end CommandError

/-- Steps of a command. -/
abbrev CommandM (m : Type → Type) (α : Type) : Type :=
  ExceptT CommandError m α

namespace CommandM

variable {m : Type → Type} [Monad m]

def host {α : Type} (step : m α) : CommandM m α :=
  ExceptT.lift step

def orFail {ε α : Type} (wrap : ε → CommandError) (result : Except ε α) : CommandM m α :=
  match result with
  | .ok a => return a
  | .error e => throw (wrap e)

end CommandM

end SymbolAtlas.Command
