import SymbolAtlas.Command.Error

set_option autoImplicit false

/-! # Settings

Flags are set on the command line, some of them also in a project file. The command line wins. -/

namespace SymbolAtlas.Command

/-- What a command works with. -/
structure Settings where
  manifest : String
  /-- The keys of the entry points. -/
  entry : List String := []
  useCache : Bool := true
  /-- How many diagnostics are kept; all of them if this is not positive. -/
  maxDiagnostics : Int := 100
  color : Bool := false
  quiet : Bool := false
  timings : Bool := false
  /-- The directory that paths are shown from; empty for none. -/
  baseDir : String := ""

/-- Whether output is coloured. By itself it is not, because the output is taken not to be a
terminal. -/
def colorEnabled (p : Parsed) : Except CommandError Bool :=
  let mode := p.text "color" "auto"
  match Text.lower mode with
  | "on" | "always" => .ok true
  | "off" | "never" | "auto" => .ok false
  | _ => .error (.colorMode mode)

/-- The settings of a command line and a project file. -/
def Settings.resolve (p : Parsed) (config : Option Project.Config) :
    Except CommandError Settings := do
  let configured := (config.map (·.manifest)).getD ""
  let manifest :=
    if p.has "manifest" || configured == "" then p.text "manifest" "" else configured
  if manifest == "" then throw .noManifest
  let color ← colorEnabled p
  return {
    manifest, color
    entry := (config.map (·.entry)).getD []
    useCache := ((config.bind (·.cache)).getD true) && !p.switch "no-cache"
    maxDiagnostics := p.integer "max-diagnostics" 100
    quiet := p.switch "quiet"
    timings := p.switch "timings"
    baseDir := (config.map (·.root)).getD "" }

/-- The settings of a command line in the working directory. -/
def settings {m : Type → Type} [Monad m] [Host m] (p : Parsed) : CommandM m Settings := do
  let config ← CommandM.orFail .project (← CommandM.host (Project.discover "."))
  CommandM.orFail id (Settings.resolve p config)

end SymbolAtlas.Command
