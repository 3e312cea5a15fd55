import SymbolAtlas.Command.Queries

set_option autoImplicit false

/-! # Running a command line

The command is found, its flags are read, its arguments are checked, and then it runs. Traces and
profiles are completed also if it fails. -/

namespace SymbolAtlas.Command

variable {m : Type → Type} [Monad m] [Host m]

def usage : String :=
  "Usage:\n  symgraph [command] [flags]\n\nCommands:\n" ++
    String.join (((Verb.children .root).filter (· ≠ .help)).map fun c => "  " ++ c.name ++ "\n")

def checkArgs (c : Verb) (args : List String) : Except CommandError Unit :=
  match c with
  | .deps | .impls => if args.length = 1 then .ok () else .error (.wrongArguments 1 args.length)
  | .order | .check | .version | .cacheClean =>
    match args with
    | [] => .ok ()
    | word :: _ => .error (.unknownCommand word c [])
  | _ => .ok ()

/-! ## Tracing and profiles -/

/-- The trace that flags ask for: its level, its form and its file. A file without a level asks for
phases. -/
def traceRequest (p : Parsed) : Except CommandError (TraceLevel × TraceFormat × String) := do
  let output := p.text "trace" ""
  let levelText := p.text "trace-level" "error"
  let formatText := p.text "trace-format" "auto"
  let some level := TraceLevel.parse? levelText | throw (.traceLevel levelText)
  let some format := TraceFormat.parse? formatText | throw (.traceFormat formatText)
  let level := if output != "" && !p.has "trace-level" then .phase else level
  return (level, format, output)

/-- Makes the tracer that flags ask for, and its file. -/
def setupTracing (p : Parsed) : CommandM m Tracing := do
  let (level, format, output) ← CommandM.orFail id (traceRequest p)
  let tracer := Tracer.ofLevel level (format.forPath output) 0
  let outlet ← CommandM.orFail .traceOutput (← CommandM.host (Outlet.openFor tracer output))
  return { tracer, outlet }

/-- The profiles that flags ask for: their files are made, but nothing is measured. The profile of
memory comes last, when the command has ended. -/
def startProfiles (p : Parsed) : CommandM m (Option String) := do
  let cpu := p.text "cpuprofile" ""
  let memory := p.text "memprofile" ""
  let events := p.text "runtime-trace" ""
  if cpu != "" then CommandM.orFail .file (← CommandM.host (Host.writeFile cpu []))
  if events != "" then
    match ← CommandM.host (Host.writeFile events []) with
    | .ok _ => pure ()
    | .error e =>
      if memory != "" then
        let _ ← CommandM.host (Host.writeFile memory [])
      throw (.file e)
  return if memory == "" then none else some memory

def printFailure (message : String) : m Unit :=
  Host.printError ("symgraph: " ++ message ++ "\n")

/-- Makes the profile of memory. That it cannot be made does not change the outcome. -/
def finishProfiles (memory : Option String) : m Unit := do
  match memory with
  | none => return
  | some path =>
    match ← Host.writeFile path [] with
    | .ok _ => return
    | .error e => printFailure e.message

/-! ## Running -/

def perform (c : Verb) (p : Parsed) (tracing : Tracing) : CommandM m Unit :=
  match c with
  | .deps => deps p tracing (p.args.headD "")
  | .order => order p tracing
  | .required => required p tracing
  | .impls => impls p tracing (p.args.headD "")
  | .check => check p tracing
  | .cacheClean => cacheClean p
  | .version => version p
  | .root | .cache | .help | .completion => CommandM.host (Host.print usage)

def runs : Verb → Bool
  | .root | .cache | .help | .completion => false
  | _ => true

/-- Reads the flags of a command and runs it. The result names the profile of memory to be made. -/
def execute (c : Verb) (args : List String) : m (Except CommandError Unit) := do
  match parse c.flags args with
  | .error e => return .error (.flag e)
  | .ok p =>
    if p.switch "help" then
      Host.print usage
      return .ok ()
    else if p.switch "version" then
      Host.print ("symgraph version " ++ Version.current.trimmed.number ++ "\n")
      return .ok ()
    else if !runs c then
      Host.print usage
      return .ok ()
    else
      match checkArgs c p.args with
      | .error e => return .error e
      | .ok _ =>
        match ← (setupTracing p).run with
        | .error e => return .error e
        | .ok tracing =>
          match ← (startProfiles p).run with
          | .error e => return .error e
          | .ok memory =>
            let result ← (perform c p tracing).run
            finishProfiles memory
            return result

/-- Runs a command line. The result is the exit code. -/
def main (args : List String) : m UInt32 := do
  let (c, rest) := Verb.find 3 .root args
  let result ←
    match c, c.words (rest.length + 1) rest with
    | .root, word :: _ =>
      pure (.error (.unknownCommand word .root (Verb.suggestions word)))
    | _, _ => execute c rest
  match result with
  | .ok _ => return 0
  | .error e =>
    printFailure e.message
    return 1

end SymbolAtlas.Command
