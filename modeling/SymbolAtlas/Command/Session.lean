import SymbolAtlas.Binding.Stages
import SymbolAtlas.Command.Settings
import SymbolAtlas.Diagnostic.Document
import SymbolAtlas.Order.Cycles
import SymbolAtlas.Text.Columns
import SymbolAtlas.Trace.Outlet

set_option autoImplicit false

/-! # Sessions

A session is a manifest that has been read and bound, with everything found on the way. -/

namespace SymbolAtlas.Command

variable {m : Type → Type} [Monad m] [Host m]

/-- The tracer of a command and where its trace is written. -/
structure Tracing where
  tracer : Tracer := .nop
  outlet : Outlet := .errorOutput

/-- A bound manifest. -/
structure Session where
  settings : Settings
  files : FileSet
  bag : Bag
  run : Binding.Run
  workingDir : String

/-- The paths of diagnostics are shown from the directory of the project. -/
def pathView (st : Settings) (workingDir : String) : PathView :=
  { style := .relative, baseDir := st.baseDir, workingDir }

/-- The diagnostics as people read them; nothing if there are none, or no errors and only errors
matter. -/
def diagnosticBytes (st : Settings) (workingDir : String) (files : FileSet) (bag : Bag) :
    Except Fault (List UInt8) :=
  if bag.items.isEmpty || (st.quiet && !bag.hasErrors) then .ok []
  else
    Pretty.document files
      { color := st.color, context := 1, paths := pathView st workingDir, notes := true } bag.sort

def printDiagnostics (st : Settings) (workingDir : String) (files : FileSet) (bag : Bag) :
    CommandM m Unit := do
  let bytes ← CommandM.orFail .fault (diagnosticBytes st workingDir files bag)
  CommandM.host (Host.printErrorBytes bytes)

/-- Reads and binds the manifest. Without a symbol graph the findings are printed and the command
fails; if a contract was broken, the latest events follow. -/
def openSession (p : Parsed) (tracing : Tracing) : CommandM m Session := do
  let st ← settings p
  let workingDir ← CommandM.host Host.workingDir
  let (files, loaded, reports) ← CommandM.host (Manifest.load {} st.manifest)
  let bag := (Bag.empty st.maxDiagnostics).addAll reports
  match loaded with
  | .error e =>
    printDiagnostics st workingDir files bag
    throw (.manifest e)
  | .ok program =>
    let now ← CommandM.host Host.now
    let run ← CommandM.host (Binding.timedRun program { maxDiagnostics := st.maxDiagnostics }
      { tracer := tracing.tracer, now })
    let trace ← CommandM.host (tracing.outlet.flush run.trace)
    let bag := bag.merge run.bag
    match run.error with
    | none => return { settings := st, files, bag, run := { run with trace }, workingDir }
    | some e =>
      printDiagnostics st workingDir files bag
      if e.isInvalidState || e.isNotType then
        CommandM.host (Host.printError ("--- recent trace events ---\n" ++ trace.tracer.dump))
      throw (.symbol e)

namespace Session

def diagnostics (s : Session) : Except Fault (List UInt8) :=
  diagnosticBytes s.settings s.workingDir s.files s.bag

/-- Prints the findings of a session to the error output. -/
def printFindings (s : Session) : CommandM m Unit :=
  printDiagnostics s.settings s.workingDir s.files s.bag

/-- The symbol of a key as it is typed: the manifest has to have an entry with the key, and that
entry a symbol. -/
def lookup (s : Session) (key : String) : Except CommandError SymbolRef :=
  match s.run.program.get? (Manifest.normalizeKey key) with
  | none => .error (.unknownSymbol key)
  | some e =>
    match s.run.atlas.find? Binding.table e.key with
    | none => .error (.undeclaredSymbol e.key)
    | some r => .ok r

/-- Asks something of the symbol graph; what the answer leaves behind is kept. -/
def ask {α : Type} (s : Session) (question : AtlasM α) : Except SymbolError α × Session :=
  let (answer, atlas) := question.run.run s.run.atlas
  (answer, { s with run := { s.run with atlas } })

def query {α : Type} (s : Session) (question : AtlasM α) : CommandM m (α × Session) := do
  let (answer, s) := s.ask question
  return (← CommandM.orFail .symbol answer, s)

/-- The emission order, with the reports on cycles added to the findings. -/
def order (s : Session) : CommandM m (Topo × Session) := do
  let graph ← CommandM.orFail .symbol (Graph.ofTable s.run.atlas Binding.table)
  let topo ← CommandM.orFail .fault (Topo.ofGraph graph)
  let reports := topo.cycleReports s.run.atlas Binding.table
  return (topo, { s with bag := s.bag.addAll reports })

def printTimings (s : Session) : m Unit := do
  if s.settings.timings then Host.printError s.run.timer.summary

/-- Keeps the closures of a run without errors. What goes wrong is only mentioned. -/
def storeCache (s : Session) : m Unit := do
  if !s.settings.useCache || s.bag.hasErrors then return
  match ← Cache.Store.openFor "symgraph" with
  | .error e => Host.printError ("cache: " ++ e.message ++ "\n")
  | .ok store =>
    let program := s.run.program
    let (payload, _) :=
      s.ask (Cache.Payload.snapshot program.path program.digest Binding.table s.run.timer)
    match payload with
    | .error e => Host.printError ("cache: " ++ e.message ++ "\n")
    | .ok payload =>
      match ← store.put program.digest (payload.map Text.Utf8.encode) with
      | .error e => Host.printError ("cache: " ++ e.message ++ "\n")
      | .ok _ => return

end Session

/-- The cached closures of the manifest, if there are any. -/
def cachedClosures (p : Parsed) : m (Option Cache.StoredPayload) := do
  match ← (settings p).run with
  | .error _ => return none
  | .ok st =>
    if !st.useCache then return none
    match ← FileSet.load {} st.manifest with
    | (.error _, _) => return none
    | (.ok id, files) =>
      match files.get? id with
      | none => return none
      | some file =>
        match ← Cache.Store.openFor "symgraph" with
        | .error _ => return none
        | .ok store =>
          match ← store.get file.digest with
          | .ok found => return found
          | .error _ => return none

end SymbolAtlas.Command
