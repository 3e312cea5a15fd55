import SymbolAtlas.Binding.Entry

set_option autoImplicit false

/-! # The stages of a run

First every entry is declared, then every symbol is bound, then every closure is computed. A stage
is a traced and timed activity. -/

namespace SymbolAtlas.Binding

open Manifest

/-- How a stage ended: what its trace shows, and what its timing notes. -/
structure StageEnd where
  detail : String := ""
  note : String := ""
  extra : List (String × String) := []

/-- Runs a stage, unless the run has failed. -/
def stage (name : String) (body : TraceSpan → RunM StageEnd) (run : Run) : Run :=
  if run.error.isSome then run
  else
    let (place, timer) := run.timer.begin name run.clock
    let (span, trace) := (TraceM.begin .phase name run.span.id).run run.trace
    let (result, run) := (body span).run.run { run with timer, trace }
    let close (detail note : String) (span : TraceSpan) (run : Run) : Run :=
      { run with
        trace := ((TraceM.finish span detail).run run.trace).2
        timer := run.timer.finish place note run.clock }
    match result with
    | .ok ending =>
      let (span, trace) :=
        (ending.extra.foldlM (fun s (k, v) => TraceM.remark s k v) span).run run.trace
      close ending.detail ending.note span { run with trace }
    | .error e => { close "failed" "failed" span run with error := some e }

def declareFrom (outline : Outline) : (entries : List Entry) → (i : Nat) → RunM (List SymbolRef)
  | [], _ => return []
  | e :: entries, i => do
    let r ← RunM.guarded e (RunM.onAtlas (AtlasM.declare table outline i))
    return r :: (← declareFrom outline entries (i + 1))

/-- Links a symbol with the definition that it was made from, which may be declared after it. -/
def linkTemplate (e : Entry) (r : SymbolRef) : RunM Unit := do
  let template := e.draft.template
  if template = "" then return
  match ← RunM.find? template with
  | none =>
    RunM.report (.error .unresolvedReference e.span e.key
      (Text.quote e.key ++ " is constructed from undeclared symbol " ++ Text.quote template))
  | some o => RunM.guarded e (RunM.onAtlas (AtlasM.setTemplate (some r) (some o)))

/-- The entries of a run with their symbols. Every entry is declared by then. -/
def members : RunM (List (Entry × SymbolRef)) := do
  let run ← get
  return run.program.entries.toList.filterMap fun e =>
    (run.atlas.find? table e.key).map (e, ·)

def declareAll (_ : TraceSpan) : RunM StageEnd := do
  let program := (← get).program
  let _ ← declareFrom program.outline program.entries.toList 0
  for (e, r) in ← members do linkTemplate e r
  let count := toString (((← get).atlas.members table).length)
  return { note := count ++ " symbols", extra := [("symbols", count)] }

def checkCanceled : RunM Unit := do
  if (← get).canceled then throw .canceled

/-- Binds the symbol of an entry as a traced activity. -/
def bindOne (parent : TraceSpan) (e : Entry) (r : SymbolRef) : RunM Unit := do
  checkCanceled
  let span ← RunM.traced (TraceM.begin .symbol e.key parent.id)
  tryCatch (RunM.guarded e (bindEntry e r)) fun err => do
    RunM.traced (TraceM.finish span "")
    throw err
  RunM.traced (TraceM.finish span "")

def bindAll (span : TraceSpan) : RunM StageEnd := do
  for (e, r) in ← members do bindOne span e r
  return {}

/-- Computes the closure of a symbol. -/
def closeOne (parent : TraceSpan) (e : Entry) (r : SymbolRef) : RunM Unit := do
  checkCanceled
  let all ← RunM.guarded e (RunM.onAtlas (AtlasM.allDependencies r))
  RunM.traced (TraceM.point .symbol e.key (toString all.length ++ " deps") parent.id)

def closeAll (span : TraceSpan) : RunM StageEnd := do
  for (e, r) in ← members do closeOne span e r
  let note := toString ((← get).atlas.stats table).1 ++ " closures"
  return { detail := note, note }

/-- The stages of a run, in order. -/
def stages : List (Run → Run) :=
  [stage "declare" declareAll, stage "bind" bindAll, stage "close" closeAll]

/-- What a run is asked to do. -/
structure Options where
  /-- How many diagnostics are kept; all of them if this is not positive. -/
  maxDiagnostics : Int := 0
  /-- How many narrowed closures the table keeps. -/
  filterCache : Int := 0
  canceled : Bool := false
  /-- The traced activity that the run is part of; zero if there is none. -/
  caller : UInt64 := 0

def start (program : Program) (o : Options) (trace : Trace) : Run :=
  let (span, trace) := (TraceM.begin .driver "binder" o.caller).run trace
  { program, trace, span
    atlas := ⟨#[.empty o.filterCache]⟩
    bag := .empty o.maxDiagnostics
    canceled := o.canceled }

def finish (run : Run) : Run :=
  { run with trace := ((TraceM.finish run.span "").run run.trace).2 }

def run (program : Program) (o : Options) (trace : Trace) : Run :=
  finish (stages.foldl (fun r s => s r) (start program o trace))

/-- Builds the symbol graph of a program and times the stages by the clock of the host. -/
def timedRun {m : Type → Type} [Monad m] [Host m] (program : Program) (o : Options)
    (trace : Trace) : m Run := do
  let mut run := start program o trace
  for stage in stages do
    if run.error.isNone then
      let before ← Host.ticks
      let after := stage { run with clock := before }
      let now ← Host.ticks
      run := { after with timer := after.timer.extendLast now }
  return finish run

end SymbolAtlas.Binding
