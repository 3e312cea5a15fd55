import SymbolAtlas.Diagnostic.Bag
import SymbolAtlas.Manifest.Program
import SymbolAtlas.Symbol.Closure
import SymbolAtlas.Symbol.Declare
import SymbolAtlas.Timing
import SymbolAtlas.Trace.Tracer

set_option autoImplicit false

/-! # The state of a run

A run builds the symbol graph of a program in stages. It collects diagnostics, traces what it does
and times its stages. The first error ends it. -/

namespace SymbolAtlas.Binding

open Manifest

def table : Nat := 0

/-- A run: what it works on and what it has produced so far. -/
structure Run where
  program : Program
  atlas : Atlas
  bag : Bag
  trace : Trace
  timer : Timer := {}
  /-- The reading of the clock, in nanoseconds. -/
  clock : Nat := 0
  /-- The traced activity of the whole run. -/
  span : TraceSpan := {}
  /-- Whether the run was cancelled before it began. -/
  canceled : Bool := false
  error : Option SymbolError := none

/-- Steps of a run. -/
abbrev RunM (α : Type) : Type :=
  ExceptT SymbolError (StateM Run) α

namespace RunM

def onAtlas {α : Type} (step : AtlasM α) : RunM α := do
  let r ← get
  let (result, atlas) := step.run.run r.atlas
  set { r with atlas }
  match result with
  | .ok a => return a
  | .error e => throw e

def traced {α : Type} (step : TraceM α) : RunM α := do
  let r ← get
  let (a, trace) := step.run r.trace
  set { r with trace }
  return a

def report (d : Diagnostic) : RunM Unit :=
  modify fun r => { r with bag := r.bag.add d }

def find? (key : String) : RunM (Option SymbolRef) := do
  return (← get).atlas.find? table key

/-- Runs a step for an entry. An error in it breaks a contract between the stages, so it is reported
as an internal error, unless the run was cancelled. -/
def guarded {α : Type} (e : Entry) (step : RunM α) : RunM α :=
  tryCatch step fun err => do
    if err.isCanceled then throw err
    report (.error .internalError e.span e.key ("internal error: " ++ err.message))
    throw (.within ("binder: " ++ e.key) err)

end RunM

end SymbolAtlas.Binding
