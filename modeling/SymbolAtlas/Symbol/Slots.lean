import SymbolAtlas.Symbol.Atlas

set_option autoImplicit false

/-! # Slots that are filled once

Attributes, direct dependencies, the template and the overridden member of a symbol are set once and
never change afterwards. Overriding also registers the overriding symbol with the overridden one. -/

namespace SymbolAtlas.AtlasM

def setAttributes (r : SymbolRef) (attrs : List Attribute) : AtlasM Unit := do
  let s ← read r
  if s.attributes.isSome then violate .attributesAlreadySet (some r)
  update r fun s => { s with attributes := some attrs }

/-- Stores the direct dependencies of a symbol. Repeated and missing ones are kept as given. -/
def setDependencies (r : SymbolRef) (deps : List (Option SymbolRef)) : AtlasM Unit := do
  let s ← read r
  if s.dependencies.isSome then violate .dependenciesAlreadySet (some r)
  update r fun s => { s with dependencies := some deps }

/-- Links a constructed symbol to the generic definition it was made from. -/
def setTemplate (s template : Option SymbolRef) : AtlasM Unit := do
  if template = none ∨ template = s then violate .templateNotOther s
  let r ← receiver s
  if (← read r).template.isSome then violate .templateAlreadySet s
  update r fun s => { s with template := template }

/-- Registers a symbol among the implementations of another; a symbol that is there already is not
added again. -/
def addImplementation (r : SymbolRef) (implementation : Option SymbolRef) : AtlasM Unit := do
  match implementation with
  | none => return
  | some i =>
    if i = r then return
    let s ← read r
    if s.implementations.contains i then return
    update r fun s => { s with implementations := s.implementations ++ [i] }

/-- Records the member that a symbol overrides and registers the symbol there. -/
def setOverridden (s base : Option SymbolRef) : AtlasM Unit := do
  match base with
  | none => violate .overriddenNotOther s
  | some b =>
    if base = s then violate .overriddenNotOther s
    let r ← receiver s
    if (← read r).overridden.isSome then violate .overriddenAlreadySet s
    update r fun s => { s with overridden := some b }
    addImplementation b (some r)

/-- Declares the direct dependencies of a symbol final. -/
def markBound (r : SymbolRef) : AtlasM Unit := do
  let _ ← read r
  update r fun s => { s with bound := true }

/-- Runs the step that binds a symbol and marks it bound if the step succeeds. A symbol that is
bound already is left alone. -/
def bind (r : SymbolRef) (step : AtlasM Unit) : AtlasM Unit := do
  if (← read r).bound then return
  step
  markBound r

def directDependencies (r : SymbolRef) : AtlasM (List (Option SymbolRef)) := do
  let s ← read r
  if !s.bound then violate .notBound (some r)
  return s.direct

/-- The symbols of one kind among some names, in their order. -/
def ofKind (kind : Kind) : List (Option SymbolRef) → AtlasM (List SymbolRef)
  | [] => return []
  | ref :: rest => do
    let r ← receiver ref
    let s ← read r
    let tail ← ofKind kind rest
    return if s.kind = kind then r :: tail else tail

def directDependenciesOf (r : SymbolRef) (kind : Kind) : AtlasM (List SymbolRef) := do
  ofKind kind (← directDependencies r)

end SymbolAtlas.AtlasM
