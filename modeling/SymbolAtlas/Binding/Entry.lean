import SymbolAtlas.Binding.Attributes
import SymbolAtlas.Binding.Run

set_option autoImplicit false

/-! # Binding an entry

Binding gives a symbol its attributes and its direct dependencies, and links it with the symbols it
overrides or implements. A key that names no symbol is reported and dropped. -/

namespace SymbolAtlas.Binding

open Manifest

/-- A dependency of an entry: the symbol of a key, or the type that the entry is declared in. -/
inductive Need where
  | key (k : String)
  | containing
  deriving DecidableEq, Repr

/-- The dependencies that an entry of its kind has, in order. -/
def needs (e : Entry) : List Need :=
  let d := e.draft
  match e.kind with
  | .type =>
    .key d.base :: d.implements.map .key ++ .containing :: d.references.map .key
  | .method =>
    .key d.returns :: d.params.map .key ++ d.references.map .key ++ [.containing]
  | .field | .property | .localVariable | .parameter =>
    .key d.type :: d.references.map .key
  | .invalid | .external => []

/-- The symbol of a key that an entry names; empty keys name none. -/
def resolve (e : Entry) (key : String) : RunM (Option SymbolRef) := do
  if key = "" then return none
  match ← RunM.find? key with
  | some r => return some r
  | none =>
    RunM.report (.error .unresolvedReference e.span e.key
      (Text.quote e.key ++ " references undeclared symbol " ++ Text.quote key))
    return none

def needed (e : Entry) (r : SymbolRef) : Need → RunM (Option SymbolRef)
  | .key k => resolve e k
  | .containing => do return (← RunM.onAtlas (AtlasM.read r)).containing

def dependencies (e : Entry) (r : SymbolRef) :
    List Need → (found : List SymbolRef) → RunM (List SymbolRef)
  | [], found => return found
  | need :: rest, found => do
    match ← needed e r need with
    | none => dependencies e r rest found
    | some d => dependencies e r rest (if d ∈ found then found else found ++ [d])

/-- Registers a type with each interface it implements; only an interface can be implemented. -/
def implement (e : Entry) (r : SymbolRef) (key : String) : RunM Unit := do
  match ← RunM.find? key with
  | none => return
  | some target =>
    if (← RunM.onAtlas (AtlasM.read target)).isInterface then
      RunM.onAtlas (AtlasM.addImplementation target (some r))
    else
      RunM.report (.error .notInterface e.span e.key
        (Text.quote e.key ++ " implements " ++ Text.quote key ++ ", which is not an interface"))

/-- Why a member cannot override another; `none` if it can. -/
def overrideRefusal? (a : Atlas) (e : Entry) (r : SymbolRef) : Option SymbolRef → Option String
  | none =>
    some (Text.quote e.key ++ " overrides unknown member " ++ Text.quote e.draft.overrides)
  | some b =>
    match a.symbol? r, a.symbol? b with
    | some s, some base =>
      if b = r ∨ base.kind ≠ s.kind then
        some (s.kind.name ++ " " ++ Text.quote e.key ++ " cannot override " ++ base.kind.name ++
          " " ++ Text.quote e.draft.overrides)
      else if !a.isOverridable base then
        some (Text.quote e.key ++ " overrides " ++ Text.quote e.draft.overrides ++
          ", which is neither virtual nor abstract")
      else none
    | _, _ => none

/-- Links a symbol with the symbols it overrides or implements. -/
def linkHierarchy (e : Entry) (r : SymbolRef) : RunM Unit := do
  if (← RunM.onAtlas (AtlasM.read r)).kind = .type then
    match ← RunM.find? e.draft.base with
    | none => pure ()
    | some base => RunM.onAtlas (AtlasM.addImplementation base (some r))
    for key in e.draft.implements do implement e r key
  else if e.draft.overrides = "" then return
  else
    let base ← RunM.find? e.draft.overrides
    match overrideRefusal? (← get).atlas e r base with
    | some reason => RunM.report (.error .badOverride e.span e.key reason)
    | none => RunM.onAtlas (AtlasM.setOverridden (some r) base)

def attach (e : Entry) (r : SymbolRef) : RunM Unit := do
  for d in attributeReports e do RunM.report d
  RunM.onAtlas (AtlasM.setAttributes r (attributes e))

/-- Binds the symbol of an entry. One with its body outside the program is bound from the start and
only gets its attributes. -/
def bindEntry (e : Entry) (r : SymbolRef) : RunM Unit := do
  let bound := (← RunM.onAtlas (AtlasM.read r)).bound
  attach e r
  if !bound then
    let deps ← dependencies e r (needs e) []
    RunM.onAtlas (AtlasM.setDependencies r (deps.map some))
    linkHierarchy e r
    RunM.onAtlas (AtlasM.markBound r)

end SymbolAtlas.Binding
