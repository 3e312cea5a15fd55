import SymbolAtlas.Fault
import SymbolAtlas.Text.Quoted

set_option autoImplicit false

/-! # Errors of symbol operations

Most errors mean that phases ran out of order: a slot that may be filled once was filled again, or
a question was put to a symbol that is not bound yet. -/

namespace SymbolAtlas

/-- How the contract of a symbol was broken. -/
inductive Violation where
  | attributesAlreadySet
  | dependenciesAlreadySet
  | templateNotOther
  | templateAlreadySet
  | overriddenNotOther
  | overriddenAlreadySet
  | notBound
  | unboundReached
  deriving DecidableEq, Repr

namespace Violation

def operation : Violation → String
  | .attributesAlreadySet => "SetAttributes"
  | .dependenciesAlreadySet => "SetDependencies"
  | .templateNotOther | .templateAlreadySet => "SetOriginal"
  | .overriddenNotOther | .overriddenAlreadySet => "SetOverridden"
  | .notBound => "DirectDependencies"
  | .unboundReached => "AllDependencies"

def reason : Violation → String
  | .attributesAlreadySet => "attributes already set"
  | .dependenciesAlreadySet => "dependencies already set"
  | .templateNotOther => "original must be another symbol"
  | .templateAlreadySet => "original already set"
  | .overriddenNotOther => "overridden member must be another symbol"
  | .overriddenAlreadySet => "overridden member already set"
  | .notBound => "symbol is not bound"
  | .unboundReached => "cannot gather dependencies from unbound symbol"

end Violation

/-- Why an entity could not be declared. -/
inductive DeclareError where
  | noDeclaration
  | emptyKey
  | containsItself (key : String)
  | ownerNotType (owner key : String)
  deriving DecidableEq, Repr

def DeclareError.message : DeclareError → String
  | .noDeclaration => "symbols: nil source"
  | .emptyKey => "symbols: source has an empty key"
  | .containsItself key => "symbols: " ++ Text.quote key ++ " contains itself"
  | .ownerNotType owner key =>
    "symbols: declaring " ++ Text.quote owner ++ " of " ++ Text.quote key ++
      ": containing entity is not a type"

/-- Why an operation on symbols failed. -/
inductive SymbolError where
  /-- A contract was broken on the symbol of the given key. -/
  | contract (violation : Violation) (symbol : String)
  /-- An entity could not be declared. -/
  | declare (cause : DeclareError)
  /-- The step that binds a symbol gave up. -/
  | binding (message : String)
  /-- The work was cancelled. -/
  | canceled
  /-- There was no program to work on. -/
  | noProgram
  /-- A fault. -/
  | fault (fault : Fault)
  /-- Another error, with the place where it was met. -/
  | within (place : String) (inner : SymbolError)
  deriving DecidableEq, Repr

namespace SymbolError

def message : SymbolError → String
  | .contract violation symbol =>
    violation.operation ++ " " ++ symbol ++ ": " ++ violation.reason
  | .declare cause => cause.message
  | .binding message => message
  | .canceled => "context canceled"
  | .noProgram => "binder: nil program"
  | .fault f => f.message
  | .within place inner => place ++ ": " ++ inner.message

def root : SymbolError → SymbolError
  | .within _ inner => inner.root
  | e => e

def isInvalidState (e : SymbolError) : Bool :=
  match e.root with
  | .contract _ _ => true
  | _ => false

def isNotType (e : SymbolError) : Bool :=
  match e.root with
  | .declare (.ownerNotType _ _) => true
  | _ => false

def isCanceled (e : SymbolError) : Bool :=
  e.root == .canceled

end SymbolError

end SymbolAtlas
