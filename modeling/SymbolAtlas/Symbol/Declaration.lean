import SymbolAtlas.Source.Span
import SymbolAtlas.Symbol.Flags
import SymbolAtlas.Symbol.Kind

set_option autoImplicit false

/-! # Declarations

What is known of a program entity before it becomes a symbol. Two declarations with the same key
are the same entity. An outline is a finite list of declarations that may name each other as the
declaring type; nothing keeps such links from running in a circle. -/

namespace SymbolAtlas

/-- A declared entity. -/
structure Declaration where
  key : String
  name : String
  kind : Kind
  flags : Flags := {}
  /-- Where it was declared, if that is known. -/
  span : Option Span := none
  deriving DecidableEq, Repr, Inhabited

/-- A declaration and the place of its declaring type in the outline. -/
structure Outline.Item where
  declaration : Declaration
  owner : Option Nat := none
  deriving DecidableEq, Repr

/-- Declarations that may name each other as the declaring type. -/
structure Outline where
  items : Array Outline.Item := #[]

namespace Outline

def get? (o : Outline) (i : Nat) : Option Declaration :=
  o.items[i]?.map Item.declaration

/-- The place of the declaring type of the declaration at `i`. -/
def owner? (o : Outline) (i : Nat) : Option Nat :=
  o.items[i]?.bind Item.owner

/-- A chain of declarations, each declared by the next. -/
def ofChain (chain : List Declaration) : Outline where
  items := (chain.mapIdx fun i d =>
    { declaration := d, owner := if i + 1 < chain.length then some (i + 1) else none }).toArray

end Outline

end SymbolAtlas
