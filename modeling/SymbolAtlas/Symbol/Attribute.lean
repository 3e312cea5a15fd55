set_option autoImplicit false

/-! # Attributes of symbols

Annotations on a declaration. Five of them have a meaning of their own; every other one keeps its
name and its arguments. -/

namespace SymbolAtlas

/-- An annotation on a declaration. -/
inductive Attribute where
  /-- A field that is synchronised over the network, with an interpolation mode. -/
  | synced (mode : String)
  /-- A method that may call itself. -/
  | recursive
  /-- The relative update order of a behaviour type. -/
  | executionOrder (order : Int)
  /-- Writes to a field go through the named property. -/
  | fieldCallback (target : String)
  /-- The sync mode of a behaviour type. -/
  | behaviourSync (mode : String)
  /-- Any other annotation. -/
  | named (name : String) (args : List String)
  deriving DecidableEq, Repr

namespace Attribute

/-- The family of an annotation. -/
inductive Family where
  | synced | recursive | executionOrder | fieldCallback | behaviourSync | named
  deriving DecidableEq, Repr

/-- The family that a manifest writes by a name; every other name is that of a named annotation. -/
def Family.ofName (name : String) : Family :=
  ([("synced", synced), ("recursive", recursive), ("execution_order", executionOrder),
    ("field_callback", fieldCallback), ("behaviour_sync", behaviourSync)].lookup name).getD named

def family : Attribute → Family
  | .synced _ => .synced
  | .recursive => .recursive
  | .executionOrder _ => .executionOrder
  | .fieldCallback _ => .fieldCallback
  | .behaviourSync _ => .behaviourSync
  | .named _ _ => .named

/-- The annotation that is reported when a symbol carries none of a family. -/
def blank : Family → Attribute
  | .synced => .synced ""
  | .recursive => .recursive
  | .executionOrder => .executionOrder 0
  | .fieldCallback => .fieldCallback ""
  | .behaviourSync => .behaviourSync ""
  | .named => .named "" []

/-- The name by which a manifest writes an annotation. -/
def name : Attribute → String
  | .synced _ => "synced"
  | .recursive => "recursive"
  | .executionOrder _ => "execution_order"
  | .fieldCallback _ => "field_callback"
  | .behaviourSync _ => "behaviour_sync"
  | .named name _ => name

/-- A named annotation with its arguments in parentheses. -/
def namedText (name : String) (args : List String) : String :=
  if args.isEmpty then name else name ++ "(" ++ ", ".intercalate args ++ ")"

def first? (family : Family) (attrs : List Attribute) : Option Attribute :=
  attrs.find? (·.family = family)

end Attribute

end SymbolAtlas
