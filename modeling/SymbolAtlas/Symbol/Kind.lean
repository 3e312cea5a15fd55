import SymbolAtlas.Text.Blank
import SymbolAtlas.Text.Lowercase
import SymbolAtlas.Text.Quoted

set_option autoImplicit false

/-! # Kinds of symbols

What program entity a symbol stands for. A manifest may spell a kind in several ways; each kind has
one name that is printed. -/

namespace SymbolAtlas

/-- What program entity a symbol stands for. -/
inductive Kind where
  | invalid
  | type
  | method
  | field
  | property
  | localVariable
  | parameter
  | external
  deriving DecidableEq, Repr, Inhabited

namespace Kind

def name : Kind → String
  | .invalid => "invalid"
  | .type => "type"
  | .method => "method"
  | .field => "field"
  | .property => "property"
  | .localVariable => "local"
  | .parameter => "parameter"
  | .external => "extern"

def number : Kind → Nat
  | .invalid => 0
  | .type => 1
  | .method => 2
  | .field => 3
  | .property => 4
  | .localVariable => 5
  | .parameter => 6
  | .external => 7

def all : List Kind :=
  [.invalid, .type, .method, .field, .property, .localVariable, .parameter, .external]

/-- The kind of a number; any number past the last is invalid. -/
def ofNumber (n : Nat) : Kind :=
  all[n]?.getD .invalid

/-- The kind of a printed name; any other text is invalid. -/
def ofName (s : String) : Kind :=
  (all.find? (·.name == s)).getD .invalid

/-- The spellings that a manifest and the command line accept. -/
def spellings : List (String × Kind) := [
  ("type", .type), ("class", .type), ("struct", .type), ("interface", .type), ("enum", .type),
  ("method", .method), ("function", .method), ("ctor", .method), ("constructor", .method),
  ("field", .field),
  ("property", .property),
  ("local", .localVariable),
  ("parameter", .parameter), ("param", .parameter),
  ("extern", .external)]

/-- The kind of a spelling, whatever its case and the blanks around it. -/
def parse? (s : String) : Option Kind :=
  spellings.lookup (Text.lower (Text.trim s))

def unknownMessage (s : String) : String :=
  "unknown symbol kind " ++ Text.quote s ++
    " (expected: type|method|field|property|local|parameter|extern)"

end Kind

end SymbolAtlas
