import SymbolAtlas.Digest.Fnv
import SymbolAtlas.Source.Interner
import SymbolAtlas.Symbol.Attribute
import SymbolAtlas.Symbol.Declaration
import SymbolAtlas.Symbol.Error
import SymbolAtlas.Symbol.FilterCache
import SymbolAtlas.Text.Utf8

set_option autoImplicit false

/-! # The atlas: tables of symbols

A table holds one symbol for each declared key, numbered from one in the order of declaration, and
finds it by the number of the interned key. Numbers are unbounded here; a program with numbers of 32
bits gives up at the symbol number `2 ^ 32`. An atlas holds several tables, because a symbol of one
may depend on a symbol of another. A symbol is named by its table and its number.

Operations that change the atlas are programs in `AtlasM`: a failed operation keeps the changes made
before it failed. -/

namespace SymbolAtlas

/-- Names a symbol: its table, and its number there, counted from one. -/
structure SymbolRef where
  table : Nat
  id : Nat
  deriving DecidableEq, Repr, Inhabited

/-- A node of the dependency graph. The slots that are options are filled at most once. -/
structure Symbol where
  declaration : Declaration
  flags : Flags
  /-- The type that the symbol is declared in. -/
  containing : Option SymbolRef
  /-- Whether the direct dependencies are final. -/
  bound : Bool
  attributes : Option (List Attribute) := none
  /-- The direct dependencies as they were given; `none` among them names no symbol. -/
  dependencies : Option (List (Option SymbolRef)) := none
  /-- The generic definition that the symbol was constructed from. -/
  template : Option SymbolRef := none
  /-- The member that the symbol overrides. -/
  overridden : Option SymbolRef := none
  /-- Every symbol that is reached from the direct dependencies, once it was computed. -/
  closure : Option (List SymbolRef) := none
  /-- The members that override the symbol or the types that implement it. -/
  implementations : List SymbolRef := []

namespace Symbol

/-- The symbol of a declaration. One with its body outside the program has nothing to bind. -/
def ofDeclaration (d : Declaration) (containing : Option SymbolRef) : Symbol :=
  let flags := if d.kind = .external then d.flags.union .external else d.flags
  { declaration := d, flags := flags, containing := containing, bound := flags.meets .external }

def key (s : Symbol) : String :=
  s.declaration.key

def kind (s : Symbol) : Kind :=
  s.declaration.kind

def isStatic (s : Symbol) : Bool :=
  s.flags.meets .static

/-- Whether the symbol's body is outside the program. -/
def isExternal (s : Symbol) : Bool :=
  s.flags.meets .external

def isInterface (s : Symbol) : Bool :=
  s.flags.meets .interface

/-- A hash of the key. -/
def hash (s : Symbol) : UInt64 :=
  Digest.fnv1a (Text.Utf8.encode s.key)

/-- The direct dependencies, none if they were never set. -/
def direct (s : Symbol) : List (Option SymbolRef) :=
  s.dependencies.getD []

end Symbol

/-- A table of symbols; symbol number `n` stands at place `n - 1`. -/
structure Table where
  symbols : Array Symbol := #[]
  strings : Interner := {}
  /-- The number of each symbol, by the number of its interned key. -/
  registry : List (Nat × Nat) := []
  /-- Closures narrowed to a kind, by number and kind. -/
  filtered : FilterCache (Nat × Kind) (List SymbolRef)
  /-- How many closures were computed. -/
  closures : Nat := 0
  /-- How often a narrowed closure was found in the cache. -/
  filterHits : Nat := 0

namespace Table

/-- The number of narrowed closures that a table keeps if nothing else is said. -/
def defaultCapacity : Nat := 1024

/-- The policy under which a table keeps the `capacity` narrowed closures that were used last. -/
def policy (capacity : Int) : CachePolicy (Nat × Kind) (List SymbolRef) :=
  .latest (if capacity ≤ 0 then defaultCapacity else capacity.toNat)

/-- An empty table that keeps narrowed closures under a policy. -/
def under (policy : CachePolicy (Nat × Kind) (List SymbolRef)) : Table where
  filtered := { policy }

/-- An empty table that keeps up to `capacity` narrowed closures. -/
def empty (capacity : Int) : Table :=
  under (policy capacity)

def get? (t : Table) (id : Nat) : Option Symbol :=
  if id = 0 then none else t.symbols[id - 1]?

/-- The number of the symbol that is registered for a key. -/
def find? (t : Table) (key : String) : Option Nat :=
  (t.strings.find? key).bind fun number => t.registry.lookup number

def size (t : Table) : Nat :=
  t.symbols.size

end Table

/-- Tables of symbols. -/
structure Atlas where
  tables : Array Table := #[]

namespace Atlas

def symbol? (a : Atlas) (r : SymbolRef) : Option Symbol :=
  a.tables[r.table]?.bind (·.get? r.id)

def size (a : Atlas) : Nat :=
  (a.tables.toList.map Table.size).foldr (· + ·) 0

/-- The names of a table's symbols, in the order of declaration. -/
def members (a : Atlas) (table : Nat) : List SymbolRef :=
  match a.tables[table]? with
  | none => []
  | some t => (List.range t.size).map fun i => ⟨table, i + 1⟩

def find? (a : Atlas) (table : Nat) (key : String) : Option SymbolRef :=
  (a.tables[table]?.bind (·.find? key)).map fun id => ⟨table, id⟩

def key? (a : Atlas) (r : SymbolRef) : Option String :=
  (a.symbol? r).map Symbol.key

def text (a : Atlas) (r : Option SymbolRef) : String :=
  (r.bind a.key?).getD "<nil>"

/-- Whether two names stand for the same entity: the same symbol, or symbols with the same key. -/
def equal (a : Atlas) (r s : Option SymbolRef) : Bool :=
  match r, s with
  | none, none => true
  | some r, some s => r = s || a.key? r == a.key? s
  | _, _ => false

/-- Whether a symbol may be overridden: it is virtual or abstract, or declared in an interface. -/
def isOverridable (a : Atlas) (s : Symbol) : Bool :=
  s.flags.meets (.union .virtual .abstract) ||
    ((s.containing.bind a.symbol?).any Symbol.isInterface)

/-- How many closures a table computed, and how often a narrowed one was found in its cache. -/
def stats (a : Atlas) (table : Nat) : Nat × Nat :=
  match a.tables[table]? with
  | none => (0, 0)
  | some t => (t.closures, t.filterHits)

def modifyTable (a : Atlas) (table : Nat) (f : Table → Table) : Atlas :=
  ⟨a.tables.modify table f⟩

def modifySymbol (a : Atlas) (r : SymbolRef) (f : Symbol → Symbol) : Atlas :=
  if r.id = 0 then a
  else a.modifyTable r.table fun t => { t with symbols := t.symbols.modify (r.id - 1) f }

end Atlas

/-- Operations on an atlas that may fail. -/
abbrev AtlasM (α : Type) : Type :=
  ExceptT SymbolError (StateM Atlas) α

namespace AtlasM

def fault {α : Type} (f : Fault) : AtlasM α :=
  throw (.fault f)

def violate {α : Type} (v : Violation) (s : Option SymbolRef) : AtlasM α := do
  let a ← get
  throw (.contract v (a.text s))

def read (r : SymbolRef) : AtlasM Symbol := do
  match (← get).symbol? r with
  | some s => return s
  | none => fault .missingSymbol

def update (r : SymbolRef) (f : Symbol → Symbol) : AtlasM Unit :=
  modify fun a => a.modifySymbol r f

/-- The name of the symbol that an operation is asked of. -/
def receiver (s : Option SymbolRef) : AtlasM SymbolRef :=
  match s with
  | some r => pure r
  | none => fault .missingSymbol

end AtlasM

end SymbolAtlas
