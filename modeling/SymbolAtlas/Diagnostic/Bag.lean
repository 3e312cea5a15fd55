import SymbolAtlas.Diagnostic.Basic

set_option autoImplicit false

/-! # Bags of diagnostics

A bag collects diagnostics up to a limit. It can be put into an order that does not depend on the
order of collection, as far as the sorting key tells its items apart. -/

namespace SymbolAtlas

/-- The diagnostics collected so far, at most `limit` of them unless `limit` is zero. -/
structure Bag where
  limit : Nat := 0
  items : List Diagnostic := []

namespace Bag

/-- An empty bag; a limit that is not positive is none. -/
def empty (limit : Int) : Bag :=
  { limit := limit.toNat }

def size (b : Bag) : Nat :=
  b.items.length

/-- Whether there is room for one more. -/
def hasRoom (b : Bag) : Bool :=
  b.limit = 0 || b.size < b.limit

def add (b : Bag) (d : Diagnostic) : Bag :=
  if b.hasRoom then { b with items := b.items ++ [d] } else b

def addAll (b : Bag) (ds : List Diagnostic) : Bag :=
  ds.foldl add b

/-- Takes over all items of another bag; the limit grows if it has to. -/
def merge (b other : Bag) : Bag :=
  let items := b.items ++ other.items
  { limit := if b.limit = 0 then 0 else max b.limit items.length, items }

def hasErrors (b : Bag) : Bool :=
  b.items.any (·.severity.isError)

def count (b : Bag) (s : Severity) : Nat :=
  b.items.countP (·.severity = s)

/-- Compares by file, start, severity with the worst first, code, subject and message. -/
def compareItems (d e : Diagnostic) : Ordering :=
  (compare d.span.file e.span.file)
    |>.then (compare d.span.start e.span.start)
    |>.then (compare e.severity.level d.severity.level)
    |>.then (compare d.code.number e.code.number)
    |>.then (compare d.subject e.subject)
    |>.then (compare d.message e.message)

/-- Sorts the items; items that compare equal stay in the order of collection. -/
def sort (b : Bag) : Bag :=
  { b with items := b.items.mergeSort fun d e => compareItems d e != .gt }

/-- The label of a finding: its identifier, its place and its message. -/
def label (d : Diagnostic) : String :=
  d.code.id ++ ":" ++ d.span.toText ++ ":" ++ d.message

/-- The items whose label neither was seen nor belongs to an earlier item. -/
def firsts (seen : List String) : List Diagnostic → List Diagnostic
  | [] => []
  | d :: ds => if seen.contains (label d) then firsts seen ds else d :: firsts (label d :: seen) ds

def dedup (b : Bag) : Bag :=
  { b with items := firsts [] b.items }

end Bag

end SymbolAtlas
