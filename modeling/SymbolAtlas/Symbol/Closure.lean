import SymbolAtlas.Order.Quicksort
import SymbolAtlas.Symbol.Slots

set_option autoImplicit false

/-! # Transitive closures

The closure of a symbol holds every symbol that its direct dependencies reach, and never the symbol
itself. It is found breadth first and kept; the closure of a symbol met on the way is taken over as
a whole if it is known. Every symbol met must be bound. -/

namespace SymbolAtlas

namespace Atlas

/-- Appends the dependencies that are new to those still to be visited: missing ones, the root, and
those found or pending are passed over. -/
def enqueue (root : SymbolRef) (found : List SymbolRef) :
    List (Option SymbolRef) → (pending : List SymbolRef) → List SymbolRef
  | [], pending => pending
  | none :: deps, pending => enqueue root found deps pending
  | some d :: deps, pending =>
    if d = root ∨ d ∈ found ∨ d ∈ pending then enqueue root found deps pending
    else enqueue root found deps (pending ++ [d])

/-- Takes over a known closure: its members join those found, the root and repetitions aside. -/
def absorb (root : SymbolRef) : (closure found : List SymbolRef) → List SymbolRef
  | [], found => found
  | d :: closure, found =>
    if d = root ∨ d ∈ found then absorb root closure found
    else absorb root closure (found ++ [d])

/-- Visits the pending symbols in order. The result lists the symbols found, or names an unbound
symbol. No symbol is visited twice, so the number of symbols bounds the visits. -/
def gather (a : Atlas) (root : SymbolRef) :
    (fuel : Nat) → (pending found : List SymbolRef) → Except SymbolRef (List SymbolRef)
  | 0, _, found => .ok found
  | _ + 1, [], found => .ok found
  | fuel + 1, r :: pending, found =>
    match a.symbol? r with
    | none => .error r
    | some s =>
      if !s.bound then .error r
      else if r ∈ found then gather a root fuel pending found
      else
        let found := found ++ [r]
        match s.closure with
        | some closure => gather a root fuel pending (absorb root closure found)
        | none => gather a root fuel (enqueue root found s.direct pending) found

/-- Every symbol reached from the direct dependencies of `root`. -/
def closureOf (a : Atlas) (root : SymbolRef) (direct : List (Option SymbolRef)) :
    Except SymbolRef (List SymbolRef) :=
  a.gather root (a.size + 1) (enqueue root [] direct []) []

end Atlas

namespace AtlasM

/-- Every symbol that a symbol depends on, directly or not. The first answer is kept and given
again; a failed search keeps nothing but counts. -/
def allDependencies (r : SymbolRef) : AtlasM (List SymbolRef) := do
  let s ← read r
  match s.closure with
  | some closure => return closure
  | none =>
    modify fun a => a.modifyTable r.table fun t => { t with closures := t.closures + 1 }
    match (← get).closureOf r s.direct with
    | .error unbound => violate .unboundReached (some unbound)
    | .ok closure =>
      update r fun s => { s with closure := some closure }
      return closure

/-- The symbols of one kind that a symbol depends on. The table keeps the latest answers. -/
def allDependenciesOf (r : SymbolRef) (kind : Kind) : AtlasM (List SymbolRef) := do
  let key := (r.id, kind)
  match (← get).tables[r.table]?.bind (·.filtered.get? key) with
  | some answer =>
    modify fun a => a.modifyTable r.table fun t =>
      { t with filterHits := t.filterHits + 1, filtered := t.filtered.touch key }
    return answer
  | none =>
    let all ← allDependencies r
    let answer ← ofKind kind (all.map some)
    modify fun a => a.modifyTable r.table fun t =>
      { t with filtered := t.filtered.insert key answer }
    return answer

/-- Some symbols by number. Symbols of several tables may share a number; then the order among them
is the one in which quicksort leaves them. -/
def byNumber (symbols : List SymbolRef) : List SymbolRef :=
  if (symbols.map SymbolRef.id).Nodup then symbols.mergeSort fun a b => a.id ≤ b.id
  else Quicksort.sort (fun a b => a.id < b.id) symbols

/-- The roots and every symbol they depend on, by number and without repetition; missing roots are
passed over. -/
def required (roots : List (Option SymbolRef)) : AtlasM (List SymbolRef) := do
  let mut found : List SymbolRef := []
  for root in roots do
    match root with
    | none => pure ()
    | some r =>
      let deps ← allDependencies r
      for d in r :: deps do
        if d ∉ found then found := found ++ [d]
  return byNumber found

end AtlasM

end SymbolAtlas
