import SymbolAtlas.Symbol.Atlas

set_option autoImplicit false

/-! # Dependency graphs

Nodes are symbol numbers; number zero belongs to no symbol. An edge leads from a dependency to the
symbol that depends on it, so that the edges of a node show who waits for it. -/

namespace SymbolAtlas

/-- A graph by node number. The three arrays may be given independently of each other. -/
structure Graph where
  /-- For each node the nodes that depend on it. -/
  edges : Array (List Nat)
  /-- For each node how many dependencies it waits for. -/
  indegree : Array Int
  /-- Whether a number belongs to a node. -/
  present : Array Bool

namespace Graph

/-- The numbers of the distinct dependencies of `self`, in order. A dependency on itself does not
count, a missing one is a fault, and so is a number of another table that is not below `size`. -/
def targets (self : SymbolRef) (size : Nat) :
    List (Option SymbolRef) → (seen : List Nat) → Except Fault (List Nat)
  | [], seen => .ok seen
  | none :: _, _ => .error .missingSymbol
  | some d :: deps, seen =>
    if d = self ∨ d.id ∈ seen then targets self size deps seen
    else if size ≤ d.id then .error (.outOfRange d.id size)
    else targets self size deps (seen ++ [d.id])

/-- The distinct dependencies of a symbol, which must be bound. -/
def dependencies (a : Atlas) (size : Nat) (r : SymbolRef) : Except SymbolError (List Nat) :=
  match a.symbol? r with
  | none => .error (.fault .missingSymbol)
  | some s =>
    if !s.bound then .error (.within "order" (.contract .notBound (a.text (some r))))
    else
      match targets r size s.direct [] with
      | .error fault => .error (.fault fault)
      | .ok ids => .ok ids

/-- The graph in which node `v` depends on the nodes of `deps[v]`. -/
def ofDependencies (deps : List (List Nat)) : Graph where
  edges := ((List.range deps.length).map fun d =>
    (List.range deps.length).filter fun v => (deps[v]?.getD []).contains d).toArray
  indegree := (deps.map fun ds => (ds.length : Int)).toArray
  present := ((List.range deps.length).map (· != 0)).toArray

/-- The graph of a table. Every symbol must be bound. -/
def ofTable (a : Atlas) (table : Nat) : Except SymbolError Graph := do
  let members := a.members table
  let deps ← members.mapM (dependencies a (members.length + 1))
  return ofDependencies ([] :: deps)

end Graph

end SymbolAtlas
