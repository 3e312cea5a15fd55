import SymbolAtlas.Fault
import SymbolAtlas.Order.Graph

set_option autoImplicit false

/-! # Emission order

Nodes are emitted in waves. The first wave holds the nodes that wait for nothing; each later one
holds those whose last dependency stood in the wave before. What is left over waits on a cycle. A
graph may be inconsistent, and then a number outside one of its arrays is a fault.

Where the counts are kept while they fall is left open (`CountStore`). Numbers of nodes have no
bound here; the numbers of symbols end at 2^32, and no graph of a table has more nodes. -/

namespace SymbolAtlas

/-- The emission order of a graph. -/
structure Topo where
  order : List Nat
  batches : List (List Nat)
  cyclic : Bool
  cycles : List Nat
  deriving DecidableEq, Repr

namespace Topo

def entry {α : Type} (a : Array α) (i : Nat) : Except Fault α :=
  match a[i]? with
  | some x => .ok x
  | none => .error (.outOfRange i a.size)

/-- A place where counts are kept: how one is read, and how one is written. -/
structure CountStore (σ : Type) where
  read : σ → Nat → Except Fault Int
  write : σ → Nat → Int → σ

section Loop

variable {σ : Type} (k : CountStore σ) (g : Graph)

def presentNodes (s : σ) : (ids : List Nat) → Except Fault (List (Nat × Int))
  | [] => .ok []
  | i :: ids => do
    if ← entry g.present i then
      let count ← k.read s i
      let rest ← presentNodes s ids
      return (i, count) :: rest
    else presentNodes s ids

/-- Takes one off the count of each target, and lists those whose count becomes zero. -/
def settle : (targets : List Nat) → (s : σ) → Except Fault (List Nat × σ)
  | [], s => .ok ([], s)
  | target :: targets, s => do
    let count ← k.read s target
    let (ready, s) ← settle targets (k.write s target (count - 1))
    return (if count - 1 = 0 then target :: ready else ready, s)

def settleBatch : (batch : List Nat) → (s : σ) → Except Fault (List Nat × σ)
  | [], s => .ok ([], s)
  | id :: batch, s => do
    let targets ← entry g.edges id
    let (ready, s) ← settle k targets s
    let (more, s) ← settleBatch batch s
    return (ready ++ more, s)

/-- The waves from `current` on, and the counts that remain. A count reaches zero once, so there are
at most as many waves as nodes. -/
def waves : (fuel : Nat) → (current : List Nat) → (s : σ) → Except Fault (List (List Nat) × σ)
  | 0, _, s => .ok ([], s)
  | _ + 1, [], s => .ok ([], s)
  | fuel + 1, id :: batch, s => do
    let (next, s) ← settleBatch k g (id :: batch) s
    let (rest, s) ← waves fuel (next.mergeSort (· ≤ ·)) s
    return ((id :: batch) :: rest, s)

/-- Whether a node with this count still waits: the count is positive, also as a signed word of 64
bits after it was taken below the least word. -/
def waits (count : Int) : Bool :=
  0 < count || 0 < count.bmod 0x10000000000000000

/-- The emission order of a graph whose counts are kept in `s`: the waves one after the other, then
the nodes that wait on a cycle, by number. -/
def orderIn (s : σ) : Except Fault (Topo × σ) := do
  let nodes ← presentNodes k g s (List.range g.edges.size)
  let first := (nodes.filter (·.2 = 0)).map Prod.fst
  let (batches, s) ← waves k g (g.edges.size + 2) first s
  let emitted := batches.flatten
  if emitted.length = nodes.length then
    return ({ order := emitted, batches, cyclic := false, cycles := [] }, s)
  else
    let left := (nodes.map Prod.fst).filter fun i => waits ((k.read s i).toOption.getD 0)
    return ({ order := emitted ++ left, batches, cyclic := true, cycles := left }, s)

end Loop

/-- Counts in an array of their own. -/
def inArray : CountStore (Array Int) where
  read counts i := entry counts i
  write counts i count := counts.setIfInBounds i count

def ofGraph (g : Graph) : Except Fault Topo := do
  let (topo, _) ← orderIn inArray g g.indegree
  return topo

end Topo

end SymbolAtlas
