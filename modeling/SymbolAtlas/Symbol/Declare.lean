import SymbolAtlas.Symbol.Atlas

set_option autoImplicit false

/-! # Declaring symbols

Declaring an entity gives it a symbol, once: a key that is known already keeps its symbol. The types
that an entity is declared in come first, outermost before innermost, so that a symbol's containing
type always has a smaller number. -/

namespace SymbolAtlas.Table

def intern (t : Table) (key : String) : Nat × Table :=
  let (number, strings) := t.strings.intern key
  (number, { t with strings := strings })

/-- Adds the symbol of a declaration under the next number, and registers it for the number of its
interned key. -/
def push (t : Table) (table number : Nat) (d : Declaration) (containing : Option SymbolRef) :
    SymbolRef × Table :=
  (⟨table, t.size + 1⟩,
    { t with
      symbols := t.symbols.push (.ofDeclaration d containing)
      registry := (number, t.size + 1) :: t.registry })

/-- Declares the entity at place `i` of an outline. `chain` holds the keys met on the way from the
entity that was asked for; an entity among its own containers is refused. The way meets every
place of the outline at most once, so the outline's size bounds it. -/
def declareFrom (table : Nat) (o : Outline) : (fuel : Nat) → (i : Nat) → (chain : List String) →
    Table → Except DeclareError SymbolRef × Table
  | 0, _, _, t => (.error .noDeclaration, t)
  | fuel + 1, i, chain, t =>
    match o.get? i with
    | none => (.error .noDeclaration, t)
    | some d =>
      if d.key = "" then (.error .emptyKey, t)
      else
        let (number, t) := t.intern d.key
        match t.registry.lookup number with
        | some id => (.ok ⟨table, id⟩, t)
        | none =>
          if chain.contains d.key then (.error (.containsItself d.key), t)
          else
            match (o.owner? i).bind fun j => (o.get? j).map (j, ·) with
            | none =>
              let (r, t) := t.push table number d none
              (.ok r, t)
            | some (j, owner) =>
              if owner.kind ≠ .type then (.error (.ownerNotType owner.key d.key), t)
              else
                match declareFrom table o fuel j (chain ++ [d.key]) t with
                | (.error e, t) => (.error e, t)
                | (.ok containing, t) =>
                  let (r, t) := t.push table number d (some containing)
                  (.ok r, t)

def declare (t : Table) (table : Nat) (o : Outline) (i : Nat) :
    Except DeclareError SymbolRef × Table :=
  declareFrom table o (o.items.size + 1) i [] t

end SymbolAtlas.Table

namespace SymbolAtlas.AtlasM

/-- Declares the entity at place `i` of an outline in a table of the atlas. -/
def declare (table : Nat) (o : Outline) (i : Nat) : AtlasM SymbolRef := do
  match (← get).tables[table]? with
  | none => fault (.outOfRange table (← get).tables.size)
  | some t =>
    let (result, t) := t.declare table o i
    modify fun a => a.modifyTable table fun _ => t
    match result with
    | .ok r => return r
    | .error e => throw (.declare e)

end SymbolAtlas.AtlasM
