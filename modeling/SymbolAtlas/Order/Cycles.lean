import SymbolAtlas.Diagnostic.Basic
import SymbolAtlas.Order.Topo
import SymbolAtlas.Text.Quoted

set_option autoImplicit false

/-! # Reports on cycles

A cycle is legal. Each symbol that waits on one gets a warning that says why it has no strict place
in the order. -/

namespace SymbolAtlas.Topo

def symbols (a : Atlas) (table : Nat) (ids : List Nat) : List Symbol :=
  ids.filterMap fun id => a.symbol? ⟨table, id⟩

/-- One warning for each symbol that waits on a cycle. -/
def cycleReports (a : Atlas) (table : Nat) (t : Topo) : List Diagnostic :=
  let waiting := symbols a table t.cycles
  let summary := ", ".intercalate (waiting.map Symbol.key)
  waiting.map fun s =>
    .warning .dependencyCycle (s.declaration.span.getD {}) s.key
      (Text.quote s.key ++
        " has no strict emission order, it waits on a dependency cycle among: " ++ summary)

end SymbolAtlas.Topo
