import SymbolAtlas.Diagnostic.Bag

set_option autoImplicit false

/-! # Reports

A report is a diagnostic on its way into a bag. It arrives once, however often it is sent. -/

namespace SymbolAtlas

/-- A diagnostic and whether it has been sent. -/
structure Report where
  diagnostic : Diagnostic
  sent : Bool := false

namespace Report

def about (r : Report) (subject : String) : Report :=
  { r with diagnostic := { r.diagnostic with subject := subject } }

def withNote (r : Report) (note : Note) : Report :=
  { r with diagnostic := { r.diagnostic with notes := r.diagnostic.notes ++ [note] } }

/-- Sends the diagnostic, unless that has happened. Without a bag it is lost. -/
def send (r : Report) (bag : Option Bag) : Report × Option Bag :=
  if r.sent then (r, bag)
  else ({ r with sent := true }, bag.map (·.add r.diagnostic))

end Report

end SymbolAtlas
