import SymbolAtlas.Diagnostic.Pretty
import SymbolAtlas.Text.Json

set_option autoImplicit false

/-! # Diagnostics for tools

The diagnostics of a bag as one JSON document. -/

namespace SymbolAtlas.Document

open Text

/-- What the document holds. -/
structure Options where
  /-- Whether places have lines and columns beside their offsets. -/
  positions : Bool := false
  paths : PathView := {}
  notes : Bool := false
  /-- How many diagnostics are listed; all of them if this is not positive. -/
  max : Int := 0

/-- A place in a file. Without a file only the offsets remain, and they are zero. -/
def location (fs : FileSet) (o : Options) (span : Span) : Json :=
  match fs.get? span.file with
  | none => .record [("start_byte", .number 0), ("end_byte", .number 0)]
  | some f =>
    let (start, stop) := fs.resolve span
    let positions :=
      if o.positions then
        Json.optionalNumber "start_line" start.line.toNat ++
        Json.optionalNumber "start_col" start.column.toNat ++
        Json.optionalNumber "end_line" stop.line.toNat ++
        Json.optionalNumber "end_col" stop.column.toNat
      else []
    .record (Json.optionalText "file" (o.paths.render f.path) ++
      [("start_byte", .number span.start.toNat), ("end_byte", .number span.stop.toNat)]
      ++ positions)

def note (fs : FileSet) (o : Options) (n : Note) : Json :=
  .record [("message", .text n.message), ("location", location fs o n.span)]

def diagnostic (fs : FileSet) (o : Options) (d : Diagnostic) : Json :=
  let notes :=
    if o.notes && !d.notes.isEmpty then [("notes", Json.list (d.notes.map (note fs o)))] else []
  .record ([("severity", .text d.severity.name), ("code", .text d.code.id),
    ("title", .text d.code.title), ("message", .text d.message)] ++
    Json.optionalText "symbol" d.subject ++ [("location", location fs o d.span)] ++ notes)

def ofBag (fs : FileSet) (o : Options) (b : Bag) : Json :=
  let items := (Pretty.shown o.max b.items).map (diagnostic fs o)
  .record [("diagnostics", .list items), ("count", .number items.length)]

def render (fs : FileSet) (o : Options) (b : Bag) : String :=
  (ofBag fs o b).pretty "" ++ "\n"

end SymbolAtlas.Document
