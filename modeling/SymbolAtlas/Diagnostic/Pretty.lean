import SymbolAtlas.Diagnostic.Bag
import SymbolAtlas.Diagnostic.PathStyle
import SymbolAtlas.Source.FileSet
import SymbolAtlas.Text.CellWidth
import SymbolAtlas.Text.Colour
import SymbolAtlas.Text.Utf8

set_option autoImplicit false

/-! # Diagnostics for people

A diagnostic is shown with the line it points at. Under the line stands a mark as wide as the text
it covers, measured in terminal cells. What is shown are bytes, because a line is shown as it stands
in its file, also where it is not text. -/

namespace SymbolAtlas.Pretty

open Text

/-- How diagnostics are shown. -/
structure Options where
  color : Bool := false
  /-- The number of lines shown before the line itself. -/
  context : Int := 0
  paths : PathView := {}
  notes : Bool := false
  /-- How many diagnostics are shown; all of them if this is not positive. -/
  max : Int := 0

def severityStyle (s : Severity) : List Ink :=
  if s = .error then [.red, .bold]
  else if s = .warning then [.yellow, .bold]
  else [.cyan, .bold]

def fillLeft (width : Nat) (s : String) : String :=
  String.ofList (List.leftpad width ' ' s.toList)

/-- Where a span starts: the path, the line and the column. A span without a file belongs to the
program itself. -/
def location (fs : FileSet) (o : Options) (span : Span) : String :=
  let place := match fs.get? span.file with
    | none => "symgraph:"
    | some f =>
      let p := (fs.resolve span).1
      o.paths.render f.path ++ ":" ++ toString p.line.toNat ++ ":" ++ toString p.column.toNat ++ ":"
  paint o.color [.white, .bold] place

def gutter (o : Options) (width : Nat) (label : String) : String :=
  " " ++ paint o.color [.blue] (fillLeft width label ++ " |") ++ " "

/-- The mark under a line: as far in as the text before the span is wide, and as wide as the part of
the span on that line, but never empty. -/
def underline (measure : List UInt8 → Nat) (o : Options) (line : List UInt8)
    (column length : UInt32) :
    Except Fault String := do
  let start := min ((column.toNat : Int) - 1) line.length
  let stop := start + max 0 (min (length.toNat : Int) (line.length - start))
  let indent := measure (← Bytes.cut line 0 start)
  let width := Nat.max 1 (measure (← Bytes.cut line start stop))
  return String.ofList (List.replicate indent ' ') ++
    paint o.color [.green, .bold] ("^" ++ String.ofList (List.replicate (width - 1) '~'))

/-- The line that a span starts on, the lines of context before it and the mark under it. A text is
as wide as `measure` says. -/
def snippet (measure : List UInt8 → Nat) (fs : FileSet) (o : Options) (span : Span) :
    Except Fault (List (List UInt8)) :=
  match fs.get? span.file with
  | none => .ok []
  | some f =>
    let lines := Bytes.lines f.content
    let start := f.position span.start
    let last := start.line.toNat
    if f.content.isEmpty || last < 1 || lines.length < last then .ok []
    else do
      let first := Nat.max 1 (last - o.context.toNat)
      let width := (toString last).length
      let shown ← (List.range (last + 1 - first)).mapM fun i => do
        let text ← itemAt lines (first + i - 1)
        return Utf8.encode (gutter o width (toString (first + i))) ++ text
      let mark ← underline measure o (← itemAt lines (last - 1)) start.column span.length
      return shown ++ [Utf8.encode (gutter o width "" ++ mark)]

def block (fs : FileSet) (o : Options) (d : Diagnostic) : Except Fault (List (List UInt8)) := do
  let head := location fs o d.span ++ " "
    ++ paint o.color (severityStyle d.severity) d.severity.name
    ++ " " ++ paint o.color [.bold] d.code.id ++ ": " ++ d.message
  let notes := if o.notes then d.notes else []
  let lines ← snippet byteCellWidth fs o d.span
  return Utf8.encode head :: lines ++ notes.map fun n => Utf8.encode
    ("  " ++ paint o.color [.cyan] "note:" ++ " " ++ location fs o n.span ++ " " ++ n.message)

/-- The items that are shown under a maximum; a maximum that is not positive is none. -/
def shown (max : Int) (items : List Diagnostic) : List Diagnostic :=
  if 0 < max then items.take max.toNat else items

/-- The diagnostics of a bag, with an empty line between two of them. -/
def document (fs : FileSet) (o : Options) (b : Bag) : Except Fault (List UInt8) := do
  let blocks ← (shown o.max b.items).mapM fun d => do
    return (← block fs o d).flatMap (· ++ [Bytes.newline])
  return [Bytes.newline].intercalate blocks

/-- The document as text, in which bytes that are none are replaced. -/
def render (fs : FileSet) (o : Options) (b : Bag) : Except Fault String :=
  return Utf8.toText (← document fs o b)

end SymbolAtlas.Pretty
