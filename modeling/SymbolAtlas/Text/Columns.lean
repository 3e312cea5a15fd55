import SymbolAtlas.Fault
import SymbolAtlas.Text.CellWidth
import SymbolAtlas.Text.Colour
import SymbolAtlas.Text.Blank

set_option autoImplicit false

/-! # Tables for the terminal

Rows of cells are set in left-aligned columns, two spaces apart. A column is as wide as its widest
cell, measured in terminal cells. The header is bold and underlined when colours are on. -/

namespace SymbolAtlas.Text.Columns

/-- What stands in a column of a row: a text and the number of terminal cells it takes. -/
structure Cell where
  text : String
  width : Nat

namespace Cell

def ofString (s : String) : Cell :=
  ⟨s, cellWidth s⟩

/-- Bytes in a column, which need not be well formed. -/
def ofBytes (bytes : List UInt8) : Cell :=
  ⟨Utf8.toText bytes, byteCellWidth bytes⟩

/-- The text, filled up with spaces to a number of terminal cells. -/
def filled (c : Cell) (width : Nat) : String :=
  c.text ++ String.ofList (List.replicate (width - c.width) ' ')

end Cell

/-- The wider of each column's width so far and the row's cell; cells past the last column do not
count. -/
def widen : List Nat → List Cell → List Nat
  | w :: ws, cell :: cells => max w cell.width :: widen ws cells
  | ws, _ => ws

def widths (header : List Cell) (rows : List (List Cell)) : List Nat :=
  rows.foldl widen (header.map Cell.width)

/-- Sets the cells of a row from column `index` on. Every cell but the last is filled up to its
column, so a longer row than the header needs a column that is not there. -/
def row (widths : List Nat) (index : Nat) : List Cell → Except Fault String
  | [] => .ok ""
  | [cell] => .ok cell.text
  | cell :: cells =>
    match widths[index]? with
    | none => .error (.outOfRange index widths.length)
    | some w => do
      let rest ← row widths (index + 1) cells
      return cell.filled w ++ "  " ++ rest

def line (widths : List Nat) (cells : List Cell) : Except Fault String := do
  let text ← row widths 0 cells
  return String.ofList (dropEnd (· == ' ') text.toList)

/-- The whole table, a line for the header and one for each row. -/
def renderCells (header : List Cell) (rows : List (List Cell)) (colored : Bool) :
    Except Fault String := do
  let ws := widths header rows
  let head ← line ws header
  let body ← rows.mapM (line ws)
  return String.join ((paint colored [.bold, .underline] head :: body).map (· ++ "\n"))

def render (header : List String) (rows : List (List String)) (colored : Bool) :
    Except Fault String :=
  renderCells (header.map .ofString) (rows.map (·.map .ofString)) colored

end SymbolAtlas.Text.Columns
