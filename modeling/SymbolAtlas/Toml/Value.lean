import SymbolAtlas.Text.Quoted

set_option autoImplicit false

/-! # Values of TOML

A table is a list of fields in the order in which they were first set. Tables that were collected by
repeated headers are kept apart from arrays of values. -/

namespace SymbolAtlas.Toml

/-- A value of a document. Floats and dates are kept as they were written: nothing asks for more. -/
inductive Value where
  | text (s : String)
  | integer (n : Int)
  | float (written : String)
  | boolean (b : Bool)
  | datetime (written : String)
  | array (items : List Value)
  | table (fields : List (String × Value))
  /-- The tables of repeated headers, the last one last. -/
  | tables (items : List (List (String × Value)))
  deriving Inhabited

abbrev Fields : Type := List (String × Value)

def Value.typeName : Value → String
  | .text _ => "string"
  | .integer _ => "int64"
  | .float _ => "float64"
  | .boolean _ => "bool"
  | .datetime _ => "time.Time"
  | .array _ => "[]interface \x7b\x7d"
  | .table _ => "map[string]interface \x7b\x7d"
  | .tables _ => "[]map[string]interface \x7b\x7d"

/-- Sets a field; a field that is there keeps its place. -/
def Fields.set (fields : Fields) (name : String) (value : Value) : Fields :=
  if fields.any (·.1 == name) then fields.map fun f => if f.1 == name then (name, value) else f
  else fields ++ [(name, value)]

abbrev Key : Type := List String

namespace Key

def escapedChar (c : Char) : String :=
  let n := c.toNat
  if c == '"' then "\\\""
  else if c == '\\' then "\\\\"
  else if n == 0x08 then "\\b"
  else if n == 0x09 then "\\t"
  else if n == 0x0A then "\\n"
  else if n == 0x0C then "\\f"
  else if n == 0x0D then "\\r"
  else if n ≤ 0x1F || n == 0x7F then "\\u" ++ Text.Hex.ofNatPadded 4 n
  else c.toString

def partText (part : String) : String :=
  let bare (c : Char) : Bool := c.isAlpha || c.isDigit || c == '_' || c == '-'
  if part != "" && part.toList.all bare then part
  else "\"" ++ String.join (part.toList.map escapedChar) ++ "\""

def toText (k : Key) : String :=
  ".".intercalate (k.map partText)

end Key

end SymbolAtlas.Toml
