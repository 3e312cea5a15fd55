import SymbolAtlas.Text.Hex

set_option autoImplicit false

/-! # JSON text

The values that reports are made of, and their two layouts: on one line, and indented by two
spaces a level. Characters that matter to markup (`<`, `>`, `&`) and the two line separators of
Unicode are written by number, as are controls without a short escape. -/

namespace SymbolAtlas.Text

/-- A JSON value of a report. Fields keep their order. -/
inductive Json where
  | text (s : String)
  | number (n : Nat)
  | list (items : List Json)
  | record (fields : List (String × Json))

namespace Json

def escapedChar (c : Char) : String :=
  let n := c.toNat
  if c == '"' then "\\\""
  else if c == '\\' then "\\\\"
  else if n == 0x08 then "\\b"
  else if n == 0x0C then "\\f"
  else if n == 0x0A then "\\n"
  else if n == 0x0D then "\\r"
  else if n == 0x09 then "\\t"
  else if n < 0x20 || c == '<' || c == '>' || c == '&' || n == 0x2028 || n == 0x2029 then
    "\\u" ++ Hex.ofNatPadded 4 n
  else c.toString

def quoted (s : String) : String :=
  "\"" ++ String.join (s.toList.map escapedChar) ++ "\""

mutual

def compact : Json → String
  | .text s => quoted s
  | .number n => toString n
  | .list items => "[" ++ ",".intercalate (compactItems items) ++ "]"
  | .record fields => "\x7b" ++ ",".intercalate (compactFields fields) ++ "\x7d"

def compactItems : List Json → List String
  | [] => []
  | v :: rest => compact v :: compactItems rest

def compactFields : List (String × Json) → List String
  | [] => []
  | (k, v) :: rest => (quoted k ++ ":" ++ compact v) :: compactFields rest

end

/-- Lines between brackets, each on its own line one level deeper; nothing between them stays on
one line. -/
def bracketed (indent opening closing : String) (lines : List String) : String :=
  if lines.isEmpty then opening ++ closing
  else
    let inner := "\n" ++ indent ++ "  "
    opening ++ inner ++ (("," ++ inner).intercalate lines) ++ "\n" ++ indent ++ closing

mutual

/-- The value over several lines, each level two spaces deeper than `indent`. -/
def pretty (indent : String) : Json → String
  | .text s => quoted s
  | .number n => toString n
  | .list items => bracketed indent "[" "]" (prettyItems (indent ++ "  ") items)
  | .record fields => bracketed indent "\x7b" "\x7d" (prettyFields (indent ++ "  ") fields)

def prettyItems (indent : String) : List Json → List String
  | [] => []
  | v :: rest => pretty indent v :: prettyItems indent rest

def prettyFields (indent : String) : List (String × Json) → List String
  | [] => []
  | (k, v) :: rest => (quoted k ++ ": " ++ pretty indent v) :: prettyFields indent rest

end

/-- The field `name` with a text, left out when the text is empty. -/
def optionalText (name value : String) : List (String × Json) :=
  if value.isEmpty then [] else [(name, .text value)]

/-- The field `name` with a number, left out when it is zero. -/
def optionalNumber (name : String) (value : Nat) : List (String × Json) :=
  if value = 0 then [] else [(name, .number value)]

end Json

end SymbolAtlas.Text
