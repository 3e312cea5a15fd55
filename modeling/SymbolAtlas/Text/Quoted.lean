import SymbolAtlas.Text.Printable

set_option autoImplicit false

/-! # Quoted text

Messages show texts between double quotes and single characters between single quotes. Printable
characters stand for themselves, the usual control characters have a letter, and all others are
written by their number. -/

namespace SymbolAtlas.Text

def quotedChar (quote c : Char) : String :=
  if c == quote || c == '\\' then String.ofList ['\\', c]
  else if isPrintable c then c.toString
  else
    let n := c.toNat
    if n == 0x07 then "\\a"
    else if n == 0x08 then "\\b"
    else if n == 0x0C then "\\f"
    else if n == 0x0A then "\\n"
    else if n == 0x0D then "\\r"
    else if n == 0x09 then "\\t"
    else if n == 0x0B then "\\v"
    else if n < 0x20 || n == 0x7F then "\\x" ++ Hex.ofNatPadded 2 n
    else if n < 0x10000 then "\\u" ++ Hex.ofNatPadded 4 n
    else "\\U" ++ Hex.ofNatPadded 8 n

def quote (s : String) : String :=
  "\"" ++ String.join (s.toList.map (quotedChar '"')) ++ "\""

def quoteChar (c : Char) : String :=
  "'" ++ quotedChar '\'' c ++ "'"

end SymbolAtlas.Text
