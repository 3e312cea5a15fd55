import SymbolAtlas.Fault

set_option autoImplicit false

/-! # Searching and cutting bytes -/

namespace SymbolAtlas.Text.Bytes

/-- The byte that ends a line. -/
def newline : UInt8 := 0x0A

def indexOf? (needle : List UInt8) : List UInt8 → Option Nat
  | [] => if needle.isEmpty then some 0 else none
  | b :: rest =>
    if needle.isPrefixOf (b :: rest) then some 0 else (indexOf? needle rest).map (· + 1)

/-- The offset just after the last newline, zero if there is none. -/
def lineStart (bytes : List UInt8) : Nat :=
  (bytes.reverse.dropWhile (· != newline)).length

/-- The offset of the first newline, or the length if there is none. -/
def lineEnd (bytes : List UInt8) : Nat :=
  (bytes.takeWhile (· != newline)).length

/-- The bytes from `start` up to, not including, `stop`. Both must lie within the text, and in this
order. -/
def cut (bytes : List UInt8) (start stop : Int) : Except Fault (List UInt8) :=
  if 0 ≤ start ∧ start ≤ stop ∧ stop ≤ bytes.length then
    .ok ((bytes.take stop.toNat).drop start.toNat)
  else .error (.badCut start stop bytes.length)

def lines (bytes : List UInt8) : List (List UInt8) :=
  bytes.splitOn newline

/-- The offsets of the newlines, counted from `offset`. -/
def newlineOffsets (offset : Nat) : List UInt8 → List Nat
  | [] => []
  | b :: rest =>
    if b == newline then offset :: newlineOffsets (offset + 1) rest
    else newlineOffsets (offset + 1) rest

/-- Drops every carriage return that stands right before a newline. -/
def dropReturns : List UInt8 → List UInt8
  | [] => []
  | b :: rest =>
    if b == 0x0D && rest.head? == some newline then dropReturns rest else b :: dropReturns rest

/-- Whether a carriage return stands right before a newline anywhere. -/
def hasReturns : List UInt8 → Bool
  | [] => false
  | b :: rest => (b == 0x0D && rest.head? == some newline) || hasReturns rest

/-- The mark that some editors put in front of UTF-8 text. -/
def byteOrderMark : List UInt8 := [0xEF, 0xBB, 0xBF]

end SymbolAtlas.Text.Bytes
