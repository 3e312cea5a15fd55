set_option autoImplicit false

/-! # Bytes as text

A list of bytes is read as UTF-8 glyph by glyph. A byte that starts no well-formed sequence is a
glyph of its own, so reading never fails and no byte is lost: the widths of the glyphs add up to
the number of bytes. -/

namespace SymbolAtlas.Text

/-- What stands at a position of a byte string: a character and the number of its bytes, or a byte
that is no part of one. -/
inductive Glyph where
  | char (c : Char) (width : Nat)
  | stray (byte : UInt8)
  deriving DecidableEq, Repr

namespace Glyph

def width : Glyph → Nat
  | .char _ w => w
  | .stray _ => 1

/-- The character of a glyph; the replacement character stands in for a stray byte. -/
def toChar : Glyph → Char
  | .char c _ => c
  | .stray _ => Char.ofNat 0xFFFD

end Glyph

namespace Utf8

/-- Continuation bytes carry six bits. -/
def isTail (b : UInt8) : Bool :=
  0x80 ≤ b && b ≤ 0xBF

/-- The six bits of a continuation byte. -/
def tailBits (b : UInt8) : Nat :=
  b.toNat - 0x80

/-- The character that starts with the byte `a`, if the bytes after it complete one. Overlong
forms, surrogates and values past the last code point are refused by the range of the second
byte. -/
def charAt? (a : UInt8) (rest : List UInt8) : Option (Char × Nat) :=
  if a < 0x80 then some (Char.ofNat a.toNat, 1)
  else if 0xC2 ≤ a && a ≤ 0xDF then
    match rest with
    | b :: _ =>
      if isTail b then some (Char.ofNat ((a.toNat - 0xC0) * 64 + tailBits b), 2) else none
    | [] => none
  else if 0xE0 ≤ a && a ≤ 0xEF then
    match rest with
    | b :: c :: _ =>
      let low : UInt8 := if a == 0xE0 then 0xA0 else 0x80
      let high : UInt8 := if a == 0xED then 0x9F else 0xBF
      if low ≤ b && b ≤ high && isTail c then
        some (Char.ofNat ((a.toNat - 0xE0) * 4096 + tailBits b * 64 + tailBits c), 3)
      else none
    | _ => none
  else if 0xF0 ≤ a && a ≤ 0xF4 then
    match rest with
    | b :: c :: d :: _ =>
      let low : UInt8 := if a == 0xF0 then 0x90 else 0x80
      let high : UInt8 := if a == 0xF4 then 0x8F else 0xBF
      if low ≤ b && b ≤ high && isTail c && isTail d then
        some (Char.ofNat ((a.toNat - 0xF0) * 262144 + tailBits b * 4096 + tailBits c * 64 +
          tailBits d), 4)
      else none
    | _ => none
  else none

def glyphAt (a : UInt8) (rest : List UInt8) : Glyph :=
  match charAt? a rest with
  | some (c, w) => .char c w
  | none => .stray a

/-- The glyphs of a byte string after its first `skip` bytes, which an earlier glyph holds. -/
def decodeFrom : (skip : Nat) → List UInt8 → List Glyph
  | _, [] => []
  | skip + 1, _ :: rest => decodeFrom skip rest
  | 0, a :: rest =>
    let g := glyphAt a rest
    g :: decodeFrom (g.width - 1) rest

def decode (bytes : List UInt8) : List Glyph :=
  decodeFrom 0 bytes

def encode (s : String) : List UInt8 :=
  s.toUTF8.toList

/-- The text of a byte string, with the replacement character for every stray byte. -/
def toText (bytes : List UInt8) : String :=
  String.ofList ((decode bytes).map Glyph.toChar)

end Utf8

end SymbolAtlas.Text
