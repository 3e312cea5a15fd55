import SymbolAtlas.Text.Utf8

set_option autoImplicit false

/-! # Packed values

The MessagePack format: a value starts with a byte that tells its kind and, for short values, its
length. Longer lengths and numbers follow in one, two, four or eight bytes, the highest first. Each
value is packed in the shortest form of its length. -/

namespace SymbolAtlas.Cache.Packed

/-- A number in a fixed number of bytes, the highest first. -/
def bigEndian : (width : Nat) → (n : Nat) → List UInt8
  | 0, _ => []
  | width + 1, n => UInt8.ofNat (n / Nat.pow 256 width) :: bigEndian width n

/-- The start of a value with a length: in the first byte for a length below `short`, else after one
of the marks. A form without a mark for one byte leaves it out. -/
def lengthHead (base short : Nat) (mark8 : Option UInt8) (mark16 mark32 : UInt8) (n : Nat) :
    List UInt8 :=
  if n < short then [UInt8.ofNat (base + n)]
  else
    match mark8 with
    | some mark =>
      if n < 0x100 then mark :: bigEndian 1 n
      else if n < 0x10000 then mark16 :: bigEndian 2 n
      else mark32 :: bigEndian 4 n
    | none => if n < 0x10000 then mark16 :: bigEndian 2 n else mark32 :: bigEndian 4 n

def textHead (n : Nat) : List UInt8 :=
  lengthHead 0xA0 32 (some 0xD9) 0xDA 0xDB n

def binaryHead (n : Nat) : List UInt8 :=
  lengthHead 0 0 (some 0xC4) 0xC5 0xC6 n

def listHead (n : Nat) : List UInt8 :=
  lengthHead 0x90 16 none 0xDC 0xDD n

def mapHead (n : Nat) : List UInt8 :=
  lengthHead 0x80 16 none 0xDE 0xDF n

def ofText (bytes : List UInt8) : List UInt8 :=
  textHead bytes.length ++ bytes

def ofString (s : String) : List UInt8 :=
  ofText (Text.Utf8.encode s)

def ofNull : List UInt8 := [0xC0]

/-- A number of 16 bits, always in the form of that width. -/
def ofUInt16 (n : UInt16) : List UInt8 :=
  0xCD :: bigEndian 2 n.toNat

def ofFloat (x : Float) : List UInt8 :=
  0xCB :: bigEndian 8 x.toBits.toNat

end SymbolAtlas.Cache.Packed
