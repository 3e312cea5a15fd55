set_option autoImplicit false

/-! # Hexadecimal text

Bytes are shown as two lower-case hexadecimal digits each. Reading accepts both cases and refuses
an odd number of digits. -/

namespace SymbolAtlas.Text.Hex

/-- The value of a hexadecimal digit of either case. -/
def digit? (c : Char) : Option Nat :=
  if '0' ≤ c ∧ c ≤ '9' then some (c.toNat - '0'.toNat)
  else if 'a' ≤ c ∧ c ≤ 'f' then some (c.toNat - 'a'.toNat + 10)
  else if 'A' ≤ c ∧ c ≤ 'F' then some (c.toNat - 'A'.toNat + 10)
  else none

def digitChar (n : Nat) : Char :=
  Nat.digitChar (n % 16)

/-- The number that a run of hexadecimal digits stands for; `none` on any other character and on
the empty run. -/
def number? : List Char → Option Nat
  | [] => none
  | cs => cs.foldl (fun acc c => acc.bind fun n => (digit? c).map (16 * n + ·)) (some 0)

def ofByte (b : UInt8) : List Char :=
  [digitChar (b.toNat / 16), digitChar b.toNat]

def ofBytes (bs : List UInt8) : String :=
  String.ofList (bs.flatMap ofByte)

def ofNat (n : Nat) : String :=
  String.ofList (Nat.toDigits 16 n)

/-- The digits of a number, filled up with zeros to `width`. -/
def ofNatPadded (width n : Nat) : String :=
  String.ofList (List.leftpad width '0' (Nat.toDigits 16 n))

def bytes? : List Char → Option (List UInt8)
  | [] => some []
  | [_] => none
  | a :: b :: rest => do
    let hi ← digit? a
    let lo ← digit? b
    let tail ← bytes? rest
    return UInt8.ofNat (16 * hi + lo) :: tail

end SymbolAtlas.Text.Hex
