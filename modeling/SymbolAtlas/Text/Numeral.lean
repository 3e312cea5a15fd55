import SymbolAtlas.Text.Quoted

set_option autoImplicit false

/-! # Numerals

Integers are read in two ways. A plain numeral has an optional sign and decimal digits. A literal
may also start with a base (`0x`, `0o`, `0b`, or a lone `0` for octal) and may divide its digits by
underscores. Both must fit 64 bits with a sign. -/

namespace SymbolAtlas.Text.Numeral

/-- Why a numeral was refused. -/
inductive Refusal where
  | malformed
  | outOfRange
  deriving DecidableEq, Repr

/-- The wording of a refusal by the reader called `reader`. -/
def Refusal.message (reader : String) (text : String) (r : Refusal) : String :=
  let reason := match r with
    | .malformed => "invalid syntax"
    | .outOfRange => "value out of range"
  "strconv." ++ reader ++ ": parsing " ++ quote text ++ ": " ++ reason

/-- The value of a digit in bases up to 36. -/
def digit? (c : Char) : Option Nat :=
  if '0' ≤ c ∧ c ≤ '9' then some (c.toNat - '0'.toNat)
  else if 'a' ≤ c ∧ c ≤ 'z' then some (c.toNat - 'a'.toNat + 10)
  else if 'A' ≤ c ∧ c ≤ 'Z' then some (c.toNat - 'A'.toNat + 10)
  else none

/-- Reads digits from the left into an unsigned 64-bit magnitude; what goes wrong first is
reported. -/
def magnitude (base : Nat) (underscores : Bool) : List Char → Nat → Except Refusal Nat
  | [], acc => .ok acc
  | c :: cs, acc =>
    if underscores && c == '_' then magnitude base underscores cs acc
    else
      match digit? c with
      | none => .error .malformed
      | some d =>
        if base ≤ d then .error .malformed
        else
          let next := base * acc + d
          if 0x10000000000000000 ≤ next then .error .outOfRange
            else magnitude base underscores cs next

def sign : List Char → Bool × List Char
  | '-' :: cs => (true, cs)
  | '+' :: cs => (false, cs)
  | cs => (false, cs)

/-- Puts the sign on a magnitude and checks the range of 64-bit integers. -/
def signed (negative : Bool) (n : Nat) : Except Refusal Int :=
  if negative then
    if n ≤ 0x8000000000000000 then .ok (-(n : Int)) else .error .outOfRange
  else if n < 0x8000000000000000 then .ok n
  else .error .outOfRange

/-- A plain decimal numeral. -/
def decimal (text : String) : Except Refusal Int :=
  let (negative, digits) := sign text.toList
  if digits.isEmpty then .error .malformed
  else magnitude 10 false digits 0 >>= signed negative

/-- What the check of underscores last met. -/
inductive Met where
  | start | digit | underscore | other
  deriving DecidableEq

/-- An underscore stands between digits only; a base counts as a digit. -/
def underscoresFit (hexadecimal : Bool) : Met → List Char → Bool
  | last, [] => last != .underscore
  | last, c :: cs =>
    if c.isDigit || (hexadecimal && (digit? c).any (· < 16)) then
      underscoresFit hexadecimal .digit cs
    else if c == '_' then last == .digit && underscoresFit hexadecimal .underscore cs
    else last != .underscore && underscoresFit hexadecimal .other cs

/-- The base of a literal, the digits after it, and whether its underscores fit. -/
def based (digits : List Char) : Nat × List Char × Bool :=
  match digits with
  | '0' :: p :: d :: rest =>
    let body := d :: rest
    if p == 'b' || p == 'B' then (2, body, underscoresFit false .digit body)
    else if p == 'o' || p == 'O' then (8, body, underscoresFit false .digit body)
    else if p == 'x' || p == 'X' then (16, body, underscoresFit true .digit body)
    else (8, p :: body, underscoresFit false .start digits)
  | '0' :: rest => (8, rest, underscoresFit false .start digits)
  | _ => (10, digits, underscoresFit false .start digits)

def literal (text : String) : Except Refusal Int := do
  let (negative, digits) := sign text.toList
  if digits.isEmpty then .error .malformed
  let (base, body, fit) := based digits
  let n ← magnitude base true body 0
  if digits.contains '_' && !fit then .error .malformed
  signed negative n

/-- A truth value, in the spellings that the command line takes. -/
def bool? (text : String) : Option Bool :=
  if ["1", "t", "T", "TRUE", "true", "True"].contains text then some true
  else if ["0", "f", "F", "FALSE", "false", "False"].contains text then some false
  else none

end SymbolAtlas.Text.Numeral
