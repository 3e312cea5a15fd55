import SymbolAtlas.Text.Numeral
import SymbolAtlas.Toml.Token
import SymbolAtlas.Toml.Value

set_option autoImplicit false

/-! # Literals

The value that the text of a token stands for. A token of a number or a date may still be malformed,
because the scanner only looks at its characters. -/

namespace SymbolAtlas.Toml.Literal

open Text

/-! ## Numbers -/

/-- An underscore needs a digit before it, and a digit must come last. -/
def underscoresFit (cs : List Char) : Bool :=
  if ["nan", "+nan", "-nan", "inf", "-inf", "+inf"].contains (String.ofList cs) then true
  else
    let rec go : (digit : Bool) → List Char → Bool
      | digit, [] => digit
      | digit, c :: cs => (c != '_' || digit) && go (Hex.digit? c).isSome cs
    go false cs

/-- A zero must not lead other digits, unless it names a base. -/
def leadsWithZero : List Char → Bool
  | '0' :: c :: _ => !(c == 'b' || c == 'o' || c == 'x')
  | c :: '0' :: _ :: _ => c == '-' || c == '+'
  | _ => false

def integer (text : String) : Except String Value :=
  if !underscoresFit text.toList then
    .error ("Invalid integer " ++ quote text ++ ": underscores must be surrounded by digits")
  else if leadsWithZero text.toList then
    .error ("Invalid integer " ++ quote text ++ ": cannot have leading zeroes")
  else
    match Numeral.literal text with
    | .ok n => .ok (.integer n)
    | .error _ => .error (text ++ " is out of range for int64")

def pointsFit : (point : Bool) → List Char → Bool
  | point, [] => !point
  | point, c :: cs => (!point || c.isDigit) && pointsFit (c == '.') cs

/-- The decimal digits of a text and the number of those after the point, and the exponent; `none`
if the text is no decimal number. -/
def decimal? (cs : List Char) : Option (Nat × Int) :=
  let unsigned := (Numeral.sign cs).2
  let mantissa := unsigned.takeWhile fun c => c != 'e' && c != 'E'
  let rest := unsigned.dropWhile fun c => c != 'e' && c != 'E'
  let whole := mantissa.takeWhile (· != '.')
  let part := (mantissa.dropWhile (· != '.')).drop 1
  let digits := whole ++ part
  let value (ds : List Char) : Nat := ds.foldl (fun n d => 10 * n + (d.toNat - '0'.toNat)) 0
  if digits.isEmpty || !digits.all Char.isDigit then none
  else
    match rest with
    | [] => some (value digits, -(part.length : Int))
    | _ :: exponent =>
      let (negative, ds) := Numeral.sign exponent
      if ds.isEmpty || !ds.all Char.isDigit then none
      else
        let size : Nat := Nat.min (value ds) 100000
        some (value digits, (if negative then -(size : Int) else size) - part.length)

/-- Whether `digits` times ten to the `exponent` rounds to more than the largest number of double
precision, which is 2^1024 - 2^971. -/
def overflows (digits : Nat) (exponent : Int) : Bool :=
  let limit := Nat.pow 2 1024 - Nat.pow 2 970
  if digits = 0 then false
  else if 0 ≤ exponent then
    if 400 < exponent then true else limit ≤ digits * Nat.pow 10 exponent.toNat
  else limit * Nat.pow 10 (Nat.min (-exponent).toNat 100000) ≤ digits

/-- The pieces of a float between points and exponent marks. -/
def pieces (cs : List Char) : List (List Char) :=
  let divides (c : Char) : Bool := ['.', 'e', 'E'].contains c
  (cs.splitBy fun a b => !divides a && !divides b).filter fun piece => !piece.any divides

/-- A float, or why the text is none. -/
def float (text : String) : Except String Value :=
  let cs := text.toList
  if !(pieces cs).all underscoresFit then
    .error ("Invalid float " ++ quote text ++ ": underscores must be surrounded by digits")
  else if (pieces cs).head?.any leadsWithZero then
    .error ("Invalid float " ++ quote text ++ ": cannot have leading zeroes")
  else if !pointsFit false cs then
    .error ("Invalid float " ++ quote text ++ ": '.' must be followed by one or more digits")
  else
    let plain := cs.filter (· != '_')
    if [['i', 'n', 'f'], ['n', 'a', 'n']].contains (Numeral.sign plain).2 then .ok (.float text)
    else
      match decimal? plain with
      | none => .error ("Invalid float value: " ++ quote text)
      | some (digits, exponent) =>
        if overflows digits exponent then .error (text ++ " is out of range for float64")
        else .ok (.float text)

/-! ## Dates and times -/

def digits? (count : Nat) (cs : List Char) : Option (Nat × List Char) :=
  let ds := cs.take count
  if ds.length = count && ds.all Char.isDigit then
    some (ds.foldl (fun n d => 10 * n + (d.toNat - '0'.toNat)) 0, cs.drop count)
  else none

def char? (c : Char) : List Char → Option (List Char)
  | d :: cs => if c == d then some cs else none
  | [] => none

def daysIn (year month : Nat) : Nat :=
  if month = 2 then
    if year % 4 = 0 && (year % 100 != 0 || year % 400 = 0) then 29 else 28
  else if month = 4 || month = 6 || month = 9 || month = 11 then 30
  else 31

def date? (cs : List Char) : Option (List Char) := do
  let (year, cs) ← digits? 4 cs
  let cs ← char? '-' cs
  let (month, cs) ← digits? 2 cs
  let cs ← char? '-' cs
  let (day, cs) ← digits? 2 cs
  if 1 ≤ month && month ≤ 12 && 1 ≤ day && day ≤ daysIn year month then some cs else none

/-- Takes the fraction of a second off a text, if there is one. -/
def fraction (cs : List Char) : List Char :=
  match cs with
  | '.' :: d :: rest => if d.isDigit then rest.dropWhile Char.isDigit else cs
  | _ => cs

/-- Takes a time of day off a text; the hour may have one digit. -/
def time? (cs : List Char) : Option (List Char) := do
  let (hour, cs) ← (digits? 2 cs).or (digits? 1 cs)
  let cs ← char? ':' cs
  let (minute, cs) ← digits? 2 cs
  let cs ← char? ':' cs
  let (second, cs) ← digits? 2 cs
  if hour < 24 && minute < 60 && second < 60 then some (fraction cs) else none

/-- Whether a text is a zone: `Z`, or hours and minutes with a sign. -/
def isZone : List Char → Bool
  | ['Z'] => true
  | sign :: cs => (sign == '+' || sign == '-') && (do
      let (hours, cs) ← digits? 2 cs
      let cs ← char? ':' cs
      let (minutes, cs) ← digits? 2 cs
      return hours ≤ 24 && minutes ≤ 60 && cs.isEmpty).getD false
  | [] => false

/-- Whether a text is a date, a time, or a date with a time and perhaps a zone. -/
def isDatetime (cs : List Char) : Bool :=
  match date? cs with
  | some [] => true
  | some ('T' :: rest) => (time? rest).any fun rest => rest.isEmpty || isZone rest
  | some _ => false
  | none => (time? cs).any List.isEmpty

/-- A date or time, or why the text is none. The marks between its parts may be written in lower
case or, between date and time, as a blank. -/
def datetime (text : String) : Except String Value :=
  let written := text.map fun c =>
    if c == 'z' then 'Z' else if c == 't' || c == ' ' then 'T' else c
  if isDatetime written.toList then .ok (.datetime written)
  else .error ("Invalid TOML Datetime: " ++ quote written ++ ".")

/-! ## Strings -/

/-- Drops a line end at the start of a text. -/
def dropFirstLineEnd : List Char → List Char
  | '\n' :: cs => cs
  | '\r' :: '\n' :: cs => cs
  | cs => cs

/-- Drops each backslash that ends a line, with all blanks and line ends after it. -/
def joinLines : (fuel : Nat) → List Char → List Char
  | 0, cs => cs
  | _, [] => []
  | fuel + 1, '\\' :: '\\' :: cs => '\\' :: '\\' :: joinLines fuel cs
  | fuel + 1, '\\' :: cs =>
    let isGap (c : Char) : Bool := c == ' ' || c == '\t' || c == '\r' || c == '\n'
    if (cs.takeWhile isGap).contains '\n' then joinLines fuel (cs.dropWhile isGap)
    else '\\' :: joinLines fuel cs
  | fuel + 1, c :: cs => c :: joinLines fuel cs

def scalar (written : List Char) : Except String Char :=
  let n := (Hex.number? written).getD 0
  if n.isValidChar then .ok (Char.ofNat n)
  else .error ("Escaped character '\\u" ++ String.ofList written ++ "' is not valid UTF-8.")

/-- Replaces the escapes of a string. The scanner has checked their form, blanks apart. -/
def unescape : (fuel : Nat) → List Char → Except String (List Char)
  | 0, cs => .ok cs
  | _, [] => .ok []
  | fuel + 1, '\\' :: c :: cs => do
    if c == 'u' then return (← scalar (cs.take 4)) :: (← unescape fuel (cs.drop 4))
    else if c == 'U' then return (← scalar (cs.take 8)) :: (← unescape fuel (cs.drop 8))
    else if c == ' ' || c == '\t' then .error ("invalid escape: '\\" ++ c.toString ++ "'")
    else
      let d :=
        if c == 'b' then Char.ofNat 0x08
        else if c == 't' then '\t'
        else if c == 'n' then '\n'
        else if c == 'f' then Char.ofNat 0x0C
        else if c == 'r' then '\r'
        else c
      return d :: (← unescape fuel cs)
  | fuel + 1, c :: cs => do return c :: (← unescape fuel cs)

/-- The text of a string token, or what is wrong with its escapes. -/
def string (kind : TokenKind) (text : String) : Except String String := do
  let cs := text.toList
  let fuel := cs.length + 1
  match kind with
  | .raw | .bare => return text
  | .rawMultiline => return String.ofList (dropFirstLineEnd cs)
  | .multiline => return String.ofList (← unescape fuel (joinLines fuel (dropFirstLineEnd cs)))
  | _ => return String.ofList (← unescape fuel cs)

end SymbolAtlas.Toml.Literal
