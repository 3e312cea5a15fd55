import SymbolAtlas.Text.Blank
import SymbolAtlas.Text.Hex
import SymbolAtlas.Text.Letter
import SymbolAtlas.Text.Quoted
import SymbolAtlas.Toml.Token

set_option autoImplicit false

/-! # Reading tokens

A scanner walks over the glyphs of a document. The glyphs since the last token make up the current
token. Reading past the end gives the character zero, which no document may hold. The first failure
ends the walk; the tokens before it stand.

Each function reads one form of the grammar. The ones that repeat are bounded by a number that the
length of the document gives: every repetition reads at least one glyph. -/

namespace SymbolAtlas.Toml

open Text

/-- How far a document has been read. -/
structure Scanner where
  /-- The number of glyphs of the document. -/
  size : Nat
  /-- The glyphs still to be read. -/
  rest : List Glyph
  /-- The glyphs read, the latest first. -/
  past : List Glyph := []
  /-- The number of bytes read. -/
  position : Nat := 0
  /-- Where the current token starts. -/
  start : Nat := 0
  line : Nat := 1
  /-- Whether the end was read. -/
  atEnd : Bool := false
  /-- The tokens found, the latest first. -/
  tokens : List Token := []

namespace Scanner

/-- The place of the current token; an empty one is shown as one byte. -/
def place (s : Scanner) : Place where
  line := s.line
  start := s.start
  length := Nat.max 1 (s.position - s.start)

/-- The place just before the position, on the line before. -/
def placeBefore (s : Scanner) : Place where
  line := (s.line : Int) - 1
  start := (s.position : Int) - 1
  length := 1

/-- The latest glyphs that make up `width` bytes, put before `text`. -/
def textBack : (width : Nat) → (past : List Glyph) → (text : List Char) → List Char
  | 0, _, text => text
  | _, [], text => text
  | width, g :: past, text => textBack (width - g.width) past (g.toChar :: text)

/-- The text of the current token. -/
def current (s : Scanner) : List Char :=
  textBack (s.position - s.start) s.past []

end Scanner

/-- Steps of a scanner. -/
abbrev ScanM (α : Type) : Type :=
  ExceptT Failure (StateM Scanner) α

namespace ScanM

/-- The character that stands for the end of a document. -/
def endMark : Char := Char.ofNat 0

def failBefore {α : Type} (message : String) : ScanM α := do
  throw ⟨(← get).placeBefore, message⟩

def fail {α : Type} (message : String) : ScanM α := do
  let s ← get
  if s.atEnd then failBefore message else throw ⟨s.place, message⟩

def isControl (c : Char) : Bool :=
  let n := c.toNat
  (n ≤ 0x1F && n != 0x09 && n != 0x0A && n != 0x0D) || n == 0x7F

def firstByte (c : Char) : Nat :=
  ((Utf8.encode c.toString).headD 0).toNat

/-- Whether the rest of a document starts with a newline. -/
def newlineFollows : List Glyph → Bool
  | .char c _ :: _ => c == '\n'
  | _ => false

/-- Reads a character. Stray bytes, the replacement character, controls, and a carriage return that
ends no line are refused. -/
def next : ScanM Char := do
  let s ← get
  match s.rest with
  | [] =>
    set { s with atEnd := true }
    return endMark
  | .stray b :: _ =>
    throw ⟨s.place, "invalid UTF-8 byte: 0x" ++ Hex.ofNatPadded 2 b.toNat⟩
  | .char c w :: rest =>
    let line := if c == '\n' then s.line + 1 else s.line
    if c == Char.ofNat 0xFFFD then
      throw ⟨s.place, "invalid UTF-8 byte: 0x" ++ Hex.ofNatPadded 2 (firstByte c)⟩
    if isControl c || (c == '\r' && !newlineFollows rest) then
      throw ⟨{ line := line, start := (s.position : Int) - 1, length := 1 },
        "TOML files cannot contain control characters: '0x" ++ Hex.ofNatPadded 2 c.toNat ++ "'"⟩
    set { s with rest, past := .char c w :: s.past, position := s.position + w, line }
    return c

def back : ScanM Unit := do
  let s ← get
  if s.atEnd then set { s with atEnd := false }
  else
    match s.past with
    | [] => return
    | g :: past =>
      set { s with rest := g :: s.rest, past, position := s.position - g.width
                   line := if g.toChar == '\n' then s.line - 1 else s.line }

def peek : ScanM Char := do
  let c ← next
  back
  return c

def accept (expected : Char) : ScanM Bool := do
  if (← next) == expected then return true
  back
  return false

/-- Reads two given characters; if only the first is there, it stays read. -/
def acceptBoth (first second : Char) : ScanM Bool := do
  if ← accept first then accept second else return false

def ignore : ScanM Unit :=
  modify fun s => { s with start := s.position }

def emit (kind : TokenKind) : ScanM Unit :=
  modify fun s =>
    { s with tokens := ⟨kind, String.ofList s.current, s.place⟩ :: s.tokens, start := s.position }

def readWhile (p : Char → Bool) : (fuel : Nat) → ScanM Unit
  | 0 => return
  | fuel + 1 => do
    if p (← next) then readWhile p fuel else back

/-- A bound on the number of steps that still read something. -/
def bound : ScanM Nat := do
  return (← get).size + 1

/-- Blanks inside a line. -/
def isSpace (c : Char) : Bool :=
  c == ' ' || c == '\t'

/-- Characters that end a line. -/
def isLineEnd (c : Char) : Bool :=
  c == '\n' || c == '\r'

def isHexDigit (c : Char) : Bool :=
  (Hex.digit? c).isSome

def isBareChar (c : Char) : Bool :=
  c.isAlpha || c.isDigit || c == '_' || c == '-'

def skipSpaces : ScanM Unit := do
  readWhile isSpace (← bound)
  ignore

/-- Passes over the rest of a comment, up to the end of its line. -/
def comment : ScanM Unit := do
  ignore
  readWhile (fun c => !(isLineEnd c || c == endMark)) (← bound)
  ignore

/-! ## Strings -/

def hexDigits (message : String) : (count : Nat) → ScanM Unit
  | 0 => return
  | count + 1 => do
    if isHexDigit (← next) then hexDigits message count
    else fail (message ++ ", but got " ++ quote (String.ofList (← get).current) ++ " instead")

def escape : ScanM Unit := do
  let c ← next
  if ['b', 't', 'n', 'f', 'r', '"', ' ', '\t', '\\'].contains c then return
  else if c == 'u' then hexDigits "expected four hexadecimal digits after '\\u'" 4
  else if c == 'U' then hexDigits "expected eight hexadecimal digits after '\\U'" 8
  else fail ("invalid escape in string '\\" ++ c.toString ++ "'")

/-- Ends a token of a string before its closing quotes and passes over them. -/
def closeString (kind : TokenKind) (quotes : Nat) : ScanM Unit := do
  for _ in List.range quotes do back
  emit kind
  for _ in List.range quotes do
    let _ ← next
  ignore

/-- Reads a string on one line; its opening quote has been read. -/
def lineString (quote : Char) (expected : String) (kind : TokenKind) : (fuel : Nat) → ScanM Unit
  | 0 => return
  | fuel + 1 => do
    let c ← next
    if c == endMark then fail ("unexpected EOF; expected " ++ expected)
    else if isLineEnd c then failBefore "strings cannot contain newlines"
    else if c == quote then closeString kind 1
    else
      if c == '\\' && quote == '"' then escape
      lineString quote expected kind fuel

def endsIn (tail text : List Char) : Bool :=
  tail.reverse.isPrefixOf text.reverse

/-- Reads a string over several lines; its opening quotes have been read. Up to two quotes may stand
right before the closing ones. -/
def blockString (quote : Char) (kind : TokenKind) : (fuel : Nat) → ScanM Unit
  | 0 => return
  | fuel + 1 => do
    let enclosed (n : Nat) : String :=
      let outer := if quote == '"' then "'" else "\""
      outer ++ String.ofList (List.replicate n quote) ++ outer
    let c ← next
    if c == endMark then fail ("unexpected EOF; expected " ++ enclosed 3)
    else if c == '\\' && quote == '"' then
      unless isLineEnd (← next) do
        back
        escape
      blockString quote kind fuel
    else if c == quote then
      if ← accept quote then
        if ← accept quote then
          if (← peek) == quote then
            let text := (← get).current
            let five := List.replicate 5 quote
            if endsIn five text && !(quote == '"' && endsIn ('\\' :: five) text) then
              fail ("unexpected " ++ enclosed 6)
            back
            back
          else return ← closeString kind 3
        else back
      blockString quote kind fuel
    else blockString quote kind fuel

/-- Reads a string that opens with `quote`, which has been read. -/
def string (quote : Char) : ScanM Unit := do
  let fuel ← bound
  if quote == '"' then lineString '"' "'\"'" .string fuel
  else lineString '\'' "\"'\"" .raw fuel

/-- Reads a string of either length; its first quote has been read. -/
def anyString (quote : Char) : ScanM Unit := do
  if ← accept quote then
    if ← accept quote then
      ignore
      return ← blockString quote (if quote == '"' then .multiline else .rawMultiline) (← bound)
    back
  ignore
  string quote

/-! ## Numbers and dates -/

def finishWith (p : Char → Bool) (kind : TokenKind) : ScanM Unit := do
  readWhile p (← bound)
  emit kind

/-- Reads the rest of a float. -/
def float : ScanM Unit :=
  finishWith (fun c => c.isDigit || ['_', '.', '-', '+', 'e', 'E'].contains c) .float

/-- Reads the rest of a number in base ten. -/
def decimal : ScanM Unit := do
  readWhile (fun c => c.isDigit || c == '_') (← bound)
  if ['.', 'e', 'E'].contains (← next) then float
  else
    back
    emit .integer

/-- Reads the rest of a date or time; blanks at its end do not count. -/
def datetime : ScanM Unit := do
  readWhile (fun c => c.isDigit || ['-', ':', 'T', 't', ' ', '.', 'Z', 'z', '+'].contains c)
    (← bound)
  modify fun s =>
    { s with
      tokens := ⟨.datetime, trim (String.ofList s.current), s.place⟩ :: s.tokens
      start := s.position }

/-- Reads the rest of a number or date that starts with digits. -/
def numberOrDate : ScanM Unit := do
  readWhile Char.isDigit (← bound)
  let c ← next
  if c == '-' || c == ':' then datetime
  else if c == '_' then decimal
  else if ['.', 'e', 'E'].contains c then float
  else
    back
    emit .integer

/-- Reads the digits of a number in another base; at least one must follow. -/
def based (name : String) (isDigit : Char → Bool) : ScanM Unit := do
  let c ← peek
  if !isDigit c then
    fail ("not " ++ name ++ " number: '" ++ String.ofList (← get).current ++ c.toString ++ "'")
  finishWith (fun c => isDigit c || c == '_') .integer

def number : ScanM Unit := do
  if (← next) != '0' then numberOrDate
  else
    let c ← next
    if c.isDigit then numberOrDate
    else if c == '_' then decimal
    else if ['.', 'e', 'E'].contains c then float
    else if c == 'b' then based "a binary" fun c => c == '0' || c == '1'
    else if c == 'o' then based "an octal" fun c => '0' ≤ c && c ≤ '7'
    else if c == 'x' then based "a hexidecimal" isHexDigit
    else
      back
      emit .integer

/-- Reads the rest of an infinity or of a value that is no number. -/
def special (second third : Char) : ScanM Unit := do
  if ← acceptBoth second third then emit .float
  else fail ("invalid float: '" ++ String.ofList (← get).current ++ "'")

def signedNumber : ScanM Unit := do
  let c ← next
  if c == 'i' then special 'n' 'f'
  else if c == 'n' then special 'a' 'n'
  else if c == '.' then fail "floats must start with a digit, not '.'"
  else if c == '0' then
    let d ← peek
    if d == 'b' || d == 'o' || d == 'x' then
      fail ("cannot use sign with non-decimal numbers: '" ++ String.ofList (← get).current ++
        d.toString ++ "'")
    decimal
  else if c.isDigit then decimal
  else fail ("expected a digit but got " ++ quoteChar c)

/-! ## Keys and headers -/

def keyPart : ScanM Unit := do
  let c ← peek
  if c == '"' || c == '\'' then
    ignore
    let _ ← next
    ignore
    string c
  else finishWith isBareChar .bare

/-- Reads the parts of a key, up to the sign that divides it from its value. -/
def keyParts : (fuel : Nat) → ScanM Unit
  | 0 => return
  | fuel + 1 => do
    skipSpaces
    let c ← peek
    if c == '=' || c == endMark then fail "unexpected '='"
    if c == '.' then fail "unexpected '.'"
    keyPart
    skipSpaces
    let c ← next
    if c == endMark then fail "unexpected EOF; expected key separator '='"
    else if c == '.' then
      ignore
      keyParts fuel
    else if c == '=' then
      emit .keyEnd
      ignore
    else fail ("expected '.' or '=', but got " ++ quoteChar c ++ " instead")

def key : ScanM Unit := do
  skipSpaces
  let c ← peek
  if c == '=' || c == endMark then fail "unexpected '=': key name appears blank"
  if c == '.' then fail "unexpected '.': keys cannot start with a '.'"
  emit .keyStart
  keyParts (← bound)

/-- Reads the parts of a header, up to the bracket that closes it. -/
def headerParts : (fuel : Nat) → ScanM Unit
  | 0 => return
  | fuel + 1 => do
    skipSpaces
    let c ← peek
    if c == ']' || c == endMark then
      fail "unexpected end of table name (table names cannot be empty)"
    if c == '.' then fail "unexpected table separator (table names cannot be empty)"
    keyPart
    skipSpaces
    let c ← next
    if c == '.' then
      ignore
      headerParts fuel
    else if c != ']' then
      fail ("expected '.' or ']' to end table name, but got " ++ quoteChar c ++ " instead")

def header : ScanM Unit := do
  if (← peek) == '[' then
    let _ ← next
    emit .tableItemStart
    headerParts (← bound)
    let c ← next
    if c != ']' then
      fail ("expected end of table array name delimiter ']', but got " ++ quoteChar c ++ " instead")
    emit .tableItemEnd
  else
    emit .tableStart
    headerParts (← bound)
    emit .tableEnd

/-! ## Values -/

def described (c : Char) : String :=
  if c == endMark then "end of file" else "'" ++ c.toString ++ "'"

def boolean : ScanM Unit := do
  let before := (← get).position
  readWhile isLetter (← bound)
  let s ← get
  let word := String.ofList (Scanner.textBack (s.position - before) s.past [])
  if word == "true" || word == "false" then emit .boolean
  else fail ("expected value but found " ++ quote word ++ " instead")

/-- Reads a value that holds no other value, or fails; its first character has been read. -/
def scalar (c : Char) : ScanM Unit := do
  if c == '"' || c == '\'' then return ← anyString c
  if c == '.' then fail "floats must start with a digit, not '.'"
  if c == '-' || c == '+' then return ← signedNumber
  if c == 'i' || c == 'n' then
    if ← acceptBoth 'n' 'f' then return ← emit .float
    if ← acceptBoth 'a' 'n' then return ← emit .float
  if isLetter c then
    back
    boolean
  else if c == endMark then fail "unexpected EOF; expected value"
  else fail ("expected value but found " ++ quoteChar c ++ " instead")

mutual

def value : (fuel : Nat) → ScanM Unit
  | 0 => return
  | fuel + 1 => do
    let c ← next
    if isSpace c then
      ignore
      value fuel
    else if c.isDigit then
      back
      number
    else if c == '[' then
      ignore
      emit .arrayStart
      array fuel
    else if c == '\x7b' then
      ignore
      emit .inlineStart
      inline fuel
    else scalar c

/-- Reads the items of an array from one that may come next. -/
def array : (fuel : Nat) → ScanM Unit
  | 0 => return
  | fuel + 1 => do
    let c ← next
    if isSpace c || isLineEnd c then
      ignore
      array fuel
    else if c == '#' then
      comment
      array fuel
    else if c == ',' then fail "unexpected comma"
    else if c == ']' then
      ignore
      emit .arrayEnd
    else
      back
      value fuel
      arrayRest fuel

def arrayRest : (fuel : Nat) → ScanM Unit
  | 0 => return
  | fuel + 1 => do
    let c ← next
    if isSpace c || isLineEnd c then
      ignore
      arrayRest fuel
    else if c == '#' then
      comment
      arrayRest fuel
    else if c == ',' then
      ignore
      array fuel
    else if c == ']' then
      ignore
      emit .arrayEnd
    else
      fail ("expected a comma (',') or array terminator (']'), but got " ++ described c)

/-- Reads the pairs of an inline table from one that may come next. -/
def inline : (fuel : Nat) → ScanM Unit
  | 0 => return
  | fuel + 1 => do
    let c ← next
    if isSpace c then
      ignore
      inline fuel
    else if isLineEnd c then failBefore "newlines not allowed within inline tables"
    else if c == '#' then
      comment
      inline fuel
    else if c == ',' then fail "unexpected comma"
    else if c == '\x7d' then
      ignore
      emit .inlineEnd
    else
      back
      key
      value fuel
      inlineRest fuel

def inlineRest : (fuel : Nat) → ScanM Unit
  | 0 => return
  | fuel + 1 => do
    let c ← next
    if isSpace c then
      ignore
      inlineRest fuel
    else if isLineEnd c then failBefore "newlines not allowed within inline tables"
    else if c == '#' then
      comment
      inlineRest fuel
    else if c == ',' then
      ignore
      skipSpaces
      if (← peek) == '\x7d' then fail "trailing comma not allowed in inline tables"
      inline fuel
    else if c == '\x7d' then
      ignore
      emit .inlineEnd
    else
      fail ("expected a comma or an inline table terminator '\x7d', but got " ++
        described c ++ " instead")

end

/-! ## Documents -/

/-- Reads to the end of a line; the result tells whether the document goes on. -/
def lineRest : (fuel : Nat) → ScanM Bool
  | 0 => return false
  | fuel + 1 => do
    let c ← next
    if c == '#' then
      comment
      return true
    else if isSpace c then lineRest fuel
    else if isLineEnd c then
      ignore
      return true
    else if c == endMark then return false
    else
      fail ("expected a top-level item to end with a newline, comment, or EOF, but got " ++
        quoteChar c ++ " instead")

def document : (fuel : Nat) → ScanM Unit
  | 0 => return
  | fuel + 1 => do
    let c ← next
    if isSpace c || isLineEnd c then
      ignore
      document fuel
    else if c == '#' then
      comment
      document fuel
    else if c == endMark then return
    else
      if c == '[' then header
      else
        back
        key
        value (4 * (← bound))
      if ← lineRest (← bound) then document fuel

end ScanM

/-- The tokens of a document, and the failure that ends them. -/
def scan (glyphs : List Glyph) : List Token × Option Failure :=
  let (result, s) := (ScanM.document (glyphs.length + 1)).run.run
    { size := glyphs.length, rest := glyphs }
  match result with
  | .ok _ => (s.tokens.reverse, none)
  | .error failure => (s.tokens.reverse, some failure)

end SymbolAtlas.Toml
