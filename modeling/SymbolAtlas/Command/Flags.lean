import SymbolAtlas.Text.Numeral
import SymbolAtlas.Text.Utf8

set_option autoImplicit false

/-! # Flags

Flags may stand before, between and after the arguments of a command. A flag is written as
`--name value` or `--name=value`; a flag that is on or off only takes a value after `=`. After `--`
everything is an argument. Of a repeated flag the last value counts. -/

namespace SymbolAtlas.Command

/-- What a flag takes. -/
inductive FlagKind where
  | text
  | integer
  /-- On or off; on if no value is given. -/
  | switch
  deriving DecidableEq, Repr

/-- A flag that a command knows. -/
structure Flag where
  name : String
  kind : FlagKind
  /-- The letter that stands for the flag after a single dash. -/
  letter : Option Char := none
  deriving DecidableEq, Repr

/-- A value that was given. -/
inductive FlagValue where
  | text (s : String)
  | integer (n : Int)
  | switch (on : Bool)
  deriving DecidableEq, Repr

/-- Why flags were refused. -/
inductive FlagError where
  | badSyntax (arg : String)
  | unknown (name : String)
  | unknownLetter (letter : Char) (letters : String)
  | needsValue (name : String)
  | invalid (value : String) (flag : Flag) (reason : String)
  deriving DecidableEq, Repr

def Flag.label (f : Flag) : String :=
  match f.letter with
  | some c => "-" ++ c.toString ++ ", --" ++ f.name
  | none => "--" ++ f.name

def FlagError.message : FlagError → String
  | .badSyntax arg => "bad flag syntax: " ++ arg
  | .unknown name => "unknown flag: --" ++ name
  | .unknownLetter letter letters =>
    "unknown shorthand flag: " ++ Text.quoteChar letter ++ " in -" ++ letters
  | .needsValue name => "flag needs an argument: --" ++ name
  | .invalid value flag reason =>
    "invalid argument " ++ Text.quote value ++ " for " ++ Text.quote flag.label ++ " flag: "
      ++ reason

/-- The flags and arguments of a command line. -/
structure Parsed where
  values : List (String × FlagValue) := []
  args : List String := []

namespace Parsed

def has (p : Parsed) (name : String) : Bool :=
  p.values.any (·.1 == name)

def text (p : Parsed) (name default : String) : String :=
  match p.values.lookup name with
  | some (.text s) => s
  | _ => default

def integer (p : Parsed) (name : String) (default : Int) : Int :=
  match p.values.lookup name with
  | some (.integer n) => n
  | _ => default

def switch (p : Parsed) (name : String) : Bool :=
  p.values.lookup name == some (.switch true)

def set (p : Parsed) (name : String) (v : FlagValue) : Parsed :=
  { p with values := (name, v) :: p.values }

def push (p : Parsed) (arg : String) : Parsed :=
  { p with args := p.args ++ [arg] }

end Parsed

def Flag.read (f : Flag) (value : String) : Except FlagError FlagValue :=
  match f.kind with
  | .text => .ok (.text value)
  | .integer =>
    match Text.Numeral.literal value with
    | .ok n => .ok (.integer n)
    | .error refusal => .error (.invalid value f (refusal.message "ParseInt" value))
  | .switch =>
    match Text.Numeral.bool? value with
    | some b => .ok (.switch b)
    | none =>
      .error (.invalid value f (Text.Numeral.Refusal.malformed.message "ParseBool" value))

def splitValue (cs : List Char) : String × Option String :=
  (String.ofList (cs.takeWhile (· != '=')),
    ((cs.dropWhile (· != '=')).tail?).map String.ofList)

/-- The value that a flag without `=` has: that of a switch, or the next argument. -/
def nextValue (f : Flag) (rest : List String) : Except FlagError (String × List String) :=
  if f.kind = .switch then .ok ("true", rest)
  else
    match rest with
    | value :: rest => .ok (value, rest)
    | [] => .error (.needsValue f.name)

/-- Reads a flag by its name; `cs` follows the two dashes. -/
def parseLong (flags : List Flag) (arg : String) (cs : List Char) (rest : List String)
    (p : Parsed) : Except FlagError (List String × Parsed) :=
  if cs.head? == some '-' || cs.head? == some '=' then .error (.badSyntax arg)
  else
    let (name, value) := splitValue cs
    match flags.find? (·.name == name) with
    | none => .error (.unknown name)
    | some f => do
      let (value, rest) ← match value with
        | some v => .ok (v, rest)
        | none => nextValue f rest
      return (rest, p.set name (← f.read value))

/-- Reads flags by their letters, all of which are switches. -/
def parseLetters (flags : List Flag) : List Char → Parsed → Except FlagError Parsed
  | [], p => .ok p
  | c :: cs, p =>
    match flags.find? (·.letter == some c) with
    | none =>
      let byte := ((Text.Utf8.encode c.toString).headD 0).toNat
      .error (.unknownLetter (Char.ofNat byte) (String.ofList (c :: cs)))
    | some f =>
      match cs with
      | '=' :: d :: value => do return p.set f.name (← f.read (String.ofList (d :: value)))
      | _ => parseLetters flags cs (p.set f.name (.switch true))

def parseArgs (flags : List Flag) : (fuel : Nat) → List String → Parsed → Except FlagError Parsed
  | 0, _, p => .ok p
  | _, [], p => .ok p
  | fuel + 1, arg :: rest, p =>
    match arg.toList with
    | ['-', '-'] => .ok { p with args := p.args ++ rest }
    | '-' :: '-' :: cs => do
      let (rest, p) ← parseLong flags arg cs rest p
      parseArgs flags fuel rest p
    | '-' :: c :: cs => do
      parseArgs flags fuel rest (← parseLetters flags (c :: cs) p)
    | _ => parseArgs flags fuel rest (p.push arg)

def parse (flags : List Flag) (args : List String) : Except FlagError Parsed :=
  parseArgs flags (args.length + 1) args {}

end SymbolAtlas.Command
