set_option autoImplicit false

/-! # Colours and weights of terminal text

A style is a list of inks. Painting puts their numbers in front of the text and
their resets behind it. -/

namespace SymbolAtlas.Text

/-- A colour or weight of terminal text. -/
inductive Ink where
  | bold | underline | red | green | yellow | blue | cyan | white
  deriving DecidableEq, Repr

namespace Ink

def code : Ink → Nat
  | .bold => 1
  | .underline => 4
  | .red => 31
  | .green => 32
  | .yellow => 33
  | .blue => 34
  | .cyan => 36
  | .white => 37

/-- The number that turns an ink off; a colour falls back to the plain state. -/
def reset : Ink → Nat
  | .bold => 22
  | .underline => 24
  | _ => 0

end Ink

/-- The escape sequence that sends numbers to the terminal. -/
def escapeSequence (codes : List Nat) : String :=
  "\x1b[" ++ ";".intercalate (codes.map fun n => toString n) ++ "m"

def paint (enabled : Bool) (style : List Ink) (text : String) : String :=
  if enabled then
    escapeSequence (style.map Ink.code) ++ text ++ escapeSequence (style.map Ink.reset)
  else text

end SymbolAtlas.Text
