import SymbolAtlas.Text.Utf8

set_option autoImplicit false

/-! # Tokens of TOML

The smallest meaningful pieces of a TOML document, with their places. Comments and blanks leave no
token. -/

namespace SymbolAtlas.Toml

/-- A place in a document: a line, counted from one, and a range of bytes. A failure at the end of
the input is placed one line and one byte back, which may be before the first. -/
structure Place where
  line : Int := 0
  start : Int := 0
  length : Nat := 0
  deriving DecidableEq, Repr

/-- What a token stands for. -/
inductive TokenKind where
  /-- The opening of a table header. -/
  | tableStart
  | tableEnd
  /-- The opening of the header of one more table of an array. -/
  | tableItemStart
  | tableItemEnd
  | keyStart
  | keyEnd
  /-- A part of a key without quotes. -/
  | bare
  | string
  | multiline
  | raw
  | rawMultiline
  | integer
  | float
  | boolean
  | datetime
  | arrayStart
  | arrayEnd
  | inlineStart
  | inlineEnd
  deriving DecidableEq, Repr

/-- A token with its text and its place. -/
structure Token where
  kind : TokenKind
  text : String
  place : Place
  deriving DecidableEq, Repr

/-- Text that is no token. -/
structure Failure where
  place : Place
  message : String
  deriving DecidableEq, Repr

end SymbolAtlas.Toml
