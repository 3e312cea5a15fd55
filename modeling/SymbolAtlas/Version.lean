import SymbolAtlas.Text.Blank
import SymbolAtlas.Text.Colour
import SymbolAtlas.Text.Json

set_option autoImplicit false

/-! # Build information -/

namespace SymbolAtlas

open Text

/-- What is known of a build; empty texts are unknown. -/
structure Version where
  number : String
  commit : String := ""
  date : String := ""
  deriving DecidableEq, Repr

namespace Version

/-- This build. -/
def current : Version :=
  { number := "0.1.0-dev" }

def trimmed (v : Version) : Version where
  number := trim v.number
  commit := trim v.commit
  date := trim v.date

/-- Splits a text at the first occurrence of a character. -/
def cut (c : Char) (cs : List Char) : List Char × Option (List Char) :=
  (cs.takeWhile (· != c), (cs.dropWhile (· != c)).tail?)

/-- A version number in which major, minor and patch number have colours of their own; what follows
a dash has none. A number of fewer than three parts is left as it is. -/
def painted (color : Bool) (number : String) : String :=
  let (core, suffix) := cut '-' number.toList
  match cut '.' core with
  | (_, none) => number
  | (major, some rest) =>
    match cut '.' rest with
    | (_, none) => number
    | (minor, some patch) =>
      let ink (i : Ink) (cs : List Char) := paint color [i, .bold] (String.ofList cs)
      ink .yellow major ++ "." ++ ink .green minor ++ "." ++ ink .blue patch ++
        (match suffix with
        | none => ""
        | some s => "-" ++ String.ofList s)

def tagline : String := "every symbol knows what it needs"

def pretty (v : Version) (color : Bool) : String :=
  "symgraph " ++ painted color v.number ++ ", " ++ tagline ++ "\n" ++
    (if v.commit == "" then "" else "commit: " ++ v.commit ++ "\n") ++
    (if v.date == "" then "" else "built:  " ++ v.date ++ "\n")

def document (v : Version) : String :=
  (Json.record ([("version", .text v.number)] ++ Json.optionalText "git_commit" v.commit ++
    Json.optionalText "build_date" v.date)).pretty "" ++ "\n"

end Version

end SymbolAtlas
