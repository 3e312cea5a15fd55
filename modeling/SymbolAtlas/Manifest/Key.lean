import SymbolAtlas.Text.Blank
import SymbolAtlas.Text.Composed

set_option autoImplicit false

/-! # Keys of a manifest

Keys that only differ in blanks around them or in how their accents are composed name the same
entity. -/

namespace SymbolAtlas.Manifest

/-- The form of a key in which it is compared: trimmed and composed. -/
def normalizeKey (s : String) : String :=
  Text.composed (Text.trim s)

/-- The keys of a list in that form; empty ones are dropped. -/
def normalizeKeys (keys : List String) : List String :=
  (keys.map normalizeKey).filter (· != "")

end SymbolAtlas.Manifest
