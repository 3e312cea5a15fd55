set_option autoImplicit false

/-! # Diagnostic codes

Every finding has a number that never changes. The thousands of the number tell the area it comes
from, and the printed identifier names that area. -/

namespace SymbolAtlas

/-- The number of a finding. -/
structure Code where
  number : UInt16
  deriving DecidableEq, Repr, Inhabited

namespace Code

def unknown : Code := ⟨0⟩
def manifestInfo : Code := ⟨1000⟩
def manifestParse : Code := ⟨1001⟩
def manifestDuplicateKey : Code := ⟨1002⟩
def manifestUnknownKind : Code := ⟨1003⟩
def manifestMissingContaining : Code := ⟨1004⟩
def manifestEmptyKey : Code := ⟨1005⟩
def semanticInfo : Code := ⟨3000⟩
def unresolvedReference : Code := ⟨3001⟩
def dependencyCycle : Code := ⟨3002⟩
def badOverride : Code := ⟨3003⟩
def badContainingType : Code := ⟨3004⟩
def notInterface : Code := ⟨3005⟩
def loadFailed : Code := ⟨4001⟩
def internalError : Code := ⟨9001⟩

def titles : List (Code × String) := [
  (unknown, "Unknown error"),
  (manifestInfo, "Manifest information"),
  (manifestParse, "Malformed manifest"),
  (manifestDuplicateKey, "Duplicate symbol key"),
  (manifestUnknownKind, "Unknown symbol kind"),
  (manifestMissingContaining, "Containing type is not declared"),
  (manifestEmptyKey, "Symbol key is empty"),
  (semanticInfo, "Semantic information"),
  (unresolvedReference, "Unresolved symbol reference"),
  (dependencyCycle, "Dependency cycle"),
  (badOverride, "Invalid override target"),
  (badContainingType, "Containing entity is not a type"),
  (notInterface, "Implemented type is not an interface"),
  (loadFailed, "I/O load file error"),
  (internalError, "Internal compiler error")]

def area? (n : Nat) : Option String :=
  match n / 1000 with
  | 1 => some "MAN"
  | 3 => some "SEM"
  | 4 => some "IO"
  | 9 => some "ICE"
  | _ => none

/-- The identifier that is printed; a number outside the areas has none of its own. -/
def id (c : Code) : String :=
  match area? c.number.toNat with
  | some area => area ++ toString c.number.toNat
  | none => "E0000"

/-- What a code stands for; a code that is not declared is an unknown error. -/
def title (c : Code) : String :=
  (titles.lookup c).getD "Unknown error"

def toText (c : Code) : String :=
  "[" ++ c.id ++ "]: " ++ c.title

end Code

end SymbolAtlas
