set_option autoImplicit false

/-! # Flags of symbols

Properties of a symbol that are checked often, one bit each. -/

namespace SymbolAtlas

/-- A set of flags, one bit each. -/
structure Flags where
  bits : UInt16 := 0
  deriving DecidableEq, Repr, Inhabited

namespace Flags

def static : Flags := ⟨1⟩

def external : Flags := ⟨2⟩

def interface : Flags := ⟨4⟩

def abstract : Flags := ⟨8⟩

def virtual : Flags := ⟨16⟩

def union (f g : Flags) : Flags :=
  ⟨f.bits ||| g.bits⟩

def meets (f g : Flags) : Bool :=
  f.bits &&& g.bits != 0

/-- The named flags, in the order in which they are printed. -/
def named : List (Flags × String) :=
  [(static, "static"), (external, "extern"), (interface, "interface"), (abstract, "abstract"),
    (virtual, "virtual")]

/-- The names of the flags that are set; a bit without a name has none. -/
def labels (f : Flags) : List String :=
  (named.filter fun (g, _) => f.meets g).map Prod.snd

/-- The names of the flags that are set, divided by commas. -/
def toText (f : Flags) : String :=
  ",".intercalate f.labels

end Flags

end SymbolAtlas
