set_option autoImplicit false

/-! # Faults

A fault is a misuse that no caller is meant to handle: reading a symbol that is not there, a
position outside a table, or a part that does not lie within a text. An operation that meets one
has no result. -/

namespace SymbolAtlas

/-- What an operation tripped over. -/
inductive Fault where
  /-- A symbol was read where none is given. -/
  | missingSymbol
  /-- A table of `length` items was read at `index`. -/
  | outOfRange (index length : Nat)
  /-- A text of `length` bytes was cut from `start` up to `stop`. -/
  | badCut (start stop : Int) (length : Nat)
  /-- A string was asked for by a number that was never given out. -/
  | unknownString
  deriving DecidableEq, Repr

def Fault.message : Fault → String
  | .missingSymbol => "runtime error: invalid memory address or nil pointer dereference"
  | .outOfRange index length =>
    s!"runtime error: index out of range [{index}] with length {length}"
  | .badCut start stop length =>
    "runtime error: slice bounds out of range " ++
      if stop < 0 then s!"[:{stop}]"
      else if length < stop then s!"[:{stop}] with length {length}"
      else if start < 0 then s!"[{start}:]"
      else s!"[{start}:{stop}]"
  | .unknownString => "invalid string ID"

/-- The item of a list at a place, which must be there. -/
def itemAt {α : Type} (items : List α) (place : Nat) : Except Fault α :=
  match items[place]? with
  | some item => .ok item
  | none => .error (.outOfRange place items.length)

end SymbolAtlas
