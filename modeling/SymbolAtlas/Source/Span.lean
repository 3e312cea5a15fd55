set_option autoImplicit false

/-! # Spans

A span is a range of bytes in a loaded file. File zero stands for no file. Offsets are 32-bit, and
so is the arithmetic on them. -/

namespace SymbolAtlas

/-- The bytes of `file` from `start` up to, not including, `stop`. -/
structure Span where
  file : UInt32 := 0
  start : UInt32 := 0
  stop : UInt32 := 0
  deriving DecidableEq, Repr, Inhabited

namespace Span

def isEmpty (s : Span) : Bool :=
  s.start == s.stop

/-- The number of bytes, modulo 2^32 for a span that ends before it starts. -/
def length (s : Span) : UInt32 :=
  s.stop - s.start

/-- Extends a span so that it also holds `other`, if both lie in the same file. -/
def cover (s other : Span) : Span :=
  if s.file = other.file then
    { s with start := min s.start other.start, stop := max s.stop other.stop }
  else s

def toText (s : Span) : String :=
  toString s.file.toNat ++ ":" ++ toString s.start.toNat ++ "-" ++ toString s.stop.toNat

end Span

/-- A line and a column, both counted from one. -/
structure Position where
  line : UInt32 := 0
  column : UInt32 := 0
  deriving DecidableEq, Repr

end SymbolAtlas
