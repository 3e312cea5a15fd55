import SymbolAtlas.Digest.Sha256
import SymbolAtlas.Source.Span
import SymbolAtlas.Text.Bytes

set_option autoImplicit false

/-! # Files

A loaded file keeps its bytes, the offsets of its newlines and its digest. Positions are found by a
binary search in the newline offsets. -/

namespace SymbolAtlas

/-- How a file came to be: bit 0 for a file from memory, bit 1 for one that had a byte order mark,
bit 2 for one whose line ends were normalised. -/
structure FileFlags where
  bits : UInt8 := 0
  deriving DecidableEq, Repr

namespace FileFlags

def inMemory : FileFlags := ⟨1⟩

/-- The flags of a file that was read. -/
def ofReading (hadMark hadReturns : Bool) : FileFlags :=
  ⟨(if hadMark then 2 else 0) ||| (if hadReturns then 4 else 0)⟩

end FileFlags

/-- A file of a file set. -/
structure File where
  id : UInt32
  path : String
  content : List UInt8
  newlines : Array UInt32
  digest : List UInt8
  flags : FileFlags

/-- The number of entries below `x` in the window `[lo, hi)` of a sorted array, counted from the
array's start. Each step halves the window. -/
def lowerBound (a : Array UInt32) (x : UInt32) : (fuel lo hi : Nat) → Nat
  | 0, lo, _ => lo
  | fuel + 1, lo, hi =>
    if lo < hi then
      let mid := (lo + hi) / 2
      match a[mid]? with
      | none => lo
      | some v => if v < x then lowerBound a x fuel (mid + 1) hi else lowerBound a x fuel lo mid
    else lo

namespace File

def ofContent (id : UInt32) (path : String) (content : List UInt8) (flags : FileFlags) : File where
  id := id
  path := path
  content := content
  newlines := ((Text.Bytes.newlineOffsets 0 content).map UInt32.ofNat).toArray
  digest := Digest.Sha256.hash content
  flags := flags

/-- The position of an offset. The line counts the newlines before the offset; the column counts
bytes from the one after the last of them. -/
def position (f : File) (offset : UInt32) : Position :=
  let before := lowerBound f.newlines offset (f.newlines.size + 1) 0 f.newlines.size
  if before = 0 then ⟨1, offset + 1⟩
  else
    let start := f.newlines[before - 1]?.getD 0 + 1
    ⟨UInt32.ofNat (before + 1), offset - start + 1⟩

/-- The line that holds the first occurrence of `needle` at or after `start`. -/
def findLine? (f : File) (needle : List UInt8) (start : UInt32) : Option Span :=
  if needle.isEmpty || f.content.length < start.toNat then none
  else do
    let offset ← Text.Bytes.indexOf? needle (f.content.drop start.toNat)
    let found := start.toNat + offset
    return {
      file := f.id
      start := UInt32.ofNat (Text.Bytes.lineStart (f.content.take found))
      stop := UInt32.ofNat (found + Text.Bytes.lineEnd (f.content.drop found)) }

end File

end SymbolAtlas
