import SymbolAtlas.Text.Hex

set_option autoImplicit false

/-! # Tables of code point ranges

A character property is kept as a sorted table of disjoint ranges, each with a label. Tables are
written as text, one range a word, and read once: `41-5A` is a range, `AA` a single code point.
`Ranges.find?` is a binary search. -/

namespace SymbolAtlas.Text

/-- Sorted, disjoint ranges of code points with a label each. -/
structure Ranges (α : Type) where
  entries : Array (Nat × Nat × α)

namespace Ranges

variable {α : Type}

/-- Halves the window `[lo, hi)` until the entry that holds `n` is met. -/
def search (t : Ranges α) (n : Nat) : (fuel lo hi : Nat) → Option α
  | 0, _, _ => none
  | fuel + 1, lo, hi =>
    if lo < hi then
      let mid := (lo + hi) / 2
      match t.entries[mid]? with
      | none => none
      | some (first, last, label) =>
        if n < first then search t n fuel lo mid
        else if last < n then search t n fuel (mid + 1) hi
        else some label
    else none

/-- The label of the range that holds `n`. Each step halves the window, so its width is fuel
enough. -/
def find? (t : Ranges α) (n : Nat) : Option α :=
  t.search n (t.entries.size + 1) 0 t.entries.size

def contains (t : Ranges α) (n : Nat) : Bool :=
  (t.find? n).isSome

def words (text : String) : List (List Char) :=
  (text.toList.splitOnP fun c => c == ' ' || c == '\n').filter (!·.isEmpty)

def bounds? (word : List Char) : Option (Nat × Nat) :=
  match word.splitOn '-' with
  | [single] => (Hex.number? single).map fun n => (n, n)
  | [first, last] => do return (← Hex.number? first, ← Hex.number? last)
  | _ => none

/-- Reads a table in which every range carries the same label. -/
def ofText (label : α) (text : String) : Ranges α where
  entries := ((words text).filterMap fun w => (bounds? w).map fun (a, b) => (a, b, label)).toArray

/-- Reads a table whose ranges carry their label after a colon, as in `300-314:230`. -/
def ofLabelled (label? : List Char → Option α) (text : String) : Ranges α where
  entries := ((words text).filterMap fun w =>
    match w.splitOn ':' with
    | [range, label] => do
      let (a, b) ← bounds? range
      return (a, b, ← label? label)
    | _ => none).toArray

end Ranges

end SymbolAtlas.Text
