set_option autoImplicit false

/-! # Timings

The phases of a run, in the order in which they began, with their durations. A phase that has not
ended has no duration yet and counts as zero. -/

namespace SymbolAtlas

/-- A phase of a run. Times are in nanoseconds. -/
structure Phase where
  name : String
  started : Nat
  elapsed : Option Nat := none
  note : String := ""
  deriving DecidableEq, Repr

/-- The phases of a run. -/
structure Timer where
  phases : Array Phase := #[]

namespace Timer

/-- Begins a phase at the time `now`; the result is its place. -/
def begin (t : Timer) (name : String) (now : Nat) : Nat × Timer :=
  (t.phases.size, ⟨t.phases.push { name, started := now }⟩)

/-- Ends the phase at a place; a place without a phase is passed over. -/
def finish (t : Timer) (place : Int) (note : String) (now : Nat) : Timer :=
  if place < 0 then t
  else ⟨t.phases.modify place.toNat fun p => { p with elapsed := some (now - p.started), note }⟩

def extendLast (t : Timer) (now : Nat) : Timer :=
  ⟨t.phases.modify (t.phases.size - 1) fun p => { p with elapsed := some (now - p.started) }⟩

def total (t : Timer) : Nat :=
  (t.phases.toList.map fun p => p.elapsed.getD 0).foldr (· + ·) 0

/-- Milliseconds with two places, filled up to seven characters. -/
def milliseconds (nanos : Nat) : String :=
  let hundredths := (nanos + 5000) / 10000
  let text := Nat.toDigits 10 (hundredths / 100) ++ ['.'] ++
    List.leftpad 2 '0' (Nat.toDigits 10 (hundredths % 100))
  String.ofList (List.leftpad 7 ' ' text)

def line (name : String) (nanos : Nat) (note : String) : String :=
  "  " ++ String.ofList (List.rightpad 20 ' ' name.toList) ++ " " ++ milliseconds nanos ++ " ms" ++
    (if note == "" then "" else "  // " ++ note) ++ "\n"

def summary (t : Timer) : String :=
  "timings:\n" ++
    String.join (t.phases.toList.map fun p => line p.name (p.elapsed.getD 0) p.note) ++
    line "total" t.total ""

end Timer

end SymbolAtlas
