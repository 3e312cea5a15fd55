import SymbolAtlas.Fault

set_option autoImplicit false

/-! # Interned strings

Each distinct string gets the next number, and zero always stands for the empty string. Numbers are
unbounded here; a program with numbers of 32 bits gives up at the string number `2 ^ 32`. -/

namespace SymbolAtlas

theorem Interner.lookup_start (s : String) :
    [("", 0)].lookup s = (#[""] : Array String).toList.idxOf? s := by
  by_cases h : s = ""
  · simp [List.idxOf?_cons, h]
  · have hbeq : (s == "") = false := beq_eq_false_iff_ne.mpr h
    simp [List.lookup_cons, List.idxOf?_cons, hbeq, Ne.symm h]

/-- The interned strings, in the order of their numbers, and the number of each string. -/
structure Interner where
  strings : Array String := #[""]
  numbers : List (String × Nat) := [("", 0)]
  /-- A string's number is its first place. -/
  lookup_numbers : ∀ s, numbers.lookup s = strings.toList.idxOf? s := by
    exact SymbolAtlas.Interner.lookup_start

namespace Interner

def find? (t : Interner) (s : String) : Option Nat :=
  t.numbers.lookup s

/-- Gives a string the next number; a string that has one already keeps it. -/
def add (t : Interner) (s : String) : Interner where
  strings := t.strings.push s
  numbers := t.numbers ++ [(s, t.strings.size)]
  lookup_numbers := by
    intro x
    rw [List.lookup_append, t.lookup_numbers, Array.toList_push]
    unfold List.idxOf?
    rw [List.findIdx?_append]
    by_cases h : x = s
    · simp [h]
    · have hbeq : (x == s) = false := beq_eq_false_iff_ne.mpr h
      simp [List.lookup_cons, hbeq, Ne.symm h]

/-- The number of a string, which is added if it is new. -/
def intern (t : Interner) (s : String) : Nat × Interner :=
  match t.find? s with
  | some id => (id, t)
  | none => (t.strings.size, t.add s)

def lookup? (t : Interner) (id : Nat) : Option String :=
  t.strings[id]?

/-- The string of a number that must have been given out. -/
def lookup (t : Interner) (id : Nat) : Except Fault String :=
  match t.lookup? id with
  | some s => .ok s
  | none => .error .unknownString

def size (t : Interner) : Nat :=
  t.strings.size

end Interner

end SymbolAtlas
