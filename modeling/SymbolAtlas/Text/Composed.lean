import SymbolAtlas.Text.CombiningClass
import SymbolAtlas.Text.Decomposition
import SymbolAtlas.Text.NonStarter

set_option autoImplicit false

/-! # Composed normal form

Texts that differ only in how accents are composed name the same thing. `composed` takes a text
apart into segments (a starter and the marks after it), each segment into its elementary
characters, sorts the marks by combining class and puts the characters together again. A run of
marks is cut after thirty by a joiner, so that every segment is short. -/

namespace SymbolAtlas.Text

/-! ## Taking apart -/

/-- The letters of a Hangul syllable. -/
def hangulParts (n : Nat) : List Char :=
  let index := n - 0xAC00
  let lead := 0x1100 + index / 588
  let vowel := 0x1161 + index % 588 / 28
  if index % 28 = 0 then [Char.ofNat lead, Char.ofNat vowel]
  else [Char.ofNat lead, Char.ofNat vowel, Char.ofNat (0x11A7 + index % 28)]

/-- The elementary characters of a character. A composite's first part may be a composite again,
at most four deep. -/
def elementary : (depth : Nat) → Char → List Char
  | 0, c => [c]
  | depth + 1, c =>
    let n := c.toNat
    if n < 0xC0 then [c]
    else if 0xAC00 ≤ n && n ≤ 0xD7A3 then hangulParts n
    else
      match decompositionRanges.find? n with
      | none => [c]
      | some d =>
        elementary depth (Char.ofNat d.first) ++
          match d.second with
          | none => []
          | some second => elementary depth (Char.ofNat second)

/-! ## Sorting marks -/

/-- Puts a mark in its place among the sorted marks at the end of a reversed list: it moves past
marks of a higher class and never past a starter. -/
def insertMark (c : Char) : List Char → List Char
  | [] => [c]
  | last :: before =>
    if combiningClass c ≠ 0 ∧ combiningClass c < combiningClass last then
      last :: insertMark c before
    else c :: last :: before

/-- Sorts the marks after each starter by class, keeping the order of equal classes. -/
def sortMarks (cs : List Char) : List Char :=
  (cs.foldl (fun acc c => insertMark c acc) []).reverse

/-! ## Putting together -/

/-- The syllable of two Hangul parts, a lead and a vowel or an open syllable and a final. -/
def syllable? (a b : Char) : Option Char :=
  let x := a.toNat
  let y := b.toNat
  if 0x1100 ≤ x && x < 0x1113 && 0x1161 ≤ y && y < 0x1176 then
    some (Char.ofNat (0xAC00 + (x - 0x1100) * 588 + (y - 0x1161) * 28))
  else if 0xAC00 ≤ x && x ≤ 0xD7A3 && (x - 0xAC00) % 28 = 0 && 0x11A7 < y && y < 0x11C3 then
    some (Char.ofNat (x + (y - 0x11A7)))
  else none

/-- A segment being composed: the characters before the base, the base, which later characters may
join, and the characters kept after it, both lists reversed. -/
structure Composing where
  before : List Char
  base : Char
  kept : List Char

def Composing.chars (s : Composing) : List Char :=
  s.before.reverse ++ s.base :: s.kept.reverse

/-- Makes the last character the base if it is a starter. -/
def Composing.rebase (s : Composing) : Composing :=
  match s.kept with
  | [] => s
  | last :: others =>
    if combiningClass last = 0 then ⟨others ++ s.base :: s.before, last, []⟩ else s

/-- Whether a kept mark of the same or a higher class stands between the base and `c`. -/
def Composing.blocks (s : Composing) (c : Char) : Bool :=
  match s.kept with
  | [] => false
  | last :: _ => combiningClass c ≤ combiningClass last

/-- Takes the next character: it joins the base if `join` has a composite for them and nothing
blocks it, and is kept otherwise. -/
def Composing.push (join : Char → Char → Option Char) (s : Composing) (c : Char) : Composing :=
  let s := s.rebase
  match if s.blocks c then none else join s.base c with
  | some joined => { s with base := joined }
  | none => { s with kept := c :: s.kept }

/-- Whether a character is one of the conjoining Hangul letters. -/
def isHangulPart (c : Char) : Bool :=
  c.toNat / 0x100 = 0x11

/-- Takes the rest of a segment. Only characters that may join backward are tried; from the first
Hangul letter on syllables are the only composites. -/
def Composing.pushAll (s : Composing) : List Char → Composing
  | [] => s
  | c :: rest =>
    if isHangulPart c then (c :: rest).foldl (push syllable?) s
    else if joinsBackward c then (s.push listedComposite? c).pushAll rest
    else pushAll { s with kept := c :: s.kept } rest

/-- Composes the sorted elementary characters of one segment. -/
def compose : List Char → List Char
  | [] => []
  | c :: rest => (Composing.pushAll ⟨[], c, []⟩ rest).chars

/-! ## Segments -/

/-- The joiner that cuts a run of marks. -/
def joiner : Char := Char.ofNat 0x34F

/-- The longest run of marks. -/
def maxMarks : Nat := 30

/-- Cuts a text into segments. `marks` counts the marks of the segment so far, which is kept
reversed in `current`. -/
def segments (marks : Nat) (current : List Char) : List Char → List (List Char)
  | [] => [current.reverse]
  | c :: rest =>
    let count := markCount c
    if count.leading = 0 then current.reverse :: segments count.trailing [c] rest
    else if maxMarks < marks + count.leading then
      (joiner :: current).reverse :: segments count.leading [c] rest
    else segments (marks + count.leading) (c :: current) rest

def composeSegment (cs : List Char) : List Char :=
  compose (sortMarks (cs.flatMap (elementary 4)))

/-- The composed form of a text. Texts without marks and with no character from U+0300 on are in
composed form already. -/
def composed (s : String) : String :=
  if s.toList.all fun c => c.toNat < 0x300 then s
  else String.ofList ((segments 0 [] s.toList).flatMap composeSegment)

end SymbolAtlas.Text
