set_option autoImplicit false

/-! # Pattern-defeating quicksort

A quicksort that looks for order in its input first: a range that seems sorted is finished by
insertion, one that seems reversed is turned round, and a range that splits badly has some of its
elements scattered before the next attempt. Short ranges are sorted by insertion, and after too many
bad splits a heap takes over. The order is given by `before`. Elements that are not before one
another come out in an order that the input fixes, though not always in the order of the input. -/

namespace SymbolAtlas.Quicksort

variable {α : Type} (before : α → α → Bool)

/-- Whether the element at `i` belongs before the one at `j`. -/
def less (xs : Array α) (i j : Nat) : Bool :=
  match xs[i]?, xs[j]? with
  | some x, some y => before x y
  | _, _ => false

/-! ## Insertion -/

/-- Moves the element at an index down to its place among the sorted ones from `low` on. -/
def sink (low : Nat) (xs : Array α) : Nat → Array α
  | 0 => xs
  | i + 1 =>
    if low ≤ i && less before xs (i + 1) i then sink low (xs.swapIfInBounds (i + 1) i) i else xs

/-- Moves the element at `i - 1` up past smaller ones, over at most `count` of them. -/
def rise (xs : Array α) (i : Nat) : (count : Nat) → Array α
  | 0 => xs
  | count + 1 =>
    if less before xs i (i - 1) then rise (xs.swapIfInBounds i (i - 1)) (i + 1) count else xs

/-- Sorts the range `[a, b)` by insertion. -/
def insertion (xs : Array α) (a b : Nat) : Array α :=
  (List.range' (a + 1) (b - (a + 1))).foldl (sink before a) xs

/-- The first index from `i` on, over at most `count` of them, where `stays` fails. -/
def ascend (stays : Nat → Bool) (i : Nat) : (count : Nat) → Nat
  | 0 => i
  | count + 1 => if stays i then ascend stays (i + 1) count else i

/-- The first index from `j` down, over at most `count` of them, where `stays` fails. -/
def descend (stays : Nat → Bool) (j : Nat) : (count : Nat) → Nat
  | 0 => j
  | count + 1 => if stays j then descend stays (j - 1) count else j

/-- Tries to finish a range that is nearly sorted, from the index `i` on. At most `steps` neighbours
are put right, none in a range of fewer than 50. The result tells whether the range is sorted. -/
def finish (a b : Nat) : (steps : Nat) → (i : Nat) → (xs : Array α) → Array α × Bool
  | 0, _, xs => (xs, false)
  | steps + 1, i, xs =>
    let i := ascend (fun i => !less before xs i (i - 1)) i (b - i)
    if i = b then (xs, true)
    else if b - a < 50 then (xs, false)
    else
      let xs := xs.swapIfInBounds i (i - 1)
      let xs := if 2 ≤ i - a then sink before 0 xs (i - 1) else xs
      let xs := if 2 ≤ b - i then rise before xs (i + 1) (b - (i + 1)) else xs
      finish a b steps i xs

/-! ## Heaps -/

/-- Lets the element at `root` fall to its place in the heap of `size` elements from `first` on. -/
def siftDown (first size : Nat) : (fuel : Nat) → (root : Nat) → (xs : Array α) → Array α
  | 0, _, xs => xs
  | fuel + 1, root, xs =>
    let child := 2 * root + 1
    if size ≤ child then xs
    else
      let child :=
        if child + 1 < size && less before xs (first + child) (first + child + 1) then child + 1
        else child
      if less before xs (first + root) (first + child) then
        siftDown first size fuel child (xs.swapIfInBounds (first + root) (first + child))
      else xs

/-- Sorts the range `[a, b)` by a heap with the greatest element on top. -/
def heap (xs : Array α) (a b : Nat) : Array α :=
  let size := b - a
  let built := (List.range ((size - 1) / 2 + 1)).reverse.foldl
    (fun xs i => siftDown before a size size i xs) xs
  (List.range size).reverse.foldl
    (fun xs i => siftDown before a i size 0 (xs.swapIfInBounds a (a + i))) built

/-! ## Pivots -/

/-- Two indices in the order of their elements, and one more exchange if they change places. -/
def ordered (xs : Array α) (i j exchanges : Nat) : Nat × Nat × Nat :=
  if less before xs j i then (j, i, exchanges + 1) else (i, j, exchanges)

/-- The index of the median of three elements, and the exchanges that finding it took. -/
def median (xs : Array α) (i j k exchanges : Nat) : Nat × Nat :=
  let (i, j, exchanges) := ordered before xs i j exchanges
  let (j, _, exchanges) := ordered before xs j k exchanges
  let (_, j, exchanges) := ordered before xs i j exchanges
  (j, exchanges)

def medianAround (xs : Array α) (i exchanges : Nat) : Nat × Nat :=
  median before xs (i - 1) i (i + 1) exchanges

/-- The pivot of a range: the median of three elements, or of three medians in a range of 50 and
more. The number of exchanges hints at an order: none at a sorted range, twelve at a reversed
one. -/
def pivot (xs : Array α) (a b : Nat) : Nat × Nat :=
  let quarter := (b - a) / 4
  let i := a + quarter
  let j := a + quarter * 2
  let k := a + quarter * 3
  if 50 ≤ b - a then
    let (i, exchanges) := medianAround before xs i 0
    let (j, exchanges) := medianAround before xs j exchanges
    let (k, exchanges) := medianAround before xs k exchanges
    median before xs i j k exchanges
  else median before xs i j k 0

/-- The range `[a, b)` turned round. -/
def turned (xs : Array α) (a b : Nat) : Array α :=
  (List.range ((b - a) / 2)).foldl (fun xs i => xs.swapIfInBounds (a + i) (b - 1 - i)) xs

def nextWord (w : UInt64) : UInt64 :=
  let w := w ^^^ w <<< 13
  let w := w ^^^ w >>> 7
  w ^^^ w <<< 17

/-- Exchanges three elements in the middle of `[a, b)` with others, which the length alone picks. -/
def scattered (xs : Array α) (a b : Nat) : Array α :=
  let length := b - a
  let mask := Nat.pow 2 (Nat.log2 length + 1)
  let middle := a + length / 4 * 2 - 1
  let exchange (state : Array α × UInt64) (i : Nat) : Array α × UInt64 :=
    let word := nextWord state.2
    let picked := word.toNat % mask
    let other := if length ≤ picked then picked - length else picked
    (state.1.swapIfInBounds (middle - 1 + i) (a + other), word)
  ((List.range 3).foldl exchange (xs, UInt64.ofNat length)).1

/-! ## Partitions -/

/-- The elements of a range divided in two: where the upper part starts, where the lower one ends,
and whether elements changed places. -/
structure Division (α : Type) where
  items : Array α
  upper : Nat
  lower : Nat
  moved : Bool

/-- Divides the elements from `i` to `j`: those that `isLow` stay below, those that `isHigh` above,
and two that stand on the wrong sides change places. -/
def divide (isLow isHigh : Array α → Nat → Bool) :
    (fuel : Nat) → (xs : Array α) → (i j : Nat) → (moved : Bool) → Division α
  | 0, xs, i, j, moved => ⟨xs, i, j, moved⟩
  | fuel + 1, xs, i, j, moved =>
    let i := ascend (isLow xs) i (j + 1 - i)
    let j := descend (isHigh xs) j (j + 1 - i)
    if j < i then ⟨xs, i, j, moved⟩
    else divide isLow isHigh fuel (xs.swapIfInBounds i j) (i + 1) (j - 1) true

/-- Puts the elements before the pivot below it and the others above. The result has the place of
the pivot as the end of the lower part. -/
def partition (xs : Array α) (a b pivot : Nat) : Division α :=
  let d := divide (fun xs i => less before xs i a) (fun xs j => !less before xs j a) (b - a)
    (xs.swapIfInBounds a pivot) (a + 1) (b - 1) false
  { d with items := d.items.swapIfInBounds d.lower a }

/-- Puts the elements that the pivot is before above those equal to it; none is before it. -/
def partitionEqual (xs : Array α) (a b pivot : Nat) : Division α :=
  divide (fun xs i => !less before xs a i) (fun xs j => less before xs a j) (b - a)
    (xs.swapIfInBounds a pivot) (a + 1) (b - 1) false

/-! ## The sort -/

/-- Sorts the range `[a, b)`. `limit` bounds the bad splits; `balanced` and `tidy` tell whether the
last split was even and moved nothing. Each split makes the range shorter, so its length is fuel
enough. -/
def sortRange : (fuel : Nat) → (a b limit : Nat) → (balanced tidy : Bool) → (xs : Array α) → Array α
  | 0, _, _, _, _, _, xs => xs
  | fuel + 1, a, b, limit, balanced, tidy, xs =>
    let length := b - a
    if length ≤ 12 then insertion before xs a b
    else if limit = 0 then heap before xs a b
    else
      let xs := if balanced then xs else scattered xs a b
      let limit := if balanced then limit else limit - 1
      let (place, exchanges) := pivot before xs a b
      let reversed := exchanges = 12
      let xs := if reversed then turned xs a b else xs
      let place := if reversed then b - 1 - (place - a) else place
      let (xs, sorted) :=
        if balanced && tidy && (reversed || exchanges = 0) then finish before a b 5 (a + 1) xs
        else (xs, false)
      if sorted then xs
      else if 0 < a && !less before xs (a - 1) place then
        let d := partitionEqual before xs a b place
        sortRange fuel d.upper b limit balanced tidy d.items
      else
        let d := partition before xs a b place
        let middle := d.lower
        let tidy := !d.moved
        if middle - a < b - middle then
          let xs := sortRange fuel a middle limit true true d.items
          sortRange fuel (middle + 1) b limit (length / 8 ≤ middle - a) tidy xs
        else
          let xs := sortRange fuel (middle + 1) b limit true true d.items
          sortRange fuel a middle limit (length / 8 ≤ b - middle) tidy xs

def sort (xs : List α) : List α :=
  let limit := if xs.isEmpty then 0 else Nat.log2 xs.length + 1
  (sortRange before (xs.length + 1) 0 xs.length limit true true xs.toArray).toList

end SymbolAtlas.Quicksort
