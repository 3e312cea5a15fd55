import SymbolAtlas.Text.Utf8

set_option autoImplicit false

/-! # Unpacking

Packed values are read byte by byte from the front. A reader fails where the bytes end too early or
hold a value of another kind. Nothing is a value too: it reads as an empty text, as zero, and as a
list or a map that is not there. -/

namespace SymbolAtlas.Cache

/-- Reads a value from the front of some bytes. -/
abbrev Unpack (α : Type) : Type :=
  StateT (List UInt8) Option α

namespace Unpack

variable {α : Type}

/-! ## Bytes and numbers -/

def byte : Unpack UInt8
  | [] => none
  | b :: rest => some (b, rest)

def take (count : Nat) : Unpack (List UInt8) := fun bytes =>
  let taken := bytes.take count
  if taken.length = count then some (taken, bytes.drop count) else none

def number (width : Nat) : Unpack Nat := do
  return (← take width).foldl (fun n b => 256 * n + b.toNat) 0

def signed (width : Nat) : Unpack Int := do
  return Int.bmod (← number width) (Nat.pow 256 width)

def times (step : α → Unpack α) : (n : Nat) → α → Unpack α
  | 0, x => pure x
  | n + 1, x => do times step n (← step x)

/-! ## First bytes

The first byte of a value tells its kind. The functions below read what follows it. -/

/-- The number of bytes of a text or of bytes; `none` for nothing. -/
def byteCount (head : UInt8) : Unpack (Option Nat) :=
  let n := head.toNat
  if n = 0xC0 then pure none
  else if 0xA0 ≤ n && n < 0xC0 then pure (some (n - 0xA0))
  else if 0xC4 ≤ n && n ≤ 0xC6 then some <$> number (Nat.pow 2 (n - 0xC4))
  else if 0xD9 ≤ n && n ≤ 0xDB then some <$> number (Nat.pow 2 (n - 0xD9))
  else failure

def isList (head : UInt8) : Bool :=
  let n := head.toNat
  (0x90 ≤ n && n < 0xA0) || n = 0xDC || n = 0xDD

/-- The number of items of a list; `none` for nothing. -/
def listCount (head : UInt8) : Unpack (Option Nat) :=
  let n := head.toNat
  if n = 0xC0 then pure none
  else if 0x90 ≤ n && n < 0xA0 then pure (some (n - 0x90))
  else if n = 0xDC || n = 0xDD then some <$> number (2 * (n - 0xDB))
  else failure

def mapCount (head : UInt8) : Unpack (Option Nat) :=
  let n := head.toNat
  if n = 0xC0 then pure none
  else if 0x80 ≤ n && n < 0x90 then pure (some (n - 0x80))
  else if n = 0xDE || n = 0xDF then some <$> number (2 * (n - 0xDD))
  else failure

/-- An integer; nothing reads as zero. -/
def integerAfter (head : UInt8) : Unpack Int :=
  let n := head.toNat
  if n = 0xC0 then pure 0
  else if n < 0x80 then pure n
  else if 0xE0 ≤ n then pure ((n : Int) - 256)
  else if 0xCC ≤ n && n ≤ 0xCF then (fun (n : Nat) => (n : Int)) <$> number (Nat.pow 2 (n - 0xCC))
  else if 0xD0 ≤ n && n ≤ 0xD3 then signed (Nat.pow 2 (n - 0xD0))
  else failure

/-- The first byte of the value after the start of an extension, its tag and its length; a byte that
starts no extension is the first byte itself. -/
def pastExtension (head : UInt8) : Unpack UInt8 := do
  let n := head.toNat
  if 0xC7 ≤ n && n ≤ 0xC9 then
    let _ ← take (1 + Nat.pow 2 (n - 0xC7))
    byte
  else if 0xD4 ≤ n && n ≤ 0xD8 then
    let _ ← take 1
    byte
  else return head

/-! ## Values -/

def bytes? : Unpack (Option (List UInt8)) := do
  match ← byteCount (← byte) with
  | none => return none
  | some n => return some (← take n)

/-- The bytes of a text; nothing reads as the empty one. -/
def text : Unpack (List UInt8) := do
  return (← bytes?).getD []

def integer : Unpack Int := do
  integerAfter (← byte)

/-- A number of double precision; integers of 64 bits are read too. -/
def float : Unpack Float := do
  let head ← byte
  if head = 0xCA then return (Float32.ofBits (UInt32.ofNat (← number 4))).toFloat
  else if head = 0xCB then return Float.ofBits (UInt64.ofNat (← number 8))
  else return Float.ofInt (Int.bmod (← integerAfter head) 0x10000000000000000)

def texts : Unpack (Option (List (List UInt8))) := do
  match ← listCount (← byte) with
  | none => return none
  | some n =>
    let items ← times (fun items => do return (← text) :: items) n []
    return some items.reverse

/-- Sets a key of a map; a key that is there keeps its place. -/
def insertKey (pairs : List (List UInt8 × α)) (pair : List UInt8 × α) : List (List UInt8 × α) :=
  if pairs.any (·.1 == pair.1) then pairs.map fun p => if p.1 == pair.1 then pair else p
  else pairs ++ [pair]

/-- Reads the pairs of a map into one that is there; nothing takes it away. A map may stand in an
extension. -/
def mapInto (value : Unpack α) (old : Option (List (List UInt8 × α))) :
    Unpack (Option (List (List UInt8 × α))) := do
  match ← mapCount (← pastExtension (← byte)) with
  | none => return none
  | some n =>
    let pairs ← times (fun pairs => do return insertKey pairs (← text, ← value)) n (old.getD [])
    return some pairs

/-! ## Skipping -/

/-- Passes over the bytes of a value itself. The result is the number of values inside it. -/
def passOver (head : UInt8) : Unpack Nat := do
  let n := head.toNat
  let skipped (count : Nat) : Unpack Nat := do
    let _ ← take count
    return 0
  if n < 0x80 || 0xE0 ≤ n || n = 0xC0 || n = 0xC2 || n = 0xC3 then return 0
  else if n < 0x90 || n = 0xDE || n = 0xDF then return 2 * (← mapCount head).getD 0
  else if isList head then return (← listCount head).getD 0
  else if n = 0xCA then skipped 4
  else if n = 0xCB then skipped 8
  else if 0xCC ≤ n && n ≤ 0xD3 then skipped (Nat.pow 2 ((n - 0xCC) % 4))
  else if 0xD4 ≤ n && n ≤ 0xD8 then skipped (1 + Nat.pow 2 (n - 0xD4))
  else if 0xC7 ≤ n && n ≤ 0xC9 then skipped (1 + (← number (Nat.pow 2 (n - 0xC7))))
  else skipped ((← byteCount head).getD 0)

/-- Passes over `pending` values. Every value has at least one byte, so the number of bytes is fuel
enough. -/
def skipAll : (fuel : Nat) → (pending : Nat) → Unpack Unit
  | _, 0 => pure ()
  | 0, _ + 1 => failure
  | fuel + 1, pending + 1 => do
    let inner ← passOver (← byte)
    skipAll fuel (inner + pending)

def skip : Unpack Unit := fun bytes =>
  skipAll bytes.length 1 bytes

/-! ## Records -/

/-- Reads a record into one that is there. A map gives the fields by name: fields it does not name
stay, of repeated ones each is read into the one before, and unknown names are passed over. A list
gives all fields by their place. Nothing and an empty list give the blank record. -/
def record (fields : List (String × (α → Unpack α))) (blank old : α) : Unpack α := do
  let head ← byte
  if isList head then
    let n := (← listCount head).getD 0
    if n = 0 then return blank
    else if n = fields.length then fields.foldlM (fun x (_, read) => read x) old
    else failure
  else
    match ← mapCount head with
    | none => return blank
    | some n =>
      times (fun x => do
        match fields.lookup (Text.Utf8.toText (← text)) with
        | some read => read x
        | none =>
          skip
          return x) n old

end Unpack

end SymbolAtlas.Cache
