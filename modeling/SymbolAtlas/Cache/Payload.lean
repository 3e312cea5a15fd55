import SymbolAtlas.Cache.Packed
import SymbolAtlas.Cache.Unpack
import SymbolAtlas.Symbol.Closure
import SymbolAtlas.Timing

set_option autoImplicit false

/-! # Cached runs

A payload holds the closures of a run, by key, with the kinds and flags of the symbols. It is stored
as a packed record. A map or list that was never made is stored as nothing, apart from an empty
one. -/

namespace SymbolAtlas.Cache

/-- The duration of a phase. Its texts are of type `τ`. -/
structure PhaseTime (τ : Type) where
  name : τ
  milliseconds : Float := 0
  note : τ

/-- A cached run. Its texts are of type `τ`: strings where a run is described, and in a file bytes,
which need not be well formed. -/
structure Payload (τ : Type) where
  /-- The version of the record's shape. -/
  schema : UInt16 := 0
  /-- The path of the manifest. -/
  manifest : τ
  /-- The digest of the manifest, 32 bytes. -/
  hash : List UInt8 := List.replicate 32 0
  /-- The sorted closure of every key. -/
  closures : Option (List (τ × Option (List τ))) := none
  kinds : Option (List (τ × τ)) := none
  /-- The flags of the symbols that have any. -/
  flags : Option (List (τ × τ)) := none
  total : Float := 0
  phases : List (PhaseTime τ) := []

abbrev StoredPayload : Type := Payload (List UInt8)

namespace Payload

def currentSchema : UInt16 := 2

def map {τ σ : Type} (f : τ → σ) (p : Payload τ) : Payload σ :=
  let pair (kv : τ × τ) : σ × σ := (f kv.1, f kv.2)
  { schema := p.schema, manifest := f p.manifest, hash := p.hash
    closures := p.closures.map fun pairs => pairs.map fun (k, v) => (f k, v.map (·.map f))
    kinds := p.kinds.map (·.map pair)
    flags := p.flags.map (·.map pair)
    total := p.total
    phases := p.phases.map fun t => ⟨f t.name, t.milliseconds, f t.note⟩ }

/-! ## Packing -/

def packMap {α : Type} (pack : α → List UInt8) : Option (List (List UInt8 × α)) → List UInt8
  | none => Packed.ofNull
  | some pairs =>
    Packed.mapHead pairs.length ++ pairs.flatMap fun (k, v) => Packed.ofText k ++ pack v

def packTexts : Option (List (List UInt8)) → List UInt8
  | none => Packed.ofNull
  | some items => Packed.listHead items.length ++ items.flatMap Packed.ofText

def packPhase (p : PhaseTime (List UInt8)) : List UInt8 :=
  Packed.mapHead (if p.note.isEmpty then 2 else 3) ++
    Packed.ofString "name" ++ Packed.ofText p.name ++
    Packed.ofString "duration_ms" ++ Packed.ofFloat p.milliseconds ++
    (if p.note.isEmpty then [] else Packed.ofString "note" ++ Packed.ofText p.note)

def packPhases (phases : List (PhaseTime (List UInt8))) : List UInt8 :=
  if phases.isEmpty then Packed.ofNull
  else Packed.listHead phases.length ++ phases.flatMap packPhase

def encode (p : StoredPayload) : List UInt8 :=
  Packed.mapHead 7 ++
    Packed.ofString "schema" ++ Packed.ofUInt16 p.schema ++
    Packed.ofString "manifest" ++ Packed.ofText p.manifest ++
    Packed.ofString "hash" ++ Packed.binaryHead p.hash.length ++ p.hash ++
    Packed.ofString "closures" ++ packMap packTexts p.closures ++
    Packed.ofString "kinds" ++ packMap Packed.ofText p.kinds ++
    Packed.ofString "flags" ++ packMap Packed.ofText p.flags ++
    Packed.ofString "timing" ++ Packed.mapHead 2 ++
    Packed.ofString "total_ms" ++ Packed.ofFloat p.total ++
    Packed.ofString "phases" ++ packPhases p.phases

/-! ## Unpacking -/

def blankPhase : PhaseTime (List UInt8) where
  name := []
  note := []

/-- A payload while it is read. A list of phases that is read again is read into the phases that are
there, also into those that it no longer shows. -/
structure Draft where
  payload : StoredPayload := { manifest := [] }
  /-- The phases after those that are shown. -/
  hidden : List (PhaseTime (List UInt8)) := []

def readPhase : PhaseTime (List UInt8) → Unpack (PhaseTime (List UInt8)) :=
  Unpack.record [
    ("name", fun p => do return { p with name := ← Unpack.text }),
    ("duration_ms", fun p => do return { p with milliseconds := ← Unpack.float }),
    ("note", fun p => do return { p with note := ← Unpack.text })] blankPhase

def Draft.readPhases (d : Draft) : Unpack Draft := do
  match ← Unpack.listCount (← Unpack.byte) with
  | none => return { payload := { d.payload with phases := [] } }
  | some n =>
    let step : List (PhaseTime (List UInt8)) × List (PhaseTime (List UInt8)) → Unpack _
      | (done, slots) => do
        return ((← readPhase (slots.headD blankPhase)) :: done, slots.tail)
    let (done, rest) ← Unpack.times step n ([], d.payload.phases ++ d.hidden)
    return { payload := { d.payload with phases := done.reverse }, hidden := rest }

def Draft.set (d : Draft) (p : StoredPayload) : Draft :=
  { d with payload := p }

def Draft.readTiming (d : Draft) : Unpack Draft :=
  Unpack.record [
    ("total_ms", fun d => do return d.set { d.payload with total := ← Unpack.float }),
    ("phases", Draft.readPhases)]
    { payload := { d.payload with total := 0, phases := [] } } d

def Draft.readHash (d : Draft) : Unpack Draft := do
  match ← Unpack.bytes? with
  | none => return d
  | some bytes =>
    if 32 < bytes.length then failure
    return d.set { d.payload with hash := bytes ++ d.payload.hash.drop bytes.length }

def Draft.read : Unpack Draft :=
  Unpack.record [
    ("schema", fun d => do
      let n := Int.emod (← Unpack.integer) 65536
      return d.set { d.payload with schema := UInt16.ofNat n.toNat }),
    ("manifest", fun d => do return d.set { d.payload with manifest := ← Unpack.text }),
    ("hash", Draft.readHash),
    ("closures", fun d => do
      let closures ← Unpack.mapInto Unpack.texts d.payload.closures
      return d.set { d.payload with closures }),
    ("kinds", fun d => do
      let kinds ← Unpack.mapInto Unpack.text d.payload.kinds
      return d.set { d.payload with kinds }),
    ("flags", fun d => do
      let flags ← Unpack.mapInto Unpack.text d.payload.flags
      return d.set { d.payload with flags }),
    ("timing", Draft.readTiming)] {} {}

/-- The payload at the front of some bytes; `none` if they hold no such record. What follows the
record does not count. -/
def decode? (bytes : List UInt8) : Option StoredPayload :=
  (Draft.read.run bytes).map fun (d, _) => d.payload

/-! ## Snapshots -/

def timing (t : Timer) : Float × List (PhaseTime String) :=
  let milliseconds (nanos : Nat) : Float := Float.ofNat nanos / 1000000
  (milliseconds t.total, t.phases.toList.map fun p =>
    ⟨p.name, milliseconds (p.elapsed.getD 0), p.note⟩)

def sortedKeys (a : Atlas) (refs : List SymbolRef) : List String :=
  (refs.filterMap a.key?).mergeSort (· ≤ ·)

/-- The closure of every symbol of a table. A closure that cannot be computed fails the snapshot. -/
def snapshot (manifest : String) (hash : List UInt8) (table : Nat) (timer : Timer) :
    AtlasM (Payload String) := do
  let members := (← get).members table
  let closures ← members.mapM AtlasM.allDependencies
  let a ← get
  let symbols := members.filterMap a.symbol?
  let (total, phases) := timing timer
  return {
    schema := currentSchema, manifest, hash, total, phases
    closures := some ((symbols.zip closures).map fun (s, c) => (s.key, some (sortedKeys a c)))
    kinds := some (symbols.map fun s => (s.key, s.kind.name))
    flags := some ((symbols.filter (·.flags.bits != 0)).map fun s => (s.key, s.flags.toText)) }

end Payload

end SymbolAtlas.Cache
