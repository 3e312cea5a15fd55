import SymbolAtlas.Text.Json
import SymbolAtlas.Text.Lowercase
import SymbolAtlas.Text.Quoted
import SymbolAtlas.Trace.Instant

set_option autoImplicit false

/-! # Trace events

What happened, at which grain and when. The level of a trace says which grains are written. An event
is written as a line of text or as a line of JSON. -/

namespace SymbolAtlas

/-- What an event marks. -/
structure EventKind where
  number : UInt8
  deriving DecidableEq, Repr, Inhabited

namespace EventKind

def begin : EventKind := ⟨1⟩
def finish : EventKind := ⟨2⟩
def point : EventKind := ⟨3⟩

def name (k : EventKind) : String :=
  if k = begin then "begin"
  else if k = finish then "end"
  else if k = point then "point"
  else "unknown"

def mark (k : EventKind) : String :=
  if k = begin then "→ "
  else if k = finish then "← "
  else if k = point then "• "
  else ""

end EventKind

/-- The grain of an event; the lower, the coarser. -/
structure Scope where
  number : UInt8
  deriving DecidableEq, Repr, Inhabited

namespace Scope

def driver : Scope := ⟨1⟩
def phase : Scope := ⟨2⟩
def symbol : Scope := ⟨3⟩
def edge : Scope := ⟨4⟩

def name (s : Scope) : String :=
  if s = driver then "driver"
  else if s = phase then "phase"
  else if s = symbol then "symbol"
  else if s = edge then "edge"
  else "unknown"

end Scope

/-- How much is traced. -/
structure TraceLevel where
  number : UInt8
  deriving DecidableEq, Repr, Inhabited

namespace TraceLevel

def off : TraceLevel := ⟨0⟩
def error : TraceLevel := ⟨1⟩
def phase : TraceLevel := ⟨2⟩
def detail : TraceLevel := ⟨3⟩
def debug : TraceLevel := ⟨4⟩

def name (l : TraceLevel) : String :=
  if l = off then "off"
  else if l = error then "error"
  else if l = phase then "phase"
  else if l = detail then "detail"
  else if l = debug then "debug"
  else "unknown"

/-- The level of a name in any case; no name at all turns tracing off. -/
def parse? (s : String) : Option TraceLevel :=
  [("off", off), ("", off), ("error", error), ("phase", phase), ("detail", detail),
    ("debug", debug)].lookup (Text.lower s)

def unknownMessage (s : String) : String :=
  "invalid trace level: " ++ Text.quote s ++ " (expected: off|error|phase|detail|debug)"

def enabled (l : TraceLevel) : Bool :=
  off.number < l.number

/-- Whether events of a grain are written. At the level of errors nothing is written as it happens:
the latest events are kept for the case of an error. -/
def writes (l : TraceLevel) (s : Scope) : Bool :=
  if l = phase then s.number ≤ Scope.phase.number
  else if l = detail then s.number ≤ Scope.symbol.number
  else l = debug

end TraceLevel

/-- The form in which events are written. -/
inductive TraceFormat where
  /-- As the name of the output file asks. -/
  | auto
  | text
  /-- One JSON document a line. -/
  | jsonLines
  deriving DecidableEq, Repr

namespace TraceFormat

def number : TraceFormat → Nat
  | .auto => 0
  | .text => 1
  | .jsonLines => 2

/-- The format of a number; any other number asks for text. -/
def ofNumber : Nat → TraceFormat
  | 0 => .auto
  | 2 => .jsonLines
  | _ => .text

def parse? (s : String) : Option TraceFormat :=
  [("", auto), ("auto", auto), ("text", text), ("ndjson", jsonLines), ("json", jsonLines)].lookup
    (Text.lower s)

def unknownMessage (s : String) : String :=
  "invalid trace format: " ++ Text.quote s ++ " (expected: auto|text|ndjson)"

def forPath (f : TraceFormat) (path : String) : TraceFormat :=
  if f = .auto then
    if path.endsWith ".ndjson" || path.endsWith ".jsonl" then .jsonLines else .text
  else f

end TraceFormat

/-- A trace record. Zero stands for a number not given yet, for no span and for no parent. -/
structure Event where
  time : Instant := {}
  seq : UInt64 := 0
  kind : EventKind
  scope : Scope
  span : UInt64 := 0
  parent : UInt64 := 0
  name : String
  detail : String := ""
  /-- Remarks by key. -/
  extra : List (String × String) := []
  /-- The activity whose remarks these are, also those made later; zero if they are the event's
  own. -/
  remarksOf : UInt64 := 0
  deriving DecidableEq, Repr

namespace Event

/-- An event without content. -/
def blank : Event :=
  { kind := ⟨0⟩, scope := ⟨0⟩, name := "" }

def sortedExtra (e : Event) : List (String × String) :=
  e.extra.mergeSort fun a b => a.1 ≤ b.1

def toText (e : Event) : String :=
  let detail := if e.detail == "" then "" else " (" ++ e.detail ++ ")"
  let extra :=
    if e.extra.isEmpty then ""
    else " \x7b" ++ ", ".intercalate (e.sortedExtra.map fun (k, v) => k ++ "=" ++ v) ++ "\x7d"
  e.time.timeOfDay ++ " [" ++ e.scope.name ++ "] " ++ (if e.parent = 0 then "" else "  ") ++
    e.kind.mark ++ e.name ++ detail ++ extra ++ "\n"

def toJson (e : Event) : Text.Json :=
  let extra :=
    if e.extra.isEmpty then []
    else [("extra", Text.Json.record (e.sortedExtra.map fun (k, v) => (k, .text v)))]
  .record ([("time", .text e.time.timestamp), ("seq", .number e.seq.toNat),
    ("kind", .text e.kind.name), ("scope", .text e.scope.name)] ++
    Text.Json.optionalNumber "span_id" e.span.toNat ++
    Text.Json.optionalNumber "parent_id" e.parent.toNat ++
    [("name", .text e.name)] ++ Text.Json.optionalText "detail" e.detail ++ extra)

def toLine (e : Event) (f : TraceFormat) : String :=
  if f = .jsonLines then e.toJson.compact ++ "\n" else e.toText

end Event

end SymbolAtlas
