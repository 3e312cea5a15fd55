import SymbolAtlas.Trace.Event

set_option autoImplicit false

/-! # Tracers

A tracer writes events as they happen, keeps the latest ones in a ring, or does both. A trace is a
tracer together with the counters for events and spans, so that numbers are given out once. -/

namespace SymbolAtlas

/-- The latest events, in a buffer that is written place after place and round again. Places that
were never written hold an event without content. -/
structure Ring where
  capacity : Nat
  buffer : Array Event
  /-- The place that is written next. -/
  head : Nat := 0
  /-- Whether every place was written. -/
  full : Bool := false
  size_buffer : buffer.size = capacity
  head_lt : head < capacity

namespace Ring

/-- The number of events that a ring keeps if nothing else is said. -/
def defaultCapacity : Nat := 1024

/-- The number of places of a ring that is asked to keep `capacity` events. -/
def places (capacity : Int) : Nat :=
  if capacity ≤ 0 then defaultCapacity else capacity.toNat

theorem places_pos (capacity : Int) : 0 < places capacity := by
  unfold places
  split
  · decide
  · omega

def empty (capacity : Int) : Ring where
  capacity := places capacity
  buffer := .replicate (places capacity) .blank
  size_buffer := Array.size_replicate
  head_lt := places_pos capacity

/-- Keeps an event at the next place, in the stead of the oldest one once all places were
written. -/
def push (r : Ring) (e : Event) : Ring where
  capacity := r.capacity
  buffer := r.buffer.set r.head e (r.size_buffer ▸ r.head_lt)
  head := (r.head + 1) % r.capacity
  full := r.full || (r.head + 1) % r.capacity == 0
  size_buffer := (Array.size_set _).trans r.size_buffer
  head_lt := Nat.mod_lt _ (Nat.zero_lt_of_lt r.head_lt)

def events (r : Ring) : List Event :=
  if r.full then r.buffer.toList.drop r.head ++ r.buffer.toList.take r.head
  else r.buffer.toList.take r.head

def map (r : Ring) (f : Event → Event) : Ring :=
  { r with buffer := r.buffer.map f, size_buffer := (Array.size_map).trans r.size_buffer }

def dump (r : Ring) : String :=
  String.join (r.events.map Event.toText)

end Ring

/-- The written events. -/
structure Stream where
  format : TraceFormat
  /-- What was written and not taken away yet. -/
  output : String := ""
  /-- Nothing is written to a closed stream. -/
  closed : Bool := false

/-- Where events go. -/
structure Tracer where
  level : TraceLevel
  stream : Option Stream := none
  ring : Option Ring := none

namespace Tracer

def nop : Tracer :=
  { level := .off }

def enabled (t : Tracer) : Bool :=
  t.level.enabled

/-- The tracer that a level asks for: the latest events are always kept, and from the level of
phases on events are written too. -/
def ofLevel (level : TraceLevel) (format : TraceFormat) (ringSize : Int) : Tracer :=
  if level = .off then nop
  else if level = .error then { level, ring := some (.empty ringSize) }
  else { level, stream := some { format }, ring := some (.empty ringSize) }

def dump (t : Tracer) : String :=
  (t.ring.map Ring.dump).getD ""

end Tracer

/-- A tracer and the numbers given out so far. -/
structure Trace where
  tracer : Tracer
  lastSeq : UInt64 := 0
  lastSpan : UInt64 := 0
  /-- The instant at which events are stamped. -/
  now : Instant := {}

/-- A traced activity; `id` is zero if it is not traced. -/
structure TraceSpan where
  id : UInt64 := 0
  parent : UInt64 := 0
  scope : Scope := ⟨0⟩
  name : String := ""
  extra : List (String × String) := []
  live : Bool := false
  deriving DecidableEq, Repr

/-- Steps of a traced program. -/
abbrev TraceM (α : Type) : Type :=
  StateM Trace α

namespace TraceM

def number (e : Event) : TraceM Event := do
  if e.seq = 0 then
    modify fun t => { t with lastSeq := t.lastSeq + 1 }
    return { e with seq := (← get).lastSeq }
  else return e

/-- Writes an event to the stream if the level asks for it. -/
def write (s : Stream) (e : Event) : TraceM Event := do
  if !(← get).tracer.level.writes e.scope then return e
  let e ← number e
  let s := if s.closed then s else { s with output := s.output ++ e.toLine s.format }
  modify fun t => { t with tracer := { t.tracer with stream := some s } }
  return e

/-- Keeps an event in the ring, which numbers it for itself. -/
def keep (r : Ring) (e : Event) : TraceM Unit := do
  let stored ← number e
  modify fun t => { t with tracer := { t.tracer with ring := some (r.push stored) } }

/-- Records an event. A tracer with both outputs numbers the event before it passes it on. The
result is the event with the number that its sender sees. -/
def emit (e : Event) : TraceM Event := do
  let tracer := (← get).tracer
  match tracer.stream, tracer.ring with
  | none, none => return e
  | some s, none => write s e
  | none, some r =>
    keep r e
    return e
  | some s, some r =>
    let e ← number e
    let _ ← write s e
    keep r e
    return e

def begin (scope : Scope) (name : String) (parent : UInt64) : TraceM TraceSpan := do
  if !(← get).tracer.enabled then return {}
  modify fun t => { t with lastSpan := t.lastSpan + 1 }
  let t ← get
  let _ ← emit { time := t.now, kind := .begin, scope, span := t.lastSpan, parent, name }
  return { id := t.lastSpan, parent, scope, name, live := true }

/-- Ends an activity. If it has remarks, the event shares them with it. -/
def finish (s : TraceSpan) (detail : String) : TraceM Unit := do
  if !s.live then return
  let t ← get
  let _ ← emit { time := t.now, kind := .finish, scope := s.scope, span := s.id, parent := s.parent,
                 name := s.name, detail, extra := s.extra,
                 remarksOf := if s.extra = [] then 0 else s.id }

def point (scope : Scope) (name detail : String) (parent : UInt64) : TraceM Unit := do
  let t ← get
  if !t.tracer.enabled then return
  let _ ← emit { time := t.now, kind := .point, scope, parent, name, detail }

def setExtra (key value : String) (extra : List (String × String)) : List (String × String) :=
  extra.filter (·.1 != key) ++ [(key, value)]

/-- Puts a remark on an activity, to be shown when it ends. If it ended before and had remarks then,
the ends that are still kept show the remark too. -/
def remark (s : TraceSpan) (key value : String) : TraceM TraceSpan := do
  if !s.live then return s
  let late (e : Event) : Event :=
    if e.remarksOf = s.id then { e with extra := setExtra key value e.extra } else e
  modify fun t => { t with tracer := { t.tracer with
    ring := t.tracer.ring.map fun r => r.map late } }
  return { s with extra := setExtra key value s.extra }

def drain : TraceM String := do
  match (← get).tracer.stream with
  | none => return ""
  | some s =>
    modify fun t => { t with tracer := { t.tracer with stream := some { s with output := "" } } }
    return s.output

def close : TraceM Unit :=
  modify fun t => { t with tracer := { t.tracer with
    stream := t.tracer.stream.map fun s => { s with closed := true } } }

end TraceM

end SymbolAtlas
