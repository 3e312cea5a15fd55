set_option autoImplicit false

/-! # Points in time

An instant is counted from the start of 1970 and shown in a zone. Fractions of a second are cut
off, not rounded. The calendar has as many seconds as a word of 64 bits has values. -/

namespace SymbolAtlas

/-- A point in time, shown in a zone that is `offset` seconds east of the prime meridian. -/
structure Instant where
  seconds : Int := 0
  nanos : Int := 0
  offset : Int := 0
  deriving DecidableEq, Repr, Inhabited

namespace Instant

/-- A day of the calendar. -/
structure Day where
  year : Int
  month : Nat
  day : Nat
  deriving DecidableEq, Repr

/-- The day that lies `n` days after the first of January 1970. Days are counted from the first of
March, so that the leap day ends a year; 146097 days make 400 years. -/
def dayOf (n : Int) : Day :=
  let shifted := n + 719468
  let era := Int.fdiv shifted 146097
  let dayOfEra := (Int.fmod shifted 146097).toNat
  let yearOfEra := (dayOfEra - dayOfEra / 1460 + dayOfEra / 36524 - dayOfEra / 146096) / 365
  let dayOfYear := dayOfEra - (365 * yearOfEra + yearOfEra / 4 - yearOfEra / 100)
  let index := (5 * dayOfYear + 2) / 153
  let month := if index < 10 then index + 3 else index - 9
  { year := yearOfEra + era * 400 + (if month ≤ 2 then 1 else 0)
    month := month
    day := dayOfYear - (153 * index + 2) / 5 + 1 }

def padded (width n : Nat) : String :=
  String.ofList (List.leftpad width '0' (Nat.toDigits 10 n))

/-- The first second of the calendar, the start of March 730692556 times 400 years before the
year 0. -/
def firstSecond : Int :=
  -(730692556 * 146097 + 719468) * 86400

/-- The second since 1970 by the clock of the zone. Seconds are words of 64 bits: the calendar is
as long as there are words, and its end meets its start. -/
def zoneSeconds (t : Instant) : Int :=
  let seconds := t.seconds + Int.fdiv t.nanos 1000000000 + t.offset
  firstSecond + Int.emod (seconds - firstSecond) 0x10000000000000000

def secondOfDay (t : Instant) : Nat :=
  (Int.fmod t.zoneSeconds 86400).toNat

def clock (t : Instant) : String :=
  let s := t.secondOfDay
  padded 2 (s / 3600) ++ ":" ++ padded 2 (s / 60 % 60) ++ ":" ++ padded 2 (s % 60)

/-- The first `digits` places of the fraction of a second. -/
def fraction (t : Instant) (digits : Nat) : String :=
  padded digits ((Int.fmod t.nanos 1000000000).toNat / Nat.pow 10 (9 - digits))

def timeOfDay (t : Instant) : String :=
  t.clock ++ "." ++ t.fraction 3

def zone (t : Instant) : String :=
  if t.offset = 0 then "Z"
  else
    let minutes := Int.tdiv t.offset 60
    let size := minutes.natAbs
    (if minutes < 0 then "-" else "+") ++ padded 2 (size / 60) ++ ":" ++ padded 2 (size % 60)

def timestamp (t : Instant) : String :=
  let d := dayOf (Int.fdiv t.zoneSeconds 86400)
  (if d.year < 0 then "-" else "") ++ padded 4 d.year.natAbs ++ "-" ++ padded 2 d.month ++ "-" ++
    padded 2 d.day ++ "T" ++ t.clock ++ "." ++ t.fraction 6 ++ t.zone

end Instant

end SymbolAtlas
