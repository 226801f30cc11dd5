import MobilitySweep.Number.Decimal
import MobilitySweep.Time.Duration

/-! # Instants and clocks

Moments in time as nanoseconds since the start of year one, shown in the proleptic Gregorian calendar
at UTC. The origin itself stands for a missing time.
-/

namespace MobilitySweep

/-- A moment in time. -/
structure Instant where
  nanos : Int
deriving DecidableEq, Repr, Inhabited

/-- A calendar date with the time of day. -/
structure Civil where
  year : Int
  month : Nat
  day : Nat
  hour : Nat
  minute : Nat
  second : Nat
  nano : Nat
deriving DecidableEq, Repr

namespace Civil

/-- Leap years of the Gregorian calendar. -/
def isLeap (year : Int) : Bool := year % 4 = 0 && (year % 100 ≠ 0 || year % 400 = 0)

/-- The lengths of the months. -/
def monthLengths (year : Int) : List Nat :=
  [31, if isLeap year then 29 else 28, 31, 30, 31, 30, 31, 31, 30, 31, 30, 31]

/-- The number of days before a year, counted from year one. -/
def daysBeforeYear (year : Int) : Int :=
  let y := year - 1
  365 * y + y / 4 - y / 100 + y / 400

/-- The year of a day counted from the start of year one, and the days of that year before it. -/
def yearOfDay (day : Int) : Int × Nat :=
  let cycle := day / 146097
  let inCycle := (day % 146097).toNat
  let century := min 3 (inCycle / 36524)
  let inCentury := inCycle - century * 36524
  let quad := inCentury / 1461
  let inQuad := inCentury - quad * 1461
  let single := min 3 (inQuad / 365)
  (400 * cycle + 100 * century + 4 * quad + single + 1, inQuad - single * 365)

/-- The month and day for a number of days passed in a year; months are counted from the given one. -/
def monthOfDay : Nat → List Nat → Nat → Nat × Nat
  | month, [], day => (month, day + 1)
  | month, length :: rest, day => if day < length then (month, day + 1) else monthOfDay (month + 1) rest (day - length)

/-- The days of a year before a month. -/
def daysBeforeMonth (year : Int) (month : Nat) : Nat := ((monthLengths year).take (month - 1)).foldl (· + ·) 0

/-- Whether a date names an existing moment. -/
def isValid (c : Civil) : Bool :=
  1 ≤ c.month && c.month ≤ 12 && 1 ≤ c.day && c.day ≤ ((monthLengths c.year).getD (c.month - 1) 0) &&
    c.hour < 24 && c.minute < 60 && c.second < 60 && c.nano < 1000000000

/-- The year in four digits, a sign before years below zero. -/
def yearText (year : Int) : Bytes :=
  (if year < 0 then [(45 : UInt8)] else []) ++ Decimal.padded 4 year.natAbs

/-- The date in the form year, month, day. -/
def dateText (c : Civil) : Bytes :=
  yearText c.year ++ "-" ++ Decimal.padded 2 c.month ++ "-" ++ Decimal.padded 2 c.day

/-- The time of day to the second. -/
def clockText (c : Civil) : Bytes :=
  Decimal.padded 2 c.hour ++ ":" ++ Decimal.padded 2 c.minute ++ ":" ++ Decimal.padded 2 c.second

end Civil

namespace Instant

/-- The origin, which stands for a missing time. -/
def zero : Instant := ⟨0⟩

def isZero (t : Instant) : Bool := t.nanos == 0

/-- The nanoseconds of a day. -/
def dayNanos : Int := 86400000000000

/-- The moment some span later. -/
def add (t : Instant) (nanos : Int) : Instant := ⟨t.nanos + nanos⟩

/-- The span from one moment to another. -/
def since (later earlier : Instant) : Duration := Duration.ofNanos (later.nanos - earlier.nanos)

/-- The calendar view of a moment. -/
def civil (t : Instant) : Civil :=
  let day := t.nanos / dayNanos
  let inDay := (t.nanos % dayNanos).toNat
  let (year, dayOfYear) := Civil.yearOfDay day
  let (month, dayOfMonth) := Civil.monthOfDay 1 (Civil.monthLengths year) dayOfYear
  let seconds := inDay / 1000000000
  ⟨year, month, dayOfMonth, seconds / 3600, seconds / 60 % 60, seconds % 60, inDay % 1000000000⟩

/-- The moment of a calendar view. -/
def ofCivil (c : Civil) : Instant :=
  let day := Civil.daysBeforeYear c.year + Civil.daysBeforeMonth c.year c.month + (c.day - 1 : Nat)
  let seconds := (c.hour * 60 + c.minute) * 60 + c.second
  ⟨day * dayNanos + ((seconds * 1000000000 + c.nano : Nat) : Int)⟩

/-- The stored form: fixed width down to the nanosecond, so that texts sort like moments. -/
def stamp (t : Instant) : Bytes :=
  let c := t.civil
  c.dateText ++ "T" ++ c.clockText ++ "." ++ Decimal.padded 9 c.nano ++ "Z"

/-- The exchange form: the fraction without trailing zeros, none at all for whole seconds. It exists
for the years from 0 to 9999. -/
def exchange? (t : Instant) : Option Bytes :=
  let c := t.civil
  if 0 ≤ c.year && c.year ≤ 9999 then
    let digits := ((Decimal.padded 9 c.nano).reverse.dropWhile (· = 48)).reverse
    some (c.dateText ++ "T" ++ c.clockText ++ (if digits.isEmpty then ([] : Bytes) else ("." : Bytes) ++ digits) ++ "Z")
  else none

/-- The form shown to people, to the second. -/
def display (t : Instant) : Bytes := let c := t.civil; c.dateText ++ " " ++ c.clockText

/-- The log form, to the millisecond. -/
def logStamp (t : Instant) : Bytes :=
  let c := t.civil
  c.dateText ++ "T" ++ c.clockText ++ "." ++ Decimal.padded 3 (c.nano / 1000000) ++ "Z"

/-- A fixed number of digits at the start of a text. -/
def digits? (count : Nat) (text : Bytes) : Option (Nat × Bytes) :=
  let head := text.take count
  if head.length = count && head.all Bytes.isDigit then
    some (Bytes.digitsValue head, text.drop count)
  else none

/-- A given byte at the start of a text. -/
def byte? (expected : UInt8) : Bytes → Option Bytes
  | b :: rest => if b = expected then some rest else none
  | [] => none

/-- Date and time of day to the second at the start of a text. -/
def clock? (text : Bytes) : Option (Civil × Bytes) := do
  let (year, text) ← digits? 4 text
  let (month, text) ← digits? 2 (← byte? '-' text)
  let (day, text) ← digits? 2 (← byte? '-' text)
  let (hour, text) ← digits? 2 (← byte? 'T' text)
  let (minute, text) ← digits? 2 (← byte? ':' text)
  let (second, text) ← digits? 2 (← byte? ':' text)
  some (⟨year, month, day, hour, minute, second, 0⟩, text)

/-- A moment read from its stored form. -/
def ofStamp? (text : Bytes) : Option Instant := do
  let (c, text) ← clock? text
  let (nano, text) ← digits? 9 (← byte? '.' text)
  let rest ← byte? 'Z' text
  let c := { c with nano := nano }
  if rest.isEmpty && c.isValid then some (ofCivil c) else none

/-- An optional fraction of a second, cut to nanoseconds. -/
def fraction? (text : Bytes) : Option (Nat × Bytes) :=
  match text with
  | b :: rest =>
    if b = '.' then
      let run := rest.takeWhile Bytes.isDigit
      if run.isEmpty then none
      else
        let nine := (run ++ List.replicate 9 (48 : UInt8)).take 9
        (digits? 9 nine).map fun found => (found.1, rest.dropWhile Bytes.isDigit)
    else some (0, text)
  | [] => some (0, text)

/-- The offset from UTC in nanoseconds: a letter for none, or signed hours and minutes. -/
def offset? (text : Bytes) : Option Int := do
  match text with
  | b :: rest =>
    if b = 'Z' && rest.isEmpty then some 0
    else
      let (hours, rest) ← digits? 2 rest
      let (minutes, rest) ← digits? 2 (← byte? ':' rest)
      let span : Int := ((hours * 60 + minutes) * 60000000000 : Nat)
      if !rest.isEmpty || 23 < hours || 59 < minutes then none
      else if b = '+' then some span
      else if b = '-' then some (-span)
      else none
  | [] => none

/-- A moment read from its exchange form, in any zone. -/
def ofExchange? (text : Bytes) : Option Instant := do
  let (c, text) ← clock? text
  let (nano, text) ← fraction? text
  let offset ← offset? text
  let c := { c with nano := nano }
  if c.isValid then some ((ofCivil c).add (-offset)) else none

end Instant

/-! ## Clocks

A clock that answers with evenly spaced moments, or always with the same one.
-/

/-- A clock: the moment it shows next, and the nanoseconds by which a reading advances it. -/
structure Clock where
  next : Instant
  step : Int
deriving DecidableEq, Repr, Inhabited

namespace Clock

/-- A reading, and the clock after it. -/
def read (c : Clock) : Instant × Clock := (c.next, { c with next := c.next.add c.step })

end Clock

end MobilitySweep
