import MobilitySweep.Number.Decimal
import MobilitySweep.Number.Elementary

/-! # Durations

Signed spans of time in nanoseconds, held in 64 bits, written with units from hours down to
nanoseconds and read back from such text.
-/

namespace MobilitySweep

/-- A span of time. -/
structure Duration where
  nanos : Int64
deriving DecidableEq, Repr, Inhabited

namespace Duration

def zero : Duration := ⟨0⟩

/-- The span nearest to a count of nanoseconds, clamped to 64 bits. -/
def ofNanos (n : Int) : Duration :=
  if n < -9223372036854775808 then ⟨Int64.minValue⟩
  else if 9223372036854775807 < n then ⟨Int64.maxValue⟩
  else ⟨Int64.ofInt n⟩

/-- Whole milliseconds, toward zero. -/
def milliseconds (d : Duration) : Int := d.nanos.toInt.tdiv 1000000

/-- The span rounded to whole milliseconds, halves away from zero. -/
def toMillisecond (d : Duration) : Duration :=
  let n := d.nanos.toInt
  let r := n.natAbs % 1000000
  let magnitude := n.natAbs - r + (if 500000 ≤ r then 1000000 else 0)
  ofNanos (if n < 0 then -(magnitude : Int) else magnitude)

/-- A whole part and a fraction of the given number of digits, without trailing zeros. -/
def fraction (places value : Nat) : Bytes :=
  let whole := Decimal.ofNat (value / Nat.pow 10 places)
  let digits := ((Decimal.padded places (value % Nat.pow 10 places)).reverse.dropWhile (· = 48)).reverse
  if places = 0 || digits.isEmpty then whole else whole ++ [(46 : UInt8)] ++ digits

/-- The magnitude of a span as text. Spans below a second take a smaller unit. -/
def magnitudeText (u : Nat) : Bytes :=
  if u = 0 then "0s"
  else if u < 1000 then fraction 0 u ++ "ns"
  else if u < 1000000 then fraction 3 u ++ "µs"
  else if u < 1000000000 then fraction 6 u ++ "ms"
  else
    let minutes := u / 60000000000
    let seconds := fraction 9 (u % 60000000000) ++ "s"
    if minutes = 0 then seconds
    else if minutes < 60 then Decimal.ofNat minutes ++ "m" ++ seconds
    else Decimal.ofNat (minutes / 60) ++ "h" ++ Decimal.ofNat (minutes % 60) ++ "m" ++ seconds

/-- A span as text. -/
def toText (d : Duration) : Bytes :=
  let n := d.nanos.toInt
  if n < 0 then ('-' : UInt8) :: magnitudeText n.natAbs else magnitudeText n.natAbs

/-- The nanoseconds of a unit. -/
def unit? (name : Bytes) : Option Nat :=
  if name = "ns" then some 1
  else if name = "us" || name = "µs" || name = "μs" then some 1000
  else if name = "ms" then some 1000000
  else if name = "s" then some 1000000000
  else if name = "m" then some 60000000000
  else if name = "h" then some 3600000000000
  else none

/-- The largest magnitude of a span. -/
def limit : Nat := 9223372036854775808

/-- Leading digits as a number within the limit, and the text behind them. -/
def leadingDigits : Nat → Bytes → Option (Nat × Bytes)
  | x, [] => some (x, [])
  | x, b :: rest =>
    if Bytes.isDigit b then
      let y := x * 10 + (b.toNat - 48)
      if limit < y then none else leadingDigits y rest
    else some (x, b :: rest)

/-- Leading digits of a fraction with the power of ten they are counted in. Digits beyond the limit
are passed over. -/
def leadingFraction : Nat → Nat → Bool → Bytes → Nat × Nat × Bytes
  | x, scale, _, [] => (x, scale, [])
  | x, scale, full, b :: rest =>
    if Bytes.isDigit b then
      let y := x * 10 + (b.toNat - 48)
      if full || (limit - 1) / 10 < x || limit < y then leadingFraction x scale true rest
      else leadingFraction y (scale * 10) false rest
    else (x, scale, b :: rest)

/-- A fraction of a unit in whole nanoseconds: the unit over the scale, times the digits, each step
rounded to double precision, and then cut to an integer. -/
def fractionNanos (digits scale unit : Nat) : Nat :=
  ((Binary64.nearest false (unit * Binary64.one) scale).mul (Binary64.ofInt digits)).toInt.toNat

/-- One number with its unit at the start of a text, in nanoseconds. -/
def readTerm (text : Bytes) : Option (Nat × Bytes) := do
  let (whole, afterWhole) ← leadingDigits 0 text
  let anyWhole := afterWhole.length < text.length
  let (digits, scale, afterNumber, anyFraction) :=
    match afterWhole with
    | b :: rest =>
      if b = '.' then
        let (digits, scale, more) := leadingFraction 0 1 false rest
        (digits, scale, more, decide (more.length < rest.length))
      else (0, 1, afterWhole, false)
    | [] => (0, 1, [], false)
  if !anyWhole && !anyFraction then none
  else
    let isUnit : UInt8 → Bool := fun b => b ≠ '.' && !Bytes.isDigit b
    let unit ← unit? (afterNumber.takeWhile isUnit)
    if limit / unit < whole then none
    else
      let nanos := whole * unit + (if digits = 0 then 0 else fractionNanos digits scale unit)
      if limit < nanos then none else some (nanos, afterNumber.dropWhile isUnit)

/-- The sum of the terms of a text, modulo twice the limit: two terms of the limit's size cancel. A sum
beyond the limit is refused. Every term takes at least one byte, which the count bounds. -/
def readTerms : Nat → Nat → Bytes → Option Nat
  | _, total, [] => some total
  | 0, _, _ => none
  | count + 1, total, text => do
    let (nanos, rest) ← readTerm text
    let sum := (total + nanos) % (2 * limit)
    if limit < sum then none else readTerms count sum rest

/-- A span read from text: a sign, then numbers with units; a bare zero needs no unit. -/
def read? (text : Bytes) : Option Duration := do
  let (negative, body) := Decimal.splitSign text
  if body = "0" then some zero
  else if body.isEmpty then none
  else
    let total ← readTerms body.length 0 body
    if negative then some ⟨Int64.ofInt (-(total : Int))⟩
    else if total < limit then some ⟨Int64.ofInt total⟩
    else none

end Duration

end MobilitySweep
