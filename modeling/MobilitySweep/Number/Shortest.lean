import MobilitySweep.Number.Binary64
import MobilitySweep.Number.Decimal

/-! # Decimal text of floating-point numbers

The shortest text that reads back as a number, and text with a fixed number of digits.
-/

namespace MobilitySweep

/-! ## Shortest decimal text of a number

The fewest significant digits that still read back as the number, the nearest such decimal among
them; positional notation for ordinary magnitudes and an exponent outside.
-/

namespace Shortest

/-- The decimal exponent of a positive count of units: the least k with value below ten to the k. The
search starts below every finite number. -/
def exponent (units : Nat) : Int :=
  let below : Nat → Bool := fun i => units * Nat.pow 10 330 < Nat.pow 10 i * Binary64.one
  ((List.range 660).find? below).getD 660 - 330

/-- Four times the ends of the interval of reals that round to a count of units, and whether the ends
belong to it. -/
def interval (units : Nat) : Nat × Nat × Bool :=
  let gap := Binary64.spacing units
  let mantissa := units / gap
  let below := if mantissa = Nat.pow 2 52 && 1 < gap then gap else 2 * gap
  (4 * units - below, 4 * units + 2 * gap, mantissa % 2 == 0)

/-- The decimal with the given number of digits that is nearest to the value and reads back as it, if
there is one: a count of last places. -/
def withDigits (units : Nat) (k : Int) (count : Nat) : Option Nat :=
  let place := k - count
  let up := if place < 0 then Nat.pow 10 place.natAbs else 1
  let down := if place < 0 then 1 else Nat.pow 10 place.natAbs
  let (low, high, closed) := interval units
  let floor := units * up / (Binary64.one * down)
  let inside : Nat → Bool := fun candidate =>
    let scaled := 4 * candidate * Binary64.one * down
    if closed then low * up ≤ scaled && scaled ≤ high * up else low * up < scaled && scaled < high * up
  let nearer := Binary64.roundQuotient (units * up) (Binary64.one * down)
  let other := if nearer = floor then floor + 1 else floor
  if inside nearer then some nearer
  else if inside other then some other
  else none

/-- The significant digits of a positive number without trailing zeros, and its decimal exponent. -/
def digits (units : Nat) : Bytes × Int :=
  let k := exponent units
  let counts := (List.range 17).map (· + 1)
  let found := counts.findSome? fun count => (withDigits units k count).map fun n => (count, n)
  match found with
  | none => ([], k)
  | some (count, n) =>
    let text := Decimal.ofNat n
    let stripped := (text.reverse.dropWhile (· = 48)).reverse
    (stripped, k + (text.length - count : Int))

/-- Digits with the point after the given number of them. -/
def positional (text : Bytes) (point : Int) : Bytes :=
  if point ≤ 0 then "0." ++ List.replicate point.natAbs (48 : UInt8) ++ text
  else if text.length ≤ point.natAbs then text ++ List.replicate (point.natAbs - text.length) (48 : UInt8)
  else text.take point.natAbs ++ [(46 : UInt8)] ++ text.drop point.natAbs

/-- Digits with an exponent. -/
def scientific (text : Bytes) (point : Int) : Bytes :=
  let mantissa := match text with
    | d :: (e :: more) => d :: (46 : UInt8) :: e :: more
    | other => other
  let power := point - 1
  mantissa ++ [(101 : UInt8)] ++ (if power < 0 then [(45 : UInt8)] else [(43 : UInt8)]) ++ Decimal.ofNat power.natAbs

/-- The number nearest to a millionth, in units. -/
def millionth : Nat :=
  let gap := Binary64.spacing (Binary64.one / 1000000)
  Binary64.roundQuotient Binary64.one (1000000 * gap) * gap

/-- A finite number in shortest form: an exponent below a millionth and from ten to the 21 on. -/
def render (negative : Bool) (units : Nat) : Bytes :=
  let sign : Bytes := if negative then [(45 : UInt8)] else []
  if units = 0 then sign ++ [(48 : UInt8)]
  else
    let (text, point) := digits units
    if units < millionth || Nat.pow 10 21 * Binary64.one ≤ units then sign ++ scientific text point
    else sign ++ positional text point

/-- A number in shortest form for people: an exponent of at least two digits below a ten-thousandth and
from a million on. -/
def general : Binary64 → Bytes
  | .nan => "NaN"
  | .infinite negative => if negative then "-Inf" else "+Inf"
  | .finite negative units =>
    let sign : Bytes := if negative then "-" else []
    if units = 0 then sign ++ "0"
    else
      let (text, point) := digits units
      if point < -3 || 6 < point then
        let whole : Bytes := match text with
          | d :: (e :: more) => d :: (46 : UInt8) :: e :: more
          | other => other
        let power := point - 1
        sign ++ whole ++ (if power < 0 then "e-" else "e+") ++ Decimal.padded 2 power.natAbs
      else sign ++ positional text point

end Shortest

/-! ## Numbers with a given number of digits

The exact binary value is rounded to the given number of places, ties to the even digit. The sign of
zero is kept, and so is the sign of a value that rounds to zero.
-/

namespace Fixed

/-- The nearest multiple of the last place, as a count of last places. -/
def scaled (places units : Nat) : Nat := Binary64.roundQuotient (units * Nat.pow 10 places) Binary64.one

/-- A count of last places with the decimal point put in. -/
def pointed (places count : Nat) : Bytes :=
  if places = 0 then Decimal.ofNat count
  else Decimal.ofNat (count / Nat.pow 10 places) ++ [(46 : UInt8)] ++ Decimal.padded places (count % Nat.pow 10 places)

/-- A number with a fixed number of places. -/
def render (places : Nat) : Binary64 → Bytes
  | .nan => "NaN"
  | .infinite negative => if negative then "-Inf" else "+Inf"
  | .finite negative units =>
    (if negative then [(45 : UInt8)] else []) ++ pointed places (scaled places units)

end Fixed

/-! ## Numbers with a number of significant digits

The exact binary value is rounded to some significant digits, ties to the even digit, and written with an
exponent of at least two digits or in the shorter of both notations.
-/

namespace Significant

/-- The value of a positive count of units rounded to some digits, at least one, and the decimal exponent
of the first of them. -/
def rounded (count units : Nat) : Nat × Int :=
  let k := Shortest.exponent units - 1
  let place := k - ((count : Int) - 1)
  let up := if place < 0 then Nat.pow 10 place.natAbs else 1
  let down := if place < 0 then 1 else Nat.pow 10 place.natAbs
  let digits := Binary64.roundQuotient (units * up) (Binary64.one * down)
  if digits = Nat.pow 10 count then (Nat.pow 10 (count - 1), k + 1) else (digits, k)

/-- An exponent with its sign. -/
def exponentText (k : Int) : Bytes :=
  [(101 : UInt8), if k < 0 then 45 else 43] ++ Decimal.padded 2 k.natAbs

/-- The texts of what is no finite number. -/
def special (negative isNan : Bool) : Bytes :=
  (if negative then [(45 : UInt8)] else []) ++ (if isNan then ("nan" : Bytes) else "inf")

/-- A number with places behind the point and an exponent. -/
def scientific (places : Nat) : Binary64 → Bytes
  | .nan => special true true
  | .infinite negative => special negative false
  | .finite negative units =>
    let (digits, k) := if units = 0 then (0, 0) else rounded (places + 1) units
    let text := Decimal.padded (places + 1) digits
    (if negative then [(45 : UInt8)] else []) ++ text.take 1 ++
      (if places = 0 then [] else [(46 : UInt8)] ++ text.drop 1) ++ exponentText k

/-- A text without zeros at the end of its fraction. -/
def withoutZeros (text : Bytes) : Bytes :=
  if text.contains 46 then
    let kept := (text.reverse.dropWhile (· = 48)).reverse
    if kept.getLast? = some 46 then kept.dropLast else kept
  else text

/-- A number with some significant digits: with an exponent where it is below minus four or as large as
the number of digits, without one otherwise. Zeros at the end of a fraction may be kept. -/
def general (keepsZeros : Bool) (count : Nat) : Binary64 → Bytes
  | .nan => special true true
  | .infinite negative => special negative false
  | .finite negative units =>
    let count := max 1 count
    let (digits, k) := if units = 0 then (0, 0) else rounded count units
    let trim (text : Bytes) : Bytes := if keepsZeros then text else withoutZeros text
    let body := if k < -4 || (count : Int) ≤ k then
        let text := Decimal.padded count digits
        trim (text.take 1 ++ (if count = 1 then [] else [(46 : UInt8)] ++ text.drop 1)) ++ exponentText k
      else trim (Fixed.pointed ((count : Int) - 1 - k).toNat digits)
    (if negative then [(45 : UInt8)] else []) ++ body

/-- A number with a fixed number of places, what is no finite number in small letters. -/
def fixed (places : Nat) : Binary64 → Bytes
  | .nan => special true true
  | .infinite negative => special negative false
  | value => Fixed.render places value

end Significant

end MobilitySweep
