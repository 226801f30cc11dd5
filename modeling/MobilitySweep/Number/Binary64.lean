/-! # Binary floating-point numbers

The IEEE double precision numbers as exact values: a finite number is a sign and a count of the
smallest positive number, two to the power -1074. Every operation is exact integer arithmetic
followed by one rounding to the nearest number, ties going to the even neighbour.
-/

namespace MobilitySweep

/-- A double precision number. -/
inductive Binary64 where
  | nan
  | infinite (negative : Bool)
  | finite (negative : Bool) (units : Nat)
deriving DecidableEq, Repr, Inhabited

namespace Binary64

/-- The quotient of natural numbers rounded to the nearest integer, ties to the even one. -/
def roundQuotient (numerator denominator : Nat) : Nat :=
  let q := numerator / denominator
  let r := numerator % denominator
  if denominator < 2 * r ∨ (2 * r = denominator ∧ q % 2 = 1) then q + 1 else q

/-- How many units make one. -/
def one : Nat := Nat.pow 2 1074

/-- The first count of units beyond the finite numbers. -/
def unitBound : Nat := Nat.pow 2 2098

/-- The spacing of the numbers around a count of units: 53 significant bits, at least one unit. -/
def spacing (units : Nat) : Nat := if units < Nat.pow 2 53 then 1 else Nat.pow 2 (Nat.log2 units - 52)

/-- The number nearest to a quotient of units. -/
def nearest (negative : Bool) (numerator denominator : Nat) : Binary64 :=
  let gap := spacing (numerator / denominator)
  let units := roundQuotient numerator (denominator * gap) * gap
  if units < unitBound then .finite negative units else .infinite negative

/-- Positive zero. -/
def zero : Binary64 := .finite false 0

/-- The number nearest to an integer. -/
def ofInt (n : Int) : Binary64 := nearest (n < 0) (n.natAbs * one) 1

/-- The sign bit. -/
def isNegative : Binary64 → Bool
  | nan => false
  | infinite negative => negative
  | finite negative _ => negative

def isNan : Binary64 → Bool
  | nan => true
  | _ => false

/-- The signed count of units of a finite number. -/
def signedUnits (negative : Bool) (units : Nat) : Int :=
  if negative then -(units : Int) else units

/-- Negation. -/
def neg : Binary64 → Binary64
  | nan => nan
  | infinite negative => infinite (!negative)
  | finite negative units => finite (!negative) units

/-- The absolute value. -/
def abs : Binary64 → Binary64
  | nan => nan
  | infinite _ => infinite false
  | finite _ units => finite false units

/-- Addition. -/
def add : Binary64 → Binary64 → Binary64
  | nan, _ => nan
  | _, nan => nan
  | infinite s, infinite t => if s = t then infinite s else nan
  | infinite s, finite _ _ => infinite s
  | finite _ _, infinite t => infinite t
  | finite s u, finite t v =>
    let sum := signedUnits s u + signedUnits t v
    if sum = 0 then finite (s && t) 0 else nearest (sum < 0) sum.natAbs 1

/-- Subtraction. -/
def sub (x y : Binary64) : Binary64 := add x (neg y)

/-- Numerical equality: the zeros are equal, and NaN differs from everything. -/
def equals : Binary64 → Binary64 → Bool
  | nan, _ => false
  | _, nan => false
  | infinite s, infinite t => s == t
  | finite s u, finite t v => signedUnits s u == signedUnits t v
  | _, _ => false

/-- The numerical order; NaN is less than nothing. -/
def less : Binary64 → Binary64 → Bool
  | nan, _ => false
  | _, nan => false
  | infinite s, infinite t => s && !t
  | infinite s, finite _ _ => s
  | finite _ _, infinite t => !t
  | finite s u, finite t v => signedUnits s u < signedUnits t v

/-- The larger of two numbers: positive infinity wins over NaN, NaN over the rest, and positive zero
over negative zero. -/
def max (x y : Binary64) : Binary64 :=
  if x = infinite false || y = infinite false then infinite false
  else if x.isNan || y.isNan then nan
  else if less x y then y
  else if less y x then x
  else if x.isNegative then y else x

/-- The smaller of two numbers: negative infinity wins over NaN, NaN over the rest, and negative zero
over positive zero. -/
def min (x y : Binary64) : Binary64 :=
  if x = infinite true || y = infinite true then infinite true
  else if x.isNan || y.isNan then nan
  else if less x y then x
  else if less y x then y
  else if x.isNegative then x else y

/-- The 64 bits of a number: sign, exponent field and fraction. -/
def toBits : Binary64 → Nat
  | nan => 0x7FF8000000000001
  | infinite negative => (if negative then Nat.pow 2 63 else 0) + 0x7FF * Nat.pow 2 52
  | finite negative units =>
    let sign := if negative then Nat.pow 2 63 else 0
    if units < Nat.pow 2 52 then sign + units
    else
      let shift := Nat.log2 units - 52
      sign + (shift + 1) * Nat.pow 2 52 + (units / Nat.pow 2 shift - Nat.pow 2 52)

/-- The number that 64 bits stand for. -/
def ofBits (bits : Nat) : Binary64 :=
  let negative := bits / Nat.pow 2 63 % 2 == 1
  let exponent := bits / Nat.pow 2 52 % Nat.pow 2 11
  let fraction := bits % Nat.pow 2 52
  if exponent = 0x7FF then
    if fraction = 0 then infinite negative else nan
  else if exponent = 0 then finite negative fraction
  else finite negative ((Nat.pow 2 52 + fraction) * Nat.pow 2 (exponent - 1))

end Binary64

/-! ## Square roots

The integer square root, digit by digit in base four, and the square root of a double precision
number rounded to double precision, cut to an integer.
-/

namespace Root

/-- The integer square root of a number of at most the given number of base four digits. -/
def digits : Nat → Nat → Nat
  | 0, _ => 0
  | count + 1, n =>
    let r := 2 * digits count (n / 4)
    if (r + 1) * (r + 1) ≤ n then r + 1 else r

/-- The integer square root. -/
def floor (n : Nat) : Nat := digits (Nat.log2 n / 2 + 1) n

/-- An integer rounded to the nearest double precision number. -/
def rounded (n : Nat) : Nat := Binary64.roundQuotient n (Binary64.spacing n) * Binary64.spacing n

/-- The binary places behind the point that the root of a number below two to the power 104 keeps when
it is held to 53 significant bits. -/
def places (n : Nat) : Nat := 52 - Nat.log2 (floor n)

/-- The root of a number, in counts of its last binary place, rounded to nearest. A root is never
half way between two counts. -/
def nearestScaled (n : Nat) : Nat :=
  let scaled := n * Nat.pow 4 (places n)
  let r := floor scaled
  if r * r + r < scaled then r + 1 else r

/-- Conversion to double precision, square root and conversion back to an integer. -/
def ofRounded (n : Nat) : Nat := nearestScaled (rounded n) / Nat.pow 2 (places (rounded n))

end Root

end MobilitySweep
