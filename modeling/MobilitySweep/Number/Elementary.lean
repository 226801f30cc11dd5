import MobilitySweep.Number.Binary64

/-! # Products, quotients and elementary functions

Products, quotients, remainders and integer powers are exact values rounded once. The other functions are
sums of series in fixed-point arithmetic with far more places than a number holds.
-/

namespace MobilitySweep

namespace Binary64

/-- Multiplication. -/
def mul : Binary64 → Binary64 → Binary64
  | nan, _ => nan
  | _, nan => nan
  | infinite s, infinite t => infinite (s != t)
  | infinite s, finite t v => if v = 0 then nan else infinite (s != t)
  | finite s u, infinite t => if u = 0 then nan else infinite (s != t)
  | finite s u, finite t v => nearest (s != t) (u * v) one

/-- Division. -/
def div : Binary64 → Binary64 → Binary64
  | nan, _ => nan
  | _, nan => nan
  | infinite _, infinite _ => nan
  | infinite s, finite t _ => infinite (s != t)
  | finite s _, infinite t => finite (s != t) 0
  | finite s u, finite t v =>
    if v = 0 then if u = 0 then nan else infinite (s != t) else nearest (s != t) (u * one) v

/-- The remainder of a division cut toward zero; it has the sign of the dividend. -/
def rem : Binary64 → Binary64 → Binary64
  | finite s u, finite _ v => if v = 0 then nan else finite s (u % v)
  | finite s u, infinite _ => finite s u
  | _, _ => nan

/-- The number cut toward zero. -/
def truncated : Binary64 → Binary64
  | finite s u => finite s (u / one * one)
  | other => other

/-- The integer that a number is, if it is one. -/
def integer? : Binary64 → Option Int
  | finite s u => if u % one = 0 then some (signedUnits s (u / one)) else none
  | _ => none

/-- The integer that a number is cut to; what is no finite number counts as zero. -/
def toInt : Binary64 → Int
  | finite s u => signedUnits s (u / one)
  | _ => 0

end Binary64

namespace Elementary

/-- The unit of fixed-point arithmetic. -/
def unit : Nat := Nat.pow 2 240

/-- A finite number in fixed-point form. -/
def toFixed (negative : Bool) (units : Nat) : Int := Binary64.signedUnits negative (units * unit / Binary64.one)

/-- The number nearest to a fixed-point value times a power of two. -/
def ofFixed (value : Int) (power : Int) : Binary64 :=
  if value = 0 then .zero
  else if power < -1400 then .finite (value < 0) 0
  else if 1100 < power then .infinite (value < 0)
  else
    let up := if 0 ≤ power then Nat.pow 2 power.natAbs else 1
    let down := if 0 ≤ power then 1 else Nat.pow 2 power.natAbs
    Binary64.nearest (value < 0) (value.natAbs * Binary64.one * up) (unit * down)

/-- The product of fixed-point values. -/
def times (a b : Int) : Int := a * b / (unit : Int)

/-- The sum of a series whose next term follows from the last one and its number. -/
def series (next : Nat → Int → Int) : Nat → Nat → Int → Int → Int
  | 0, _, _, sum => sum
  | count + 1, n, term, sum =>
    let term := next n term
    series next count (n + 1) term (sum + term)

/-- The inverse hyperbolic tangent of a value of at most a third. -/
def artanh (y : Int) : Int :=
  let square := times y y
  let powers : Nat → Int → Int := fun _ power => times power square
  (List.range 90).foldl (fun (sum, power) n =>
    (sum + power / ((2 * n + 1 : Nat) : Int), powers n power)) ((0 : Int), y) |>.1

/-- The logarithm of two. -/
def logTwo : Int := 2 * artanh ((unit : Int) / 3)

/-- The arc tangent of a small value. -/
def arctanSmall (z : Int) : Int :=
  let square := times z z
  (List.range 150).foldl (fun (sum, power) n =>
    let term := power / ((2 * n + 1 : Nat) : Int)
    (if n % 2 = 0 then sum + term else sum - term, times power square)) ((0 : Int), z) |>.1

/-- Half a turn. -/
def pi : Int := 16 * arctanSmall ((unit : Int) / 5) - 4 * arctanSmall ((unit : Int) / 239)

/-- The square root of a fixed-point value. -/
def root (value : Int) : Int := (Root.floor (value.natAbs * unit) : Int)

/-- The arc tangent of a value between minus one and one. -/
def arctan (z : Int) : Int :=
  let half (z : Int) : Int := z * (unit : Int) / ((unit : Int) + root ((unit : Int) + times z z))
  4 * arctanSmall (half (half z))

/-- The exponential of a fixed-point value. -/
def expFixed (x : Int) : Binary64 :=
  let power := x / logTwo
  let rest := x - power * logTwo
  ofFixed (series (fun n term => times term rest / ((n : Nat) : Int)) 90 1 (unit : Int) (unit : Int)) power

/-- The exponential function. -/
def exp : Binary64 → Binary64
  | .nan => .nan
  | .infinite negative => if negative then .zero else .infinite false
  | .finite negative units =>
    if Binary64.one * 800 < units then if negative then .zero else .infinite false
    else expFixed (toFixed negative units)

/-- A natural logarithm in fixed-point form of a positive count of units. -/
def logFixed (units : Nat) : Int :=
  let bits := Nat.log2 units
  let mantissa : Int := if bits ≤ 240 then (units * Nat.pow 2 (240 - bits) : Nat) else (units / Nat.pow 2 (bits - 240) : Nat)
  let y := (mantissa - (unit : Int)) * (unit : Int) / (mantissa + (unit : Int))
  2 * artanh y + ((bits : Int) - 1074) * logTwo

/-- The natural logarithm. -/
def log : Binary64 → Binary64
  | .nan => .nan
  | .infinite negative => if negative then .nan else .infinite false
  | .finite negative units =>
    if units = 0 then .infinite true else if negative then .nan else ofFixed (logFixed units) 0

/-- The square root. -/
def sqrt : Binary64 → Binary64
  | .nan => .nan
  | .infinite negative => if negative then .nan else .infinite false
  | .finite negative units =>
    if units = 0 then .finite negative 0
    else if negative then .nan
    else Binary64.nearest false (Root.floor (units * Binary64.one * Nat.pow 4 100)) (Nat.pow 2 100)

/-- The sine of a fixed-point value. -/
def sinFixed (x : Int) : Int :=
  let turned := x - (x / (2 * pi)) * (2 * pi)
  let turned := if pi < turned then turned - 2 * pi else turned
  let square := times turned turned
  series (fun n term => -(times term square) / ((2 * n * (2 * n + 1) : Nat) : Int)) 60 1 turned turned

/-- The sine. -/
def sin : Binary64 → Binary64
  | .finite negative units =>
    if units < Binary64.one / Nat.pow 2 40 then .finite negative units
    else ofFixed (sinFixed (toFixed negative units)) 0
  | _ => .nan

/-- The cosine. -/
def cos : Binary64 → Binary64
  | .finite negative units => ofFixed (sinFixed (toFixed negative units + pi / 2)) 0
  | _ => .nan

/-- The angle of a point, seen from the centre. -/
def atan2 : Binary64 → Binary64 → Binary64
  | .finite yNegative y, .finite xNegative x =>
    if y = 0 && x = 0 then
      if xNegative then ofFixed (if yNegative then -pi else pi) 0 else .finite yNegative 0
    else
      let small := min x y
      let large := max x y
      let angle := arctan ((small * unit / large : Nat) : Int)
      let angle := if x < y then pi / 2 - angle else angle
      let angle := if xNegative then pi - angle else angle
      ofFixed (if yNegative then -angle else angle) 0
  | .infinite _, _ => .nan
  | _, _ => .nan

/-- A power with an integer exponent: the exact value, rounded once. -/
def integerPower (negative : Bool) (units exponent : Nat) : Binary64 :=
  let isNegative := negative && exponent % 2 = 1
  if units = 0 then if exponent = 0 then .ofInt 1 else .finite isNegative 0
  else
    let zeros := ((List.range 2200).find? fun n => units / Nat.pow 2 n % 2 = 1).getD 0
    let odd := units / Nat.pow 2 zeros
    let value := Nat.pow odd exponent
    let shift : Int := (exponent : Int) * ((zeros : Int) - 1074) + 1074
    if 2200 < (Nat.log2 value : Int) + shift then .infinite isNegative
    else if (Nat.log2 value : Int) + shift < -10 then .finite isNegative 0
    else if 0 ≤ shift then Binary64.nearest isNegative (value * Nat.pow 2 shift.natAbs) 1
    else Binary64.nearest isNegative value (Nat.pow 2 shift.natAbs)

/-- Powers with integer exponents beyond this are taken by logarithms. -/
def powerLimit : Nat := 4096

/-- A power. -/
def pow (x y : Binary64) : Binary64 :=
  match x, y with
  | .finite negative units, .finite inverted _ =>
    match y.integer? with
    | some n =>
      if n.natAbs ≤ powerLimit then
        let value := integerPower negative units n.natAbs
        if inverted && n ≠ 0 then Binary64.div (.ofInt 1) value else value
      else general x y
    | none => if negative && units ≠ 0 then .nan else general x y
  | _, _ => general x y
where
  /-- A power by logarithms. -/
  general (x y : Binary64) : Binary64 :=
    match x, y with
    | .finite negative units, .finite inverted exponent =>
      if units = 0 then if inverted then .infinite false else .zero
      else
        let isOdd := (y.integer?).any (· % 2 = 1)
        let value := expFixed (times (logFixed units) (toFixed inverted exponent))
        if negative && isOdd then value.neg else value
    | _, .finite _ 0 => .ofInt 1
    | .infinite _, .finite inverted _ => if inverted then .zero else .infinite false
    | .finite _ units, .infinite negative =>
      if units = Binary64.one then .ofInt 1
      else if (units < Binary64.one) == negative then .infinite false else .zero
    | .infinite _, .infinite negative => if negative then .zero else .infinite false
    | _, _ => .nan

end Elementary

end MobilitySweep
