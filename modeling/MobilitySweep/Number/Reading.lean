import MobilitySweep.Number.Binary64
import MobilitySweep.Number.Decimal

/-! # Reading floating-point numerals

Decimal numerals with an optional exponent, hexadecimal numerals with a binary exponent, and the names
of the special values, in any letter case. Separators may stand between digits. The exact value of the
numeral is rounded once.
-/

namespace MobilitySweep

namespace Reading

/-- The digits of a mantissa: their value, how many follow the point, and the text behind them. The
point is taken once. -/
structure Mantissa where
  value : Nat
  places : Nat
  pointed : Bool
  anyDigit : Bool
  separated : Bool

/-- The mantissa at the start of a text. -/
def mantissaScan (base : Nat) : Mantissa → Bytes → Mantissa × Bytes
  | m, [] => (m, [])
  | m, b :: rest =>
    if b = '_' then mantissaScan base { m with separated := true } rest
    else if b = '.' then
      if m.pointed then (m, b :: rest) else mantissaScan base { m with pointed := true } rest
    else match Decimal.digitValue? b with
      | none => (m, b :: rest)
      | some d =>
        if base ≤ d then (m, b :: rest)
        else
          mantissaScan base
            { m with value := m.value * base + d, anyDigit := true,
                     places := if m.pointed then m.places + 1 else m.places } rest

/-- The digits of an exponent, which stops growing at five digits, and whether separators occurred. -/
def exponentScan : Nat → Bool → Bytes → Nat × Bool × Bytes
  | e, separated, [] => (e, separated, [])
  | e, separated, b :: rest =>
    if b = '_' then exponentScan e true rest
    else if Bytes.isDigit b then
      exponentScan (if e < 10000 then e * 10 + (b.toNat - 48) else e) separated rest
    else (e, separated, b :: rest)

/-- A signed exponent behind its mark: there must be a digit right behind the sign. -/
def exponent (text : Bytes) : Option (Int × Bool × Bytes) :=
  let (negative, body) := Decimal.splitSign text
  match body with
  | d :: _ =>
    if Bytes.isDigit d then
      let (e, separated, rest) := exponentScan 0 false body
      some (if negative then -(e : Int) else e, separated, rest)
    else none
  | [] => none

/-- The number nearest to mantissa times a power. -/
def assemble (negative : Bool) (mantissa : Nat) (base : Nat) (power : Int) : Binary64 :=
  if power < 0 then Binary64.nearest negative (mantissa * Binary64.one) (Nat.pow base power.natAbs)
  else Binary64.nearest negative (mantissa * Nat.pow base power.natAbs * Binary64.one) 1

/-- A decimal value; magnitudes far outside the range are settled by their digit count. -/
def decimalValue (negative : Bool) (mantissa : Nat) (power : Int) : Binary64 :=
  let magnitude := (Decimal.ofNat mantissa).length + power
  if mantissa = 0 then .finite negative 0
  else if 310 < magnitude then .infinite negative
  else if magnitude < -330 then .finite negative 0
  else assemble negative mantissa 10 power

/-- A binary value; magnitudes far outside the range are settled by their bit count. -/
def binaryValue (negative : Bool) (mantissa : Nat) (power : Int) : Binary64 :=
  let magnitude := Nat.log2 mantissa + power
  if mantissa = 0 then .finite negative 0
  else if 1100 < magnitude then .infinite negative
  else if magnitude < -1200 then .finite negative 0
  else assemble negative mantissa 2 power

/-- The names of the special values; a sign may stand before infinity only. -/
def special? (text : Bytes) : Option Binary64 :=
  let lower := text.map Bytes.lowerByte
  let (negative, body) := Decimal.splitSign lower
  if body = "inf" || body = "infinity" then some (.infinite negative)
  else if lower = "nan" then some .nan
  else none

/-- The numeral as sign, base of its digits, and its body. -/
def radix (text : Bytes) : Bool × Bool × Bytes :=
  let (negative, body) := Decimal.splitSign text
  match body with
  | z :: mark :: d :: more =>
    if z = '0' && Bytes.lowerByte mark = 'x' then (negative, true, d :: more) else (negative, false, body)
  | _ => (negative, false, body)

/-- A floating-point numeral. -/
def read (text : Bytes) : Except NumeralFault Binary64 :=
  match special? text with
  | some x => .ok x
  | none =>
    let (negative, hexadecimal, body) := radix text
    let (m, rest) := mantissaScan (if hexadecimal then 16 else 10) ⟨0, 0, false, false, false⟩ body
    let mark : UInt8 := if hexadecimal then 'p' else 'e'
    let tail : Option (Int × Bool × Bytes) :=
      match rest with
      | b :: more => if Bytes.lowerByte b = mark then exponent more else if hexadecimal then none else some (0, false, rest)
      | [] => if hexadecimal then none else some (0, false, [])
    match tail with
    | some (e, separated, []) =>
      if !m.anyDigit then .error .syntactic
      else if (m.separated || separated) && !Decimal.separatorsOk text then .error .syntactic
      else
        let x :=
          if hexadecimal then binaryValue negative m.value (e - 4 * m.places)
          else decimalValue negative m.value (e - m.places)
        match x with
        | .infinite _ => .error .range
        | _ => .ok x
    | _ => .error .syntactic

end Reading

end MobilitySweep
