import MobilitySweep.Text.Quoted

/-! # Decimal integers

Integers as decimal text, and reading them back into the range of 64-bit words. Reading goes digit by
digit, and the first fault met from the left decides between bad syntax and a value out of range.
-/

namespace MobilitySweep

/-- Why a numeral is refused. -/
inductive NumeralFault where
  | syntactic
  | range
deriving DecidableEq, Repr

namespace NumeralFault

/-- The wording of a fault. -/
def message : NumeralFault → Bytes
  | syntactic => "invalid syntax"
  | range => "value out of range"

/-- The wording of a fault met by a named reader on a given text. -/
def report (reader : String) (text : Bytes) (fault : NumeralFault) : Bytes :=
  "strconv." ++ (reader : Bytes) ++ ": parsing " ++ Quoted.quote text ++ ": " ++ fault.message

end NumeralFault

namespace Decimal

/-- The decimal digits of a natural number. -/
def ofNat (n : Nat) : Bytes := (Nat.toDigits 10 n).map Char.toUInt8

/-- A decimal integer, negative ones with a minus sign. -/
def ofInt (n : Int) : Bytes :=
  if n < 0 then ('-' : UInt8) :: ofNat n.natAbs else ofNat n.natAbs

/-- A 64-bit word as a signed decimal integer. -/
def ofInt64 (n : Int64) : Bytes := ofInt n.toInt

/-- A natural number with zeros in front up to a width. -/
def padded (width : Nat) (n : Nat) : Bytes :=
  List.replicate (width - (ofNat n).length) (48 : UInt8) ++ ofNat n

/-- The value of a digit in any base up to sixteen. -/
def digitValue? (b : UInt8) : Option Nat :=
  if 48 ≤ b && b ≤ 57 then some (b.toNat - 48)
  else if 97 ≤ b && b ≤ 102 then some (b.toNat - 87)
  else if 65 ≤ b && b ≤ 70 then some (b.toNat - 55)
  else none

/-- The exclusive bound of 64-bit words. -/
def wordBound : Nat := 18446744073709551616

/-- Digits of a base added to a value from the left. Separators are passed over when allowed. A
foreign byte is bad syntax, and a value beyond 64 bits is out of range as soon as it is reached. -/
def readDigits (base : Nat) (separators : Bool) : Nat → Bytes → Except NumeralFault Nat
  | value, [] => .ok value
  | value, b :: rest =>
    if separators && b = '_' then readDigits base separators value rest
    else match digitValue? b with
      | none => .error .syntactic
      | some d =>
        if base ≤ d then .error .syntactic
        else if wordBound ≤ value * base + d then .error .range
        else readDigits base separators (value * base + d) rest

/-- Whether separators stand only between digits, a base mark counting as a digit. The state is the
last kind of byte seen: a digit, a separator, or anything else. -/
def separatorsPlaced (hexadecimal : Bool) : Option Bool → Bytes → Bool
  | last, [] => last ≠ some false
  | last, b :: rest =>
    if Bytes.isDigit b || (hexadecimal && (digitValue? b).isSome) then
      separatorsPlaced hexadecimal (some true) rest
    else if b = '_' then
      last == some true && separatorsPlaced hexadecimal (some false) rest
    else if last = some false then false
    else separatorsPlaced hexadecimal none rest

/-- Text without a leading sign, and whether the sign was a minus. -/
def splitSign : Bytes → Bool × Bytes
  | b :: rest => if b = '-' then (true, rest) else if b = '+' then (false, rest) else (false, b :: rest)
  | [] => (false, [])

/-- Whether the separators of a signed numeral are well placed. -/
def separatorsOk (text : Bytes) : Bool :=
  let body := (splitSign text).2
  match body with
  | z :: mark :: rest =>
    let m := Bytes.lowerByte mark
    if z = '0' && (m = 'b' || m = 'o' || m = 'x') then
      separatorsPlaced (m = 'x') (some true) rest
    else separatorsPlaced false none body
  | _ => separatorsPlaced false none body

/-- The signed value of a magnitude, if 64 bits hold it. -/
def signed (negative : Bool) (magnitude : Nat) : Except NumeralFault Int64 :=
  if negative then
    if magnitude ≤ 9223372036854775808 then .ok (Int64.ofInt (-(magnitude : Int))) else .error .range
  else
    if magnitude < 9223372036854775808 then .ok (Int64.ofInt magnitude) else .error .range

/-- A signed integer in a given base. -/
def readIn (base : Nat) (text : Bytes) : Except NumeralFault Int64 :=
  let (negative, body) := splitSign text
  if body.isEmpty then .error .syntactic
  else do signed negative (← readDigits base false 0 body)

/-- A signed decimal integer. -/
def read (text : Bytes) : Except NumeralFault Int64 := readIn 10 text

/-- The base that a numeral announces and its digits: a two character mark, or a leading zero for
base eight. -/
def announcedBase (body : Bytes) : Nat × Bytes :=
  match body with
  | z :: rest =>
    if z = '0' then
      match rest with
      | mark :: d :: more =>
        let m := Bytes.lowerByte mark
        if m = 'b' then (2, d :: more)
        else if m = 'o' then (8, d :: more)
        else if m = 'x' then (16, d :: more)
        else (8, rest)
      | _ => (8, rest)
    else (10, body)
  | [] => (10, body)

/-- The magnitude of an unsigned numeral in the base that it announces, where separators may stand
between digits. -/
def readMagnitude (body : Bytes) : Except NumeralFault Nat :=
  if body.isEmpty then .error .syntactic
  else do
    let (base, digits) := announcedBase body
    let magnitude ← readDigits base true 0 digits
    if digits.contains ('_' : UInt8) && !separatorsOk body then .error .syntactic
    else .ok magnitude

/-- A signed integer in the base that it announces. -/
def readAnyBase (text : Bytes) : Except NumeralFault Int64 :=
  let (negative, body) := splitSign text
  if body.isEmpty then .error .syntactic
  else do signed negative (← readMagnitude body)

end Decimal

end MobilitySweep
