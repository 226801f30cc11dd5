import MobilitySweep.Number.Elementary
import MobilitySweep.Number.Shortest
import MobilitySweep.Shell.Records.Token
import MobilitySweep.Shell.Utility

/-! # Values of record scripts

A value is a number, a text, or a text from the input that looks like a number and is both. Nothing at all
is zero and the empty text.
-/

namespace MobilitySweep

namespace Shell

namespace Records

/-- A value. -/
inductive Value where
  | unset
  | number (value : Binary64)
  | text (value : Bytes)
  | numeral (text : Bytes) (value : Binary64)
deriving DecidableEq, Repr, Inhabited

/-- A blank around numbers. -/
def isBlank (b : UInt8) : Bool := b = 32 || (9 ≤ b && b ≤ 13)

/-- The number at the start of a text, and what follows it; none if no digit is there. -/
def leadingValue? (text : Bytes) : Option (Binary64 × Bytes) :=
  let body := text.dropWhile isBlank
  let (negative, body) := Decimal.splitSign body
  let signed (value : Binary64) : Binary64 := if negative then value.neg else value
  let isNumber := Bytes.isDigit (body.headD 0) || (body.headD 0 = 46 && Bytes.isDigit (body.getD 1 0))
  if !isNumber then none
  else
    match body with
    | 48 :: mark :: d :: rest =>
      if (mark = 120 || mark = 88) && (Decimal.digitValue? d).any (· < 16) then
        let isHex (b : UInt8) : Bool := (Decimal.digitValue? b).any (· < 16)
        let digits := (d :: rest).takeWhile isHex
        let value := digits.foldl (fun n b => n * 16 + (Decimal.digitValue? b).getD 0) 0
        some (signed (.ofInt value), (d :: rest).drop digits.length)
      else
        let (value, rest) := numeral body
        some (signed value, rest)
    | _ =>
      let (value, rest) := numeral body
      some (signed value, rest)

/-- The number that a text looks like as a whole, blanks around it apart. -/
def wholeValue? (text : Bytes) : Option Binary64 :=
  match leadingValue? text with
  | some (value, rest) => if rest.all isBlank then some value else none
  | none => none

/-- A text from the input. -/
def Value.ofInput (text : Bytes) : Value :=
  match wholeValue? text with
  | some value => .numeral text value
  | none => .text text

/-- A value as a number. -/
def Value.toNumber : Value → Binary64
  | .unset => .zero
  | .number value | .numeral _ value => value
  | .text value => ((leadingValue? value).map (·.1)).getD .zero

/-- The shape of a conversion: flags, width, precision. -/
structure Shape where
  flags : Bytes
  width : Nat
  precision : Option Nat
deriving Repr

namespace Shape

/-- A text in its shape. -/
def text (s : Shape) (value : Bytes) : Bytes :=
  let value := match s.precision with
    | some most => value.take most
    | none => value
  filled (s.flags.contains 45) false s.width value

/-- The sign in front of a number. -/
def sign (s : Shape) (negative : Bool) : Bytes :=
  if negative then [45] else if s.flags.contains 43 then [43] else if s.flags.contains 32 then [32] else []

/-- Digits of an integer in their shape. -/
def digits (s : Shape) (sign : Bytes) (digits : Bytes) : Bytes :=
  let least := s.precision.getD 1
  let digits := List.replicate (least - digits.length) (48 : UInt8) ++ digits
  let isZeroed := s.flags.contains 48 && s.precision.isNone && !s.flags.contains 45
  let missing := s.width - sign.length - digits.length
  if isZeroed then sign ++ List.replicate missing (48 : UInt8) ++ digits
  else filled (s.flags.contains 45) false s.width (sign ++ digits)

/-- The text of a number in its shape. -/
def number (s : Shape) (kind : UInt8) (value : Binary64) : Bytes :=
  let isUpper := kind = 69 || kind = 71 || kind = 70
  let places := s.precision.getD 6
  let body := match Bytes.lowerByte kind with
    | 101 => Significant.scientific places value.abs
    | 103 => Significant.general (s.flags.contains 35) (max 1 places) value.abs
    | _ => Significant.fixed places value.abs
  let body := if value = .nan then Significant.special false true else body
  let body := if isUpper then body.map fun b => if 97 ≤ b && b ≤ 122 then b - 32 else b else body
  let sign := s.sign (value.isNegative || value = .nan)
  let isFinite := match value with
    | .finite _ _ => true
    | _ => false
  let missing := s.width - sign.length - body.length
  if s.flags.contains 48 && !s.flags.contains 45 && isFinite then
    sign ++ List.replicate missing (48 : UInt8) ++ body
  else filled (s.flags.contains 45) false s.width (sign ++ body)

end Shape

/-- Integers from this one on are written in full. -/
def leastInteger : Int := -9223372036854775808

/-- Integers up to the one above this are written in full, that one as this. -/
def greatestInteger : Int := 18446744073709551615

/-- A number as a text in a format for those that are no integers. -/
def numberText (format : Bytes) (value : Binary64) : Bytes :=
  match value.integer? with
  | some n =>
    if leastInteger ≤ n && n ≤ greatestInteger + 1 then Decimal.ofInt (min n greatestInteger) else formatted
  | none => formatted
where
  /-- The number in its format. -/
  formatted : Bytes :=
    match format with
    | 37 :: rest =>
      let flags := rest.takeWhile fun b => ("-0+ #" : Bytes).contains b
      let rest := rest.drop flags.length
      let width := rest.takeWhile Bytes.isDigit
      let rest := rest.drop width.length
      let (precision, rest) : Option Nat × Bytes := match rest with
        | 46 :: more => (some (Bytes.digitsValue (more.takeWhile Bytes.isDigit)), more.dropWhile Bytes.isDigit)
        | _ => (none, rest)
      let kind := rest.headD 103
      let shape : Shape := ⟨flags, Bytes.digitsValue width, precision⟩
      (if kind = 100 || kind = 105 then shape.digits (shape.sign value.isNegative) (Decimal.ofNat value.toInt.natAbs)
        else shape.number kind value) ++ rest.tail
    | other => other

/-- A value as a text, in a format for numbers that are no integers. -/
def Value.toText (format : Bytes) : Value → Bytes
  | .unset => []
  | .number value => numberText format value
  | .text value | .numeral value _ => value

/-- Whether a value counts as true. -/
def Value.isTrue : Value → Bool
  | .unset => false
  | .number value | .numeral _ value => !value.equals .zero
  | .text value => !value.isEmpty

/-- How two values are ordered: as numbers if both are, as texts otherwise. -/
def Value.compare (format : Bytes) (a b : Value) : Ordering :=
  let isText : Value → Bool := fun v => match v with
    | .text _ => true
    | _ => false
  if isText a || isText b then
    let x := a.toText format
    let y := b.toText format
    if Bytes.less x y then .lt else if Bytes.less y x then .gt else .eq
  else
    let x := a.toNumber
    let y := b.toNumber
    if x.less y then .lt else if y.less x then .gt else .eq

/-- Why a format cannot be used with some values. -/
inductive FormatTrouble where
  | tooFew
  | unknown (number : Nat)
deriving DecidableEq, Repr

/-- A count inside a conversion: digits, or a star for the next value. -/
def formatCount (text : Bytes) (values : List Value) : Except FormatTrouble (Int × Bytes × List Value) :=
  match text with
  | 42 :: rest =>
    match values with
    | value :: values => .ok (value.toNumber.toInt, rest, values)
    | [] => .error .tooFew
  | _ =>
    let digits := text.takeWhile Bytes.isDigit
    .ok (Bytes.digitsValue digits, text.drop digits.length, values)

/-- Values in a format, in at most so many steps; the text so far comes with what is wrong. -/
def formatValues (convert : Bytes) : Nat → Nat → Bytes → Bytes → List Value → Bytes × Option FormatTrouble
  | 0, _, done, _, _ => (done, none)
  | _, _, done, [], _ => (done, none)
  | steps + 1, number, done, 37 :: 37 :: rest, values => formatValues convert steps number (done ++ [37]) rest values
  | steps + 1, number, done, 37 :: rest, values =>
    let flags := rest.takeWhile fun b => ("-0+ #" : Bytes).contains b
    match formatCount (rest.drop flags.length) values with
    | .error trouble => (done, some trouble)
    | .ok (width, behind, values) =>
      let precision : Except FormatTrouble (Option Int × Bytes × List Value) := match behind with
        | 46 :: more => (formatCount more values).map fun (count, behind, values) => (some count, behind, values)
        | _ => .ok (none, behind, values)
      match precision with
      | .error trouble => (done, some trouble)
      | .ok (precision, behind, values) =>
        let shape : Shape := ⟨if width < 0 then 45 :: flags else flags, width.natAbs,
          (precision.filter (0 ≤ ·)).map (·.toNat)⟩
        let kind := (behind.dropWhile fun b => b = 108 || b = 104).headD 0
        let behind := (behind.dropWhile fun b => b = 108 || b = 104).tail
        match values with
        | [] => (done, some .tooFew)
        | value :: values =>
          if !("diouxXcseEfFgG" : Bytes).contains kind then (done, some (.unknown (number + 1)))
          else
            let n := value.toNumber
            let inBase (base : Nat) : Bytes :=
              let word := (n.toInt % (18446744073709551616 : Int)).toNat
              (Nat.toDigits base word).map Char.toUInt8
            let mark (text : Bytes) : Bytes := if flags.contains 35 then text else []
            let shown : Bytes :=
              if kind = 100 || kind = 105 then
                match n with
                | .finite _ _ =>
                  let whole := max (leastInteger + 1) (min n.toInt greatestInteger)
                  shape.digits (shape.sign (whole < 0)) (Decimal.ofNat whole.natAbs)
                | _ => shape.number 102 n
              else if kind = 111 then shape.digits (mark [48]) (inBase 8)
              else if kind = 117 then shape.digits [] (inBase 10)
              else if kind = 120 then shape.digits (mark [48, 120]) (inBase 16)
              else if kind = 88 then
                shape.digits (mark [48, 88]) ((inBase 16).map fun b => if 97 ≤ b then b - 32 else b)
              else if kind = 99 then
                match value with
                | .text t => shape.text (if t.isEmpty then [0] else t.take 1)
                | _ => shape.text [UInt8.ofNat (n.toInt % 256).toNat]
              else if kind = 115 then shape.text (value.toText convert)
              else shape.number kind n
            formatValues convert steps (number + 1) (done ++ shown) behind values
  | steps + 1, number, done, b :: rest, values => formatValues convert steps number (done ++ [b]) rest values

end Records

end Shell

end MobilitySweep
