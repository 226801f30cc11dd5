import MobilitySweep.Number.Shortest
import MobilitySweep.Number.Reading

/-! # Formatted output

The text of a format whose conversions take arguments in turn; the format is used again while
arguments are left.
-/

namespace MobilitySweep

namespace Shell

/-- An octal digit. -/
def isOctal (b : UInt8) : Bool := 48 ≤ b && b ≤ 55

/-- The byte that octal digits write. -/
def octalByte (digits : Bytes) : UInt8 := UInt8.ofNat (digits.foldl (fun n d => n * 8 + (d.toNat - 48)) 0)

/-- The byte that a letter stands for behind a backslash. -/
def escapedByte? (b : UInt8) : Option UInt8 :=
  match b with
  | 110 => some 10
  | 116 => some 9
  | 114 => some 13
  | 97 => some 7
  | 98 => some 8
  | 102 => some 12
  | 118 => some 11
  | 101 => some 27
  | 92 => some 92
  | _ => none

/-- A backslash escape of a format: the text it stands for, and what follows it. -/
def escape? (rest : Bytes) : Option (Bytes × Bytes) :=
  match rest with
  | [] => none
  | b :: more =>
    if isOctal b then
      let digits := (rest.take 3).takeWhile isOctal
      some ([octalByte digits], rest.drop digits.length)
    else (escapedByte? b).map fun byte => ([byte], more)

/-- Backslash escapes of a text replaced; one of them ends the text. -/
def unescape : Nat → Bytes → Bytes → Bytes × Bool
  | 0, done, _ => (done.reverse, false)
  | _, done, [] => (done.reverse, false)
  | steps + 1, done, b :: rest =>
    if b = 92 then
      match rest with
      | 99 :: _ => (done.reverse, true)
      | 48 :: more =>
        let digits := (more.take 3).takeWhile isOctal
        unescape steps (octalByte digits :: done) (more.drop digits.length)
      | _ =>
        match escape? rest with
        | some (text, more) => unescape steps (text.reverse ++ done) more
        | none => unescape steps (b :: done) rest
    else unescape steps (b :: done) rest

/-- A text filled up to a width. -/
def filled (left zero : Bool) (width : Nat) (text : Bytes) : Bytes :=
  let missing := width - text.length
  if left then text ++ List.replicate missing (32 : UInt8)
  else if zero then
    match text with
    | 45 :: digits => 45 :: (List.replicate missing (48 : UInt8) ++ digits)
    | 43 :: digits => 43 :: (List.replicate missing (48 : UInt8) ++ digits)
    | _ => List.replicate missing (48 : UInt8) ++ text
  else List.replicate missing (32 : UInt8) ++ text

/-- The integer at the start of a text, with a sign and in the base that it announces, and what
follows it. -/
def leadingInteger (text : Bytes) : Int × Bytes :=
  let start := text.dropWhile fun b => b = 32 || b = 9 || b = 10
  let (negative, body) := Decimal.splitSign start
  let (base, digits) : Nat × Bytes := match body with
    | 48 :: mark :: d :: more =>
      if (mark = 120 || mark = 88) && (Decimal.digitValue? d).isSome then (16, d :: more) else (8, body)
    | 48 :: _ => (8, body)
    | _ => (10, body)
  let own := digits.takeWhile fun b => ((Decimal.digitValue? b).map fun d => decide (d < base)).getD false
  let value : Nat := own.foldl (fun n b => n * base + (Decimal.digitValue? b).getD 0) 0
  if own.isEmpty then (0, text)
  else (if negative then -(value : Int) else value, digits.drop own.length)

/-- How a conversion shapes its text: whether it shows its base, which side is filled, whether with zeros, up to which
width, the precision, and the sign before what is not negative. -/
structure Shape where
  isAlternate : Bool
  left : Bool
  zero : Bool
  width : Nat
  precision : Option Nat
  sign : Bytes

/-- A number with at least as many digits as the precision asks for. Zeros fill up the width only when
no precision is given. -/
def Shape.number (shape : Shape) (negative : Bool) (digits : Bytes) : Bytes :=
  let digits := filled false true (shape.precision.getD 0) digits
  filled shape.left (shape.zero && shape.precision.isNone) shape.width
    ((if negative then [45] else shape.sign) ++ digits)

/-- A text cut to the precision and filled up with blanks. -/
def Shape.text (shape : Shape) (text : Bytes) : Bytes :=
  filled shape.left false shape.width (text.take (shape.precision.getD text.length))

/-- What is wrong with an argument: it is no number, or only starts like one. -/
inductive Misfit where
  | noNumber (text : Bytes)
  | partly (text : Bytes)
deriving DecidableEq, Repr

/-- Output under way: whether texts can be protected, the text so far, the arguments that are left, the
warnings, and whether it has been ended, by a text or by a conversion that does not exist. -/
structure Printing where
  protects : Bool
  output : Bytes
  args : List Bytes
  warnings : List Misfit
  isEnded : Bool
  unknown : Option Bytes

/-- A text with backslashes before what a shell would not leave as it is. -/
def protectedText (text : Bytes) : Bytes :=
  if text.isEmpty then [39, 39]
  else text.flatMap fun b =>
    let isPlain := Bytes.isDigit b || (97 ≤ b && b ≤ 122) || (65 ≤ b && b ≤ 90) || ("%+-./:=@_" : Bytes).contains b
    if isPlain then [b] else [92, b]

namespace Printing

/-- More output. -/
def add (p : Printing) (text : Bytes) : Printing := { p with output := p.output ++ text }

/-- The next argument. -/
def next (p : Printing) : Bytes × Printing := (p.args.headD [], { p with args := p.args.tail })

/-- The next argument as an integer; one that is not wholly a number gives a warning. -/
def integer (p : Printing) : Int × Printing :=
  match p.args with
  | [] => (0, p)
  | text :: args =>
    let p := { p with args := args }
    match text with
    | 34 :: b :: _ | 39 :: b :: _ => (b.toNat, p)
    | _ =>
      match leadingInteger text with
      | (value, rest) =>
        if rest.isEmpty && !text.isEmpty then (value, p)
        else if rest.length = text.length then
          (0, { p with warnings := p.warnings ++ [.noNumber text] })
        else (value, { p with warnings := p.warnings ++ [.partly text] })

/-- The next argument as a number with a fraction. -/
def fraction (p : Printing) : Binary64 × Printing :=
  match p.args with
  | [] => (.finite false 0, p)
  | text :: args =>
    match Reading.read text with
    | .ok value => (value, { p with args := args })
    | .error _ => (.finite false 0,
        { p with args := args, warnings := p.warnings ++ [.noNumber text] })

/-- One conversion; the specification is shown if there is no such conversion. -/
def convert (p : Printing) (shape : Shape) (kind : UInt8) (specification : Bytes) : Printing :=
  let inBase (base : Nat) (upper : Bool) : Printing :=
    let (value, p) := p.integer
    let digits := (Nat.toDigits base (value % (18446744073709551616 : Int)).toNat).map Char.toUInt8
    let digits := if upper then digits.map fun b => if 97 ≤ b && b ≤ 122 then b - 32 else b else digits
    let isMarked := shape.isAlternate && value ≠ 0
    let mark : Bytes := if isMarked && base = 16 then [48, if upper then 88 else 120] else []
    let digits := if isMarked && base = 8 then 48 :: digits else digits
    p.add ({ shape with sign := mark }.number false digits)
  match kind with
  | 100 | 105 =>
    let (value, p) := p.integer
    p.add (shape.number (decide (value < 0)) (Decimal.ofNat value.natAbs))
  | 117 => inBase 10 false
  | 111 => inBase 8 false
  | 120 => inBase 16 false
  | 88 => inBase 16 true
  | 102 | 70 =>
    let (value, p) := p.fraction
    p.add (filled shape.left shape.zero shape.width (Fixed.render (shape.precision.getD 6) value))
  | 101 | 69 | 103 | 71 =>
    let (value, p) := p.fraction
    let places := shape.precision.getD 6
    let body := if kind = 101 || kind = 69 then Significant.scientific places value.abs
      else Significant.general false (max 1 places) value.abs
    let body := if kind < 97 then body.map fun b => if 97 ≤ b && b ≤ 122 then b - 32 else b else body
    let sign := if value.isNegative then [45] else shape.sign
    p.add (filled shape.left shape.zero shape.width (sign ++ body))
  | 99 =>
    let (text, p) := p.next
    p.add (shape.text (if text.isEmpty then [0] else text.take 1))
  | 115 =>
    let (text, p) := p.next
    p.add (shape.text text)
  | 98 =>
    let (text, p) := p.next
    let (text, ended) := unescape (text.length + 1) [] text
    { p.add (shape.text text) with isEnded := ended }
  | _ =>
    if kind = 113 && p.protects then
      let (text, p) := p.next
      p.add (shape.text (protectedText text))
    else { p with unknown := some specification, isEnded := true }

/-- A width or a precision: digits, or a star for the next argument. -/
def count (p : Printing) (text : Bytes) : Int × Bytes × Printing :=
  match text with
  | 42 :: rest =>
    let (value, p) := p.integer
    (value, rest, p)
  | _ =>
    let digits := text.takeWhile Bytes.isDigit
    (Bytes.digitsValue digits, text.drop digits.length, p)

/-- The format used once, in at most so many steps. -/
def once : Nat → Printing → Bytes → Printing
  | 0, p, _ => p
  | _, p, [] => p
  | steps + 1, p, b :: rest =>
    if p.isEnded then p
    else if b = 92 then
      match escape? rest with
      | some (text, more) => once steps (p.add text) more
      | none => once steps (p.add [b]) rest
    else if b = 37 then
      match rest with
      | 37 :: more => once steps (p.add [37]) more
      | _ =>
        let flags := rest.takeWhile fun c => ("-0+ #" : Bytes).contains c
        let (width, behind, p) := p.count (rest.drop flags.length)
        let (precision, behind, p) : Option Nat × Bytes × Printing := match behind with
          | 46 :: more =>
            let (places, behind, p) := p.count more
            (some places.toNat, behind, p)
          | _ => (none, behind, p)
        match behind with
        | kind :: more =>
          let sign : Bytes := if flags.contains 43 then [43] else if flags.contains 32 then [32] else []
          let shape : Shape :=
            ⟨flags.contains 35, flags.contains 45 || decide (width < 0), flags.contains 48, width.natAbs, precision, sign⟩
          once steps (p.convert shape kind (b :: rest.take (rest.length - more.length))) more
        | [] => { p with unknown := some (b :: rest), isEnded := true }
    else once steps (p.add [b]) rest

/-- The format used until no argument is left, at most so often. -/
def untilDone : Nat → Bytes → Printing → Printing
  | 0, _, p => p
  | times + 1, format, p =>
    let after := once (format.length + 1) p format
    if after.isEnded || after.args.isEmpty || after.args.length = p.args.length then after
    else untilDone times format after

/-- A format applied to arguments. -/
def ofFormat (protects : Bool) (format : Bytes) (args : List Bytes) : Printing :=
  untilDone (args.length + 1) format ⟨protects, [], args, [], false, none⟩

end Printing

end Shell

end MobilitySweep
