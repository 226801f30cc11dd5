import MobilitySweep.Number.Reading
import MobilitySweep.Time.Instant

/-! # The values of plain scalars

A scalar without quotes may stand for nothing, a truth value, a number or a moment in time; its form
decides. A tag can ask for a kind of value, and a form that does not fit the tag is refused.
-/

namespace MobilitySweep

namespace Yaml

/-- What a scalar stands for. -/
inductive Value where
  | null
  | bool (value : Bool)
  | int (value : Int64)
  | unsigned (value : Nat)
  | float (value : Binary64)
  | timestamp
  | text (value : Bytes)
deriving DecidableEq, Repr, Inhabited

namespace Tag

def null : Bytes := "!!null"
def bool : Bytes := "!!bool"
def int : Bytes := "!!int"
def float : Bytes := "!!float"
def timestamp : Bytes := "!!timestamp"
def str : Bytes := "!!str"
def binary : Bytes := "!!binary"
def merge : Bytes := "!!merge"
def sequence : Bytes := "!!seq"
def mapping : Bytes := "!!map"

/-- The long form of the standard tags. -/
def standard : Bytes := "tag:yaml.org,2002:"

/-- A tag in its short form. -/
def short (tag : Bytes) : Bytes :=
  if standard.isPrefixOf tag then "!!" ++ tag.drop standard.length else tag

end Tag

/-- The tag that belongs to a value. -/
def Value.tag : Value → Bytes
  | null => Tag.null
  | bool _ => Tag.bool
  | int _ => Tag.int
  | unsigned _ => Tag.int
  | float _ => Tag.float
  | timestamp => Tag.timestamp
  | text _ => Tag.str

/-- The scalars with a fixed meaning. -/
def named? (text : Bytes) : Option Value :=
  if text.isEmpty || text = "~" || text = "null" || text = "Null" || text = "NULL" then some .null
  else if text = "true" || text = "True" || text = "TRUE" then some (.bool true)
  else if text = "false" || text = "False" || text = "FALSE" then some (.bool false)
  else if text = ".nan" || text = ".NaN" || text = ".NAN" then some (.float .nan)
  else if text = ".inf" || text = ".Inf" || text = ".INF" || text = "+.inf" || text = "+.Inf" ||
      text = "+.INF" then some (.float (.infinite false))
  else if text = "-.inf" || text = "-.Inf" || text = "-.INF" then some (.float (.infinite true))
  else none

/-! ## Moments in time -/

/-- A number of one or two digits at the start of a text. -/
def shortNumber? : Bytes → Option (Nat × Bytes)
  | a :: b :: rest =>
    if !Bytes.isDigit a then none
    else if Bytes.isDigit b then some ((a.toNat - 48) * 10 + (b.toNat - 48), rest)
    else some (a.toNat - 48, b :: rest)
  | [a] => if Bytes.isDigit a then some (a.toNat - 48, []) else none
  | [] => none

/-- A date with a year of four digits. -/
def date? (text : Bytes) : Option (Civil × Bytes) := do
  let (year, text) ← Instant.digits? 4 text
  let (month, text) ← shortNumber? (← Instant.byte? '-' text)
  let (day, text) ← shortNumber? (← Instant.byte? '-' text)
  some (⟨year, month, day, 0, 0, 0, 0⟩, text)

/-- A time of day, with a fraction of any length behind a point or a comma. -/
def timeOfDay? (date : Civil) (text : Bytes) : Option (Civil × Bytes) := do
  let (hour, text) ← shortNumber? text
  let (minute, text) ← shortNumber? (← Instant.byte? ':' text)
  let (second, text) ← shortNumber? (← Instant.byte? ':' text)
  let rest := match text with
    | mark :: d :: more =>
      if (mark = '.' || mark = ',') && Bytes.isDigit d then (d :: more).dropWhile Bytes.isDigit else text
    | _ => text
  some ({ date with hour := hour, minute := minute, second := second }, rest)

/-- Whether a text is an offset from UTC. -/
def isZone (text : Bytes) : Bool :=
  text = "Z" ||
    match text with
    | [sign, h1, h2, colon, m1, m2] =>
      (sign = '+' || sign = '-') && colon = ':' && [h1, h2, m1, m2].all Bytes.isDigit &&
        (h1.toNat - 48) * 10 + (h2.toNat - 48) ≤ 24 && (m1.toNat - 48) * 10 + (m2.toNat - 48) ≤ 60
    | _ => false

/-- Whether a text is a moment in time: a date, alone, with a time of day in a zone, or with one
behind blanks. -/
def isTimestamp (text : Bytes) : Bool :=
  match date? text with
  | none => false
  | some (date, rest) =>
    match rest with
    | [] => date.isValid
    | mark :: more =>
      if mark = 'T' || mark = 't' then
        match timeOfDay? date more with
        | some (c, zone) => c.isValid && isZone zone
        | none => false
      else if mark = ' ' then
        match timeOfDay? date (more.dropWhile (· = ' ')) with
        | some (c, zone) => c.isValid && zone.isEmpty
        | none => false
      else false

/-! ## Numbers -/

/-- Text behind an optional exponent. -/
def isExponent (text : Bytes) : Bool :=
  match text with
  | [] => true
  | e :: rest =>
    let digits := (Decimal.splitSign rest).2
    (e = 'e' || e = 'E') && !digits.isEmpty && digits.all Bytes.isDigit

/-- Whether a text has the form of a decimal fraction. -/
def isFloatForm (text : Bytes) : Bool :=
  let body := (Decimal.splitSign text).2
  let whole := body.takeWhile Bytes.isDigit
  match body.dropWhile Bytes.isDigit with
  | [] => !whole.isEmpty
  | b :: rest =>
    if b = '.' then
      (!whole.isEmpty || (rest.head?.map Bytes.isDigit).getD false) &&
        isExponent (rest.dropWhile Bytes.isDigit)
    else !whole.isEmpty && isExponent (b :: rest)

/-- An integer in base two or eight whose sign stands behind the mark of the base. -/
def innerSigned? : Bytes → Option Int64
  | zero :: mark :: rest =>
    if zero ≠ '0' then none
    else if mark = 'b' then (Decimal.readIn 2 rest).toOption
    else if mark = 'o' then (Decimal.readIn 8 rest).toOption
    else none
  | _ => none

/-- A number that starts with a digit or a sign; underscores are passed over. -/
def number? (text : Bytes) : Option Value :=
  let plain := text.filter (· ≠ ('_' : UInt8))
  match Decimal.readAnyBase plain with
  | .ok n => some (.int n)
  | .error _ =>
    match Decimal.readMagnitude plain with
    | .ok n => some (.unsigned n)
    | .error _ =>
      if isFloatForm plain then
        match Reading.read plain with
        | .ok x => some (.float x)
        | .error _ => none
      else (innerSigned? plain).map .int

/-- The value of a plain scalar; moments in time are recognised only where asked for. -/
def classify (moments : Bool) (text : Bytes) : Value :=
  match named? text with
  | some value => value
  | none =>
    match text with
    | [] => .null
    | b :: _ =>
      if b = '.' then
        match Reading.read text with
        | .ok x => .float x
        | .error _ => .text text
      else if b = '+' || b = '-' || Bytes.isDigit b then
        if moments && isTimestamp text then .timestamp else (number? text).getD (.text text)
      else .text text

/-- The tags whose scalars are resolved by form. -/
def isResolvable (tag : Bytes) : Bool :=
  tag.isEmpty || tag = Tag.str || tag = Tag.bool || tag = Tag.int || tag = Tag.float || tag = Tag.null ||
    tag = Tag.timestamp

/-- An integer as a floating-point number, where a tag asks for it. -/
def Value.widened : Value → Option Value
  | int n => some (.float (Binary64.ofInt n.toInt))
  | _ => none

/-- The value of a scalar with a tag, and the tag that results; none if the form does not fit. -/
def resolve? (tag text : Bytes) : Option (Bytes × Value) :=
  if !isResolvable tag then some (tag, .text text)
  else if tag = Tag.str then some (Tag.str, .text text)
  else
    let value := classify (tag.isEmpty || tag = Tag.timestamp) text
    if tag.isEmpty || tag = value.tag then some (value.tag, value)
    else if tag = Tag.float then value.widened.map fun x => (Tag.float, x)
    else none

end Yaml

end MobilitySweep
