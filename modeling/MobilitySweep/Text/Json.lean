import MobilitySweep.Number.Decimal

/-! # JSON

Values and their compact text. Text is escaped so that it can also stand inside markup: angle brackets,
ampersands and the two Unicode line separators are written as escapes, and so is every control
character, which keeps a value on one line.
-/

namespace MobilitySweep

/-- A JSON value. Numbers carry their text, objects their fields in order of writing. -/
inductive Json where
  | null
  | bool (value : Bool)
  | number (text : Bytes)
  | text (value : Bytes)
  | list (items : List Json)
  | object (fields : List (Bytes × Json))
deriving Inhabited

namespace Json

/-- An integer value. -/
def ofInt (n : Int) : Json := .number (Decimal.ofInt n)

/-- A 64-bit integer value. -/
def ofInt64 (n : Int64) : Json := .number (Decimal.ofInt64 n)

/-- A count. -/
def ofNat (n : Nat) : Json := .number (Decimal.ofNat n)

/-- A code unit as an escape. -/
def unitEscape (n : Nat) : Bytes := "\\u" ++ Quoted.hex 4 n

/-- One glyph inside a JSON text. A stray byte is written as the replacement character. -/
def glyph : Glyph → Bytes
  | .stray _ => "\\ufffd"
  | .char c =>
    match c.toNat with
    | 0x22 => "\\\""
    | 0x5C => "\\\\"
    | 0x08 => "\\b"
    | 0x0C => "\\f"
    | 0x0A => "\\n"
    | 0x0D => "\\r"
    | 0x09 => "\\t"
    | n =>
      if n < 0x20 || n = 0x3C || n = 0x3E || n = 0x26 || n = 0x2028 || n = 0x2029 then unitEscape n
      else String.utf8EncodeChar c

/-- A text between quotes. -/
def quote (value : Bytes) : Bytes := "\"" ++ (Utf8.decode value).flatMap glyph ++ "\""

mutual

/-- The compact text of a value. -/
def render : Json → Bytes
  | .null => "null"
  | .bool true => "true"
  | .bool false => "false"
  | .number digits => digits
  | .text value => quote value
  | .list items => "[" ++ renderItems items ++ "]"
  | .object fields => "\x7b" ++ renderFields fields ++ "\x7d"

/-- Items divided by commas. -/
def renderItems : List Json → Bytes
  | [] => []
  | [item] => render item
  | item :: rest => render item ++ "," ++ renderItems rest

/-- Fields divided by commas. -/
def renderFields : List (Bytes × Json) → Bytes
  | [] => []
  | [(name, value)] => quote name ++ ":" ++ render value
  | (name, value) :: rest => quote name ++ ":" ++ render value ++ "," ++ renderFields rest

end

/-! ## Values that can be written

A number is written as its text, which has to be a numeral. That of an infinity is none.
-/

/-- What follows the digits that a text starts with. -/
def afterDigits? : Bytes → Option Bytes
  | [] => none
  | b :: rest => if Bytes.isDigit b then some (rest.dropWhile Bytes.isDigit) else none

/-- What follows a whole number, which has no zero in front of other digits. -/
def afterWhole? : Bytes → Option Bytes
  | [] => none
  | b :: rest => if b = '0' then some rest else afterDigits? (b :: rest)

/-- What follows a fraction, if there is one. -/
def afterFraction? : Bytes → Option Bytes
  | [] => some []
  | b :: rest => if b = '.' then afterDigits? rest else some (b :: rest)

/-- What follows an exponent, if there is one. -/
def afterExponent? : Bytes → Option Bytes
  | [] => some []
  | b :: rest => if b = 'e' || b = 'E' then afterDigits? (Decimal.splitSign rest).2 else some (b :: rest)

/-- A text without a minus sign in front. -/
def withoutMinus : Bytes → Bytes
  | [] => []
  | b :: rest => if b = '-' then rest else b :: rest

/-- Whether a text is a numeral: a whole number, its fraction and its exponent, behind a minus sign perhaps. -/
def isNumeral (text : Bytes) : Bool :=
  (afterWhole? (withoutMinus text) >>= afterFraction? >>= afterExponent?) = some []

mutual

/-- Whether a value can be written: every number in it is a numeral. -/
def isEncodable : Json → Bool
  | .number digits => isNumeral digits
  | .list items => areEncodable items
  | .object fields => haveEncodable fields
  | _ => true

/-- Whether all items can be written. -/
def areEncodable : List Json → Bool
  | [] => true
  | item :: rest => isEncodable item && areEncodable rest

/-- Whether the values of all fields can be written. -/
def haveEncodable : List (Bytes × Json) → Bool
  | [] => true
  | (_, value) :: rest => isEncodable value && haveEncodable rest

end

/-! ## Fields in order -/

/-- An object whose fields are ordered bytewise by name. -/
def sorted (fields : List (Bytes × Json)) : Json :=
  .object (fields.mergeSort fun a b => !Bytes.less b.1 a.1)

mutual

/-- The same value with the fields of every object ordered by name. -/
def ordered : Json → Json
  | .list items => .list (orderedItems items)
  | .object fields => sorted (orderedFields fields)
  | value => value

/-- Every item ordered. -/
def orderedItems : List Json → List Json
  | [] => []
  | item :: rest => ordered item :: orderedItems rest

/-- The value of every field ordered. -/
def orderedFields : List (Bytes × Json) → List (Bytes × Json)
  | [] => []
  | (name, value) :: rest => (name, ordered value) :: orderedFields rest

end

/-- A field that is left out when its text is empty. -/
def optionalText (name value : Bytes) : List (Bytes × Json) :=
  if value.isEmpty then [] else [(name, .text value)]

end Json

end MobilitySweep
