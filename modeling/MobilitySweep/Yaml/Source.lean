import MobilitySweep.Text.Bytes

/-! # The characters of a YAML stream

A stream is read as UTF-8, or as UTF-16 if it starts with a byte order mark that says so. Characters
outside the YAML set and malformed sequences make it unreadable. Bytes are taken in blocks, so a
malformed block is noticed when its first character is asked for: what precedes it may already have
been judged.
-/

namespace MobilitySweep

namespace Yaml

/-- Why a stream cannot be read. -/
inductive Unreadable where
  | leadingOctet
  | incompleteOctets
  | trailingOctet
  | overlong
  | character
  | incompleteUnit
  | incompletePair
  | unexpectedLow
  | expectedLow
  | control
deriving DecidableEq, Repr

/-- The wording of a refusal. -/
def Unreadable.message : Unreadable → Bytes
  | leadingOctet => "invalid leading UTF-8 octet"
  | incompleteOctets => "incomplete UTF-8 octet sequence"
  | trailingOctet => "invalid trailing UTF-8 octet"
  | overlong => "invalid length of a UTF-8 sequence"
  | character => "invalid Unicode character"
  | incompleteUnit => "incomplete UTF-16 character"
  | incompletePair => "incomplete UTF-16 surrogate pair"
  | unexpectedLow => "unexpected low surrogate area"
  | expectedLow => "expected low surrogate area"
  | control => "control characters are not allowed"

/-- The encodings of a stream. -/
inductive Encoding where
  | utf8
  | utf16 (bigEndian : Bool)
deriving DecidableEq, Repr

/-- The characters of a stream as far as they can be read, the numbers of characters in its readable
blocks, and what ends them early: a fault and the number of characters before it in its block. -/
structure Source where
  chars : List Char
  blocks : List Nat
  remnant : Nat
  fault : Option Unreadable
deriving Repr

namespace Source

/-- What stands at the start of some bytes: a character with its width, the start of a character that
is cut off, or a fault. -/
inductive Unit where
  | char (code : Nat) (width : Nat)
  | cut (fault : Unreadable)
  | bad (fault : Unreadable)

/-- The allowed characters. -/
def isAllowed (n : Nat) : Bool :=
  n == 0x09 || n == 0x0A || n == 0x0D || (0x20 ≤ n && n ≤ 0x7E) || n == 0x85 ||
    (0xA0 ≤ n && n ≤ 0xD7FF) || (0xE000 ≤ n && n ≤ 0xFFFD) || (0x10000 ≤ n && n ≤ 0x10FFFF)

/-- The width that a leading octet announces. -/
def octetWidth (b : UInt8) : Nat :=
  let n := b.toNat
  if n < 0x80 then 1
  else if n / 32 = 6 then 2
  else if n / 16 = 14 then 3
  else if n / 8 = 30 then 4
  else 0

/-- The trailing octets added to the value of the leading one. -/
def trailing : Nat → Bytes → Option Nat
  | value, [] => some value
  | value, b :: rest => if b.toNat / 64 = 2 then trailing (value * 64 + b.toNat % 64) rest else none

/-- A character in UTF-8. -/
def unit8 (bytes : Bytes) : Unit :=
  match bytes with
  | [] => .cut .incompleteOctets
  | b :: rest =>
    let width := octetWidth b
    if width = 0 then .bad .leadingOctet
    else if (b :: rest.take 3).length < width then .cut .incompleteOctets
    else
      let lead := if width = 1 then b.toNat else b.toNat % Nat.pow 2 (7 - width)
      match trailing lead (rest.take (width - 1)) with
      | none => .bad .trailingOctet
      | some value =>
        let least := if width = 2 then 0x80 else if width = 3 then 0x800 else if width = 4 then 0x10000 else 0
        if value < least then .bad .overlong
        else if (0xD800 ≤ value && value ≤ 0xDFFF) || 0x10FFFF < value then .bad .character
        else if isAllowed value then .char value width
        else .bad .control

/-- A character in UTF-16. -/
def unit16 (bigEndian : Bool) (bytes : Bytes) : Unit :=
  let code : UInt8 → UInt8 → Nat := fun a b =>
    if bigEndian then a.toNat * 256 + b.toNat else b.toNat * 256 + a.toNat
  let checked : Nat → Nat → Unit := fun value width =>
    if isAllowed value then .char value width else .bad .control
  match bytes with
  | a :: b :: rest =>
    let value := code a b
    if value / 1024 = 55 then .bad .unexpectedLow
    else if value / 1024 = 54 then
      match rest with
      | c :: d :: _ =>
        let low := code c d
        if low / 1024 = 55 then checked (0x10000 + value % 1024 * 1024 + low % 1024) 4
        else .bad .expectedLow
      | _ => .cut .incompletePair
    else checked value 2
  | _ => .cut .incompleteUnit

/-- The character at the start of some bytes. -/
def unit (encoding : Encoding) (bytes : Bytes) : Unit :=
  match encoding with
  | .utf8 => unit8 bytes
  | .utf16 bigEndian => unit16 bigEndian bytes

/-- How many bytes the character at the start of some bytes takes in a block before it can be judged. -/
def extent (encoding : Encoding) (bytes : Bytes) : Nat :=
  match encoding with
  | .utf8 => max 1 ((bytes.head?.map octetWidth).getD 1)
  | .utf16 bigEndian =>
    match bytes with
    | a :: b :: _ =>
      let high := if bigEndian then a else b
      if high.toNat / 4 = 54 then 4 else 2
    | _ => 2

/-- How many bytes are taken at once. -/
def blockSize : Nat := 512

/-- A block added to the sizes of finished ones, unless it is empty. -/
def closed (sizes : List Nat) (current : Nat) : List Nat := if current = 0 then sizes else current :: sizes

/-- Reading with the characters and the block sizes so far, both in reverse, the number of characters
in the current block, the number of bytes left in it, and the number of bytes to pass over. A character
that is cut by the end of a block starts the next block; one that is cut by the end of the stream is
noticed behind the last block. -/
def readScan (encoding : Encoding) :
    List Char → List Nat → Nat → Nat → Nat → Bytes → Source
  | chars, sizes, current, _, _, [] => ⟨chars.reverse, (closed sizes current).reverse, 0, none⟩
  | chars, sizes, current, room, passed + 1, _ :: rest =>
    readScan encoding chars sizes current room passed rest
  | chars, sizes, current, room, 0, b :: rest =>
    let isCut := room < extent encoding (b :: rest)
    let sizes := if isCut then closed sizes current else sizes
    let current := if isCut then 0 else current
    let room := if isCut then blockSize else room
    match unit encoding (b :: rest) with
    | .bad fault => ⟨chars.reverse, sizes.reverse, current, some fault⟩
    | .cut fault => ⟨chars.reverse, (closed sizes current).reverse, 0, some fault⟩
    | .char code width =>
      readScan encoding (Char.ofNat code :: chars) sizes (current + 1) (room - width) (width - 1) rest

/-- The characters of a stream; a byte order mark at the start is not one of them. -/
def ofBytes (bytes : Bytes) : Source :=
  match bytes with
  | 0xFF :: 0xFE :: rest => readScan (.utf16 false) [] [] 0 (blockSize - 2) 0 rest
  | 0xFE :: 0xFF :: rest => readScan (.utf16 true) [] [] 0 (blockSize - 2) 0 rest
  | 0xEF :: 0xBB :: 0xBF :: rest => readScan .utf8 [] [] 0 (blockSize - 3) 0 rest
  | _ => readScan .utf8 [] [] 0 blockSize 0 bytes

end Source

end Yaml

end MobilitySweep
