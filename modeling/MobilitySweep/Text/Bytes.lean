/-! # Byte texts

File contents, path names, environment values and process output are byte sequences: nothing
promises that they are valid UTF-8. Every text of the library is therefore a list of bytes, and
string and character literals are read as their UTF-8 encoding.
-/

namespace MobilitySweep

/-- A text as the machine holds it. -/
abbrev Bytes := List UInt8

namespace Bytes

/-- The UTF-8 encoding of a string. -/
def ofString (s : String) : Bytes := s.toList.flatMap String.utf8EncodeChar

end Bytes

instance stringBytes : Coe String Bytes := ⟨Bytes.ofString⟩

instance charByte : Coe Char UInt8 := ⟨Char.toUInt8⟩

namespace Bytes

/-- An ASCII decimal digit. -/
def isDigit (b : UInt8) : Bool := 48 ≤ b && b ≤ 57

/-- The number that decimal digits write. -/
def digitsValue (digits : Bytes) : Nat := digits.foldl (fun n d => n * 10 + (d.toNat - 48)) 0

/-- ASCII upper case letters become lower case; every other byte stays. -/
def lowerByte (b : UInt8) : UInt8 := if 65 ≤ b && b ≤ 90 then b + 32 else b

/-- Whether a pattern occurs somewhere in a text. -/
def occursIn (pattern : Bytes) : Bytes → Bool
  | [] => pattern.isEmpty
  | b :: rest => pattern.isPrefixOf (b :: rest) || occursIn pattern rest

/-- The pieces between separators; a text without separator is one piece. -/
def splitOn (separator : UInt8) (text : Bytes) : List Bytes :=
  let step : Bytes × List Bytes → UInt8 → Bytes × List Bytes := fun state b =>
    if b = separator then ([], state.1.reverse :: state.2) else (b :: state.1, state.2)
  let last := text.foldl step ([], [])
  (last.1.reverse :: last.2).reverse

/-- Pieces joined by a separator text. -/
def joinWith (separator : Bytes) : List Bytes → Bytes
  | [] => []
  | [piece] => piece
  | piece :: rest => piece ++ separator ++ joinWith separator rest

/-- Replacement of a pattern, scanning from the left: an occurrence is replaced and the scan goes on
behind it, so occurrences never overlap and inserted text is never scanned. The count says how many
bytes of the last occurrence are still to be dropped; the result is built in reverse. -/
def replaceScan (pattern replacement : Bytes) : Bytes → Nat → Bytes → Bytes
  | done, _, [] => done.reverse
  | done, dropped + 1, _ :: rest => replaceScan pattern replacement done dropped rest
  | done, 0, b :: rest =>
    if pattern.isPrefixOf (b :: rest) then
      replaceScan pattern replacement (replacement.reverse ++ done) (pattern.length - 1) rest
    else
      replaceScan pattern replacement (b :: done) 0 rest

/-- Every leftmost non-overlapping occurrence of a non-empty pattern replaced. -/
def replaceAll (pattern replacement text : Bytes) : Bytes :=
  replaceScan pattern replacement [] 0 text

/-- Simultaneous replacement of several patterns: at each position the first pattern of the list that
starts there is replaced, and inserted text is never scanned. -/
def replaceEachScan (table : List (Bytes × Bytes)) : Bytes → Nat → Bytes → Bytes
  | done, _, [] => done.reverse
  | done, dropped + 1, _ :: rest => replaceEachScan table done dropped rest
  | done, 0, b :: rest =>
    match table.find? (fun entry => entry.1.isPrefixOf (b :: rest)) with
    | some entry => replaceEachScan table (entry.2.reverse ++ done) (entry.1.length - 1) rest
    | none => replaceEachScan table (b :: done) 0 rest

/-- Several non-empty patterns replaced in one scan. -/
def replaceEach (table : List (Bytes × Bytes)) (text : Bytes) : Bytes :=
  replaceEachScan table [] 0 text

/-- The bytewise order. -/
def less : Bytes → Bytes → Bool
  | [], [] => false
  | [], _ :: _ => true
  | _ :: _, [] => false
  | a :: as, b :: bs => if a < b then true else if b < a then false else less as bs

/-- Text without a given ending, if it has that ending. -/
def dropSuffix? (ending text : Bytes) : Option Bytes :=
  if ending.isSuffixOf text then some (text.take (text.length - ending.length)) else none

/-- A text repeated a number of times. -/
def times (count : Nat) (text : Bytes) : Bytes := (List.replicate count text).flatten

end Bytes

/-! ## Base64

Bytes as printable text with the standard alphabet and padding. Reading passes over line breaks and
accepts nothing else outside the alphabet.
-/

namespace Base64

/-- The character of six bits. -/
def digit (n : Nat) : UInt8 :=
  if n < 26 then UInt8.ofNat (65 + n)
  else if n < 52 then UInt8.ofNat (71 + n)
  else if n < 62 then UInt8.ofNat (n - 4)
  else if n = 62 then '+'
  else '/'

/-- The six bits of a character. -/
def value? (b : UInt8) : Option Nat :=
  let n := b.toNat
  if 65 ≤ n && n ≤ 90 then some (n - 65)
  else if 97 ≤ n && n ≤ 122 then some (n - 71)
  else if 48 ≤ n && n ≤ 57 then some (n + 4)
  else if n = 43 then some 62
  else if n = 47 then some 63
  else none

/-- The text of some bytes. -/
def encode : Bytes → Bytes
  | [] => []
  | [a] => [digit (a.toNat / 4), digit (a.toNat % 4 * 16), '=', '=']
  | [a, b] =>
    [digit (a.toNat / 4), digit (a.toNat % 4 * 16 + b.toNat / 16), digit (b.toNat % 16 * 4), '=']
  | a :: b :: c :: rest =>
    digit (a.toNat / 4) :: digit (a.toNat % 4 * 16 + b.toNat / 16) ::
      digit (b.toNat % 16 * 4 + c.toNat / 64) :: digit (c.toNat % 64) :: encode rest

/-- The bytes of groups of four characters; padding stands only in the last group. -/
def decodeGroups : Bytes → Option Bytes
  | [] => some []
  | [a, b, 61, 61] => do
    let a ← value? a
    let b ← value? b
    some [UInt8.ofNat (a * 4 + b / 16)]
  | [a, b, c, 61] => do
    let a ← value? a
    let b ← value? b
    let c ← value? c
    some [UInt8.ofNat (a * 4 + b / 16), UInt8.ofNat (b % 16 * 16 + c / 4)]
  | a :: b :: c :: d :: rest => do
    let a ← value? a
    let b ← value? b
    let c ← value? c
    let d ← value? d
    let more ← decodeGroups rest
    some (UInt8.ofNat (a * 4 + b / 16) :: UInt8.ofNat (b % 16 * 16 + c / 4) ::
      UInt8.ofNat (c % 4 * 64 + d) :: more)
  | _ => none

/-- The bytes of a text. -/
def decode? (text : Bytes) : Option Bytes :=
  decodeGroups (text.filter fun b => b ≠ ('\n' : UInt8) && b ≠ ('\r' : UInt8))

end Base64

end MobilitySweep
