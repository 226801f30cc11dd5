import MobilitySweep.Text.Bytes
import MobilitySweep.Text.Quoted
import MobilitySweep.Yaml.Cursor
import MobilitySweep.Yaml.Resolve

/-! # Scalars as YAML text

A text is written plainly where it reads back as the same text, in single quotes where only its form
is in the way, as a literal block if it has line feeds, and with escapes in double quotes otherwise.
-/

namespace MobilitySweep

namespace Yaml

namespace Printed

/-- The characters that need no escape: not those beyond the basic plane. -/
def isPlainPrintable (c : Char) : Bool :=
  let n := c.toNat
  n = 0x0A || (0x20 ≤ n && n ≤ 0x7E) || (0xA0 ≤ n && n ≤ 0xFFFD && n ≠ 0xFEFF)

/-- What the form of a text allows. -/
structure Form where
  plain : Bool
  singleQuoted : Bool
  block : Bool
deriving DecidableEq, Repr

/-- The characters that may not start a plain scalar. -/
def isIndicator (c : Char) : Bool :=
  "#,[]\x7b\x7d&*!|>'\"%@".toList.contains c || c.toNat = 96

/-- Whether a character makes a text unfit for plain form at its place, given its neighbours. -/
def clashes (first : Bool) (before : Option Char) (c : Char) (next : Option Char) : Bool :=
  let followed := (next.map isBlank).getD true
  if first then isIndicator c || ((c = '?' || c = ':' || c = '-') && followed)
  else (c = ':' && followed) || (c = '#' && (before.map isBlankOrEnd).getD true || c = '#' && (before.map isBreak).getD false)

/-- Whether some character of a text clashes, given the character before it. -/
def anyClash : Option Char → List Char → Bool
  | _, [] => false
  | before, c :: rest => clashes before.isNone before c rest.head? || anyClash (some c) rest

/-- Whether a character of the first class is directly followed by one of the second. -/
def adjacent (p q : Char → Bool) : List Char → Bool
  | a :: b :: rest => (p a && q b) || adjacent p q (b :: rest)
  | _ => false

/-- Analysis of a text. -/
def form (chars : List Char) : Form :=
  if chars.isEmpty then ⟨true, true, false⟩
  else
    let isSpace : Char → Bool := fun c => c = ' '
    let ends : Char → Bool := fun c => isSpace c || isBreak c
    let edge := (chars.head?.map ends).getD false || (chars.getLast?.map ends).getD false
    let trailingSpace := (chars.getLast?.map isSpace).getD false
    let breakSpace := adjacent isBreak isSpace chars
    let spaceBreak := adjacent isSpace isBreak chars
    let tabs := chars.any (· = '\t')
    let special := chars.any fun c => c ≠ '\t' && !isPlainPrintable c
    let documentMark := chars.take 3 = "---".toList || chars.take 3 = "...".toList
    { plain := !(edge || breakSpace || spaceBreak || tabs || special || chars.any isBreak || documentMark ||
        anyClash none chars)
      singleQuoted := !(breakSpace || spaceBreak || tabs || special)
      block := !(trailingSpace || spaceBreak || special) }

/-- Digits of minutes and seconds behind colons, then perhaps a fraction. -/
def isSexagesimalTail : Nat → Bytes → Bool
  | 0, _ => false
  | _, [] => true
  | count + 1, b :: rest =>
    if b = ':' then
      match rest with
      | d :: e :: more =>
        if Bytes.isDigit d && d ≤ 53 && Bytes.isDigit e then isSexagesimalTail count more
        else Bytes.isDigit d && isSexagesimalTail count (e :: more)
      | [d] => Bytes.isDigit d
      | [] => false
    else b = '.' && rest.all fun c => Bytes.isDigit c || c = '_'

/-- Numbers to the base sixty, which older readers know. -/
def isSexagesimal (text : Bytes) : Bool :=
  let body := (Decimal.splitSign text).2
  match body with
  | d :: _ =>
    let tail := body.dropWhile fun c => Bytes.isDigit c || c = '_'
    Bytes.isDigit d && tail.head? = some (':' : UInt8) && isSexagesimalTail (tail.length + 1) tail
  | [] => false

/-- Words that older readers take for truth values. -/
def isOldBool (text : Bytes) : Bool :=
  ["y", "Y", "yes", "Yes", "YES", "on", "On", "ON", "n", "N", "no", "No", "NO", "off", "Off",
    "OFF"].any fun (word : String) => text = word

/-- Whether a text written plainly would read back as a text. -/
def readsAsText (text : Bytes) : Bool :=
  (classify true text).tag = Tag.str && !isSexagesimal text && !isOldBool text

/-- A hexadecimal digit in upper case. -/
def upperHexDigit (n : Nat) : UInt8 := if n < 10 then UInt8.ofNat (48 + n) else UInt8.ofNat (55 + n)

/-- A number in hexadecimal with a fixed number of digits in upper case. -/
def upperHex : Nat → Nat → Bytes
  | 0, _ => []
  | width + 1, n => upperHex width (n / 16) ++ [upperHexDigit (n % 16)]

/-- The letter of a short escape. -/
def shortEscape? (n : Nat) : Option Char :=
  match n with
  | 0x00 => some '0'
  | 0x07 => some 'a'
  | 0x08 => some 'b'
  | 0x09 => some 't'
  | 0x0A => some 'n'
  | 0x0B => some 'v'
  | 0x0C => some 'f'
  | 0x0D => some 'r'
  | 0x1B => some 'e'
  | 0x22 => some '"'
  | 0x5C => some '\\'
  | 0x85 => some 'N'
  | 0xA0 => some '_'
  | 0x2028 => some 'L'
  | 0x2029 => some 'P'
  | _ => none

/-- The escape of a character between double quotes. -/
def escape (c : Char) : Bytes :=
  let n := c.toNat
  match shortEscape? n with
    | some letter => "\\" ++ String.utf8EncodeChar letter
    | none =>
      if n ≤ 0xFF then "\\x" ++ upperHex 2 n
      else if n ≤ 0xFFFF then "\\u" ++ upperHex 4 n
      else "\\U" ++ upperHex 8 n

/-- A character between double quotes. -/
def doubleQuotedChar (c : Char) : Bytes :=
  if isPlainPrintable c && !isBreak c && c ≠ '"' && c ≠ '\\' then String.utf8EncodeChar c else escape c

/-- A text between double quotes; a byte order mark in front has every character escaped. -/
def doubleQuoted (chars : List Char) : Bytes :=
  "\"" ++ chars.flatMap (if chars.head? = some '\ufeff' then escape else doubleQuotedChar) ++ "\""

/-- Some blanks. -/
def blanks (count : Nat) : Bytes := List.replicate count (' ' : UInt8)

/-- The characters between single quotes; a line that a separator starts is indented. -/
def singleQuotedChars (indent : Nat) : Bool → List Char → Bytes
  | _, [] => []
  | broke, c :: rest =>
    if isBreak c then String.utf8EncodeChar c ++ singleQuotedChars indent true rest
    else
      (if broke then blanks indent else []) ++ (if c = '\'' then ("''" : Bytes) else String.utf8EncodeChar c) ++
        singleQuotedChars indent false rest

/-- A text between single quotes. -/
def singleQuoted (indent : Nat) (chars : List Char) : Bytes :=
  "'" ++ singleQuotedChars indent false chars ++ "'"

/-- The lines of a literal block; empty ones have no indentation. -/
def literalChars (indent : Nat) : Bool → List Char → Bytes
  | _, [] => []
  | broke, c :: rest =>
    if isBreak c then String.utf8EncodeChar c ++ literalChars indent true rest
    else (if broke then blanks indent else []) ++ String.utf8EncodeChar c ++ literalChars indent false rest

/-- The indicators of a literal block: its indentation if the text starts with white space, and what
becomes of the line breaks at its end. -/
def literalHints (chars : List Char) : Bytes :=
  let hint : Bytes := match chars with
    | c :: _ => if c = ' ' || isBreak c then "4" else []
    | [] => []
  let chomping : Bytes := match chars.reverse with
    | [] => "-"
    | [c] => if isBreak c then "+" else "-"
    | c :: d :: _ => if !isBreak c then "-" else if isBreak d then "+" else []
  hint ++ chomping

/-- A text as a literal block. A line break at the start of the text also ends the line of the
indicators. -/
def literal (indent : Nat) (chars : List Char) : Bytes :=
  let broken := (chars.head?.map isBreak).getD false
  "|" ++ literalHints chars ++
    (if broken then literalChars indent true chars
      else "\n" ++ blanks indent ++ literalChars indent false chars)

/-- Whether a scalar has ended its last line: only literal blocks end in line breaks. -/
def endsLine (scalar : Bytes) : Bool :=
  ['\n', '\u2028', '\u2029'].any fun c => (String.utf8EncodeChar c).isSuffixOf scalar

/-- A scalar with the line break that it lacks. -/
def line (scalar : Bytes) : Bytes := if endsLine scalar then scalar else scalar ++ "\n"

/-- The base64 text of bytes, broken into lines of 70 characters if it is longer. -/
def base64Lines (text : Bytes) : Bytes :=
  let encoded := Base64.encode text
  if encoded.length < 70 then encoded
  else
    let count := (encoded.length + 69) / 70
    (List.range count).flatMap fun i => (encoded.drop (70 * i)).take 70 ++ "\n"

/-- Characters in the best form that is allowed. -/
def best (indent : Nat) (plainWanted : Bool) (chars : List Char) : Bytes :=
  let allowed := form chars
  if chars.contains '\n' then if allowed.block then literal indent chars else doubleQuoted chars
  else if !plainWanted then doubleQuoted chars
  else if allowed.plain then Utf8.encode chars
  else if allowed.singleQuoted then singleQuoted indent chars
  else doubleQuoted chars

/-- A text as a scalar; its further lines are indented by the given number of blanks. Bytes that are no
characters are written in base64. -/
def text (indent : Nat) (value : Bytes) : Bytes :=
  if Utf8.isValid value then best indent (readsAsText value) (Utf8.characters value)
  else "!!binary " ++ best indent true (Utf8.characters (base64Lines value))

end Printed

end Yaml

end MobilitySweep
