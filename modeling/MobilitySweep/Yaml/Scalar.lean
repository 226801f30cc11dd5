import MobilitySweep.Text.Utf8
import MobilitySweep.Yaml.Cursor

/-! # Tokens of a YAML stream

The tokens of a stream, each with its place, and how scalars, anchors and tags are read.
-/

namespace MobilitySweep

namespace Yaml

/-- How a scalar was written. -/
inductive ScalarStyle where
  | plain
  | quoted
  | block
deriving DecidableEq, Repr, Inhabited

/-- The kinds of tokens. -/
inductive TokenKind where
  | streamStart
  | streamEnd
  | versionDirective (major minor : Nat)
  | tagDirective (handle pattern : Bytes)
  | documentStart
  | documentEnd
  | blockSequenceStart
  | blockMappingStart
  | blockEnd
  | flowSequenceStart
  | flowSequenceEnd
  | flowMappingStart
  | flowMappingEnd
  | blockEntry
  | flowEntry
  | key
  | value
  | aliased (name : Bytes)
  | anchor (name : Bytes)
  | tag (handle suffix : Bytes)
  | scalar (value : Bytes) (style : ScalarStyle)
deriving DecidableEq, Repr, Inhabited

/-- A token with the places of its start and end. -/
structure Token where
  kind : TokenKind
  start : Mark
  stop : Mark
deriving DecidableEq, Repr, Inhabited

end Yaml

/-! ## Scalars, anchors and tags in a YAML stream

Each function takes the cursor at the first character of its token and returns the token with the
cursor behind it. The count given to a function bounds its steps; the length of the stream is enough.
-/

namespace Yaml

/-- A scalar under construction: its characters in reverse, the blanks and breaks read since the last
of them, and whether a break was among those. -/
structure Draft where
  text : List Char
  blanks : List Char
  leading : List Char
  trailing : List Char
  broken : Bool
deriving Inhabited

namespace Draft

def empty : Draft := ⟨[], [], [], [], false⟩

/-- The pending line breaks folded into the text: a single line feed becomes a blank. -/
def fold (d : Draft) : Draft :=
  let text :=
    if d.leading.head? = some '\n' then
      if d.trailing.isEmpty then ' ' :: d.text else d.trailing ++ d.text
    else d.trailing ++ d.leading ++ d.text
  { d with text := text, leading := [], trailing := [], broken := false }

/-- The pending blanks or breaks put into the text. -/
def settle (d : Draft) : Draft :=
  if d.broken then d.fold else { d with text := d.blanks ++ d.text, blanks := [] }

/-- The next blank or break taken. Blanks behind a break are dropped. -/
def space (d : Draft) (c : Cursor) : Except Halt (Draft × Cursor) := do
  if isBlank c.head then
    return (if d.broken then d else { d with blanks := c.head :: d.blanks }, c.skip)
  else
    let c ← c.need 2
    if d.broken then return ({ d with trailing := c.breakText ++ d.trailing }, c.skipLine)
    else return ({ d with blanks := [], leading := c.breakText, broken := true }, c.skipLine)

/-- The bytes of the text. -/
def bytes (d : Draft) : Bytes := Utf8.encode d.text.reverse

end Draft

/-! ## Plain scalars -/

/-- Whether a plain scalar ends before the next character. -/
def plainEnds (inFlow : Bool) (c : Cursor) : Bool :=
  let x := c.head
  isBlankOrEnd x || (x = ':' && isBlankOrEnd (c.peek 1)) ||
    (inFlow && (x = ',' || x = '?' || x = '[' || x = ']' || x = '\x7b' || x = '\x7d'))

/-- A run of characters of a plain scalar. -/
def plainRun (inFlow : Bool) : Nat → Draft → Cursor → Except Halt (Draft × Cursor)
  | 0, d, c => .ok (d, c)
  | count + 1, d, c =>
    if plainEnds inFlow c then .ok (d, c)
    else do
      let d := d.settle
      plainRun inFlow count { d with text := c.head :: d.text } (← c.skip.need 2)

/-- A run of blanks and breaks; a tab may not stand in the indentation. -/
def plainSpace (indent : Int) (start : Mark) : Nat → Draft → Cursor → Except Halt (Draft × Cursor)
  | 0, d, c => .ok (d, c)
  | count + 1, d, c => do
    let c ← c.need 1
    if isBlank c.head || isBreak c.head then
      if d.broken && (c.mark.column : Int) < indent && c.head = '\t' then
        .error (c.halt start "found a tab character that violates indentation")
      else
        let (d, c) ← d.space c
        plainSpace indent start count d c
    else return (d, c)

/-- The runs of a plain scalar with the end of the last one, up to a document indicator, a comment, a
lesser indentation or an indicator. -/
def plainRuns (inFlow : Bool) (indent : Int) (bound : Nat) (start : Mark) :
    Nat → Draft → Mark → Cursor → Except Halt ((Draft × Mark) × Cursor)
  | 0, d, stop, c => .ok ((d, stop), c)
  | count + 1, d, stop, c => do
    let c ← c.need 4
    if c.atDocumentIndicator || c.head = '#' then return ((d, stop), c)
    else
      let (d, after) ← plainRun inFlow bound d c
      let stop := if c.mark.index < after.mark.index then after.mark else stop
      if !(isBlank after.head || isBreak after.head) then return ((d, stop), after)
      else
        let (d, after) ← plainSpace indent start bound d after
        if !inFlow && (after.mark.column : Int) < indent then return ((d, stop), after)
        else plainRuns inFlow indent bound start count d stop after

/-- A plain scalar; the flag says whether a line break was read behind it. -/
def plainScalar (inFlow : Bool) (indent : Int) (bound : Nat) (c : Cursor) : Except Halt ((Token × Bool) × Cursor) := do
  let ((d, stop), after) ← plainRuns inFlow (indent + 1) bound c.mark bound .empty c.mark c
  return ((⟨.scalar d.bytes .plain, c.mark, stop⟩, d.broken), after)

/-! ## Quoted scalars -/

/-- The character that a one-letter escape stands for. -/
def simpleEscape? (x : Char) : Option Char :=
  match x with
  | '0' => some (Char.ofNat 0)
  | 'a' => some (Char.ofNat 7)
  | 'b' => some (Char.ofNat 8)
  | 't' => some '\t'
  | '\t' => some '\t'
  | 'n' => some '\n'
  | 'v' => some (Char.ofNat 11)
  | 'f' => some (Char.ofNat 12)
  | 'r' => some '\r'
  | 'e' => some (Char.ofNat 27)
  | ' ' => some ' '
  | '"' => some '"'
  | '\'' => some '\''
  | '\\' => some '\\'
  | 'N' => some (Char.ofNat 0x85)
  | '_' => some (Char.ofNat 0xA0)
  | 'L' => some (Char.ofNat 0x2028)
  | 'P' => some (Char.ofNat 0x2029)
  | _ => none

/-- The number of hexadecimal digits behind an escape letter. -/
def escapeLength? (x : Char) : Option Nat :=
  match x with
  | 'x' => some 2
  | 'u' => some 4
  | 'U' => some 8
  | _ => none

/-- The value of a hexadecimal digit. -/
def hexValue? (c : Char) : Option Nat :=
  let n := c.toNat
  if 48 ≤ n && n ≤ 57 then some (n - 48)
  else if 97 ≤ n && n ≤ 102 then some (n - 87)
  else if 65 ≤ n && n ≤ 70 then some (n - 55)
  else none

/-- The value of hexadecimal digits, if all are such. -/
def hexNumber? : Nat → List Char → Option Nat
  | value, [] => some value
  | value, c :: rest =>
    match hexValue? c with
    | some d => hexNumber? (value * 16 + d) rest
    | none => none

/-- An escape sequence in a double quoted scalar. -/
def escape (start : Mark) (c : Cursor) : Except Halt (Char × Cursor) :=
  let x := c.peek 1
  match simpleEscape? x with
  | some y => .ok (y, c.skipMany 2)
  | none =>
    match escapeLength? x with
    | none => .error (c.halt start "found unknown escape character")
    | some length => do
      let code ← (c.skipMany 2).need length
      let digits := (List.range length).map code.peek
      match hexNumber? 0 digits with
      | none => .error (code.halt start "did not find expected hexdecimal number")
      | some value =>
        if (0xD800 ≤ value && value ≤ 0xDFFF) || 0x10FFFF < value then
          .error (code.halt start "found invalid Unicode character escape code")
        else return (Char.ofNat value, code.skipMany length)

/-- A run of characters without blanks in a quoted scalar; the flag says that an escaped line break
ended it. -/
def quotedRun (single : Bool) (start : Mark) : Nat → Draft → Cursor → Except Halt ((Draft × Bool) × Cursor)
  | 0, d, c => .ok ((d, false), c)
  | count + 1, d, c => do
    let x := c.head
    if isBlankOrEnd x then return ((d, false), c)
    else if single && x = '\'' && c.peek 1 = '\'' then
      quotedRun single start count { d with text := '\'' :: d.text } (← (c.skipMany 2).need 2)
    else if x = (if single then '\'' else '"') then return ((d, false), c)
    else if !single && x = '\\' && isBreak (c.peek 1) then
      return ((d, true), (← c.need 3).skip.skipLine)
    else if !single && x = '\\' then
      let (y, after) ← escape start c
      quotedRun single start count { d with text := y :: d.text } (← after.need 2)
    else quotedRun single start count { d with text := x :: d.text } (← c.skip.need 2)

/-- A run of blanks and breaks in a quoted scalar. -/
def quotedSpace : Nat → Draft → Cursor → Except Halt (Draft × Cursor)
  | 0, d, c => .ok (d, c)
  | count + 1, d, c =>
    if isBlank c.head || isBreak c.head then do
      let (d, c) ← d.space c
      quotedSpace count d (← c.need 1)
    else .ok (d, c)

/-- The runs of a quoted scalar up to the closing quote. -/
def quotedRuns (single : Bool) (bound : Nat) (start : Mark) : Nat → Draft → Cursor → Except Halt (Draft × Cursor)
  | 0, d, c => .ok (d, c)
  | count + 1, d, c => do
    let c ← c.need 4
    if c.atDocumentIndicator then
      .error (c.halt start "found unexpected document indicator")
    else if isEnd c.head then
      .error (c.halt start "found unexpected end of stream")
    else
      let ((d, escaped), after) ← quotedRun single start bound d c
      let after ← after.need 1
      if after.head = (if single then '\'' else '"') then return (d, after.skip)
      else
        let (d, after) ← quotedSpace bound { d with broken := escaped } after
        quotedRuns single bound start count { d.settle with blanks := [] } after

/-- A quoted scalar. -/
def quotedScalar (single : Bool) (bound : Nat) (c : Cursor) : Except Halt (Token × Cursor) := do
  let (d, after) ← quotedRuns single bound c.mark bound .empty c.skip
  return (⟨.scalar d.bytes .quoted, c.mark, after.mark⟩, after)

/-! ## Block scalars -/

/-- What becomes of the line breaks at the end of a block scalar. -/
inductive Chomping where
  | strip
  | clip
  | keep
deriving DecidableEq

/-- The chomping indicator, if there is one. -/
def chomping? (x : Char) : Option Chomping :=
  if x = '+' then some .keep else if x = '-' then some .strip else none

/-- The chomping and indentation indicators, in either order. -/
def blockHeader (start : Mark) (c : Cursor) : Except Halt ((Chomping × Nat) × Cursor) := do
  let zero : Cursor → Halt := fun place => place.halt start "found an indentation indicator equal to 0"
  let c ← c.need 1
  match chomping? c.head with
  | some chomping =>
    let c ← c.skip.need 1
    if c.head.isDigit then
      if c.head = '0' then .error (zero c) else return ((chomping, c.head.toNat - 48), c.skip)
    else return ((chomping, 0), c)
  | none =>
    if c.head.isDigit then
      if c.head = '0' then .error (zero c)
      else
        let increment := c.head.toNat - 48
        let c ← c.skip.need 1
        match chomping? c.head with
        | some chomping => return ((chomping, increment), c.skip)
        | none => return ((.clip, increment), c)
    else return ((.clip, 0), c)

/-- Spaces of the indentation passed: all of them while it is unknown. -/
def skipIndent (indent : Nat) : Nat → Cursor → Except Halt Cursor
  | 0, c => .ok c
  | count + 1, c => do
    let c ← c.need 1
    if (indent = 0 || c.mark.column < indent) && c.head = ' ' then skipIndent indent count c.skip else return c

/-- The empty lines before the next line with content: their breaks in reverse, the widest column
reached, and the cursor at that content. -/
def blockBreaks (bound : Nat) (indent : Nat) (start : Mark) :
    Nat → List Char → Nat → Cursor → Except Halt ((List Char × Nat) × Cursor)
  | 0, breaks, widest, c => .ok ((breaks, widest), c)
  | count + 1, breaks, widest, c => do
    let c ← skipIndent indent bound c
    let widest := max widest c.mark.column
    if (indent = 0 || c.mark.column < indent) && c.head = '\t' then
      .error (c.halt start "found a tab character where an indentation space is expected")
    else if isBreak c.head then
      let c ← c.need 2
      blockBreaks bound indent start count (c.breakText ++ breaks) widest c.skipLine
    else return ((breaks, widest), c)

/-- The lines of a block scalar. The draft holds the pending break of the last line and those of the
empty lines behind it; the flag says that the last line started with a blank. -/
def blockLines (literal : Bool) (bound : Nat) (indent : Nat) (start : Mark) :
    Nat → Draft → Bool → Cursor → Except Halt (Draft × Cursor)
  | 0, d, _, c => .ok (d, c)
  | count + 1, d, startedBlank, c =>
    if c.mark.column ≠ indent || isEnd c.head then .ok (d, c)
    else do
      let startsBlank := isBlank c.head
      let folded := !literal && !startedBlank && !startsBlank && d.leading.head? = some '\n'
      let joint : List Char :=
        if folded then (if d.trailing.isEmpty then [' '] else []) else d.leading
      let text := d.trailing ++ joint ++ d.text
      let (line, after) ← Cursor.takeReversed (fun x => !isBreakOrEnd x) bound text c
      let after ← after.need 2
      let leading := after.breakText
      let ((breaks, _), next) ← blockBreaks bound indent start bound [] 0 after.skipLine
      blockLines literal bound indent start count ⟨line, [], leading, breaks, false⟩ startsBlank next

/-- A literal or folded block scalar inside the given indentation. -/
def blockScalar (literal : Bool) (parentIndent : Int) (bound : Nat) (c : Cursor) : Except Halt (Token × Cursor) := do
  let start := c.mark
  let ((chomping, increment), c) ← blockHeader start c.skip
  let c ← c.dropWhile isBlank bound
  let c ← if c.head = '#' then do (← c.skipLineComment start.index bound).dropLine bound else pure c
  if !isBreakOrEnd c.head then
    .error (c.halt start "did not find expected comment or line break")
  else
    let c ← if isBreak c.head then do pure (← c.need 2).skipLine else pure c
    let given := if increment = 0 then 0 else if 0 ≤ parentIndent then parentIndent.toNat + increment else increment
    let ((breaks, widest), c) ← blockBreaks bound given start bound [] 0 c
    let indent := if given = 0 then max (max widest (parentIndent + 1).toNat) 1 else given
    let c ← c.need 1
    let (d, after) ← blockLines literal bound indent start bound ⟨[], [], [], breaks, false⟩ false c
    let text := match chomping with
      | .strip => d.text
      | .clip => d.leading ++ d.text
      | .keep => d.trailing ++ d.leading ++ d.text
    return (⟨.scalar (Utf8.encode text.reverse) .block, start, after.mark⟩, after)

/-! ## Anchors, aliases and tags -/

/-- The characters that may follow a name besides blanks. -/
def endsName (x : Char) : Bool :=
  isBlankOrEnd x || x = '?' || x = ':' || x = ',' || x = ']' || x = '\x7d' || x = '%' || x = '@' ||
    x.toNat = 96

/-- An anchor or an alias. -/
def anchorOrAlias (isAlias : Bool) (bound : Nat) (c : Cursor) : Except Halt (Token × Cursor) := do
  let (name, after) ← c.skip.takeWhile isWordChar bound
  if name.isEmpty || !endsName after.head then
    .error (after.halt c.mark "did not find expected alphabetic or numeric character")
  else
    let bytes := Utf8.encode name
    return (⟨if isAlias then .aliased bytes else .anchor bytes, c.mark, after.mark⟩, after)

/-- The characters of a tag, percent signs apart. -/
def isTagChar (x : Char) : Bool :=
  isWordChar x || ";/?:@&=+$,.!~*'()[]".toList.contains x

/-- The octets of one percent-encoded character; the first one says how many follow. -/
def tagEscape (start : Mark) : Nat → Option Nat → Bytes → Cursor → Except Halt (Bytes × Cursor)
  | 0, _, done, c => .ok (done, c)
  | count + 1, expected, done, c =>
    match expected with
    | some 0 => .ok (done, c)
    | _ => do
      let c ← c.need 3
      match c.head == '%', hexValue? (c.peek 1), hexValue? (c.peek 2) with
      | true, some high, some low =>
        let octet := UInt8.ofNat (high * 16 + low)
        match expected with
        | none =>
          let width := Source.octetWidth octet
          if width = 0 then .error (c.halt start "found an incorrect leading UTF-8 octet")
          else tagEscape start count (some (width - 1)) (octet :: done) (c.skipMany 3)
        | some more =>
          if octet.toNat / 64 = 2 then tagEscape start count (some (more - 1)) (octet :: done) (c.skipMany 3)
          else .error (c.halt start "found an incorrect trailing UTF-8 octet")
      | _, _, _ => .error (c.halt start "did not find URI escaped octet")

/-- The characters of a tag, in reverse behind those given. -/
def tagChars (start : Mark) : Nat → Bytes → Cursor → Except Halt (Bytes × Cursor)
  | 0, done, c => .ok (done, c)
  | count + 1, done, c => do
    let c ← c.need 1
    if c.head = '%' then
      let (done, after) ← tagEscape start 5 none done c
      tagChars start count done after
    else if isTagChar c.head then tagChars start count (c.head.toUInt8 :: done) c.skip
    else return (done, c)

/-- The text of a tag behind some characters already read. -/
def tagText (start : Mark) (given : Bytes) (bound : Nat) (c : Cursor) : Except Halt (Bytes × Cursor) := do
  let (text, after) ← tagChars start bound (given.drop 1).reverse c
  if given.isEmpty && after.mark.index = c.mark.index then
    .error (after.halt start "did not find expected tag URI")
  else return (text.reverse, after)

/-- A tag handle: an exclamation mark, name characters, and perhaps a second mark, which a directive
requires. -/
def tagHandle (directive : Bool) (start : Mark) (bound : Nat) (c : Cursor) : Except Halt (Bytes × Cursor) := do
  let c ← c.need 1
  if c.head ≠ '!' then .error (c.halt start "did not find expected '!'")
  else
    let (name, after) ← c.skip.takeWhile isWordChar bound
    let handle : Bytes := Utf8.encode ('!' :: name)
    if after.head = '!' then return (handle ++ "!", after.skip)
    else if directive && !name.isEmpty then .error (after.halt start "did not find expected '!'")
    else return (handle, after)

/-- A tag: verbatim, with a handle, or local. -/
def tagToken (bound : Nat) (c : Cursor) : Except Halt (Token × Cursor) := do
  let start := c.mark
  let c ← c.need 2
  let ((handle, suffix), after) ←
    if c.peek 1 = '<' then do
      let (suffix, after) ← tagText start [] bound (c.skipMany 2)
      if after.head ≠ '>' then
        Except.error (after.halt start "did not find the expected '>'")
      else pure ((([] : Bytes), suffix), after.skip)
    else do
      let (handle, after) ← tagHandle false start bound c
      if 1 < handle.length && handle.getLast? = some ('!' : UInt8) then
        let (suffix, after) ← tagText start [] bound after
        pure ((handle, suffix), after)
      else
        let (suffix, after) ← tagText start handle bound after
        if suffix.isEmpty then pure ((([] : Bytes), ("!" : Bytes)), after)
        else pure ((("!" : Bytes), suffix), after)
  let after ← after.need 1
  if !isBlankOrEnd after.head then
    .error (after.halt start "did not find expected whitespace or line break")
  else return (⟨.tag handle suffix, start, after.mark⟩, after)

end Yaml

end MobilitySweep
