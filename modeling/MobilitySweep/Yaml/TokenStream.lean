import MobilitySweep.Yaml.Scalar

/-! # The token stream

Tokens are produced on demand and a little ahead of need: a reader of the stream sees a token only
when two more are known, or when it is settled whether the token starts a mapping key. Flaws ahead are
therefore met early.
-/

namespace MobilitySweep

namespace Yaml

/-- A place where a mapping key without indicator may have started. -/
structure SimpleKey where
  possible : Bool
  required : Bool
  token : Nat
  mark : Mark
deriving Repr, Inhabited

/-- The state of scanning. Indentation is -1 outside every block; the simple keys are those of the
enclosing flow levels, innermost first; the bound is a number of steps that is always enough. -/
structure TokenStream where
  cursor : Cursor
  started : Bool
  queue : List Token
  passed : Nat
  indent : Int
  indents : List Int
  flowLevel : Nat
  keyAllowed : Bool
  keys : List SimpleKey
  awaited : List (Nat × Nat)
  bound : Nat
deriving Inhabited

/-- Why scanning came to a halt, and the stream from where it can go on. -/
structure Stuck where
  flaw : Flaw
  stream : TokenStream

namespace TokenStream

/-- The stream of some bytes; no bytes count as one empty line. -/
def ofBytes (bytes : Bytes) : TokenStream :=
  let source := Source.ofBytes (if bytes.isEmpty then [10] else bytes)
  ⟨Cursor.ofSource source, false, [], 0, -1, [], 0, false, [], [], source.chars.length + 2⟩

/-- How deep flow collections and blocks may be nested. -/
def depthLimit : Nat := 10000

/-- Scanning stuck at the cursor. -/
def stuck (s : TokenStream) (context : Mark) (problem : Bytes) : Stuck :=
  ⟨.scanning context s.cursor.mark problem, s⟩

/-- What reading from the cursor yields, or the stream at the place where it came to a halt. -/
def during {α : Type} (s : TokenStream) (result : Except Halt α) : Except Stuck α :=
  match result with
  | .ok a => .ok a
  | .error halt => .error ⟨halt.flaw, { s with cursor := halt.cursor }⟩

/-- The number of the next token to be queued. -/
def nextNumber (s : TokenStream) : Nat := s.passed + s.queue.length

/-- A token at the end of the queue. -/
def append (s : TokenStream) (t : Token) : TokenStream := { s with queue := s.queue ++ [t] }

/-- A token before the one with the given number, or at the end of the queue where that one has been
passed already. -/
def insertBefore (s : TokenStream) (number : Nat) (t : Token) : TokenStream :=
  if number < s.passed then s.append t
  else
    let position := number - s.passed
    { s with queue := s.queue.take position ++ t :: s.queue.drop position }

/-! ## Simple keys -/

/-- Awaited keys without the one of a number. Later keys come first and have larger numbers. -/
def withoutKey (number : Nat) : List (Nat × Nat) → List (Nat × Nat)
  | [] => []
  | key :: rest =>
    if number < key.1 then key :: withoutKey number rest
    else if key.1 = number then rest
    else key :: rest

/-- A key that is not awaited any more. -/
def unawait (s : TokenStream) (number : Nat) : TokenStream :=
  { s with awaited := withoutKey number s.awaited }

/-- Whether a simple key is still open: it ends with its line, and after 1024 characters. A required
key that has ended is a flaw. -/
def keyOpen (s : TokenStream) (key : SimpleKey) : Except Stuck Bool :=
  if !key.possible then .ok false
  else if key.mark.line < s.cursor.mark.line || key.mark.index + 1024 < s.cursor.mark.index then
    if key.required then .error (s.stuck key.mark "could not find expected ':'") else .ok false
  else .ok true

/-- The simple key of the current level given up. -/
def removeKey (s : TokenStream) : Except Stuck TokenStream :=
  match s.keys with
  | key :: rest =>
    if key.possible then
      if key.required then .error (s.stuck key.mark "could not find expected ':'")
      else .ok ({ s with keys := { key with possible := false } :: rest }.unawait key.token)
    else .ok s
  | [] => .ok s

/-- A simple key may start at the cursor. It is required when the cursor stands at the indentation of
a block. -/
def saveKey (s : TokenStream) : Except Stuck TokenStream :=
  if s.keyAllowed then do
    let key : SimpleKey :=
      ⟨true, s.flowLevel = 0 && s.indent = s.cursor.mark.column, s.nextNumber, s.cursor.mark⟩
    let s ← s.removeKey
    return { s with
      keys := key :: s.keys.drop 1
      awaited := (key.token, s.flowLevel) :: withoutKey key.token s.awaited }
  else .ok s

/-! ## Nesting -/

/-- One flow level deeper. -/
def openFlow (s : TokenStream) : Except Stuck TokenStream :=
  let key : SimpleKey := ⟨false, false, s.nextNumber, s.cursor.mark⟩
  let deeper := { s with keys := key :: s.keys, flowLevel := s.flowLevel + 1 }
  if depthLimit < deeper.flowLevel then .error (deeper.stuck key.mark "exceeded max depth of 10000")
  else .ok deeper

/-- One flow level up. -/
def closeFlow (s : TokenStream) : TokenStream :=
  if s.flowLevel = 0 then s
  else
    match s.keys with
    | key :: rest => { s with flowLevel := s.flowLevel - 1, keys := rest }.unawait key.token
    | [] => { s with flowLevel := s.flowLevel - 1 }

/-- A block opened at a column beyond the indentation, its start token before the token of the given
number or at the end of the queue. Flow collections have no blocks. -/
def openBlock (s : TokenStream) (column : Nat) (number : Option Nat) (kind : TokenKind) (mark : Mark) :
    Except Stuck TokenStream :=
  if s.flowLevel = 0 && s.indent < column then
    let deeper := { s with indents := s.indent :: s.indents, indent := column }
    let token : Token := ⟨kind, mark, mark⟩
    if depthLimit < deeper.indents.length then
      .error (deeper.stuck ((s.keys.head?.map SimpleKey.mark).getD s.cursor.mark) "exceeded max depth of 10000")
    else match number with
      | some n => .ok (deeper.insertBefore n token)
      | none => .ok (deeper.append token)
  else .ok s

/-- Blocks beyond a column closed, at a mark or at the comments that follow it; the indentations left
bound the steps. -/
def closeBlocksTo (column : Int) : Mark → List Int → TokenStream → TokenStream
  | mark, outer :: rest, s =>
    if column < s.indent then
      let mark := Comment.blockStop s.indent mark.index mark s.cursor.comments.reverse
      closeBlocksTo column mark rest
        { s.append ⟨.blockEnd, mark, mark⟩ with indent := outer, indents := rest }
    else s
  | _, [], s => s

/-- Blocks beyond a column closed, outside flow collections. They end just before the mark. -/
def closeBlocks (s : TokenStream) (column : Int) (mark : Mark) : TokenStream :=
  if s.flowLevel = 0 then closeBlocksTo column { mark with index := mark.index - 1 } s.indents s else s

/-! ## Tokens -/

/-- The token of some characters passed at the cursor. -/
def take (s : TokenStream) (count : Nat) (kind : TokenKind) : TokenStream :=
  let after := s.cursor.skipMany count
  { s with cursor := after }.append ⟨kind, s.cursor.mark, after.mark⟩

/-- A comment behind what precedes a nested sequence belongs to the content of its first entry. If it
stands on the line above, the token at the cursor takes it. -/
def raiseComment (s : TokenStream) (c : Cursor) : Cursor :=
  match s.queue.reverse, c.comments.reverse with
  | ⟨.blockEntry, _, _⟩ :: ⟨.blockSequenceStart, _, _⟩ :: _, comment :: others =>
    if comment.kind = .line && !isBreak c.head then
      let target := if comment.start.line + 1 = c.mark.line then c.mark.index else comment.target
      { c with comments := (({ comment with kind := .head, target := target } : Comment) :: others).reverse }
    else c
  | _, _ => c

/-- The last token, or the one before it if that is a separator of entries. -/
def lastContent? (s : TokenStream) : Option Token :=
  match s.queue.reverse with
  | ⟨.flowEntry, _, _⟩ :: t :: _ => some t
  | t :: _ => some t
  | [] => none

/-- The comments at the cursor passed, after a search that began at a mark. -/
def skipComments (s : TokenStream) (searched : Mark) (c : Cursor) : Except Stuck Cursor :=
  let last := s.lastContent?.getD ⟨.streamStart, c.mark, c.mark⟩
  s.during
    (c.skipComments s.indent.toNat (0 < s.flowLevel) (last.kind = .value) searched last.start.index s.bound)

/-- White space and comments passed, from a mark on. Tabs count as white space except where a key may
start in a block. A line break outside flow collections allows a key. Where a byte order mark is the
first character at hand, the first character of a line is passed over, whatever it is. -/
def skipBlank (searched : Mark) : Nat → TokenStream → Except Stuck TokenStream
  | 0, s => .ok s
  | count + 1, s => do
    let c ← s.during (s.cursor.need 1)
    let c := if c.mark.column = 0 && c.window.marked then c.skip else c
    let isSpace : Char → Bool := fun x => x = ' ' || (x = '\t' && (0 < s.flowLevel || !s.keyAllowed))
    let c ← s.during (c.dropWhile isSpace s.bound)
    let c := s.raiseComment c
    let c ← if c.head = '#' then s.skipComments searched c else pure c
    if isBreak c.head then
      let c ← s.during (c.need 2)
      skipBlank searched count
        { s with cursor := c.skipLine, keyAllowed := if s.flowLevel = 0 then true else s.keyAllowed }
    else return { s with cursor := c }

/-- The end of the stream, on a line of its own. -/
def streamEnd (s : TokenStream) : Except Stuck TokenStream := do
  let mark := s.cursor.mark
  let mark : Mark := if mark.column = 0 then mark else ⟨mark.index, mark.line + 1, 0⟩
  let s := { s with cursor := { s.cursor with mark := mark } }
  let s ← (s.closeBlocks (-1) mark).removeKey
  return { s with keyAllowed := false }.append ⟨.streamEnd, mark, mark⟩

/-- The start or end of a document. -/
def documentMark (s : TokenStream) (kind : TokenKind) : Except Stuck TokenStream := do
  let s ← (s.closeBlocks (-1) s.cursor.mark).removeKey
  return { s with keyAllowed := false }.take 3 kind

/-- A number of a version, of at most two digits. -/
def versionNumber (start : Mark) (c : Cursor) : Except Halt (Nat × Cursor) := do
  let (digits, after) ← c.takeWhile Char.isDigit 2
  let after ← after.need 1
  if digits.isEmpty then .error (after.halt start "did not find expected version number")
  else if after.head.isDigit then
    .error (after.halt start "found extremely long version number")
  else return (digits.foldl (fun n d => n * 10 + (d.toNat - 48)) 0, after)

/-- The version of a version directive. -/
def version (start : Mark) (bound : Nat) (c : Cursor) : Except Halt (TokenKind × Cursor) := do
  let (major, c) ← versionNumber start (← c.dropWhile isBlank bound)
  if c.head ≠ '.' then
    .error (c.halt start "did not find expected digit or '.' character")
  else
    let (minor, c) ← versionNumber start c.skip
    return (.versionDirective major minor, c)

/-- The handle and text of a tag directive. -/
def tagDefinition (start : Mark) (bound : Nat) (c : Cursor) : Except Halt (TokenKind × Cursor) := do
  let (handle, c) ← tagHandle true start bound (← c.dropWhile isBlank bound)
  let c ← c.need 1
  if !isBlank c.head then .error (c.halt start "did not find expected whitespace")
  else
    let (text, c) ← tagText start [] bound (← c.dropWhile isBlank bound)
    let c ← c.need 1
    if !isBlankOrEnd c.head then
      .error (c.halt start "did not find expected whitespace or line break")
    else return (.tagDirective handle text, c)

/-- A directive with the rest of its line. -/
def directive (bound : Nat) (c : Cursor) : Except Halt (Token × Cursor) := do
  let start := c.mark
  let (name, after) ← c.skip.takeWhile isWordChar bound
  if name.isEmpty then .error (after.halt start "could not find expected directive name")
  else if !isBlankOrEnd after.head then
    .error (after.halt start "found unexpected non-alphabetical character")
  else
    let (kind, after) ←
      if name = "YAML".toList then version start bound after
      else if name = "TAG".toList then tagDefinition start bound after
      else .error (after.halt start "found unknown directive name")
    let stop := after.mark
    let after ← after.dropWhile isBlank bound
    let after ← if after.head = '#' then after.dropLine bound else pure after
    if !isBreakOrEnd after.head then
      .error (after.halt start "did not find expected comment or line break")
    else if isBreak after.head then return (⟨kind, start, stop⟩, (← after.need 2).skipLine)
    else return (⟨kind, start, stop⟩, after)

/-- A scanned token queued. -/
def queued (s : TokenStream) (result : Except Halt (Token × Cursor)) : Except Stuck TokenStream := do
  let (token, after) ← s.during result
  return { s with cursor := after }.append token

/-- A flow collection opened. -/
def openCollection (s : TokenStream) (kind : TokenKind) : Except Stuck TokenStream := do
  let s ← s.saveKey
  let s ← s.openFlow
  return { s with keyAllowed := true }.take 1 kind

/-- A flow collection closed. -/
def closeCollection (s : TokenStream) (kind : TokenKind) : Except Stuck TokenStream := do
  let s ← s.removeKey
  return { s.closeFlow with keyAllowed := false }.take 1 kind

/-- An entry of a block sequence. -/
def blockEntry (s : TokenStream) : Except Stuck TokenStream := do
  let mark := s.cursor.mark
  if s.flowLevel = 0 && !s.keyAllowed then
    .error (s.stuck mark "block sequence entries are not allowed in this context")
  else
    let s ← s.openBlock mark.column none .blockSequenceStart mark
    let s ← s.removeKey
    return { s with keyAllowed := true }.take 1 .blockEntry

/-- A key with its indicator. -/
def explicitKey (s : TokenStream) : Except Stuck TokenStream := do
  let mark := s.cursor.mark
  if s.flowLevel = 0 && !s.keyAllowed then
    .error (s.stuck mark "mapping keys are not allowed in this context")
  else
    let s ← s.openBlock mark.column none .blockMappingStart mark
    let s ← s.removeKey
    return { s with keyAllowed := s.flowLevel = 0 }.take 1 .key

/-- A value indicator: it belongs to the simple key that is open, or else to a key with indicator. -/
def valueIndicator (s : TokenStream) : Except Stuck TokenStream := do
  let key := s.keys.head?.getD default
  if ← s.keyOpen key then
    let s := s.insertBefore key.token ⟨.key, key.mark, key.mark⟩
    let s ← s.openBlock key.mark.column (some key.token) .blockMappingStart key.mark
    let s := { s with keys := { key with possible := false } :: s.keys.drop 1 }.unawait key.token
    return { s with keyAllowed := false }.take 1 .value
  else
    let mark := s.cursor.mark
    if s.flowLevel = 0 && !s.keyAllowed then
      .error (s.stuck mark "mapping values are not allowed in this context")
    else
      let s ← s.openBlock mark.column none .blockMappingStart mark
      return { s with keyAllowed := s.flowLevel = 0 }.take 1 .value

/-- A plain scalar queued. A line break behind it allows a key. -/
def plain (s : TokenStream) : Except Stuck TokenStream := do
  let s := { ← s.saveKey with keyAllowed := false }
  let ((token, broken), after) ← s.during (plainScalar (0 < s.flowLevel) s.indent s.bound s.cursor)
  return { s with cursor := after, keyAllowed := broken }.append token

/-- A token that may be a simple key queued. -/
def keyLike (s : TokenStream) (scan : Cursor → Except Halt (Token × Cursor)) : Except Stuck TokenStream := do
  let s ← s.saveKey
  { s with keyAllowed := false }.queued (scan s.cursor)

/-- Whether a plain scalar can start at the cursor. -/
def plainStarts (s : TokenStream) : Bool :=
  let c := s.cursor
  let x := c.head
  !(isBlankOrEnd x || "-?:,[]\x7b\x7d#&*!|>'\"%@".toList.contains x || x.toNat = 96) ||
    (x = '-' && !isBlank (c.peek 1)) ||
    (s.flowLevel = 0 && (x = '?' || x = ':') && !isBlankOrEnd (c.peek 1))

/-- The token at the cursor queued, document marks and directives apart. -/
def content (s : TokenStream) : Except Stuck TokenStream :=
  let c := s.cursor
  let inFlow := 0 < s.flowLevel
  match c.head with
  | '[' => s.openCollection .flowSequenceStart
  | '\x7b' => s.openCollection .flowMappingStart
  | ']' => s.closeCollection .flowSequenceEnd
  | '\x7d' => s.closeCollection .flowMappingEnd
  | ',' => do
    let s ← s.removeKey
    return { s with keyAllowed := true }.take 1 .flowEntry
  | x =>
    if x = '-' && isBlankOrEnd (c.peek 1) then s.blockEntry
    else if x = '?' && (inFlow || isBlankOrEnd (c.peek 1)) then s.explicitKey
    else if x = ':' && (inFlow || isBlankOrEnd (c.peek 1)) then s.valueIndicator
    else if x = '*' then s.keyLike (anchorOrAlias true s.bound)
    else if x = '&' then s.keyLike (anchorOrAlias false s.bound)
    else if x = '!' then s.keyLike (tagToken s.bound)
    else if (x = '|' || x = '>') && !inFlow then do
      let s ← s.removeKey
      { s with keyAllowed := true }.queued (blockScalar (x = '|') s.indent s.bound s.cursor)
    else if x = '\'' then s.keyLike (quotedScalar true s.bound)
    else if x = '"' then s.keyLike (quotedScalar false s.bound)
    else if s.plainStarts then s.plain
    else .error (s.stuck c.mark "found character that cannot start any token")

/-- A comment behind the last token passed, which a token at the given index takes. Behind an entry
indicator it belongs to what follows. -/
def passComment (s : TokenStream) (target : Nat) : Except Stuck TokenStream := do
  match s.queue.getLast? with
  | some ⟨.blockEntry, _, _⟩ => return s
  | _ => return { s with cursor := ← s.during (s.cursor.skipLineComment target s.bound) }

/-- The index of the token that a comment behind the next token belongs to: behind a value indicator in
a block and behind a separator in a flow collection, the token before it. -/
def commentTarget (s : TokenStream) : Nat :=
  let c := s.cursor
  if c.head = (if s.flowLevel = 0 then ':' else ',') then
    (s.queue.getLast?.map fun t => t.start.index).getD c.mark.index
  else c.mark.index

/-- The token at the cursor, which stands behind all white space. -/
def fetchHere (s : TokenStream) : Except Stuck TokenStream := do
  let c := s.cursor
  if isEnd c.head then s.streamEnd
  else if c.mark.column = 0 && c.head = '%' then
    let s ← (s.closeBlocks (-1) c.mark).removeKey
    { s with keyAllowed := false }.queued (directive s.bound s.cursor)
  else if c.atIndicator '-' then s.documentMark .documentStart
  else if c.atIndicator '.' then s.documentMark .documentEnd
  else (← s.content).passComment s.commentTarget

/-- The next token or tokens queued. -/
def fetch (s : TokenStream) : Except Stuck TokenStream := do
  let s := { s with cursor := ← s.during (s.cursor.need 1) }
  if !s.started then
    return { s with
      started := true, keyAllowed := true, keys := [⟨false, false, 0, ⟨0, 0, 0⟩⟩],
      queue := [⟨.streamStart, s.cursor.mark, s.cursor.mark⟩] }
  else
    let before := s.cursor.mark
    let s ← s.skipBlank before s.bound
    let s := s.closeBlocks s.cursor.mark.column before
    { s with cursor := ← s.during (s.cursor.need 4) }.fetchHere

/-- Whether more tokens are needed before the first one can be shown. -/
def wanting (s : TokenStream) : Except Stuck Bool :=
  if s.queue.length < 3 then .ok true
  else match s.awaited.find? (·.1 = s.passed) with
    | none => .ok false
    | some (_, level) =>
      match s.keys[s.flowLevel - level]? with
      | none => .ok false
      | some key => s.keyOpen key

/-- Tokens queued until the first one can be shown; every step moves on in the stream or nears its
end. -/
def fill : Nat → TokenStream → Except Stuck TokenStream
  | 0, s => .ok s
  | count + 1, s => do
    if ← s.wanting then fill count (← s.fetch) else return s

/-- The first token, and the stream in which it is at hand. -/
def head (s : TokenStream) : Except Stuck (Token × TokenStream) := do
  let s ← fill (s.bound + 8) s
  return (s.queue.head?.getD ⟨.streamEnd, s.cursor.mark, s.cursor.mark⟩, s)

/-- What was found in looking for a comment where the stream cannot be read. -/
def spoiled? (s : TokenStream) : Option Unreadable :=
  if s.cursor.window.spoiled then s.cursor.window.fault else none

/-- The stream without what was found there. -/
def unspoiled (s : TokenStream) : TokenStream :=
  { s with cursor := { s.cursor with window := { s.cursor.window with spoiled := false } } }

/-- The stream behind its first token. -/
def next (s : TokenStream) : TokenStream := { s with queue := s.queue.drop 1, passed := s.passed + 1 }

end TokenStream

end Yaml

end MobilitySweep
