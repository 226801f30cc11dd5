import MobilitySweep.Yaml.Source

/-! # Flaws and comments of YAML streams

Why a stream is no document. A flaw names the line of its context if that is not the first line, else
the line where it shows.
-/

namespace MobilitySweep

namespace Yaml

/-- A place in a stream, counted from zero. -/
structure Mark where
  index : Nat
  line : Nat
  column : Nat
deriving DecidableEq, Repr, Inhabited

/-- Why a stream is no document. -/
inductive Flaw where
  | unreadable (cause : Unreadable)
  | scanning (context : Mark) (place : Mark) (problem : Bytes)
  | parsing (context : Option Mark) (place : Mark) (problem : Bytes)
  | unknownAnchor (name : Bytes)
deriving DecidableEq, Repr

namespace Flaw

/-- The line of a flaw, if it is not the first one: lines of scanning flaws are counted from one, those
of parsing flaws from zero. -/
def line? (context place shift : Nat) : Option Nat :=
  if context ≠ 0 then some (context + shift)
  else if place ≠ 0 then some (place + shift)
  else none

/-- The place of a flaw in front of a message. -/
def located (line : Option Nat) (problem : Bytes) : Bytes :=
  match line with
  | some n => "line " ++ (Nat.toDigits 10 n).map Char.toUInt8 ++ ": " ++ problem
  | none => problem

/-- The wording of a flaw. -/
def message : Flaw → Bytes
  | unreadable cause => cause.message
  | scanning context place problem => located (line? context.line place.line 1) problem
  | parsing context place problem => located (line? ((context.map Mark.line).getD 0) place.line 0) problem
  | unknownAnchor name => "unknown anchor '" ++ name ++ "' referenced"

/-- The flaw to report where one follows another that did not end reading: that a stream cannot be read
is reported with the place of the earlier flaw. -/
def after (flaw : Flaw) (earlier : Option Flaw) : Flaw :=
  match earlier, flaw with
  | some (.scanning context place _), .unreadable cause => .parsing (some context) place cause.message
  | _, _ => flaw

end Flaw

end Yaml

/-! ## Comments of a YAML stream

Comments carry no content, but one that stands before an entry of a sequence changes how far ahead the
stream is read there. So comments wait, in their order, until a token takes them.
-/

namespace Yaml

/-- What a comment belongs to: the node behind it, the node before it, or the line that it ends. -/
inductive CommentKind where
  | head
  | foot
  | line
deriving DecidableEq, Repr, Inhabited

/-- A comment with the index where the search for it began, the least index of a token that takes it,
its start, and the index of its end. -/
structure Comment where
  kind : CommentKind
  text : List Char
  searched : Nat
  target : Nat
  start : Mark
  stop : Nat
deriving Repr, Inhabited

namespace Comment

/-- A comment behind others, on a line of its own. -/
def join (heading text : List Char) : List Char :=
  if heading.isEmpty then text else heading ++ '\n' :: text

/-- What a token at an index makes of the waiting comments: it takes those that are due, and the ones
that belong to the node behind them go to the heading. The end of a block takes no such comment. -/
def claim (index : Nat) (isBlockEnd : Bool) : List Char → List Comment → List Char × List Comment
  | heading, [] => (heading, [])
  | heading, c :: rest =>
    if index < c.target then (heading, c :: rest)
    else if c.kind = .head then
      if isBlockEnd then (heading, c :: rest) else claim index isBlockEnd (join heading c.text) rest
    else claim index isBlockEnd heading rest

/-- The place where a block of some indentation ends: at the first of the comments with that
indentation which nothing but other comments divides from the end. The comments are given last first. -/
def blockStop (indent : Int) : Nat → Mark → List Comment → Mark
  | _, place, [] => place
  | reached, place, c :: rest =>
    if c.stop < reached then place
    else blockStop indent c.searched (if (c.start.column : Int) = indent + 1 then c.start else place) rest

/-- What is left of a heading, given in reverse, behind its last empty line. -/
def belowGapReversed : List Char → List Char
  | '\n' :: '\n' :: _ => []
  | x :: rest => x :: belowGapReversed rest
  | [] => []

/-- What is left of a heading behind its last empty line; what stands above belongs to the document. -/
def belowGap (heading : List Char) : List Char :=
  match heading.reverse with
  | '\n' :: _ => []
  | reversed => (belowGapReversed reversed).reverse

end Comment

end Yaml

/-! ## Positions in a YAML stream

A cursor is the rest of the characters together with its place. Beyond the last character stands the
null character, which never occurs in a stream. Characters are brought to hand block by block, as they
are asked for; a stream that cannot be read is noticed there.
-/

namespace Yaml

/-- What is at hand of a stream. Characters are at hand up to an index; at the end of the stream each
request brings one null character. The flag `marked` says that a byte order mark was the first character
when characters were last brought to hand, the flag `spoiled` that a fault was met where it does not
matter at once. -/
structure Window where
  reached : Nat
  blocks : List Nat
  remnant : Nat
  fault : Option Unreadable
  marked : Bool
  spoiled : Bool
deriving Repr, Inhabited

namespace Window

/-- Whole blocks brought to hand until an index is reached. -/
def takeBlocks (goal : Nat) : Nat → List Nat → Nat × List Nat
  | reached, [] => (reached, [])
  | reached, size :: rest =>
    if goal ≤ reached then (reached, size :: rest) else takeBlocks goal (reached + size) rest

/-- More characters brought to hand, with a flag that says whether the stream could be read. -/
def extend (w : Window) (goal : Nat) (marked : Bool) : Window × Bool :=
  let (reached, blocks) := takeBlocks goal w.reached w.blocks
  let w := { w with reached := reached, blocks := blocks, marked := marked }
  if goal ≤ reached then (w, true)
  else match w.fault with
    | some _ => ({ w with reached := reached + w.remnant, remnant := 0 }, false)
    | none => ({ w with reached := reached + 1 }, true)

end Window

/-- The rest of a stream, with the number of line breaks passed since the last character that is no
blank, and the comments passed that no token has taken. -/
structure Cursor where
  rest : List Char
  mark : Mark
  breaks : Nat
  window : Window
  comments : List Comment
deriving Repr, Inhabited

/-- Why reading came to a halt, and where it can go on. -/
structure Halt where
  flaw : Flaw
  cursor : Cursor

def isBlank (c : Char) : Bool := c = ' ' || c = '\t'

def isBreak (c : Char) : Bool :=
  c = '\n' || c = '\r' || c.toNat = 0x85 || c.toNat = 0x2028 || c.toNat = 0x2029

def isEnd (c : Char) : Bool := c.toNat = 0

def isBreakOrEnd (c : Char) : Bool := isBreak c || isEnd c

def isBlankOrEnd (c : Char) : Bool := isBlank c || isBreakOrEnd c

/-- The characters of names: letters, digits, underscore and hyphen, in ASCII. -/
def isWordChar (c : Char) : Bool := c.isAlphanum || c = '_' || c = '-'

/-- The byte order mark. -/
def isByteOrderMark (c : Char) : Bool := c.toNat = 0xFEFF

namespace Cursor

/-- The start of a stream. -/
def ofSource (s : Source) : Cursor :=
  ⟨s.chars, ⟨0, 0, 0⟩, 0, ⟨0, s.blocks, s.remnant, s.fault, false, false⟩, []⟩

/-- The character at a distance. -/
def peek (c : Cursor) (distance : Nat) : Char := c.rest.getD distance (Char.ofNat 0)

/-- The next character. -/
def head (c : Cursor) : Char :=
  match c.rest with
  | x :: _ => x
  | [] => Char.ofNat 0

/-! ## Bringing characters to hand -/

/-- So many characters brought to hand, with a flag that says whether the stream could be read. -/
def reach (c : Cursor) (count : Nat) : Cursor × Bool :=
  if c.mark.index + count ≤ c.window.reached then (c, true)
  else
    let (window, readable) := c.window.extend (c.mark.index + count) (isByteOrderMark c.head)
    ({ c with window := window }, readable)

/-- So many characters brought to hand. -/
def need (c : Cursor) (count : Nat) : Except Halt Cursor :=
  match c.reach count with
  | (c, true) => .ok c
  | (c, false) => .error ⟨.unreadable (c.window.fault.getD .control), c⟩

/-- A halt at the cursor. -/
def halt (c : Cursor) (context : Mark) (problem : Bytes) : Halt := ⟨.scanning context c.mark problem, c⟩

/-- A fault noted that does not matter at once. -/
def spoil (c : Cursor) : Cursor := { c with window := { c.window with spoiled := true } }

/-! ## Moving on -/

/-- One character passed. -/
def skip (c : Cursor) : Cursor :=
  { c with
    rest := c.rest.tail
    mark := ⟨c.mark.index + 1, c.mark.line, c.mark.column + 1⟩
    breaks := if isBlank c.head then c.breaks else 0 }

/-- Some characters passed. -/
def skipMany : Nat → Cursor → Cursor
  | 0, c => c
  | count + 1, c => skipMany count c.skip

/-- A line break passed, if there is one; a carriage return with a line feed is one break. -/
def skipLine (c : Cursor) : Cursor :=
  match c.rest with
  | '\r' :: '\n' :: rest =>
    { c with rest := rest, mark := ⟨c.mark.index + 2, c.mark.line + 1, 0⟩, breaks := c.breaks + 1 }
  | x :: rest =>
    if isBreak x then
      { c with rest := rest, mark := ⟨c.mark.index + 1, c.mark.line + 1, 0⟩, breaks := c.breaks + 1 }
    else c
  | [] => c

/-- What a line break contributes to a scalar: a line feed, or the Unicode separator itself. -/
def breakText (c : Cursor) : List Char :=
  match c.rest with
  | x :: _ =>
    if x.toNat = 0x2028 || x.toNat = 0x2029 then [x] else if isBreak x then ['\n'] else []
  | [] => []

/-- Characters of a class taken from the front, in reverse and before what was taken already; the
count bounds them. -/
def takeReversed (p : Char → Bool) : Nat → List Char → Cursor → Except Halt (List Char × Cursor)
  | 0, taken, c => .ok (taken, c)
  | count + 1, taken, c => do
    let c ← c.need 1
    if p c.head then takeReversed p count (c.head :: taken) c.skip else return (taken, c)

/-- Characters of a class taken from the front. -/
def takeWhile (p : Char → Bool) (bound : Nat) (c : Cursor) : Except Halt (List Char × Cursor) := do
  let (taken, after) ← takeReversed p bound [] c
  return (taken.reverse, after)

/-- Characters of a class passed. -/
def dropWhile (p : Char → Bool) : Nat → Cursor → Except Halt Cursor
  | 0, c => .ok c
  | count + 1, c => do
    let c ← c.need 1
    if p c.head then dropWhile p count c.skip else return c

/-- The rest of a line passed; its break stays. -/
def dropLine (bound : Nat) (c : Cursor) : Except Halt Cursor := c.dropWhile (fun x => !isBreakOrEnd x) bound

/-- Whether a document indicator made of the given character stands here at the start of a line. -/
def atIndicator (c : Cursor) (x : Char) : Bool :=
  c.mark.column == 0 && c.peek 0 == x && c.peek 1 == x && c.peek 2 == x && isBlankOrEnd (c.peek 3)

/-- Whether a document starts or ends here. -/
def atDocumentIndicator (c : Cursor) : Bool := c.atIndicator '-' || c.atIndicator '.'

/-! ## Comments -/

/-- How far ahead a comment is looked for. -/
def commentReach : Nat := 512

/-- The distance of a comment behind blanks, looked for from a distance on. That the stream cannot be
read there does not matter at once. -/
def commentBehindBlanks : Nat → Nat → Cursor → Option Nat × Cursor
  | 0, _, c => (none, c)
  | count + 1, distance, c =>
    match c.reach (distance + 1) with
    | (c, false) => (none, c.spoil)
    | (c, true) =>
      let x := c.peek distance
      if isBlank x then commentBehindBlanks count (distance + 1) c
      else (if x = '#' then some distance else none, c)

/-- A comment that starts at an index passed, with what precedes it; the break behind it stays. -/
def skipComment (start : Nat) : Nat → Cursor → Except Halt Cursor
  | 0, c => .ok c
  | count + 1, c => do
    let c ← c.need 1
    if isBreakOrEnd c.head then
      if start ≤ c.mark.index then return c
      else skipComment start count (← c.need 2).skipLine
    else skipComment start count c.skip

/-- The text of a comment at a distance. -/
def commentText (distance : Nat) (c : Cursor) : List Char :=
  (c.rest.drop distance).takeWhile fun x => !isBreakOrEnd x

/-- A comment added to those that wait. -/
def addComment (c : Cursor) (comment : Comment) : Cursor := { c with comments := c.comments ++ [comment] }

/-- A comment on the line of the last token passed, if there is one; a token at the given index takes
it. -/
def skipLineComment (target bound : Nat) (c : Cursor) : Except Halt Cursor :=
  if 0 < c.breaks then .ok c
  else match commentBehindBlanks commentReach 0 c with
    | (some distance, c) => do
      let after ← skipComment (c.mark.index + distance) bound c
      return after.addComment ⟨.line, c.commentText distance, 0, target, c.mark, 0⟩
    | (none, c) => .ok c

/-- Where comments are met: the indentation of the block, whether in a flow collection, whether behind
a value indicator, and the line on which a comment still belongs to what precedes it. -/
structure CommentSite where
  indent : Nat
  inFlow : Bool
  afterValue : Bool
  footLine : Option Nat

/-- Comment lines under collection, in reverse, with the index where the search began, the index of the
token that a foot belongs to, and the start of the first line, its column counted from one. The place
looked at has a line and a column. The flags say that an empty line was just seen, and that none was
seen at all. -/
structure CommentDraft where
  text : List Char
  searched : Nat
  target : Nat
  start : Mark
  line : Nat
  column : Nat
  recentEmpty : Bool
  firstEmpty : Bool

namespace CommentDraft

/-- Whether the lines stand to the left of a block. -/
def dedented (d : CommentDraft) (site : CommentSite) : Bool := d.start.column - 1 < site.indent

/-- The lines collected so far split off as a foot that ends at an index. -/
def splitFoot (d : CommentDraft) (target stop : Nat) (c : Cursor) : CommentDraft × Cursor :=
  ({ d with text := [], searched := stop, target := stop },
    c.addComment ⟨.foot, d.text.reverse, d.searched, target, d.start, stop⟩)

/-- A line break, a closing bracket or the end of the stream met: it may make a foot of the lines, and
else adds an empty line to them. -/
def pause (d : CommentDraft) (site : CommentSite) (closes : Bool) (x : Char) (stop : Nat) (c : Cursor) :
    CommentDraft × Cursor :=
  if d.text.isEmpty || (d.recentEmpty && !closes) then (d, c)
  else if closes || (d.firstEmpty &&
      ((some d.start.line = site.footLine && !site.afterValue) || d.dedented site)) then
    d.splitFoot (if d.dedented site then d.start.index else d.target) stop c
  else (if isEnd x then d else { d with text := '\n' :: d.text }, c)

end CommentDraft

/-- The next comment line behind blanks and line breaks, looked for from a distance on: whether there is
one, and the distance where the search ended. A line break outside ASCII ends the search. -/
def seekComment (site : CommentSite) :
    Nat → Nat → CommentDraft → Cursor → (Bool × Nat) × CommentDraft × Cursor
  | 0, distance, d, c => ((false, distance), d, c)
  | count + 1, distance, d, c =>
    match c.reach (distance + 1) with
    | (c, false) => ((false, distance), d, c.spoil)
    | (c, true) =>
      let inside := 0 < distance && 0x80 ≤ (c.peek (distance - 1)).toNat
      let x := if inside then 'x' else c.peek distance
      let d := { d with column := d.column + 1 }
      let stop := c.mark.index + distance
      let closes := site.inFlow && (x = ']' || x = '\x7d')
      if isBlank x then seekComment site count (distance + 1) d c
      else if closes || isBreakOrEnd x then
        let (d, c) := d.pause site closes x stop c
        if isBreak x then
          seekComment site count (distance + 1)
            { d with line := d.line + 1, column := 0, recentEmpty := true, firstEmpty := false } c
        else ((false, distance), d, c)
      else
        let (d, c) :=
          if !d.text.isEmpty && d.column - 1 < site.indent && d.column ≠ d.start.column then
            d.splitFoot d.target stop c
          else (d, c)
        ((x = '#', distance), d, c)

/-- A comment at a distance passed, and the comments on the lines that follow it; the break behind the
last one stays. What is not a foot belongs to the node behind it. -/
def skipCommentLines (site : CommentSite) (bound : Nat) : Nat → Nat → CommentDraft → Cursor → Except Halt Cursor
  | 0, _, _, c => .ok c
  | count + 1, distance, d, c => do
    let text := c.commentText distance
    let d :=
      if d.text.isEmpty then
        { d with text := text.reverse, start := ⟨c.mark.index + distance, d.line, d.column⟩ }
      else { d with text := text.reverse ++ '\n' :: d.text }
    let c ← skipComment (c.mark.index + distance) bound c
    let d := { d with line := c.mark.line, column := 0, recentEmpty := false }
    match seekComment site (commentReach - 1) 1 d c with
    | ((true, distance), d, c) => skipCommentLines site bound count distance d c
    | ((false, distance), d, c) =>
      if d.text.isEmpty then return c
      else
        return c.addComment
          ⟨.head, d.text.reverse, d.searched, d.start.index, d.start, c.mark.index + distance - 1⟩

/-- The comments at the cursor passed. The search for them began at a mark, behind a token at an
index. -/
def skipComments (indent : Nat) (inFlow afterValue : Bool) (searched : Mark) (target bound : Nat)
    (c : Cursor) : Except Halt Cursor :=
  let below := c.mark.line - c.breaks + 1
  let footLine :=
    if searched.line = 0 then none
    else some (if c.breaks = 0 && 1 < c.mark.column then below + 1 else below)
  skipCommentLines ⟨indent, inFlow, afterValue, footLine⟩ bound bound 0
    ⟨[], searched.index, target, ⟨0, 0, 0⟩, c.mark.line, c.mark.column + 1, false, c.breaks ≤ 1⟩ c

end Cursor

end Yaml

end MobilitySweep
