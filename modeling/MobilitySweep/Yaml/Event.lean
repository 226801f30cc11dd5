import MobilitySweep.Yaml.Resolve
import MobilitySweep.Yaml.TokenStream

/-! # YAML events

The grammar of a stream as a machine: each step reads tokens and yields one event. What to do behind a
finished node is kept on a stack, so that nesting costs no recursion.
-/

namespace MobilitySweep

namespace Yaml

/-- What a parser yields; nodes carry their anchor and tag. -/
inductive EventKind where
  | streamStart
  | streamEnd
  | documentStart
  | documentEnd
  | aliased (name : Bytes)
  | scalar (anchor tag : Bytes) (value : Bytes) (style : ScalarStyle)
  | sequenceStart (anchor tag : Bytes)
  | sequenceEnd
  | mappingStart (anchor tag : Bytes)
  | mappingEnd
deriving DecidableEq, Repr, Inhabited

/-- An event with its place. -/
structure Event where
  kind : EventKind
  start : Mark
deriving DecidableEq, Repr, Inhabited

/-- What a parser expects next. -/
inductive Expectation where
  | streamStart
  | documentStart
  | documentContent
  | documentEnd
  | blockNode
  | blockSequenceFirst
  | blockSequenceEntry
  | indentlessEntry
  | blockMappingFirst
  | blockMappingKey
  | blockMappingValue
  | flowSequenceFirst
  | flowSequenceEntry
  | flowPairKey
  | flowPairValue
  | flowPairEnd
  | flowMappingFirst
  | flowMappingKey
  | flowMappingValue
  | flowMappingEmptyValue
  | nothing
deriving DecidableEq, Repr, Inhabited

/-- A parser: the tokens to come, what is expected now and behind the current nodes, the starts of the
open collections, the tag handles of the document, the comment that stands before the next node, and a
flaw that was met but did not end reading. -/
structure Parser where
  tokens : TokenStream
  expected : Expectation
  pending : List Expectation
  marks : List Mark
  handles : List (Bytes × Bytes)
  heading : List Char
  noted : Option Flaw
deriving Inhabited

namespace Parser

/-- A parser at the start of some bytes. -/
def ofBytes (bytes : Bytes) : Parser := ⟨TokenStream.ofBytes bytes, .streamStart, [], [], [], [], none⟩

/-- The comments that are due at a token taken. -/
def claim (p : Parser) (t : Token) : Parser :=
  let cursor := p.tokens.cursor
  let (heading, comments) := Comment.claim t.start.index (t.kind = .blockEnd) p.heading cursor.comments
  { p with heading := heading, tokens := { p.tokens with cursor := { cursor with comments := comments } } }

/-- The next token. -/
def head (p : Parser) : Except Flaw (Token × Parser) :=
  match p.tokens.head with
  | .ok (t, tokens) => .ok (t, { p with tokens := tokens }.claim t)
  | .error stuck => .error (stuck.flaw.after p.noted)

/-- The parser behind a node that took the comment before it. -/
def headed (p : Parser) : Parser := { p with heading := [] }

/-- A look at what follows an entry indicator that has a comment of some length before it: the comment
belongs to a nested block rather than to its first entry. A flaw met here is noted, and reading goes on
behind it. -/
def lookAhead (p : Parser) (length : Nat) : Parser :=
  if length = 0 then p
  else match p.tokens.head with
    | .error stuck => { p with tokens := stuck.stream.unspoiled, noted := some stuck.flaw }
    | .ok (t, tokens) =>
      let p := { p with tokens := tokens }.claim t
      if t.kind = .blockSequenceStart || t.kind = .blockMappingStart then
        { p with heading := p.heading.drop (length + 1) }
      else p

/-- The flaw that was met but did not end reading. -/
def flaw? (p : Parser) : Option Flaw :=
  match p.tokens.spoiled? with
  | some cause => some ((Flaw.unreadable cause).after p.noted)
  | none => p.noted

/-- The next token passed. -/
def next (p : Parser) : Parser := { p with tokens := p.tokens.next }

/-- The parser behind a finished node. -/
def resume (p : Parser) : Parser :=
  match p.pending with
  | e :: rest => { p with expected := e, pending := rest }
  | [] => { p with expected := .nothing }

/-- The parser with something to expect behind the coming node. -/
def after (p : Parser) (e : Expectation) : Parser := { p with pending := e :: p.pending }

/-- The parser behind a finished collection. -/
def leave (p : Parser) : Parser := { p.resume with marks := p.marks.drop 1 }

/-- An empty scalar, after which something is expected. -/
def empty (p : Parser) (e : Expectation) (mark : Mark) : Except Flaw (Event × Parser) :=
  .ok (⟨.scalar [] [] [] .plain, mark⟩, { p with expected := e })

/-- A flaw in a collection. -/
def broken {α : Type} (p : Parser) (t : Token) (problem : Bytes) : Except Flaw α :=
  .error (.parsing p.marks.head? t.start problem)

/-- The handles that every document knows. -/
def standardHandles : List (Bytes × Bytes) := [("!", "!"), ("!!", Tag.standard)]

/-- The directives before a document; the flag says that a version was given. -/
def directives : Nat → Bool → Parser → Except Flaw Parser
  | 0, _, p => .ok p
  | count + 1, versioned, p => do
    let (t, p) ← p.head
    match t.kind with
    | .versionDirective major minor =>
      if versioned then .error (.parsing none t.start "found duplicate %YAML directive")
      else if major ≠ 1 || minor ≠ 1 then .error (.parsing none t.start "found incompatible YAML document")
      else directives count true p.next
    | .tagDirective handle text =>
      if p.handles.any (·.1 = handle) then .error (.parsing none t.start "found duplicate %TAG directive")
      else directives count versioned { p.next with handles := p.handles ++ [(handle, text)] }
    | _ =>
      let missing := standardHandles.filter fun h => !p.handles.any (·.1 = h.1)
      return { p with handles := p.handles ++ missing }

/-- The start of the first document, explicit or not, or the end of an empty stream. -/
def documentStart (p : Parser) : Except Flaw (Event × Parser) := do
  let (t, p) ← p.head
  match t.kind with
  | .streamEnd => return (⟨.streamEnd, t.start⟩, { p.next with expected := .nothing })
  | .versionDirective _ _ | .tagDirective _ _ | .documentStart =>
    let p ← directives p.tokens.bound false p
    let (d, p) ← p.head
    if d.kind = .documentStart then
      return (⟨.documentStart, t.start⟩, { (p.after .documentEnd).next with expected := .documentContent })
    else .error (.parsing none d.start "did not find expected <document start>")
  | _ =>
    let p ← directives p.tokens.bound false p
    let p := { p with heading := Comment.belowGap p.heading }
    return (⟨.documentStart, t.start⟩, { p.after .documentEnd with expected := .blockNode })

/-- A tag with its handle replaced. -/
def expandTag (p : Parser) (context : Mark) (t : Token) (handle suffix : Bytes) : Except Flaw Bytes :=
  if handle.isEmpty then .ok suffix
  else match p.handles.find? (·.1 = handle) with
    | some (_, text) =>
      if (text ++ suffix).isEmpty then .error (.parsing (some context) t.start "found undefined tag handle")
      else .ok (text ++ suffix)
    | none => .error (.parsing (some context) t.start "found undefined tag handle")

/-- An anchor and a tag in either order, each optional: anchor, tag, and the parser behind them. -/
def properties (p : Parser) : Except Flaw (Bytes × Bytes × Parser) := do
  let (first, p) ← p.head
  match first.kind with
  | .anchor name =>
    let (second, p) ← p.next.head
    match second.kind with
    | .tag handle suffix =>
      let (_, p) ← p.next.head
      return (name, ← p.expandTag first.start second handle suffix, p)
    | _ => return (name, [], p)
  | .tag handle suffix =>
    let (second, p) ← p.next.head
    match second.kind with
    | .anchor name =>
      let (_, p) ← p.next.head
      return (name, ← p.expandTag first.start first handle suffix, p)
    | _ => return ([], ← p.expandTag first.start first handle suffix, p)
  | _ => return ([], [], p)

/-- A node, in a block or not, which may be a sequence without indentation of its own. -/
def node (p : Parser) (block indentless : Bool) : Except Flaw (Event × Parser) := do
  let (first, p) ← p.head
  let start := first.start
  match first.kind with
  | .aliased name => return (⟨.aliased name, start⟩, p.headed.next.resume)
  | _ =>
    let (anchor, tag, p) ← p.properties
    let (t, p) ← p.head
    let opening : EventKind → Expectation → Except Flaw (Event × Parser) := fun kind e =>
      .ok (⟨kind, start⟩, { p with expected := e })
    let openingFlow : EventKind → Expectation → Except Flaw (Event × Parser) := fun kind e =>
      .ok (⟨kind, start⟩, { p.headed with expected := e })
    match t.kind, block, indentless with
    | .blockEntry, _, true => opening (.sequenceStart anchor tag) .indentlessEntry
    | .scalar value style, _, _ => return (⟨.scalar anchor tag value style, start⟩, p.headed.next.resume)
    | .flowSequenceStart, _, _ => openingFlow (.sequenceStart anchor tag) .flowSequenceFirst
    | .flowMappingStart, _, _ => openingFlow (.mappingStart anchor tag) .flowMappingFirst
    | .blockSequenceStart, true, _ => opening (.sequenceStart anchor tag) .blockSequenceFirst
    | .blockMappingStart, true, _ => opening (.mappingStart anchor tag) .blockMappingFirst
    | _, _, _ =>
      if anchor.isEmpty && tag.isEmpty then
        .error (.parsing (some start) t.start "did not find expected node content")
      else return (⟨.scalar anchor tag [] .plain, start⟩, p.resume)

/-- The start of a collection passed and remembered. -/
def enter (p : Parser) : Except Flaw Parser := do
  let (t, p) ← p.head
  return { p.next with marks := t.start :: p.marks }

/-- An entry of a block sequence, or its end. -/
def blockSequenceEntry (p : Parser) : Except Flaw (Event × Parser) := do
  let (t, p) ← p.head
  match t.kind with
  | .blockEntry =>
    let (u, p) ← (p.next.lookAhead p.heading.length).head
    match u.kind with
    | .blockEntry | .blockEnd => p.empty .blockSequenceEntry t.stop
    | _ => (p.after .blockSequenceEntry).node true false
  | .blockEnd => return (⟨.sequenceEnd, t.start⟩, p.next.leave)
  | _ => p.broken t "did not find expected '-' indicator"

/-- An entry of a sequence without indentation, or its end. -/
def indentlessEntry (p : Parser) : Except Flaw (Event × Parser) := do
  let (t, p) ← p.head
  match t.kind with
  | .blockEntry =>
    let (u, p) ← (p.next.lookAhead p.heading.length).head
    match u.kind with
    | .blockEntry | .key | .value | .blockEnd => p.empty .indentlessEntry t.stop
    | _ => (p.after .indentlessEntry).node true false
  | _ => return (⟨.sequenceEnd, t.start⟩, p.resume)

/-- A key of a block mapping, or its end. -/
def blockMappingKey (p : Parser) : Except Flaw (Event × Parser) := do
  let (t, p) ← p.head
  match t.kind with
  | .key =>
    let (u, p) ← p.next.head
    match u.kind with
    | .key | .value | .blockEnd => p.empty .blockMappingValue t.stop
    | _ => (p.after .blockMappingValue).node true true
  | .blockEnd => return (⟨.mappingEnd, t.start⟩, p.headed.next.leave)
  | _ => p.broken t "did not find expected key"

/-- A value of a block mapping. -/
def blockMappingValue (p : Parser) : Except Flaw (Event × Parser) := do
  let (t, p) ← p.head
  match t.kind with
  | .value =>
    let (u, p) ← p.next.head
    match u.kind with
    | .key | .value | .blockEnd => p.empty .blockMappingKey t.stop
    | _ => (p.after .blockMappingKey).node true true
  | _ => p.empty .blockMappingKey t.start

/-- An entry of a flow sequence behind its separator: a pair, a node, or the end. -/
def flowSequenceItem (p : Parser) (t : Token) : Except Flaw (Event × Parser) :=
  match t.kind with
  | .flowSequenceEnd => .ok (⟨.sequenceEnd, t.start⟩, p.headed.next.leave)
  | .key => .ok (⟨.mappingStart [] [], t.start⟩, { p.next with expected := .flowPairKey })
  | _ => (p.after .flowSequenceEntry).node false false

/-- An entry of a flow sequence; all but the first stand behind a separator. -/
def flowSequenceEntry (p : Parser) (first : Bool) : Except Flaw (Event × Parser) := do
  let (t, p) ← p.head
  match t.kind, first with
  | .flowSequenceEnd, _ => p.flowSequenceItem t
  | _, true => p.flowSequenceItem t
  | .flowEntry, false =>
    let (u, p) ← p.next.head
    p.flowSequenceItem u
  | _, false => p.broken t "did not find expected ',' or ']'"

/-- The key of a pair in a flow sequence. -/
def flowPairKey (p : Parser) : Except Flaw (Event × Parser) := do
  let (t, p) ← p.head
  match t.kind with
  | .value | .flowEntry | .flowSequenceEnd => p.next.empty .flowPairValue t.stop
  | _ => (p.after .flowPairValue).node false false

/-- The value of a pair in a flow sequence. -/
def flowPairValue (p : Parser) : Except Flaw (Event × Parser) := do
  let (t, p) ← p.head
  match t.kind with
  | .value =>
    let (u, p) ← p.next.head
    match u.kind with
    | .flowEntry | .flowSequenceEnd => p.empty .flowPairEnd u.start
    | _ => (p.after .flowPairEnd).node false false
  | _ => p.empty .flowPairEnd t.start

/-- A key of a flow mapping behind its separator, or the end. -/
def flowMappingItem (p : Parser) (t : Token) : Except Flaw (Event × Parser) := do
  match t.kind with
  | .flowMappingEnd => return (⟨.mappingEnd, t.start⟩, p.headed.next.leave)
  | .key =>
    let (u, p) ← p.next.head
    match u.kind with
    | .value | .flowEntry | .flowMappingEnd => p.empty .flowMappingValue u.start
    | _ => (p.after .flowMappingValue).node false false
  | _ => (p.after .flowMappingEmptyValue).node false false

/-- A key of a flow mapping; all but the first stand behind a separator. -/
def flowMappingKey (p : Parser) (first : Bool) : Except Flaw (Event × Parser) := do
  let (t, p) ← p.head
  match t.kind, first with
  | .flowMappingEnd, _ => p.flowMappingItem t
  | _, true => p.flowMappingItem t
  | .flowEntry, false =>
    let (u, p) ← p.next.head
    p.flowMappingItem u
  | _, false => p.broken t "did not find expected ',' or '\x7d'"

/-- A value of a flow mapping. -/
def flowMappingValue (p : Parser) : Except Flaw (Event × Parser) := do
  let (t, p) ← p.head
  match t.kind with
  | .value =>
    let (u, p) ← p.next.head
    match u.kind with
    | .flowEntry | .flowMappingEnd => p.empty .flowMappingKey u.start
    | _ => (p.after .flowMappingKey).node false false
  | _ => p.empty .flowMappingKey t.start

/-- The next event. -/
def step (p : Parser) : Except Flaw (Event × Parser) := do
  match p.expected with
  | .streamStart =>
    let (t, p) ← p.head
    return (⟨.streamStart, t.start⟩, { p.next with expected := .documentStart })
  | .documentStart => p.documentStart
  | .documentContent =>
    let (t, p) ← p.head
    match t.kind with
    | .versionDirective _ _ | .tagDirective _ _ | .documentStart | .documentEnd | .streamEnd =>
      return (⟨.scalar [] [] [] .plain, t.start⟩, p.resume)
    | _ => p.node true false
  | .documentEnd =>
    let (t, p) ← p.head
    let p := if t.kind = .documentEnd then p.next else p
    return (⟨.documentEnd, t.start⟩, { p with expected := .nothing })
  | .blockNode => p.node true false
  | .blockSequenceFirst => (← p.enter).blockSequenceEntry
  | .blockSequenceEntry => p.blockSequenceEntry
  | .indentlessEntry => p.indentlessEntry
  | .blockMappingFirst => (← p.enter).blockMappingKey
  | .blockMappingKey => p.blockMappingKey
  | .blockMappingValue => p.blockMappingValue
  | .flowSequenceFirst => (← p.enter).flowSequenceEntry true
  | .flowSequenceEntry => p.flowSequenceEntry false
  | .flowPairKey => p.flowPairKey
  | .flowPairValue => p.flowPairValue
  | .flowPairEnd =>
    let (t, p) ← p.head
    return (⟨.mappingEnd, t.start⟩, { p with expected := .flowSequenceEntry })
  | .flowMappingFirst => (← p.enter).flowMappingKey true
  | .flowMappingKey => p.flowMappingKey false
  | .flowMappingValue => p.flowMappingValue
  | .flowMappingEmptyValue =>
    let (t, p) ← p.head
    p.empty .flowMappingKey t.start
  | .nothing => return (⟨.streamEnd, p.tokens.cursor.mark⟩, p)

end Parser

end Yaml

end MobilitySweep
