import MobilitySweep.Shell.Pattern

/-! # Regular expressions

Expressions match bytes, ends of the text and of words, groups, what an earlier group matched, and
alternatives and repetitions of all these. Of the matches that start first the longest counts; among
equally long ones repetitions at the front take as much as they can.
-/

namespace MobilitySweep

namespace Shell

/-- A side of a word that has no length. -/
inductive Edge where
  | wordStart
  | wordEnd
  | wordSide
  | wordInside
deriving DecidableEq, Repr

/-- A regular expression. -/
inductive RegularExpression where
  | nothing
  | oneOf (bytes : ByteClass)
  | textStart
  | textEnd
  | edge (kind : Edge)
  | group (number : Nat) (body : RegularExpression)
  | again (number : Nat)
  | both (first second : RegularExpression)
  | either (first second : RegularExpression)
  | repeated (body : RegularExpression) (least : Nat) (most : Option Nat)
deriving DecidableEq, Repr, Inhabited

/-- A place in a text: the byte before it, the text behind it, and what groups have matched. -/
structure MatchState where
  before : Option UInt8
  rest : Bytes
  groups : List (Nat × Bytes)
deriving DecidableEq, Repr

namespace MatchState

/-- The start of a text. -/
def start (text : Bytes) : MatchState := ⟨none, text, []⟩

/-- A number of bytes passed over. -/
def advance (s : MatchState) (count : Nat) : MatchState :=
  if count = 0 then s else { s with before := (s.rest.take count).getLast?, rest := s.rest.drop count }

/-- The text from a place to a later one. -/
def textTo (s t : MatchState) : Bytes := s.rest.take (s.rest.length - t.rest.length)

/-- What a group has matched. -/
def group (s : MatchState) (number : Nat) : Bytes := ((s.groups.find? (·.1 = number)).map (·.2)).getD []

/-- Whether a side of a word is at a place. -/
def hasEdge (s : MatchState) (kind : Edge) : Bool :=
  let isWord (b : Option UInt8) : Bool := b.any ByteClass.word.contains
  let left := isWord s.before
  let right := isWord s.rest.head?
  match kind with
  | .wordStart => !left && right
  | .wordEnd => left && !right
  | .wordSide => left != right
  | .wordInside => left == right

end MatchState

namespace RegularExpression

/-- The states without repetitions, in order of their first occurrence. -/
def distinct (states : List MatchState) : List MatchState := states.eraseDups

/-- The states after more and more repetitions, at most so many, latest first. Repetitions that match
nothing are not repeated further. -/
def rounds (step : MatchState → List MatchState) : Nat → List MatchState → List (List MatchState) → List (List MatchState)
  | 0, now, done => now :: done
  | count + 1, now, done =>
    let next := distinct (now.flatMap fun s => (step s).filter fun t => t.rest.length < s.rest.length)
    if next.isEmpty then now :: done else rounds step count next (now :: done)

/-- The states after a number of repetitions. -/
def exactly (step : MatchState → List MatchState) : Nat → List MatchState → List MatchState
  | 0, now => now
  | count + 1, now => exactly step count (distinct (now.flatMap step))

/-- All places where a match from a place can end, preferred ones first. Case may not count. -/
def ends (foldsCase : Bool) : RegularExpression → MatchState → List MatchState
  | nothing, s => [s]
  | oneOf bytes, s =>
    match s.rest with
    | [] => []
    | b :: _ => if bytes.contains b then [s.advance 1] else []
  | textStart, s => if s.before.isNone then [s] else []
  | textEnd, s => if s.rest.isEmpty then [s] else []
  | edge kind, s => if s.hasEdge kind then [s] else []
  | group number body, s =>
    (ends foldsCase body s).map fun t => { t with groups := (number, s.textTo t) :: t.groups.filter (·.1 ≠ number) }
  | again number, s =>
    match s.groups.find? (·.1 = number) with
    | none => []
    | some (_, text) =>
      let fold (text : Bytes) : Bytes := if foldsCase then text.map Bytes.lowerByte else text
      if fold text = fold (s.rest.take text.length) then [s.advance text.length] else []
  | both first second, s => distinct ((ends foldsCase first s).flatMap (ends foldsCase second))
  | either first second, s => distinct (ends foldsCase first s ++ ends foldsCase second s)
  | repeated body least most, s =>
    let start := exactly (ends foldsCase body) least [s]
    let more := match most with
      | some most => most - least
      | none => s.rest.length + 1
    distinct ((rounds (ends foldsCase body) more start []).flatten)

/-- The highest number that a group has. -/
def groupCount : RegularExpression → Nat
  | group number body => max number body.groupCount
  | both first second | either first second => max first.groupCount second.groupCount
  | repeated body _ _ => body.groupCount
  | _ => 0

/-- The longest of some ends; the first of equals. -/
def longest : List MatchState → Option MatchState
  | [] => none
  | s :: rest =>
    match longest rest with
    | some t => if t.rest.length < s.rest.length then some t else some s
    | none => some s

end RegularExpression

/-- An expression with whether case counts. -/
structure Matcher where
  expression : RegularExpression
  foldsCase : Bool
deriving DecidableEq, Repr, Inhabited

/-- A match: where it starts and where it ends. -/
structure Occurrence where
  start : MatchState
  finish : MatchState
deriving DecidableEq, Repr

namespace Occurrence

/-- The text of a match. -/
def text (o : Occurrence) : Bytes := o.start.textTo o.finish

/-- The text of a group; the whole match has number zero. -/
def group (o : Occurrence) (number : Nat) : Bytes := if number = 0 then o.text else o.finish.group number

end Occurrence

namespace Matcher

/-- The first match at a place or behind it, at most so far. -/
def findFrom (m : Matcher) : Nat → MatchState → Option Occurrence
  | steps, s =>
    match RegularExpression.longest (m.expression.ends m.foldsCase { s with groups := [] }) with
    | some t => some ⟨s, t⟩
    | none =>
      match steps with
      | 0 => none
      | steps + 1 => findFrom m steps (s.advance 1)

/-- The first match in a text. -/
def find? (m : Matcher) (text : Bytes) : Option Occurrence := m.findFrom text.length (.start text)

/-- Whether an expression matches somewhere in a text. -/
def isFoundIn (m : Matcher) (text : Bytes) : Bool := (m.find? text).isSome

/-- Whether an expression matches a whole text. -/
def isWhole (m : Matcher) (text : Bytes) : Bool :=
  (m.expression.ends m.foldsCase (.start text)).any (·.rest.isEmpty)

/-- The matches from a place on that do not overlap, at most so many. An empty match right behind
another match does not count. -/
def occurrencesFrom (m : Matcher) : Nat → Bool → MatchState → List Occurrence
  | 0, _, _ => []
  | count + 1, isBehindMatch, s =>
    match m.findFrom s.rest.length s with
    | none => []
    | some o =>
      if o.finish.rest.length = o.start.rest.length then
        let isTouching := isBehindMatch && o.start.rest.length = s.rest.length
        let rest := if o.finish.rest.isEmpty then [] else occurrencesFrom m count false (o.finish.advance 1)
        if isTouching then rest else o :: rest
      else o :: occurrencesFrom m count true o.finish

/-- The matches in a text. -/
def occurrences (m : Matcher) (text : Bytes) : List Occurrence :=
  m.occurrencesFrom (text.length + 1) false (.start text)

/-- A text with some of its matches replaced. -/
def replaced (text : Bytes) (filling : Occurrence → Bytes) (chosen : List Occurrence) : Bytes :=
  let step : Bytes × Bytes → Occurrence → Bytes × Bytes := fun (done, rest) o =>
    (done ++ rest.take (rest.length - o.start.rest.length) ++ filling o, o.finish.rest)
  let (done, rest) := chosen.foldl step ([], text)
  done ++ rest

end Matcher

end Shell

/-! ## Reading regular expressions

Expressions are written in two ways. In the plain way groups, alternatives and most repetitions are
marked by a backslash; in the extended way the same marks mean themselves behind one.
-/

namespace Shell

/-- What letters mean behind a backslash: sides of words and classes, control bytes besides, or control
bytes alone, in classes too. -/
inductive Letters where
  | words
  | wordsAndControls
  | controls
deriving DecidableEq, Repr

/-- How an expression is written. -/
structure Writing where
  isExtended : Bool
  foldsCase : Bool
  letters : Letters
deriving DecidableEq, Repr

/-- What is wrong with the text of an expression. -/
inductive Misprint where
  | openGroup
  | lonelyClose
  | openBracket
  | unknownClass
  | openInterval
  | badInterval
  | missingGroup
  | lastBackslash
  | wrongOrder
  | emptyBracket
deriving DecidableEq, Repr

/-- The wording of a misprint. -/
def Misprint.message : Misprint → Bytes
  | openGroup => "Unmatched ( or \\("
  | lonelyClose => "Unmatched ) or \\)"
  | openBracket => "Unmatched [, [^, [:, [., or [="
  | unknownClass => "Invalid character class name"
  | openInterval => "Unmatched \\\x7b"
  | badInterval => "Invalid content of \\\x7b\\\x7d"
  | missingGroup => "Invalid back reference"
  | lastBackslash => "Trailing backslash"
  | wrongOrder => "Invalid range end"
  | emptyBracket => "Invalid regular expression"

/-- What an expression is written with. -/
inductive Sign where
  | piece (expression : RegularExpression)
  | opening
  | closing
  | bar
  | repetition (least : Nat) (most : Option Nat)
deriving DecidableEq, Repr

namespace Writing

/-- The control byte of a letter. -/
def control? (letter : UInt8) : Option UInt8 :=
  (([(110, 10), (116, 9), (114, 13), (102, 12), (118, 11), (97, 7)] : List (UInt8 × UInt8)).find? (·.1 = letter)).map
    (·.2)

/-- A class as an expression. -/
def oneOf (w : Writing) (bytes : ByteClass) : Sign :=
  .piece (.oneOf (if w.foldsCase then bytes.withBothCases else bytes))

/-- A byte as an expression. -/
def byte (w : Writing) (b : UInt8) : Sign := w.oneOf ⟨[(b, b)], false⟩

/-- A member of a class that is no range: its bytes, and what follows it. -/
def member (w : Writing) : Bytes → Except Misprint (List (UInt8 × UInt8) × Bytes)
  | [] => .error .openBracket
  | 91 :: mark :: rest =>
    if mark = 58 || mark = 46 || mark = 61 then
      let name := rest.takeWhile (· ≠ mark)
      let behind := rest.drop name.length
      if behind.take 2 ≠ [mark, 93] then .error .openBracket
      else
        let ranges := if mark = 58 then ByteClass.ranges? name else (name.head?).map fun b => [(b, b)]
        match ranges with
        | some ranges => .ok (ranges, behind.drop 2)
        | none => .error .unknownClass
    else .ok ([(91, 91)], mark :: rest)
  | 92 :: c :: rest =>
    let literal : Except Misprint (List (UInt8 × UInt8) × Bytes) := .ok ([(92, 92)], c :: rest)
    match w.letters, control? c with
    | .words, _ => literal
    | _, some b => .ok ([(b, b)], rest)
    | .wordsAndControls, none => literal
    | .controls, none => .ok ([(c, c)], rest)
  | b :: rest => .ok ([(b, b)], rest)

/-- The members of a class up to its bracket, at most so many, and what follows. -/
def members (w : Writing) : Nat → Bool → Bytes → Except Misprint (List (UInt8 × UInt8) × Bytes)
  | 0, _, _ => .error .openBracket
  | count + 1, isFirst, text =>
    if text.head? = some 93 && !isFirst then .ok ([], text.tail)
    else do
      let (ranges, rest) ← w.member text
      match ranges, rest with
      | [(low, same)], 45 :: last :: more =>
        if last ≠ 93 && low = same then
          let (upper, rest) ← w.member (last :: more)
          let high := (upper.headD (low, low)).1
          if high < low then .error .wrongOrder
          else
            let (others, rest) ← w.members count false rest
            .ok ((low, high) :: others, rest)
        else
          let (others, rest) ← w.members count false rest
          .ok (ranges ++ others, rest)
      | _, _ =>
        let (others, rest) ← w.members count false rest
        .ok (ranges ++ others, rest)

/-- The class behind an opening bracket, and what follows it. -/
def bracket (w : Writing) (text : Bytes) : Except Misprint (ByteClass × Bytes) := do
  let (isNegated, body) := match text with
    | 94 :: rest => (true, rest)
    | _ => (false, text)
  if body.isEmpty then .error .emptyBracket
  let (ranges, rest) ← w.members (body.length + 1) true body
  .ok (⟨ranges, isNegated⟩, rest)

/-- The counts behind an opening brace, and what follows them. -/
def interval (w : Writing) (text : Bytes) : Except Misprint (Sign × Bytes) :=
  let least := text.takeWhile Bytes.isDigit
  let rest := text.drop least.length
  let (most, rest) : Option (Option Nat) × Bytes := match rest with
    | 44 :: more =>
      let digits := more.takeWhile Bytes.isDigit
      (some (if digits.isEmpty then none else some (Bytes.digitsValue digits)), more.drop digits.length)
    | _ => (none, rest)
  let closing : Bytes := if w.isExtended then [125] else [92, 125]
  if rest.isEmpty then .error .openInterval
  else if !closing.isPrefixOf rest || (least.isEmpty && most.isNone) then .error .badInterval
  else
    let count := Bytes.digitsValue least
    let most := most.getD (some count)
    if most.any (· < count) then .error .badInterval
    else .ok (.repetition count most, rest.drop closing.length)

/-- The sign that a letter stands for behind a backslash. -/
def letter (w : Writing) (c : UInt8) : Sign :=
  let control := if w.letters = .words then none else control? c
  match control with
  | some b => w.byte b
  | none =>
    if w.letters = .controls then w.byte c
    else if c = 119 then .piece (.oneOf ByteClass.word)
    else if c = 87 then .piece (.oneOf ByteClass.word.complement)
    else if c = 115 then .piece (.oneOf ByteClass.space)
    else if c = 83 then .piece (.oneOf ByteClass.space.complement)
    else if c = 98 then .piece (.edge .wordSide)
    else if c = 66 then .piece (.edge .wordInside)
    else if c = 60 then .piece (.edge .wordStart)
    else if c = 62 then .piece (.edge .wordEnd)
    else if c = 96 then .piece .textStart
    else if c = 39 then .piece .textEnd
    else if 49 ≤ c && c ≤ 57 then .piece (.again (c.toNat - 48))
    else w.byte c

/-- The mark that a byte is in its special meaning, if it has one. -/
def mark? (b : UInt8) : Option Sign :=
  match b with
  | 40 => some .opening
  | 41 => some .closing
  | 124 => some .bar
  | 43 => some (.repetition 1 none)
  | 63 => some (.repetition 0 (some 1))
  | _ => none

/-- Whether something new starts behind a sign. -/
def isFresh : Option Sign → Bool
  | none | some .opening | some .bar => true
  | _ => false

/-- The signs of a text behind a sign, in at most so many steps. -/
def signs (w : Writing) : Nat → Option Sign → Bytes → Except Misprint (List Sign)
  | 0, _, _ => .ok []
  | _, _, [] => .ok []
  | steps + 1, last, b :: rest => do
    let go (sign : Sign) (rest : Bytes) : Except Misprint (List Sign) :=
      (w.signs steps (some sign) rest).map (sign :: ·)
    let isFresh := isFresh last
    if b = 92 then
      match rest with
      | [] => .error .lastBackslash
      | c :: more =>
        if w.isExtended then go (w.letter c) more
        else if c = 123 then
          let (sign, more) ← w.interval more
          go sign more
        else
          match mark? c with
          | some (.repetition least most) => go (if isFresh then w.byte c else .repetition least most) more
          | some sign => go sign more
          | none => go (w.letter c) more
    else if b = 91 then
      let (bytes, rest) ← w.bracket rest
      go (w.oneOf bytes) rest
    else if b = 46 then go (.piece (.oneOf ⟨[], true⟩)) rest
    else if b = 42 then
      if w.isExtended then go (.repetition 0 none) rest
      else go (if isFresh || last = some (.piece .textStart) then w.byte b else .repetition 0 none) rest
    else if b = 94 then go (if w.isExtended || isFresh then .piece .textStart else w.byte b) rest
    else if b = 36 then
      let isLast := rest.isEmpty || rest.take 2 = [92, 41] || rest.take 2 = [92, 124]
      go (if w.isExtended || isLast then .piece .textEnd else w.byte b) rest
    else if w.isExtended && b = 123 && !isFresh then
      let (sign, rest) ← w.interval rest
      go sign rest
    else
      match if w.isExtended then mark? b else none with
      | some sign => go sign rest
      | none => go (w.byte b) rest

end Writing

/-- A group under way: its number, the alternatives before the one that grows, and the pieces of that one
in reverse. -/
structure OpenGroup where
  number : Nat
  before : Option RegularExpression
  pieces : List RegularExpression
deriving Repr

namespace OpenGroup

/-- The alternative that grows. -/
def sequence (g : OpenGroup) : RegularExpression :=
  g.pieces.foldl (fun behind piece => if behind = .nothing then piece else .both piece behind) .nothing

/-- All alternatives. -/
def expression (g : OpenGroup) : RegularExpression :=
  match g.before with
  | some before => .either before g.sequence
  | none => g.sequence

/-- One more piece. -/
def add (g : OpenGroup) (piece : RegularExpression) : OpenGroup := { g with pieces := piece :: g.pieces }

end OpenGroup

/-- The groups under way, innermost first, the outermost one apart, and how many there have been. -/
structure Nesting where
  inner : List OpenGroup
  outer : OpenGroup
  count : Nat
deriving Repr

namespace Nesting

/-- Nothing yet. -/
def empty : Nesting := ⟨[], ⟨0, none, []⟩, 0⟩

/-- The innermost group. -/
def current (n : Nesting) : OpenGroup := n.inner.headD n.outer

/-- The innermost group changed. -/
def change (n : Nesting) (f : OpenGroup → OpenGroup) : Nesting :=
  match n.inner with
  | g :: rest => { n with inner := f g :: rest }
  | [] => { n with outer := f n.outer }

/-- One more sign. A repetition of nothing has no effect. -/
def add (n : Nesting) : Sign → Except Misprint Nesting
  | .piece (.again number) =>
    if n.count < number || n.inner.any (·.number = number) then .error .missingGroup
    else .ok (n.change (·.add (.again number)))
  | .piece expression => .ok (n.change (·.add expression))
  | .bar => .ok (n.change fun g => { g with before := some g.expression, pieces := [] })
  | .opening => .ok { n with inner := ⟨n.count + 1, none, []⟩ :: n.inner, count := n.count + 1 }
  | .closing =>
    match n.inner with
    | [] => .error .lonelyClose
    | g :: rest => .ok ({ n with inner := rest }.change (·.add (.group g.number g.expression)))
  | .repetition least most => .ok (n.change fun g =>
      match g.pieces with
      | piece :: rest => { g with pieces := .repeated piece least most :: rest }
      | [] => g)

end Nesting

/-- The expression that a text writes, and how many groups it has. -/
def Writing.read (w : Writing) (text : Bytes) : Except Misprint (Matcher × Nat) := do
  let signs ← w.signs (text.length + 1) none text
  let n ← signs.foldlM Nesting.add .empty
  if n.inner.isEmpty then .ok (⟨n.outer.expression, w.foldsCase⟩, n.count) else .error .openGroup

end Shell

end MobilitySweep
