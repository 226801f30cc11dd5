import MobilitySweep.Shell.Pattern
import MobilitySweep.Shell.RegularExpression
import MobilitySweep.Shell.Utility

/-! # Searching lines

The lines of inputs that match one of several expressions, their number, their places, or the parts of
them that match.
-/

namespace MobilitySweep

namespace Shell

namespace Programs

/-- What is searched for: whether a line matches, and the parts of it that do with their places. -/
structure Search where
  isFound : Bytes → Bool
  parts : Bytes → List (Nat × Bytes)

/-- A text as an expression that matches nothing else. -/
def literalExpression (text : Bytes) : RegularExpression :=
  text.foldr (fun b behind =>
    let piece : RegularExpression := .oneOf ⟨[(b, b)], false⟩
    if behind = .nothing then piece else .both piece behind) .nothing

/-- The search for some expressions: as they are written, as texts, as whole words or as whole lines. -/
def Search.ofPatterns (given : Given) (isExtended isLiteral : Bool) (patterns : List Bytes) :
    Except Misprint Search := do
  let foldsCase := given.has 'i' || given.has 'y'
  let expressions ← patterns.mapM fun pattern =>
    if isLiteral then
      let pattern := if foldsCase then pattern.map Bytes.lowerByte else pattern
      .ok (literalExpression pattern)
    else ((Writing.read ⟨isExtended, foldsCase, .words⟩ pattern).map (·.1.expression))
  let whole := match expressions with
    | [] => .nothing
    | first :: rest => rest.foldl RegularExpression.either first
  let whole := if given.has 'x' then .both .textStart (.both whole .textEnd) else whole
  let matcher : Matcher := ⟨whole, foldsCase⟩
  let seen (line : Bytes) : Bytes := if foldsCase && isLiteral then line.map Bytes.lowerByte else line
  let isWord (o : Occurrence) : Bool :=
    !o.start.before.any ByteClass.word.contains && !o.finish.rest.head?.any ByteClass.word.contains
  let found (line : Bytes) : List Occurrence :=
    (matcher.occurrences (seen line)).filter fun o => !given.has 'w' || isWord o
  let lengths (line : Bytes) : List (Nat × Nat) :=
    (found line).map fun o => (line.length - o.start.rest.length, o.text.length)
  .ok ⟨fun line => !patterns.isEmpty && (if given.has 'w' then !(found line).isEmpty else matcher.isFoundIn (seen line)),
    fun line => (lengths line).filterMap fun (start, length) =>
      if length = 0 then none else some (start, (line.drop start).take length)⟩

/-- A sign for repetition with nothing to repeat, where one is in an extended expression: at the start, or
behind an opening, a bar or an anchor. -/
def idleSign? : Nat → Bool → Bytes → Option Bytes
  | 0, _, _ => none
  | _, _, [] => none
  | steps + 1, _, 92 :: _ :: rest => idleSign? steps false rest
  | steps + 1, _, 91 :: rest =>
    let start := rest.takeWhile fun b => b = 94 || b = 93
    let body := (rest.drop start.length).takeWhile (· ≠ 93)
    idleSign? steps false (rest.drop (start.length + body.length + 1))
  | steps + 1, isFresh, b :: rest =>
    if b = 40 || b = 124 || b = 94 || b = 36 then idleSign? steps true rest
    else if isFresh && (b = 42 || b = 43 || b = 63) then some [b]
    else if isFresh && b = 123 then
      let counts := rest.takeWhile fun c => Bytes.isDigit c || c = 44
      if (rest.drop counts.length).head? = some 125 && !counts.isEmpty then some "\x7b...\x7d"
      else idleSign? steps false rest
    else idleSign? steps false rest

/-- Whether a class is written with a single pair of brackets, in at most so many steps. -/
def hasBareClass : Nat → Bytes → Bool
  | 0, _ => false
  | _, [] => false
  | steps + 1, 92 :: _ :: rest => hasBareClass steps rest
  | steps + 1, 91 :: rest =>
    let body := rest.takeWhile (· ≠ 93)
    if body.length > 1 && body.head? = some 58 && body.getLast? = some 58 then true
    else
      let start := rest.takeWhile fun b => b = 94 || b = 93
      let inside := (rest.drop start.length).takeWhile (· ≠ 93)
      hasBareClass steps (rest.drop (start.length + inside.length + 1))
  | steps + 1, _ :: rest => hasBareClass steps rest

/-- A text in the colour of a kind. -/
def coloured (code text : Bytes) : Bytes :=
  ("\x1b[" : Bytes) ++ code ++ "m\x1b[K" ++ text ++ "\x1b[m\x1b[K"

/-- A line with the parts that match in colour. -/
def colouredParts (parts : List (Nat × Bytes)) (line : Bytes) : Bytes :=
  let (text, place) := parts.foldl (fun (done, place) (start, part) =>
    (done ++ (line.drop place).take (start - place) ++ coloured "01;31" part, start + part.length)) (([] : Bytes), 0)
  text ++ line.drop place

/-- The lines around chosen ones: each with its number, whether it was chosen, and whether it follows the
one shown before. -/
def withContext (before after : Nat) (chosen : List Nat) (count : Nat) : List Nat :=
  (List.range count).filter fun n => chosen.any fun c => c ≤ n + before && n ≤ c + after

/-- The files below a directory in bytewise order of their names, at most so deep. -/
def filesBelow (files : Files) : Nat → Bytes → List Bytes
  | 0, _ => []
  | depth + 1, path =>
    (namesIn files path).flatMap fun name =>
      let inner := Files.withoutSlash path ++ [47] ++ name
      match files.linkStat inner with
      | .ok .directory => filesBelow files depth inner
      | .ok (.file _) => [inner]
      | _ => []
where
  /-- The names in a directory. -/
  namesIn (files : Files) (path : Bytes) : List Bytes :=
    match files.resolve true path with
    | .ok (.taken place .directory) =>
      files.entries.filterMap fun (entry, _) =>
        if entry.length = place.length + 1 && place.isPrefixOf entry then entry.getLast? else none
    | _ => []

/-- One input searched: what is shown, and how many lines were found. Of an input that is no text only that
it matches is told, unless it is taken for one. -/
def searched (given : Given) (search : Search) (title : Bytes) (path content : Bytes) : Bytes × Nat :=
  let isZero := given.has 'z'
  let lines := if isZero then
      let pieces := Bytes.splitOn 0 content
      if pieces.getLast? = some [] then pieces.dropLast else pieces
    else linesOf content
  let texts := if isZero then lines else lines.map lineText
  let finish : Bytes := [if isZero then 0 else 10]
  let isBinary := content.contains 0 && !given.has 'a' && !isZero && given.value? '\x04' ≠ some "text"
  let chosen := (texts.zipIdx.filter fun (line, _) => search.isFound line != given.has 'v').map (·.2)
  let chosen := if isBinary && given.has 'I' then [] else chosen
  let chosen := match given.value? 'm' with
    | some most => chosen.take (Bytes.digitsValue most)
    | none => chosen
  let count := chosen.length
  let name := if path.isEmpty then ("(standard input)" : Bytes) else path
  let isColoured := given.value? 'K' = some "always"
  let dye (code text : Bytes) : Bytes := if isColoured then coloured code text else text
  let context (letter : Char) : Nat := Bytes.digitsValue ((given.value? letter).getD ((given.value? 'C').getD []))
  let offset (n : Nat) : Nat := ((lines.take n).map List.length).foldl (· + ·) 0
  let lead (mark : UInt8) (n within : Nat) : Bytes :=
    (if title.isEmpty then [] else dye "35" title ++ dye "36" [mark]) ++
      (if given.has 'n' then dye "32" (Decimal.ofNat (n + 1)) ++ dye "36" [mark] else []) ++
      (if given.has 'b' then dye "32" (Decimal.ofNat (offset n + within)) ++ dye "36" [mark] else []) ++
      (if given.has 'T' then [9] else [])
  let shown :=
    if given.has 'q' then []
    else if given.has 'l' then if count = 0 then [] else dye "35" name ++ [10]
    else if given.has 'L' then if count = 0 then dye "35" name ++ [10] else []
    else if given.has 'c' then (if title.isEmpty then [] else dye "35" title ++ dye "36" [58]) ++ Decimal.ofNat count ++ [10]
    else if isBinary then
      if count = 0 then [] else ("grep: " : Bytes) ++ name ++ (": binary file matches\n" : Bytes)
    else if given.has 'o' then
      if given.has 'v' then []
      else chosen.flatMap fun n => (search.parts (texts.getD n [])).flatMap fun (start, part) =>
        lead 58 n start ++ dye "01;31" part ++ finish
    else
      let hasContext := given.has 'A' || given.has 'B' || given.has 'C'
      let places := withContext (context 'B') (context 'A') chosen lines.length
      let row (n : Nat) : Bytes :=
        let gap := hasContext && n ≠ 0 && places.head? ≠ some n && !places.contains (n - 1)
        let line := texts.getD n []
        let line := if isColoured && !given.has 'v' && chosen.contains n then colouredParts (search.parts line) line else line
        (if gap then dye "36" "--" ++ [10] else ([] : Bytes)) ++ lead (if chosen.contains n then 58 else 45) n 0 ++ line ++ finish
      places.flatMap row
  (shown, count)

/-- Whether the files of a directory are searched, by the patterns for their names. -/
def isIncluded (given : Given) (path : Bytes) : Bool :=
  let fits (patterns : List Bytes) (text : Bytes) : Bool :=
    patterns.any fun (pattern : Bytes) => isMatch (pattern.map (⟨·, false⟩)) text
  let folders := (Path.names path).dropLast
  (!given.has '\x01' || fits (given.values '\x01') (Path.base path)) && !fits (given.values '\x02') (Path.base path) &&
    !folders.any (fits (given.values '\x03'))

/-- The lines that match an expression. -/
def grep (args : List Bytes) : Act Nat :=
  let long := [("ignore-case", 'i'), ("invert-match", 'v'), ("count", 'c'), ("line-number", 'n'), ("quiet", 'q'),
    ("silent", 'q'), ("only-matching", 'o'), ("word-regexp", 'w'), ("line-regexp", 'x'), ("extended-regexp", 'E'),
    ("fixed-strings", 'F'), ("regexp", 'e'), ("files-with-matches", 'l'), ("max-count", 'm'), ("recursive", 'r'),
    ("color", 'K'), ("no-filename", 'h'), ("with-filename", 'H'), ("after-context", 'A'), ("before-context", 'B'),
    ("context", 'C'), ("file", 'f'), ("no-messages", 's'), ("include", '\x01'), ("exclude", '\x02'),
    ("exclude-dir", '\x03'), ("binary-files", '\x04'), ("text", 'a'), ("byte-offset", 'b'), ("null-data", 'z'),
    ("files-without-match", 'L'), ("basic-regexp", 'G'), ("perl-regexp", 'P'), ("colour", 'K'), ("initial-tab", 'T'),
    ("dereference-recursive", 'R'), ("line-buffered", 'U')]
  Act.withOptions "grep" 2 ⟨"EFGPiyvcnlLqsowxhHrRaIzbTUK", "efmABC\x01\x02\x03\x04", long, false⟩ args fun given => do
    let (written, operands) ← if given.has 'e' || given.has 'f' then pure (given.values 'e', given.operands)
      else
        match given.operands with
        | pattern :: rest => pure ([pattern], rest)
        | [] =>
          Act.report "Usage: grep [OPTION]... PATTERNS [FILE]..."
          Act.report "Try 'grep --help' for more information."
          return 2
    let mut patterns := written.flatMap (Bytes.splitOn 10)
    for path in given.values 'f' do
      match ← Act.contentAt path with
      | .ok content => patterns := patterns ++ (linesOf content).map lineText
      | .error cause =>
        Act.report ("grep: " ++ path ++ ": " ++ reasonOf cause)
        return 2
    if given.has 'E' && !given.has 'F' then
      for sign in patterns.filterMap fun pattern => idleSign? (pattern.length + 1) true pattern do
        Act.report ("grep: warning: " ++ sign ++ " at start of expression")
    if !given.has 'F' && !given.has 'P' && patterns.any fun pattern => hasBareClass (pattern.length + 1) pattern then
      Act.report "grep: character class syntax is [[:space:]], not [:space:]"
      return 2
    match Search.ofPatterns given (given.has 'E' || given.has 'P') (given.has 'F') patterns with
    | .error misprint =>
      Act.report ("grep: " ++ misprint.message)
      pure 2
    | .ok search =>
      let isDeep := given.has 'r' || given.has 'R'
      let files := (← get).files
      let folders := if isDeep && operands.isEmpty then ([46] : Bytes) :: [] else operands
      let paths := if isDeep then folders.flatMap fun path =>
          match files.stat path with
          | .ok .directory =>
            let inner := (filesBelow files 100 path).filter (isIncluded given)
            if operands.isEmpty then inner.map (·.drop 2) else inner
          | _ => [path]
        else operands
      let isTitled := (paths.length > 1 || isDeep || given.has 'H') && !given.has 'h'
      let index := (← get).streams.length
      modify fun p => (p.withStream []).1
      let look (path content : Bytes) : Act Unit := do
        let name := if path.isEmpty || path = [45] then ("(standard input)" : Bytes) else path
        let (shown, count) := searched given search (if isTitled then name else []) (if path = [45] then [] else path) content
        let counts := if given.has 'L' then count = 0 else count ≠ 0
        if counts then modify fun p => p.emit (.stream index) [1]
        Act.put shown
      let failure ← if paths.isEmpty && !isDeep then do
          look [] (← Act.readAll)
          pure 0
        else Act.forEach (fun path => do
          if path = [45] then
            look path (← Act.readAll)
            pure 0
          else
            match ← Act.contentAt path with
            | .ok content =>
              look path content
              pure 0
            | .error cause =>
              if !given.has 's' then Act.report ("grep: " ++ path ++ ": " ++ reasonOf cause)
              pure 2) paths
      let found := !((← get).contentOf (.stream index)).isEmpty
      pure (if found && given.has 'q' then 0 else if failure ≠ 0 then 2 else if found then 0 else 1)

end Programs

end Shell

end MobilitySweep
