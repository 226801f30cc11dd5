import MobilitySweep.Shell.Launching
import MobilitySweep.Shell.Permissions
import MobilitySweep.Shell.RegularExpression

/-! # Finding files

A tree is walked from its top, and every entry is put to a test. Tests are joined by words for not, and,
or; some of them do something with the entry and hold.
-/

namespace MobilitySweep

namespace Shell

namespace Finding

/-- What an entry is put to. -/
inductive Criterion where
  | constant (value : Bool)
  | name (pattern : Field) (foldsCase : Bool)
  | path (pattern : Field) (foldsCase : Bool)
  | kind (letters : Bytes)
  | size (sign : Option UInt8) (count unit : Nat)
  | permissions (sign : Option UInt8) (change : Permissions.Change)
  | mayRun
  | expression (matcher : Matcher)
  | empty
  | print (ending : UInt8)
  | format (text : Bytes)
  | delete
  | prune
  | quit
  | run (words : List Bytes) (inFolder : Bool)
  | collect (words : List Bytes) (index : Nat)
  | negation (body : Criterion)
  | both (first second : Criterion)
  | either (first second : Criterion)
  | followed (first second : Criterion)
deriving DecidableEq, Repr

namespace Criterion

/-- Whether a criterion does something by itself. -/
def acts : Criterion → Bool
  | print _ | format _ | delete | run _ _ | collect _ _ | quit => true
  | negation body => body.acts
  | both first second | either first second | followed first second => first.acts || second.acts
  | _ => false

/-- Whether a criterion removes what it is put to, so that trees are walked from their ends. -/
def removes : Criterion → Bool
  | delete => true
  | negation body => body.removes
  | both first second | either first second | followed first second => first.removes || second.removes
  | _ => false

/-- The commands that are run at the end for all that was collected. -/
def collections : Criterion → List (List Bytes × Nat)
  | collect words index => [(words, index)]
  | negation body => body.collections
  | both first second | either first second | followed first second => first.collections ++ second.collections
  | _ => []

end Criterion

/-- How far a walk goes down. -/
structure Limits where
  least : Nat
  most : Option Nat
  fromEnds : Bool
deriving Repr

/-- The words ahead, the limits so far, the streams for collections, and how expressions are written. -/
structure Reader where
  rest : List Bytes
  limits : Limits
  streams : Nat
  isExtended : Bool

/-- What is wrong with the words of a criterion. -/
inductive Trouble where
  | noArgument (test : Bytes)
  | badArgument (test argument : Bytes)
  | noCount (test argument : Bytes)
  | unknownKind (letter : UInt8)
  | badMode (text : Bytes)
  | noExpression (text message : Bytes)
  | unknownTest (word : Bytes)
  | latePath (word : Bytes)
  | noClosing
  | noOpening
  | nothingBehind (word : Bytes)
deriving DecidableEq, Repr

/-- A word in the quotes of messages. -/
def openQuoted (word : Bytes) : Bytes := "`" ++ word ++ "'"

/-- The wording of a trouble. -/
def Trouble.message : Trouble → Bytes
  | noArgument test => "missing argument to " ++ openQuoted test
  | badArgument test argument => "invalid argument " ++ openQuoted argument ++ " to " ++ openQuoted test
  | noCount test argument =>
    "Expected a positive decimal integer argument to " ++ test ++ ", but got " ++ inQuotes argument
  | unknownKind letter => "Unknown argument to -type: " ++ [letter]
  | badMode text => "invalid mode " ++ openQuoted text
  | noExpression text message => "failed to compile regular expression " ++ inQuotes text ++ ": " ++ message
  | unknownTest word => "unknown predicate " ++ openQuoted word
  | latePath word => "paths must precede expression: " ++ openQuoted word
  | noClosing => "invalid expression; I was expecting to find a ')' somewhere but did not see one."
  | noOpening => "invalid expression; you have too many ')'"
  | nothingBehind word => "expected an expression after " ++ inQuotes word

/-- Reading a criterion from words. -/
abbrev Descent := StateT Reader (Except Trouble)

/-- The next word, if it is one of some. -/
def takeWord (words : List Bytes) : Descent Bool := do
  let r ← get
  match r.rest with
  | word :: rest =>
    if words.contains word then
      set { r with rest := rest }
      pure true
    else pure false
  | [] => pure false

/-- The argument of a test. -/
def argument (name : Bytes) : Descent Bytes := do
  let r ← get
  match r.rest with
  | word :: rest =>
    set { r with rest := rest }
    pure word
  | [] => throw (.noArgument name)

/-- A count given to a test. -/
def countArgument (name : Bytes) : Descent Nat := do
  let word ← argument name
  if word.isEmpty || !word.all Bytes.isDigit then
    throw (.noCount name word)
  else pure (Bytes.digitsValue word)

/-- The words of a command up to its end mark. -/
def commandWords (name : Bytes) : List Bytes → List Bytes → Except Trouble (List Bytes × Bool × List Bytes)
  | _, [] => .error (.noArgument name)
  | done, word :: rest =>
    if word = ";" then
      if done.isEmpty then .error (.badArgument name word)
      else .ok (done.reverse, false, rest)
    else if word = "+" && done.head? = some [123, 125] then .ok (done.tail.reverse, true, rest)
    else commandWords name (word :: done) rest

/-- A pattern as a field; a backslash protects what is behind it. -/
def patternOf : Bytes → Field
  | [] => []
  | 92 :: b :: rest => ⟨b, true⟩ :: patternOf rest
  | b :: rest => ⟨b, false⟩ :: patternOf rest

/-- A number of days or minutes that a file may be old, put to one that is new. -/
def isNewEnough (text : Bytes) : Bool :=
  match text with
  | 43 :: _ => false
  | 45 :: count => Bytes.digitsValue count ≠ 0
  | count => Bytes.digitsValue count = 0

/-- An expression in which signs for repetition are written without backslashes, as one with them, in at
most so many steps. -/
def withBackslashes : Nat → Bytes → Bytes
  | 0, text => text
  | _, [] => []
  | steps + 1, 92 :: c :: rest => 92 :: c :: withBackslashes steps rest
  | steps + 1, 91 :: rest =>
    let start := rest.takeWhile fun b => b = 94 || b = 93
    let body := (rest.drop start.length).takeWhile (· ≠ 93)
    91 :: start ++ body ++ withBackslashes steps (rest.drop (start.length + body.length))
  | steps + 1, b :: rest => (if b = 43 || b = 63 then [92, b] else [b]) ++ withBackslashes steps rest

/-- An expression that a whole path has to match. -/
def wholeMatcher (isExtended foldsCase : Bool) (text : Bytes) : Except Trouble Matcher :=
  let source := if isExtended then text else withBackslashes (text.length + 1) text
  match Writing.read ⟨isExtended, foldsCase, .words⟩ source with
  | .ok (matcher, _) => .ok ⟨.both .textStart (.both matcher.expression .textEnd), foldsCase⟩
  | .error misprint => .error (.noExpression text misprint.message)

/-- A single test. -/
def primary (whole : Descent Criterion) : Descent Criterion := do
  let r ← get
  match r.rest with
  | [] => pure (.constant true)
  | word :: rest =>
    set { r with rest := rest }
    let command (inFolder : Bool) : Descent Criterion := do
      match commandWords word [] rest with
      | .error trouble => throw trouble
      | .ok (words, isCollected, rest) =>
        set { r with rest := rest, streams := if isCollected then r.streams + 1 else r.streams }
        pure (if isCollected then .collect words r.streams else .run words inFolder)
    if word = "(" then
      let inner ← whole
      if ← takeWord [")"] then pure inner
      else throw .noClosing
    else if word = "-name" then pure (.name (patternOf (← argument word)) false)
    else if word = "-iname" then pure (.name (patternOf (← argument word)) true)
    else if word = "-path" || word = "-wholename" then pure (.path (patternOf (← argument word)) false)
    else if word = "-ipath" then pure (.path (patternOf (← argument word)) true)
    else if word = "-type" then
      let letters ← argument word
      let kinds := letters.filter (· ≠ 44)
      match kinds.find? fun b => !("fdlbcps" : Bytes).contains b with
      | some b => throw (.unknownKind b)
      | none => pure (.kind kinds)
    else if word = "-empty" then pure .empty
    else if word = "-executable" then pure .mayRun
    else if word = "-readable" || word = "-writable" then pure (.constant true)
    else if word = "-newer" || word = "-anewer" || word = "-cnewer" then
      let _ ← argument word
      pure (.constant false)
    else if word = "-user" || word = "-group" then
      let name ← argument word
      pure (.constant (name = "root" || name = "0"))
    else if word = "-uid" || word = "-gid" then pure (.constant ((← argument word) = [48]))
    else if word = "-mtime" || word = "-mmin" || word = "-atime" || word = "-amin" || word = "-ctime" || word = "-cmin" then
      let text ← argument word
      let digits := if text.head? = some 43 || text.head? = some 45 then text.tail else text
      if digits.isEmpty || !digits.all Bytes.isDigit then throw (.badArgument word text)
      else pure (.constant (isNewEnough text))
    else if word = "-perm" then
      let text ← argument word
      let (sign, mode) : Option UInt8 × Bytes := match text with
        | 45 :: more => (some 45, more)
        | 47 :: more => (some 47, more)
        | _ => (none, text)
      match Permissions.Change.ofText? mode with
      | some change => pure (.permissions sign change)
      | none => throw (.badMode text)
    else if word = "-regextype" then
      let kind ← argument word
      modify fun r => { r with isExtended := kind = "posix-extended" || kind = "egrep" || kind = "posix-egrep" }
      pure (.constant true)
    else if word = "-regex" || word = "-iregex" then
      let text ← argument word
      match wholeMatcher (← get).isExtended (word = "-iregex") text with
      | .ok matcher => pure (.expression matcher)
      | .error trouble => throw trouble
    else if word = "-print" then pure (.print 10)
    else if word = "-print0" then pure (.print 0)
    else if word = "-printf" then pure (.format (← argument word))
    else if word = "-delete" then pure .delete
    else if word = "-prune" then pure .prune
    else if word = "-quit" then pure .quit
    else if word = "-true" then pure (.constant true)
    else if word = "-false" then pure (.constant false)
    else if word = "-exec" || word = "-ok" then command false
    else if word = "-execdir" then command true
    else if word = "-size" then
      let text ← argument word
      let (sign, body) : Option UInt8 × Bytes := match text with
        | 43 :: more => (some 43, more)
        | 45 :: more => (some 45, more)
        | _ => (none, text)
      let digits := body.takeWhile Bytes.isDigit
      let unit : Nat := match body.drop digits.length with
        | [99] => 1
        | [119] => 2
        | [107] => 1024
        | [77] => 1048576
        | _ => 512
      if digits.isEmpty then throw (.badArgument word text)
      else pure (.size sign (Bytes.digitsValue digits) unit)
    else if word = "-maxdepth" then
      let most ← countArgument word
      modify fun r => { r with limits := { r.limits with most := some most } }
      pure (.constant true)
    else if word = "-mindepth" then
      let least ← countArgument word
      modify fun r => { r with limits := { r.limits with least := least } }
      pure (.constant true)
    else if word = "-depth" || word = "-d" then
      modify fun r => { r with limits := { r.limits with fromEnds := true } }
      pure (.constant true)
    else if word = "-follow" || word = "-xdev" || word = "-mount" || word = "-noleaf" then pure (.constant true)
    else if word.head? = some 45 then throw (.unknownTest word)
    else throw (.latePath word)

/-- A test with negations before it, at most so many. -/
def negated (whole : Descent Criterion) : Nat → Descent Criterion
  | 0 => primary whole
  | count + 1 => do
    if ← takeWord ["!", "-not"] then
      if (← get).rest.isEmpty then throw (.nothingBehind [33])
      pure (.negation (← negated whole count))
    else primary whole

/-- Whether a criterion ends before the next word. -/
def isOver : Descent Bool := do
  match (← get).rest with
  | [] => pure true
  | word :: _ => pure (([[41], "-o", "-or", [44]] : List Bytes).contains word)

/-- Tests that have to hold together, at most so many. -/
def conjunction (one : Descent Criterion) : Nat → Criterion → Descent Criterion
  | 0, done => pure done
  | count + 1, done => do
    if ← isOver then pure done
    else
      let joined ← takeWord ["-a", "-and"]
      if joined && (← isOver) then throw (.nothingBehind "-a")
      conjunction one count (.both done (← one))

/-- Alternatives, at most so many. -/
def alternatives (one : Descent Criterion) (count : Nat) : Nat → Criterion → Descent Criterion
  | 0, done => pure done
  | more + 1, done => do
    if ← takeWord ["-o", "-or"] then
      if ← isOver then throw (.nothingBehind "-o")
      let next ← conjunction one count (← one)
      alternatives one count more (.either done next)
    else if ← takeWord [[44]] then
      let next ← conjunction one count (← one)
      alternatives one count more (.followed done next)
    else pure done

/-- A criterion with others nested inside it at most so deep. -/
def criterion : Nat → Nat → Descent Criterion
  | 0, _ => throw .noClosing
  | depth + 1, count => do
    let one := negated (criterion depth count) count
    let first ← conjunction one count (← one)
    alternatives one count count first

/-- The criterion of some words, with the limits that they set. -/
def parse (words : List Bytes) (streams : Nat) : Except Trouble (Criterion × Limits) := do
  let start : Reader := ⟨words, ⟨0, none, false⟩, streams, false⟩
  if words.isEmpty then .ok (.print 10, start.limits)
  else
    let (found, r) ← (criterion (words.length + 1) (words.length + 1)).run start
    match r.rest with
    | [] =>
      let found := if found.acts then found else .both found (.print 10)
      .ok (found, { r.limits with fromEnds := r.limits.fromEnds || found.removes })
    | word :: _ =>
      if word = [41] then .error .noOpening
      else .error (.latePath word)

/-- An entry on the way: its path, its name, the path that the walk started at, and how deep it is. -/
structure Visit where
  path : Bytes
  name : Bytes
  top : Bytes
  depth : Nat
  entry : Entry

/-- The letter for a kind of entry. -/
def kindOf : Entry → UInt8
  | .directory => 100
  | .file _ => 102
  | .link _ => 108

/-- The size of an entry. -/
def sizeOf : Entry → Nat
  | .directory => 4096
  | .file content => content.toBytes.length
  | .link target => target.length

/-- The text of a format for an entry, in at most so many steps. -/
def formatted (v : Visit) : Nat → Bytes → Bytes
  | 0, _ => []
  | _, [] => []
  | steps + 1, 92 :: rest =>
    match escape? rest with
    | some (text, more) => text ++ formatted v steps more
    | none => 92 :: formatted v steps rest
  | steps + 1, 37 :: c :: rest =>
    let folder := Files.withoutSlash (Path.splitLast v.path).1
    let shown : Bytes := match c with
      | 112 => v.path
      | 102 => v.name
      | 104 => if folder.isEmpty then [46] else folder
      | 80 => (v.path.drop v.top.length).dropWhile (· = 47)
      | 72 => v.top
      | 115 => Decimal.ofNat (sizeOf v.entry)
      | 100 => Decimal.ofNat v.depth
      | 121 => [kindOf v.entry]
      | 108 => match v.entry with
        | .link target => target
        | _ => []
      | 37 => [37]
      | c => [37, c]
    shown ++ formatted v steps rest
  | steps + 1, b :: rest => b :: formatted v steps rest

/-- What became of a test: whether it held, whether the walk stays above the entry, and whether it is
over. -/
structure Verdict where
  holds : Bool
  isPruned : Bool
  isOver : Bool

/-- An entry put to a criterion. -/
def decide (l : Launcher) (v : Visit) : Criterion → Act Verdict
  | .constant value => pure ⟨value, false, false⟩
  | .name pattern foldsCase => pure ⟨matched pattern foldsCase v.name, false, false⟩
  | .path pattern foldsCase => pure ⟨matched pattern foldsCase v.path, false, false⟩
  | .kind letters => pure ⟨letters.contains (kindOf v.entry), false, false⟩
  | .size sign count unit =>
    let size := (sizeOf v.entry + unit - 1) / unit
    pure ⟨match sign with
      | some 43 => count < size
      | some _ => size < count
      | none => size = count, false, false⟩
  | .permissions sign change => do
    let files := (← get).files
    let own := match files.resolve false v.path with
      | .ok (.taken place _) => files.permissionsAt place
      | _ => 0
    let wanted := change.apply (v.entry = .directory) 0
    pure ⟨match sign with
      | some 45 => own &&& wanted = wanted
      | some _ => wanted = 0 || own &&& wanted ≠ 0
      | none => own = wanted, false, false⟩
  | .mayRun => do
    let files := (← get).files
    pure ⟨match files.resolve true v.path with
      | .ok (.taken place _) => files.mayRun place
      | _ => false, false, false⟩
  | .expression matcher => pure ⟨matcher.isFoundIn v.path, false, false⟩
  | .empty => do
    let files := (← get).files
    pure ⟨match v.entry with
      | .directory => (namesIn files v.path).isEmpty
      | .file content => content.toBytes.isEmpty
      | .link _ => false, false, false⟩
  | .print ending => do
    Act.put (v.path ++ [ending])
    pure ⟨true, false, false⟩
  | .format text => do
    Act.put (formatted v (text.length + 1) text)
    pure ⟨true, false, false⟩
  | .delete => do
    let p ← get
    if v.path = [46] then pure ⟨true, false, false⟩
    else
      match v.entry with
      | .directory =>
        if (namesIn p.files v.path).isEmpty then
          set { p with files := p.files.removeAll v.path }
          pure ⟨true, false, false⟩
        else
          Act.report ("find: cannot delete " ++ inQuotes v.path ++ ": Directory not empty")
          pure ⟨false, false, false⟩
      | _ =>
        set { p with files := p.files.removeAll v.path }
        pure ⟨true, false, false⟩
  | .prune => pure ⟨true, true, false⟩
  | .quit => pure ⟨true, false, true⟩
  | .run words inFolder => do
    let path := if inFolder then [46, 47] ++ v.name else v.path
    let words := words.map (Bytes.replaceAll [123, 125] path)
    let before := (← get).files.workingDirectory
    if inFolder then
      let folder := (Path.splitLast v.path).1
      modify fun p =>
        match p.files.resolve true (if folder.isEmpty then [46] else folder) with
        | .ok (.taken place .directory) => { p with files := { p.files with workingDirectory := place } }
        | _ => p
    let status ← l.launch (fun name => "find: " ++ inQuotes name) (words.headD []) words.tail
    modify fun p => { p with files := { p.files with workingDirectory := before } }
    pure ⟨status = 0, false, false⟩
  | .collect _ index => do
    modify fun p => p.emit (.stream index) (v.path ++ [0])
    pure ⟨true, false, false⟩
  | .negation body => do
    let verdict ← decide l v body
    pure { verdict with holds := !verdict.holds }
  | .both first second => do
    let verdict ← decide l v first
    if verdict.holds && !verdict.isOver then
      let further ← decide l v second
      pure { further with isPruned := verdict.isPruned || further.isPruned }
    else pure verdict
  | .either first second => do
    let verdict ← decide l v first
    if verdict.holds || verdict.isOver then pure verdict
    else
      let further ← decide l v second
      pure { further with isPruned := verdict.isPruned || further.isPruned }
  | .followed first second => do
    let verdict ← decide l v first
    if verdict.isOver then pure verdict
    else
      let further ← decide l v second
      pure { further with isPruned := verdict.isPruned || further.isPruned }
where
  /-- Whether a pattern matches. -/
  matched (pattern : Field) (foldsCase : Bool) (text : Bytes) : Bool :=
    if foldsCase then
      isMatch (pattern.map fun mark => { mark with byte := Bytes.lowerByte mark.byte }) (text.map Bytes.lowerByte)
    else isMatch pattern text

/-- Entries visited one after another until the walk is over. -/
def each (visit : Bytes → Act Bool) : List Bytes → Act Bool
  | [] => pure false
  | name :: rest => do if ← visit name then pure true else each visit rest

/-- A tree walked, at most so deep; the answer says whether the walk is over. -/
def walk (l : Launcher) (found : Criterion) (limits : Limits) (top : Bytes) : Nat → Nat → Bytes → Bytes → Act Bool
  | 0, _, _, _ => pure false
  | steps + 1, depth, path, name => do
    match (← get).files.linkStat path with
    | .error cause =>
      Act.report ("find: " ++ inQuotes path ++ ": " ++ reasonOf cause)
      pure false
    | .ok entry =>
      let here : Act Verdict :=
        if depth < limits.least then pure ⟨false, false, false⟩ else decide l ⟨path, name, top, depth, entry⟩ found
      let below : Act Bool := do
        if entry = .directory && limits.most.all (depth < ·) then
          let names := namesIn (← get).files path
          let lead := if path.getLast? = some 47 then path else path ++ [47]
          each (fun name => walk l found limits top steps (depth + 1) (lead ++ name) name) names
        else pure false
      if limits.fromEnds then
        if ← below then pure true
        else
          let verdict ← here
          pure verdict.isOver
      else
        let verdict ← here
        if verdict.isOver then pure true
        else if verdict.isPruned then pure false
        else below

end Finding

namespace Launcher

/-- The files below some paths that hold a criterion. -/
def find (l : Launcher) (args : List Bytes) : Act Nat := do
  let args := args.dropWhile fun (word : Bytes) => word = "-L" || word = "-P" || word = "-H"
  let isExpression (word : Bytes) : Bool :=
    (word.head? = some 45 && 1 < word.length) || word = [40] || word = [41] || word = [33] || word = [44]
  let given := args.takeWhile (!isExpression ·)
  let words := args.drop given.length
  let paths := if given.isEmpty then [[46]] else given
  let start := (← get).streams.length
  match Finding.parse words start with
  | .error trouble =>
    Act.report ("find: " ++ trouble.message)
    pure 1
  | .ok (found, limits) =>
    let collections := found.collections
    for _ in collections do modify fun p => (p.withStream []).1
    let files := (← get).files
    let _ ← Finding.each (fun path => do
      Finding.walk l found limits path 200 0 path (if path.isEmpty then [] else Path.base path)) paths
    let missing := paths.any fun path => match files.linkStat path with
      | .ok _ => false
      | .error _ => true
    let mut status := if missing then 1 else 0
    for (words, index) in collections do
      let items := (Bytes.splitOn 0 ((← get).contentOf (.stream index))).filter (!·.isEmpty)
      if !items.isEmpty then
        let own ← l.launch (fun name => "find: " ++ inQuotes name) (words.headD []) (words.tail ++ items)
        if own ≠ 0 then status := 1
    pure status

end Launcher

end Shell

end MobilitySweep
