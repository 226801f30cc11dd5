import MobilitySweep.Shell.Pattern
import MobilitySweep.Shell.Utility

/-! # Permissions

What the owner, the group and all others may do with a file, as three groups of three bits under three
bits of special meaning; their two written forms, and how they are changed.
-/

namespace MobilitySweep

namespace Shell

namespace Permissions

/-- The permissions that new files are not given. -/
def mask : Nat := 0o022

/-- All bits. -/
def all : Nat := 0o7777

/-- Bits without some of them. -/
def without (bits taken : Nat) : Nat := bits - (bits &&& taken)

/-- Three letters for a group; the last one also tells a bit of special meaning. -/
def letters (bits : Nat) (isSpecial : Bool) (mark : UInt8) : Bytes :=
  let last : UInt8 :=
    if isSpecial then (if bits % 2 = 1 then mark else mark - 32)
    else if bits % 2 = 1 then 120
    else 45
  [if bits / 4 % 2 = 1 then 114 else 45, if bits / 2 % 2 = 1 then 119 else 45, last]

/-- Permissions as nine letters. -/
def text (bits : Nat) : Bytes :=
  letters (bits / 64 % 8) (bits / 2048 % 2 = 1) 115 ++ letters (bits / 8 % 8) (bits / 1024 % 2 = 1) 115 ++
    letters (bits % 8) (bits / 512 % 2 = 1) 116

/-- Permissions in octal digits, at least so many. -/
def octal (width bits : Nat) : Bytes :=
  let digits := (Nat.toDigits 8 bits).map Char.toUInt8
  List.replicate (width - digits.length) 48 ++ digits

/-- The value of octal digits. -/
def ofOctal (digits : Bytes) : Nat := digits.foldl (fun n d => n * 8 + (d.toNat - 48)) 0

/-- The bits that belong to one of the letters for whom a change is meant. -/
def share (who : UInt8) : Nat :=
  if who = 117 then 0o4700 else if who = 103 then 0o2070 else if who = 111 then 0o1007 else all

/-- A step of a change: for whom, whether bits are added, taken or set, and which. -/
structure Step where
  who : Bytes
  sign : UInt8
  what : Bytes
deriving DecidableEq, Repr

namespace Step

/-- The bits that a step names, for everybody. -/
def bits (s : Step) (isDirectory : Bool) (old : Nat) : Nat :=
  let group (n : Nat) : Nat := n % 8 * 0o111
  let bit (letter : UInt8) : Nat :=
    if letter = 114 then 0o444
    else if letter = 119 then 0o222
    else if letter = 120 then 0o111
    else if letter = 88 then (if isDirectory || old &&& 0o111 ≠ 0 then 0o111 else 0)
    else if letter = 115 then 0o6000
    else if letter = 116 then 0o1000
    else if letter = 117 then group (old / 64)
    else if letter = 103 then group (old / 8)
    else group old
  if s.what.all isOctal then ofOctal s.what else s.what.foldl (fun sum letter => sum ||| bit letter) 0

/-- The permissions after a step. One that is meant for nobody in particular is for all, apart from what
new files are not given. -/
def apply (s : Step) (isDirectory : Bool) (old : Nat) : Nat :=
  let shares := s.who.foldl (fun sum letter => sum ||| share letter) 0
  let reached := if s.who.isEmpty then without all mask else shares
  let named := s.bits isDirectory old &&& reached
  if s.sign = 43 then old ||| named
  else if s.sign = 45 then without old named
  else without old (if s.who.isEmpty then all else shares) ||| named

/-- The steps of a clause behind its letters for whom, at most so many. -/
def ofSigns? (who : Bytes) : Nat → Bytes → Option (List Step)
  | 0, _ => none
  | _, [] => some []
  | count + 1, sign :: rest =>
    if !("+-=" : Bytes).contains sign then none
    else
      let isLetter (b : UInt8) : Bool := ("rwxXst" : Bytes).contains b
      let what := match rest with
        | first :: _ =>
          if ("ugo" : Bytes).contains first then [first]
          else if isOctal first then rest.takeWhile isOctal
          else rest.takeWhile isLetter
        | [] => []
      (ofSigns? who count (rest.drop what.length)).map (⟨who, sign, what⟩ :: ·)

/-- The steps of a clause. -/
def ofClause? (clause : Bytes) : Option (List Step) :=
  let who := clause.takeWhile fun b => ("ugoa" : Bytes).contains b
  let signs := clause.drop who.length
  if signs.isEmpty then none else ofSigns? who (signs.length + 1) signs

end Step

/-- A change of permissions: all bits given, or steps. -/
inductive Change where
  | exactly (bits : Nat)
  | stepwise (steps : List Step)
deriving DecidableEq, Repr

namespace Change

/-- A change as it is written. -/
def ofText? (text : Bytes) : Option Change :=
  if !text.isEmpty && text.all isOctal then
    if ofOctal text ≤ all then some (.exactly (ofOctal text)) else none
  else ((Bytes.splitOn 44 text).mapM Step.ofClause?).map fun clauses => .stepwise clauses.flatten

/-- The permissions after a change. -/
def apply (change : Change) (isDirectory : Bool) (old : Nat) : Nat :=
  match change with
  | .exactly bits => bits
  | .stepwise steps => steps.foldl (fun bits step => step.apply isDirectory bits) old

end Change

end Permissions

namespace Programs

/-- A path and the paths of all that is below it, at most so deep; directories come before what they
hold. -/
def pathsBelow (files : Files) : Nat → Bytes → List Bytes
  | 0, path => [path]
  | depth + 1, path =>
    match files.linkStat path with
    | .ok .directory =>
      path :: (namesIn files path).flatMap fun name =>
        pathsBelow files depth (if Files.endsWithSlash path then path ++ name else path ++ [47] ++ name)
    | _ => [path]

/-- How deep directories are followed. -/
def depthLimit : Nat := 1000

/-- The permissions of one path changed; a report is given if it is asked for. -/
def changePermissions (change : Permissions.Change) (given : Given) (path : Bytes) : Act Nat := do
  let p ← get
  let refuse (message : Bytes) : Act Nat := do
    if !given.has 'f' then Act.report ("chmod: " ++ message)
    pure 1
  match p.files.resolve true path with
  | .ok (.taken place entry) =>
    let old := p.files.permissionsAt place
    let new := change.apply (entry = .directory) old
    set { p with files := p.files.withPermissions place new }
    let shown (bits : Nat) : Bytes := Permissions.octal 4 bits ++ " (" ++ Permissions.text bits ++ ")"
    if old ≠ new && (given.has 'v' || given.has 'c') then
      Act.put ("mode of " ++ inQuotes path ++ " changed from " ++ shown old ++ " to " ++ shown new ++ "\n")
    else if given.has 'v' then
      Act.put ("mode of " ++ inQuotes path ++ " retained as " ++ shown old ++ "\n")
    pure 0
  | other =>
    match p.files.linkStat path, other with
    | .ok (.link _), .ok _ => refuse ("cannot operate on dangling symlink " ++ inQuotes path)
    | _, .error cause => refuse ("cannot access " ++ inQuotes path ++ ": " ++ reasonOf cause)
    | _, _ => refuse ("cannot access " ++ inQuotes path ++ ": " ++ reasonOf .missing)

/-- Permissions changed. A word that takes permissions away looks like options but is none. -/
def chmod (args : List Bytes) : Act Nat :=
  let isChange (word : Bytes) : Bool := match word with
    | 45 :: first :: _ => ("rwxXstugoa+=,01234567" : Bytes).contains first
    | _ => false
  let (changes, words) := args.partition isChange
  let long := [("recursive", 'R'), ("verbose", 'v'), ("changes", 'c'), ("silent", 'f'), ("quiet", 'f'), ("reference", '\x01')]
  Act.withOptions "chmod" 1 ⟨"Rvcf", "\x01", long, false⟩ words fun given => do
    let files := (← get).files
    let model := given.value? '\x01'
    let hasModel := model.isSome || !changes.isEmpty
    let asked := Bytes.joinWith [44] (if changes.isEmpty then given.operands.take 1 else changes)
    let paths := if hasModel then given.operands else given.operands.drop 1
    if paths.isEmpty then
      return ← missingOperand "chmod" (if asked.isEmpty then "operand" else "operand after " ++ inQuotes asked)
    let change? : Option Permissions.Change := match model with
      | some path => match files.resolve true path with
        | .ok (.taken place _) => some (.exactly (files.permissionsAt place))
        | _ => none
      | none => Permissions.Change.ofText? asked
    match change? with
    | some change =>
      let all := if given.has 'R' then paths.flatMap (pathsBelow files depthLimit) else paths
      Act.forEach (changePermissions change given) all
    | none =>
      match model with
      | some path => Act.report ("chmod: failed to get attributes of " ++ inQuotes path ++ ": " ++ reasonOf .missing)
      | none =>
        Act.report ("chmod: invalid mode: " ++ inQuotes asked)
        Act.report (helpHint "chmod")
      pure 1

end Programs

end Shell

/-! ## Files removed

Programs that remove files, links, empty directories and whole trees.
-/

namespace Shell

/-- The last name of a path. -/
def lastName (path : Bytes) : Bytes := (Path.names path).getLastD (if path.isEmpty then [] else [47])

/-- Whether a path ends in a name that every directory has. -/
def endsInDots (path : Bytes) : Bool := lastName path = Path.here || lastName path = Path.above

/-- What a program asks, and whether the next line of its input agrees. -/
def Act.agreed (question : Bytes) : Act Bool := do
  Act.write 2 question
  let (line, _) ← Act.readLine
  pure (line.head? = some 121 || line.head? = some 89)

namespace Programs

/-- The kind of an entry in words. -/
def kindOf : Entry → Bytes
  | .directory => "directory"
  | .link _ => "symbolic link"
  | .file content => if content.toBytes.isEmpty then "regular empty file" else "regular file"

/-- One path removed. -/
def removePath (given : Given) (path : Bytes) : Act Nat := do
  let files := (← get).files
  let isDeep := given.has 'r' || given.has 'R'
  let refuse (cause : Files.Cause) : Act Nat := do
    Act.report ("rm: cannot remove " ++ inQuotes path ++ ": " ++ reasonOf cause)
    pure 1
  let remove (entry : Entry) : Act Nat := do
    let isAgreed ← if given.has 'i' then Act.agreed ("rm: remove " ++ kindOf entry ++ " " ++ inQuotes path ++ "? ")
      else pure true
    if !isAgreed then pure 0
    else
      if given.has 'v' then
        for gone in (pathsBelow files depthLimit path).reverse do
          let kind : Bytes := if files.isPlainDirectory gone then "removed directory " else "removed "
          Act.put (kind ++ inQuotes gone ++ "\n")
      Act.changed (files.removeAll path) none
  match files.resolve false path with
  | .error cause => if given.has 'f' && (cause = .missing || cause = .notDirectory) then pure 0 else refuse cause
  | .ok (.free _ _) => if given.has 'f' then pure 0 else refuse .missing
  | .ok (.taken place .directory) =>
    if !isDeep && !given.has 'd' then refuse .isDirectory
    else if !isDeep && files.hasEntriesBelow place then refuse .notEmpty
    else if endsInDots path then
      Act.report ("rm: refusing to remove '.' or '..' directory: skipping " ++ inQuotes path)
      pure 1
    else if place.isEmpty then
      Act.report ("rm: it is dangerous to operate recursively on " ++ inQuotes path)
      Act.report "rm: use --no-preserve-root to override this failsafe"
      pure 1
    else
      match files.linkStat (Files.withoutSlash path) with
      | .ok (.link _) => refuse .notDirectory
      | _ => remove .directory
  | .ok (.taken _ entry) => remove entry

/-- Files removed, or whole trees. -/
def rm (args : List Bytes) : Act Nat :=
  let long := [("force", 'f'), ("recursive", 'r'), ("dir", 'd'), ("verbose", 'v'), ("interactive", 'i'),
    ("one-file-system", '\x01'), ("preserve-root", '\x01'), ("no-preserve-root", '\x01')]
  Act.withOptions "rm" 1 ⟨"frRivdI", "", long, false⟩ args fun given => do
    if given.operands.isEmpty && !given.has 'f' then missingOperand "rm" "operand"
    else Act.forEach (removePath given) given.operands

/-- One empty directory removed. -/
def removeFolder (given : Given) (isParent : Bool) (path : Bytes) : Act Nat := do
  let files := (← get).files
  if given.has 'v' then Act.put ("rmdir: removing directory, " ++ inQuotes path ++ "\n")
  let refuse (cause : Files.Cause) : Act Nat := do
    if given.has '\x01' && cause = .notEmpty then pure 0
    else
      Act.report ("rmdir: failed to remove " ++ (if isParent then "directory " else "") ++ inQuotes path ++ ": " ++
        reasonOf cause)
      pure 1
  match files.resolve false path with
  | .error cause => refuse cause
  | .ok (.free _ _) => refuse .missing
  | .ok (.taken place .directory) =>
    if lastName path = Path.here then refuse .invalid
    else if files.hasEntriesBelow place then refuse .notEmpty
    else
      match files.linkStat (Files.withoutSlash path) with
      | .ok (.link _) =>
        Act.report ("rmdir: failed to remove " ++ inQuotes path ++ ": Symbolic link not followed")
        pure 1
      | _ => Act.changed (files.erase place) none
  | .ok (.taken _ _) => refuse .notDirectory

/-- Directories removed from the last to the first until one of them cannot be. -/
def removeFolders (given : Given) : List Bytes → Act Nat
  | [] => pure 0
  | path :: parents => do
    if (← removeFolder given true path) = 0 then removeFolders given parents else pure 1

/-- Empty directories removed, perhaps with their parents. -/
def rmdir (args : List Bytes) : Act Nat :=
  let long := [("parents", 'p'), ("verbose", 'v'), ("ignore-fail-on-non-empty", '\x01')]
  Act.withOptions "rmdir" 1 ⟨"pv", "", long, false⟩ args fun given => do
    if given.operands.isEmpty then missingOperand "rmdir" "operand"
    else
      Act.forEach (fun path => do
        if (← removeFolder given false path) ≠ 0 then pure 1
        else if given.has 'p' then
          let parents := (Files.parentTexts (path.length + 1) path).tail.map Files.withoutSlash
          removeFolders given (parents.filter (!·.isEmpty))
        else pure 0) given.operands

/-- One name of a file removed. -/
def unlink (args : List Bytes) : Act Nat :=
  Act.withOptions "unlink" 1 ⟨"", "", [], false⟩ args fun given => do
    match given.operands with
    | [] => missingOperand "unlink" "operand"
    | _ :: extra :: _ =>
      Act.report ("unlink: extra operand " ++ inQuotes extra)
      Act.report (helpHint "unlink")
      pure 1
    | [path] =>
      let files := (← get).files
      let refuse (cause : Files.Cause) : Act Nat := do
        Act.report ("unlink: cannot unlink " ++ inQuotes path ++ ": " ++ reasonOf cause)
        pure 1
      match files.linkStat path with
      | .error cause => refuse cause
      | .ok .directory => refuse .isDirectory
      | .ok _ => Act.changed (files.removeAll path) none

end Programs

end Shell

end MobilitySweep
