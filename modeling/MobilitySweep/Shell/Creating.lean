import MobilitySweep.Shell.Blocks
import MobilitySweep.Shell.Permissions

/-! # Files created

Programs that create directories and files, and that bring files to a size.
-/

namespace MobilitySweep

namespace Shell

namespace Programs

/-- A directory created with all its parents. A report names each that was missing. -/
def makeFolders (report : Bytes) (path : Bytes) : Act (Option (Bytes × Bytes)) := do
  let old := (← get).files
  let chain := (Files.parentTexts (path.length + 1) path).map Files.withoutSlash
  let (files, fault) := old.mkdirAll path
  let isFile (parent : Bytes) : Bool := match old.stat parent with
    | .ok (.file _) => true
    | _ => false
  modify fun p => { p with files := files }
  if !report.isEmpty then
    for parent in chain.reverse do
      if !parent.isEmpty && !old.exists? parent && files.exists? parent then
        Act.put (report ++ " directory " ++ inQuotes parent ++ "\n")
  if fault.isNone then pure none
  else if path.isEmpty then pure (some (path, reasonOf .missing))
  else
    let stuck := (chain.find? isFile).getD (Files.withoutSlash path)
    pure (some (if stuck = Files.withoutSlash path then (path, "File exists") else (stuck, "Not a directory")))

/-- One directory created. -/
def makeFolder (given : Given) (change : Option Permissions.Change) (path : Bytes) : Act Nat := do
  let refuse (path reason : Bytes) : Act Nat := do
    Act.report ("mkdir: cannot create directory " ++ inQuotes path ++ ": " ++ reason)
    pure 1
  let finish : Act Nat := do
    let files := (← get).files
    match change, files.resolve true path with
    | some change, .ok (.taken place _) =>
      Act.changed (files.withPermissions place (change.apply true (files.permissionsAt place))) none
    | _, _ => pure 0
  if given.has 'p' then
    match ← makeFolders (if given.has 'v' then "mkdir: created" else []) path with
    | some (place, reason) => refuse place reason
    | none => finish
  else
    match (← get).files.mkdir path with
    | .ok files =>
      let _ ← Act.changed files none
      if given.has 'v' then Act.put ("mkdir: created directory " ++ inQuotes path ++ "\n")
      finish
    | .error cause => refuse path (reasonOf cause)

/-- Directories created. -/
def mkdir (args : List Bytes) : Act Nat :=
  let long := [("parents", 'p'), ("verbose", 'v'), ("mode", 'm')]
  Act.withOptions "mkdir" 1 ⟨"pvZ", "m", long, false⟩ args fun given => do
    let mode := given.value? 'm'
    let change := mode.bind Permissions.Change.ofText?
    if given.operands.isEmpty then missingOperand "mkdir" "operand"
    else if mode.isSome && change.isNone then
      Act.report ("mkdir: invalid mode " ++ inQuotes (mode.getD []))
      pure 1
    else Act.forEach (makeFolder given change) given.operands

/-- Whether a text can be a time in words or numbers. -/
def isTime (text : Bytes) : Bool :=
  let words : List Bytes :=
    [Bytes.ofString "now", Bytes.ofString "today", Bytes.ofString "yesterday", Bytes.ofString "tomorrow",
      Bytes.ofString "midnight", Bytes.ofString "noon"]
  text.any Bytes.isDigit || text.all (· = 32) || words.contains text || words.any (·.isPrefixOf text)

/-- Whether a text is a time in digits: two for each of month, day, hour and minute, perhaps with a year in
front and seconds behind a dot. -/
def isStamp (text : Bytes) : Bool :=
  let digits := text.takeWhile Bytes.isDigit
  let seconds := text.drop digits.length
  [8, 10, 12].contains digits.length &&
    (seconds.isEmpty || (seconds.length = 3 && seconds.head? = some 46 && seconds.tail.all Bytes.isDigit))

/-- One file created unless it exists. -/
def touchPath (given : Given) (path : Bytes) : Act Nat := do
  let files := (← get).files
  match files.stat path with
  | .ok _ => pure 0
  | .error found =>
    if given.has 'c' || given.has 'h' || path = [45] then pure 0
    else
      match files.writablePlace path with
      | .ok _ =>
        let (files, fault) := files.openAppend path
        Act.changed files fault
      | .error .isDirectory =>
        Act.report ("touch: setting times of " ++ inQuotes path ++ ": " ++ reasonOf found)
        pure 1
      | .error cause =>
        Act.report ("touch: cannot touch " ++ inQuotes path ++ ": " ++ reasonOf cause)
        pure 1

/-- Files created unless they exist. -/
def touch (args : List Bytes) : Act Nat :=
  let long := [("no-create", 'c'), ("date", 'd'), ("no-dereference", 'h'), ("reference", 'r'), ("time", '\x01')]
  Act.withOptions "touch" 1 ⟨"acmfh", "drt\x01", long, false⟩ args fun given => do
    let wrong := ((given.values 'd').filter (!isTime ·)) ++ ((given.values 't').filter (!isStamp ·))
    let files := (← get).files
    let model := (given.value? 'r').map fun path => (path, files.stat path)
    match wrong, model with
    | text :: _, _ =>
      Act.report ("touch: invalid date format " ++ inQuotes text)
      pure 1
    | [], some (path, .error cause) =>
      Act.report ("touch: failed to get attributes of " ++ inQuotes path ++ ": " ++ reasonOf cause)
      pure 1
    | [], _ =>
      if given.operands.isEmpty then missingOperand "touch" "file operand"
      else Act.forEach (touchPath given) given.operands

/-- A size that is asked for: how it relates to the size that is there, and a number. -/
structure SizeChange where
  relation : UInt8
  amount : Nat
deriving DecidableEq, Repr

namespace SizeChange

/-- A change of size as it is written. -/
def ofText? (text : Bytes) : Option SizeChange :=
  let text := text.dropWhile (· = 32)
  let (relation, number) := match text with
    | first :: rest => if ("<>/%+-" : Bytes).contains first then (first, rest) else (61, text)
    | [] => (61, [])
  match number.getLast? with
  | some last => if ("cwb" : Bytes).contains last then none else (sizeOf? number).map (⟨relation, ·⟩)
  | none => none

/-- The size after a change. -/
def apply (c : SizeChange) (old : Nat) : Nat :=
  if c.relation = 43 then old + c.amount
  else if c.relation = 45 then old - c.amount
  else if c.relation = 60 then min old c.amount
  else if c.relation = 62 then max old c.amount
  else if c.relation = 47 then old / c.amount * c.amount
  else if c.relation = 37 then (old + c.amount - 1) / c.amount * c.amount
  else c.amount

end SizeChange

/-- One file brought to a size. -/
def resize (given : Given) (size : Nat → Nat) (path : Bytes) : Act Nat := do
  let files := (← get).files
  let old := match files.stat path with
    | .ok (.file content) => content.toBytes
    | _ => []
  if given.has 'c' && !files.exists? path then pure 0
  else
    match files.writablePlace path with
    | .error cause =>
      Act.report ("truncate: cannot open " ++ inQuotes path ++ " for writing: " ++ reasonOf cause)
      pure 1
    | .ok _ =>
      let size := size old.length
      let (files, fault) := files.writeFile path ((old ++ List.replicate (size - old.length) 0).take size)
      Act.changed files fault

/-- Files brought to a size that depends on that of another file. -/
def resizeLike (given : Given) (path : Bytes) (read : Except Files.Cause Bytes) (size : Nat → Nat) : Act Nat := do
  match read with
  | .ok content =>
    if given.operands.isEmpty then missingOperand "truncate" "file operand"
    else Act.forEach (resize given fun _ => size content.length) given.operands
  | .error cause =>
    Act.report ("truncate: cannot stat " ++ inQuotes path ++ ": " ++ reasonOf cause)
    pure 1

/-- Files cut or filled up to a size. -/
def truncate (args : List Bytes) : Act Nat :=
  let long := [("size", 's'), ("no-create", 'c'), ("reference", 'r'), ("io-blocks", 'o')]
  Act.withOptions "truncate" 1 ⟨"co", "sr", long, false⟩ args fun given => do
    let text := given.value? 's'
    let change := text.bind SizeChange.ofText?
    let model ← match given.value? 'r' with
      | some path => pure (some (path, ← Act.contentAt path))
      | none => pure none
    match text, change, model with
    | some text, none, _ =>
      Act.report ("truncate: Invalid number: " ++ inQuotes text)
      pure 1
    | none, _, none =>
      Act.report "truncate: you must specify either '--size' or '--reference'"
      Act.report (helpHint "truncate")
      pure 1
    | _, some change, some (path, read) =>
      if change.relation = 61 then
        Act.report "truncate: you must specify a relative '--size' with '--reference'"
        Act.report (helpHint "truncate")
        pure 1
      else resizeLike given path read change.apply
    | none, none, some (path, read) => resizeLike given path read id
    | _, some change, none =>
      if (change.relation = 47 || change.relation = 37) && change.amount = 0 then
        Act.report "truncate: division by zero"
        pure 1
      else if given.operands.isEmpty then missingOperand "truncate" "file operand"
      else Act.forEach (resize given change.apply) given.operands

/-- A template with the letters at its end, before a suffix, put in; the least number of them is three. -/
def filledTemplate? (template suffix : Bytes) (count : Nat) : Option Bytes :=
  let body := if suffix.isEmpty then (template.reverse.dropWhile (· ≠ 88)).reverse else template
  let ending := if suffix.isEmpty then template.drop body.length else suffix
  let width := (body.reverse.takeWhile (· = 88)).length
  if width < 3 || ending.contains 47 then none
  else
    let letter (place : Nat) : UInt8 := UInt8.ofNat (97 + count / Nat.pow 26 place % 26)
    some (body.take (body.length - width) ++ ((List.range width).map letter).reverse ++ ending)

/-- A file or a directory of a new name created, and the name told. -/
def mktemp (args : List Bytes) : Act Nat :=
  let long := [("directory", 'd'), ("dry-run", 'u'), ("quiet", 'q'), ("tmpdir", '\x01'), ("suffix", '\x02')]
  Act.withOptions "mktemp" 1 ⟨"duqt", "p\x02", long, false⟩ args fun given => do
    let files := (← get).files
    let refuse (message : Bytes) : Act Nat := do
      if !given.has 'q' then Act.report ("mktemp: " ++ message)
      pure 1
    let folder := (given.value? 'p').orElse fun _ => given.value? '\x01'
    let usual : Bytes := "/tmp"
    let isPlaced := folder.isSome || given.has 't' || given.operands.isEmpty
    let named := given.operands.headD "tmp.XXXXXXXXXX"
    let template := if isPlaced then
        (match folder with
          | some folder => if folder.isEmpty then usual else folder
          | none => usual) ++ [47] ++ named
      else named
    let suffix := (given.value? '\x02').getD []
    let candidates := (List.range 1000).filterMap (filledTemplate? template suffix)
    match candidates.find? (!files.exists? ·) with
    | none => refuse ("too few X's in template " ++ inQuotes named)
    | some path =>
      let files := if isPlaced && folder.isNone then (files.mkdirAll usual).1 else files
      let done : Files × Bool :=
        if given.has 'u' then (files, true)
        else if given.has 'd' then
          match files.mkdir path with
          | .ok files => (files, true)
          | .error _ => (files, false)
        else
          match files.writeFile path [] with
          | (files, fault) => (files, fault.isNone)
      if done.2 then
        let _ ← Act.changed done.1 none
        Act.put (path ++ [10])
        pure 0
      else
        let kind : Bytes := if given.has 'd' then "directory" else "file"
        refuse ("failed to create " ++ kind ++ " via template " ++ inQuotes template ++ ": No such file or directory")

/-- The descriptor that a path names, if it is none of a file; zero stands for one that takes everything. -/
def deviceOf? (path : Bytes) : Option Nat :=
  if path = "/dev/null" then some 0
  else if path = "/dev/stdout" then some 1
  else if path = "/dev/stderr" then some 2
  else if ("/dev/fd/" : Bytes).isPrefixOf path then some (Bytes.digitsValue (path.drop 8))
  else none

/-- A file opened for what will be written to it. -/
def openOutput (isAppended : Bool) (path : Bytes) : Act Nat := do
  let files := (← get).files
  if (deviceOf? path).isSome then pure 0
  else
    match files.writablePlace path with
    | .error cause =>
      Act.report ("tee: " ++ inNeededQuotes path ++ ": " ++ reasonOf cause)
      pure 1
    | .ok _ =>
      let (files, fault) := if isAppended then files.openAppend path else files.create path
      Act.changed files fault

/-- Input passed on and written to files. -/
def tee (args : List Bytes) : Act Nat :=
  let long := [("append", 'a'), ("ignore-interrupts", 'i'), ("output-error", 'p')]
  Act.withOptions "tee" 1 ⟨"aip", "", long, false⟩ args fun given => do
    let status ← Act.forEach (openOutput (given.has 'a')) given.operands
    let content ← Act.readAll
    Act.put content
    for path in given.operands do
      match deviceOf? path with
      | some 0 => pure ()
      | some descriptor => Act.write descriptor content
      | none => modify fun p => { p with files := p.files.append path content }
    pure status

end Programs

end Shell

end MobilitySweep
