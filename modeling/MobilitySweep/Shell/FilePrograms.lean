import MobilitySweep.Shell.Copying
import MobilitySweep.Shell.Job

/-! # What is known about files

Programs that tell where paths lead, what is there, and whether two files are the same.
-/

namespace MobilitySweep

namespace Shell

namespace Programs

/-- The place that a path leads to, under some conditions: that everything is there, that all but the last
name is, or none. -/
def placeOf (files : Files) (isWhole isAny : Bool) (path : Bytes) : Except Files.Cause Place :=
  match files.resolve true path with
  | .ok (.taken place _) => .ok place
  | .ok (.free place _) => if isWhole then .error .missing else .ok place
  | .error cause =>
    if isAny && !path.isEmpty then .ok (files.reach Files.reachLimit (files.start path) (Path.names path)) else .error cause

/-- The targets of links, or the places that paths lead to. -/
def readlink (args : List Bytes) : Act Nat :=
  let long := [("canonicalize", 'f'), ("canonicalize-existing", 'e'), ("canonicalize-missing", 'm'), ("no-newline", 'n'),
    ("quiet", 'q'), ("silent", 's'), ("verbose", 'v'), ("zero", 'z')]
  Act.withOptions "readlink" 1 ⟨"fenmqsvz", "", long, false⟩ args fun given => do
    if given.operands.isEmpty then return ← missingOperand "readlink" "operand"
    let ending : Bytes :=
      if given.has 'n' && given.operands.length = 1 then [] else if given.has 'z' then [0] else [10]
    let refuse (path : Bytes) (cause : Files.Cause) : Act Nat := do
      if given.has 'v' then Act.report ("readlink: " ++ inNeededQuotes path ++ ": " ++ reasonOf cause)
      pure 1
    Act.forEach (fun path => do
      let files := (← get).files
      if given.has 'f' || given.has 'e' || given.has 'm' then
        match placeOf files (given.has 'e') (given.has 'm') path with
        | .ok place =>
          Act.put (Path.ofComponents true place ++ ending)
          pure 0
        | .error cause => refuse path cause
      else
        match files.linkStat path with
        | .ok (.link target) =>
          Act.put (target ++ ending)
          pure 0
        | .ok _ => refuse path .invalid
        | .error cause => refuse path cause) given.operands

/-- The places that paths lead to, perhaps as seen from another one. -/
def realpath (args : List Bytes) : Act Nat :=
  let long := [("canonicalize-existing", 'e'), ("canonicalize-missing", 'm'), ("no-symlinks", 's'), ("strip", 's'),
    ("quiet", 'q'), ("zero", 'z'), ("logical", 'L'), ("physical", 'P'), ("relative-to", '\x01'), ("relative-base", '\x02')]
  Act.withOptions "realpath" 1 ⟨"emsqzLP", "\x01\x02", long, false⟩ args fun given => do
    if given.operands.isEmpty then return ← missingOperand "realpath" "operand"
    let refuse (path : Bytes) (cause : Files.Cause) : Act Nat := do
      if !given.has 'q' then Act.report ("realpath: " ++ inNeededQuotes path ++ ": " ++ reasonOf cause)
      pure 1
    let files := (← get).files
    let find (path : Bytes) : Except Files.Cause Place :=
      if given.has 's' && !path.isEmpty then .ok (Path.components (Path.absolute files.workingPath path))
      else placeOf files (given.has 'e') (given.has 'm') path
    let from? := (given.value? '\x01').map fun path => (path, find path)
    match from? with
    | some (path, .error cause) => refuse path cause
    | _ =>
      Act.forEach (fun path => do
        match find path, from? with
        | .error cause, _ => refuse path cause
        | .ok place, some (_, .ok start) =>
          Act.put (wayBetween start place ++ (if given.has 'z' then [0] else [10]))
          pure 0
        | .ok place, _ =>
          Act.put (Path.ofComponents true place ++ (if given.has 'z' then [0] else [10]))
          pure 0) given.operands

/-- The first place where two files differ: the byte and the line, counted from one. -/
def firstDifference : Nat → Nat → Bytes → Bytes → Option (Nat × Nat)
  | byte, line, a :: as, b :: bs =>
    if a = b then firstDifference (byte + 1) (if a = 10 then line + 1 else line) as bs else some (byte, line)
  | _, _, _, _ => none

/-- The places where two texts differ, counted from one, with the bytes there. -/
def differences : Nat → Bytes → Bytes → List (Nat × UInt8 × UInt8)
  | byte, a :: as, b :: bs =>
    if a = b then differences (byte + 1) as bs else (byte, a, b) :: differences (byte + 1) as bs
  | _, _, _ => []

/-- A byte as it is shown: control characters behind a hat, high bytes behind a mark. -/
def shownByte (b : UInt8) : Bytes :=
  let low := b % 128
  let plain : Bytes := if low < 32 then [94, low + 64] else if low = 127 then [94, 63] else [low]
  if b < 128 then plain else ("M-" : Bytes) ++ plain

/-- A comparison of two files: their names and contents. -/
structure Comparison where
  first : Bytes
  second : Bytes
  left : Bytes
  right : Bytes

namespace Comparison

/-- A byte in octal digits, as wide as the largest. -/
def octalText (b : UInt8) : Bytes :=
  filled false false 3 ((Nat.toDigits 8 b.toNat).map Char.toUInt8)

/-- Where the shorter file ends, unless they are as long; lines are counted only if they are asked for. -/
def endText? (c : Comparison) (countsLines : Bool) : Option Bytes :=
  if c.left.length = c.right.length then none
  else
    let (name, text) := if c.left.length < c.right.length then (c.first, c.left) else (c.second, c.right)
    let lines := text.count 10
    let place : Bytes :=
      if !countsLines then []
      else if text.getLast? = some 10 then ", line " ++ Decimal.ofNat lines
      else ", in line " ++ Decimal.ofNat (lines + 1)
    some (if text.isEmpty then "EOF on " ++ name ++ " which is empty"
      else "EOF on " ++ name ++ " after byte " ++ Decimal.ofNat text.length ++ place)

/-- Every difference on a line of its own. -/
def list (c : Comparison) (showsBytes : Bool) : Bytes :=
  let width := (Decimal.ofNat (min c.left.length c.right.length)).length
  (differences 1 c.left c.right).flatMap fun (byte, a, b) =>
    filled false false width (Decimal.ofNat byte) ++ [32] ++ octalText a ++
      (if showsBytes then [32] ++ filled true false 4 (shownByte a) else []) ++ [32] ++ octalText b ++
      (if showsBytes then [32] ++ shownByte b else []) ++ [10]

end Comparison

/-- Two files compared byte by byte. -/
def cmp (args : List Bytes) : Act Nat :=
  let long := [("silent", 's'), ("quiet", 's'), ("verbose", 'l'), ("print-bytes", 'b'), ("bytes", 'n'),
    ("ignore-initial", 'i')]
  Act.withOptions "cmp" 2 ⟨"slb", "ni", long, false⟩ args fun given => do
    let read (path : Bytes) : Act (Option Bytes) := do
      if path = [45] then pure (some (← Act.readAll))
      else
        match ← Act.contentAt path with
        | .ok content => pure (some content)
        | .error cause =>
          if !given.has 's' then Act.report ("cmp: " ++ path ++ ": " ++ reasonOf cause)
          pure none
    let cut (skipped : Nat) (text : Bytes) : Bytes :=
      let text := text.drop skipped
      match (given.value? 'n').bind sizeOf? with
      | some most => text.take most
      | none => text
    match given.operands with
    | [] =>
      Act.report "cmp: missing operand after 'cmp'"
      Act.report "cmp: Try 'cmp --help' for more information."
      pure 2
    | first :: rest =>
      let second := rest.headD [45]
      let skips := Bytes.splitOn 58 ((given.value? 'i').getD [])
      let skips := if rest.length > 1 then rest.drop 1 else skips
      match skips.find? fun text => !text.isEmpty && (sizeOf? text).isNone with
      | some text =>
        Act.report ("cmp: invalid --ignore-initial value " ++ inQuotes text)
        Act.report "cmp: Try 'cmp --help' for more information."
        pure 2
      | none =>
        let skip (index : Nat) : Nat := (sizeOf? (skips.getD index (skips.headD []))).getD 0
        let skipSecond := if rest.length = 2 then 0 else skip 1
        match ← read first with
        | none => pure 2
        | some left =>
          match ← read second with
          | none => pure 2
          | some right => compare given ⟨first, second, cut (skip 0) left, cut skipSecond right⟩
where
  /-- What is said about two texts, and whether they are the same. -/
  compare (given : Given) (c : Comparison) : Act Nat := do
    let ends : Bool → Act Unit := fun countsLines => do
      match c.endText? countsLines with
      | some text => if !given.has 's' then Act.report ("cmp: " ++ text)
      | none => pure ()
    if given.has 'l' && !given.has 's' then
      ends false
      Act.put (c.list (given.has 'b'))
      pure (if c.left = c.right then 0 else 1)
    else
      match firstDifference 1 1 c.left c.right with
      | some (byte, line) =>
        if !given.has 's' then
          let bytes : Bytes := match (differences 1 c.left c.right).head? with
            | some (_, a, b) =>
              if given.has 'b' then " is " ++ Comparison.octalText a ++ " " ++ shownByte a ++ " " ++
                Comparison.octalText b ++ " " ++ shownByte b
              else []
            | none => []
          Act.put (c.first ++ " " ++ c.second ++ " differ: " ++ (if given.has 'b' then "byte " else "char ") ++
            Decimal.ofNat byte ++ ", line " ++ Decimal.ofNat line ++ bytes ++ "\n")
        pure 1
      | none =>
        ends true
        pure (if c.left.length = c.right.length then 0 else 1)

/-- What is known about a file: its path, what it is, its permissions, and how many names it has. -/
structure Known where
  path : Bytes
  entry : Entry
  bits : Nat
  links : Nat

namespace Known

/-- The size of a file. -/
def size (f : Known) : Nat :=
  match f.entry with
  | .file content => content.toBytes.length
  | .link target => target.length
  | .directory => 4096

/-- A mark for the kind of a file, and the number for it. -/
def kind (f : Known) : UInt8 × Nat :=
  match f.entry with
  | .file _ => (45, 0o100000)
  | .link _ => (108, 0o120000)
  | .directory => (100, 0o040000)

/-- What a letter stands for. -/
def shown (f : Known) (letter : UInt8) : Bytes :=
  let number (n : Nat) : Bytes := Decimal.ofNat n
  if letter = 110 then f.path
  else if letter = 78 then
    inQuotes f.path ++ (match f.entry with
      | .link target => (" -> " : Bytes) ++ inQuotes target
      | _ => [])
  else if letter = 115 then number f.size
  else if letter = 70 then kindOf f.entry
  else if letter = 97 then Permissions.octal 1 f.bits
  else if letter = 65 then f.kind.1 :: Permissions.text f.bits
  else if letter = 98 then
    number (match f.entry with
      | .file content => (content.toBytes.length + 4095) / 4096 * 8
      | .link _ => 0
      | .directory => 8)
  else if letter = 66 then "512"
  else if letter = 111 then "4096"
  else if letter = 102 then (Nat.toDigits 16 (f.kind.2 + f.bits)).map Char.toUInt8
  else if letter = 104 then number f.links
  else if letter = 117 || letter = 103 || letter = 116 || letter = 84 then "0"
  else if letter = 85 || letter = 71 then "root"
  else if letter = 37 then [37]
  else "?"

/-- The text of a format about a file, in at most so many steps. -/
def format (f : Known) : Nat → Bytes → Bytes
  | 0, _ => []
  | _, [] => []
  | steps + 1, 37 :: rest =>
    let flags := rest.takeWhile fun b => ("-0 +#'" : Bytes).contains b
    let width := (rest.drop flags.length).takeWhile Bytes.isDigit
    match rest.drop (flags.length + width.length) with
    | letter :: more =>
      let shown := f.shown letter
      let isNumber := shown.all Bytes.isDigit
      filled (flags.contains 45) (flags.contains 48 && isNumber) (Bytes.digitsValue width) shown ++ f.format steps more
    | [] => [37]
  | steps + 1, b :: rest => b :: f.format steps rest

end Known

/-- What is known about files. -/
def stat (args : List Bytes) : Act Nat :=
  let long := [("format", 'c'), ("printf", '\x01'), ("dereference", 'L'), ("terse", 't'), ("file-system", 'f')]
  Act.withOptions "stat" 1 ⟨"Lft", "c\x01", long, false⟩ args fun given => do
    if given.operands.isEmpty then return ← missingOperand "stat" "operand"
    Act.forEach (fun path => do
      let files := (← get).files
      match files.resolve (given.has 'L') path with
      | .ok (.taken place entry) =>
        let known : Known := ⟨path, entry, files.permissionsAt place, files.nameCount place⟩
        match given.value? '\x01' with
        | some format =>
          let format := (unescape (format.length + 1) [] format).1
          Act.put (known.format (format.length + 1) format)
        | none =>
          let format := (given.value? 'c').getD "%n"
          Act.put (known.format (format.length + 1) format ++ [10])
        pure 0
      | found =>
        let cause : Files.Cause := match found with
          | .error cause => cause
          | .ok _ => .missing
        Act.report ("stat: cannot statx " ++ inQuotes path ++ ": " ++ reasonOf cause)
        pure 1) given.operands

end Programs

end Shell

end MobilitySweep
