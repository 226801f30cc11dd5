import MobilitySweep.Shell.Permissions

/-! # Differences between files

The lines that two files have in common, as many as can be, and the changes between them that lead from
one to the other.
-/

namespace MobilitySweep

namespace Shell

/-- A line of two files: in both, only in the first, or only in the second. -/
inductive LineFate where
  | kept (left right : Bytes)
  | deleted (line : Bytes)
  | added (line : Bytes)
deriving DecidableEq, Repr

namespace LineFate

/-- How many lines lists have in common from here on: the row of a table for one more line in front of the
first list, given the row without it. -/
def row (isSame : Bytes → Bytes → Bool) (line : Bytes) : List Bytes → List Nat → List Nat
  | b :: rest, below :: belows =>
    match row isSame line rest belows with
    | next :: more =>
      let here := if isSame line b then belows.headD 0 + 1 else max below next
      here :: next :: more
    | [] => [below]
  | _, _ => [0]

/-- The rows for all ends of a list, the longest first. -/
def table (isSame : Bytes → Bytes → Bool) (right : List Bytes) : List Bytes → List (List Nat)
  | [] => [List.replicate (right.length + 1) 0]
  | line :: rest =>
    let below := table isSame right rest
    row isSame line right (below.headD []) :: below

/-- The fates of the lines of two lists; equal lines in front belong together, and of two ways that keep as
many lines the one that deletes first is taken. -/
def align (isSame : Bytes → Bytes → Bool) : Nat → List (List Nat) → List Bytes → List Bytes → List LineFate
  | 0, _, _, _ => []
  | _, _, [], right => right.map added
  | _, _, left, [] => left.map deleted
  | count + 1, rows, a :: left, b :: right =>
    if isSame a b then kept a b :: align isSame count (rows.tail.map List.tail) left right
    else
      let without := ((rows.tail.headD []).headD 0)
      let later := ((rows.headD []).tail.headD 0)
      if later ≤ without then deleted a :: align isSame count rows.tail left (b :: right)
      else added b :: align isSame count (rows.map List.tail) (a :: left) right

/-- The fates of the lines of two texts. -/
def ofLines (isSame : Bytes → Bytes → Bool) (left right : List Bytes) : List LineFate :=
  align isSame (left.length + right.length + 1) (table isSame right left) left right

end LineFate

/-- A change: how many lines come before it in either file, the lines that go and those that come. -/
structure Hunk where
  leftStart : Nat
  rightStart : Nat
  gone : List Bytes
  come : List Bytes
deriving DecidableEq, Repr

namespace Hunk

/-- The changes among the fates of lines. -/
def ofFates : Nat → Nat → List LineFate → List Hunk
  | _, _, [] => []
  | left, right, .kept _ _ :: rest => ofFates (left + 1) (right + 1) rest
  | left, right, .deleted line :: rest => joined ⟨left, right, [line], []⟩ (ofFates (left + 1) right rest)
  | left, right, .added line :: rest => joined ⟨left, right, [], [line]⟩ (ofFates left (right + 1) rest)
where
  /-- A change in front of others; it is one with the next if nothing is between them. -/
  joined (h : Hunk) : List Hunk → List Hunk
    | next :: rest =>
      if h.leftStart + h.gone.length = next.leftStart && h.rightStart + h.come.length = next.rightStart then
        ⟨h.leftStart, h.rightStart, h.gone ++ next.gone, h.come ++ next.come⟩ :: rest
      else h :: next :: rest
    | [] => [h]

/-- Lines behind a mark; a line without an end is told. -/
def marked (mark : Bytes) (lines : List Bytes) : Bytes :=
  lines.flatMap fun line =>
    mark ++ asLine line ++ (if line.getLast? = some 10 then [] else "\\ No newline at end of file\n")

/-- The numbers of the first and the last of some lines; of no lines, that of the line before. -/
def range (start count : Nat) : Bytes :=
  if count = 0 then Decimal.ofNat start
  else if count = 1 then Decimal.ofNat (start + 1)
  else Decimal.ofNat (start + 1) ++ [44] ++ Decimal.ofNat (start + count)

/-- A change as it is written. -/
def text (h : Hunk) : Bytes :=
  let letter : UInt8 := if h.come.isEmpty then 100 else if h.gone.isEmpty then 97 else 99
  range h.leftStart h.gone.length ++ [letter] ++ range h.rightStart h.come.length ++ [10] ++ marked "< " h.gone ++
    (if letter = 99 then ("---\n" : Bytes) else []) ++ marked "> " h.come

/-- Changes in groups that share the lines around them. -/
def groups (context : Nat) : List Hunk → List (List Hunk)
  | [] => []
  | h :: rest =>
    match groups context rest with
    | (next :: others) :: more =>
      if next.leftStart - (h.leftStart + h.gone.length) ≤ 2 * context then (h :: next :: others) :: more
      else [h] :: (next :: others) :: more
    | other => [h] :: other

/-- The first line and the number of lines of a group. -/
def unifiedRange (start count : Nat) : Bytes :=
  let first := if count = 0 then start else start + 1
  if count = 1 then Decimal.ofNat first else Decimal.ofNat first ++ [44] ++ Decimal.ofNat count

/-- The lines of a group of changes from a line on, with those around them. -/
def unifiedLines (left : List Bytes) (last : Nat) : Nat → List Hunk → Bytes
  | here, [] => marked " " ((left.drop here).take (last - here))
  | here, h :: rest =>
    marked " " ((left.drop here).take (h.leftStart - here)) ++ marked "-" h.gone ++ marked "+" h.come ++
      unifiedLines left last (h.leftStart + h.gone.length) rest

/-- A group of changes with the lines around it. -/
def unified (context : Nat) (left right : List Bytes) (hunks : List Hunk) : Bytes :=
  match hunks.head?, hunks.getLast? with
  | some first, some final =>
    let start := first.leftStart - context
    let rightStart := first.rightStart - (first.leftStart - start)
    let last := min left.length (final.leftStart + final.gone.length + context)
    let rightLast := min right.length (final.rightStart + final.come.length + (last - (final.leftStart + final.gone.length)))
    ("@@ -" : Bytes) ++ unifiedRange start (last - start) ++ " +" ++ unifiedRange rightStart (rightLast - rightStart) ++
      " @@\n" ++ unifiedLines left last start hunks
  | _, _ => []

end Hunk

namespace Programs

/-- How files are compared and what is said. -/
structure DifferenceStyle where
  options : List Bytes
  isBrief : Bool
  tellsSame : Bool
  isDeep : Bool
  foldsCase : Bool
  dropsBlanks : Bool
  joinsBlanks : Bool
  context : Option Nat

namespace DifferenceStyle

/-- A line as it is compared. -/
def key (s : DifferenceStyle) (line : Bytes) : Bytes :=
  let isBlank (b : UInt8) : Bool := b = 32 || b = 9 || b = 10 || b = 13 || b = 11 || b = 12
  let line := if s.foldsCase then line.map fun b => if 65 ≤ b && b ≤ 90 then b + 32 else b else line
  if s.dropsBlanks then line.filter (!isBlank ·)
  else if s.joinsBlanks then
    Bytes.joinWith [32] ((Bytes.splitOn 32 (line.map fun b => if isBlank b then 32 else b)).filter (!·.isEmpty)) ++
      (if line.head?.any isBlank then [32] else [])
  else line

/-- Two texts compared. -/
def compare (s : DifferenceStyle) (title first second left right : Bytes) : Act Nat := do
  let lefts := linesOf left
  let rights := linesOf right
  let hunks := Hunk.ofFates 0 0 (LineFate.ofLines (fun a b => s.key a = s.key b) lefts rights)
  if hunks.isEmpty then
    if s.tellsSame then Act.put ("Files " ++ first ++ " and " ++ second ++ " are identical\n")
    pure 0
  else
    if s.isBrief then Act.put ("Files " ++ first ++ " and " ++ second ++ " differ\n")
    else if left.contains 0 || right.contains 0 then
      Act.put (title ++ "Binary files " ++ first ++ " and " ++ second ++ " differ\n")
    else
      match s.context with
      | some context =>
        let stamp : Bytes := "\t1970-01-01 00:00:00.000000000 +0000\n"
        Act.put (title ++ "--- " ++ first ++ stamp ++ "+++ " ++ second ++ stamp ++
          (Hunk.groups context hunks).flatMap (Hunk.unified context lefts rights))
      | none => Act.put (title ++ hunks.flatMap Hunk.text)
    pure 1

/-- Two paths compared, directories at most so deep. -/
def paths (s : DifferenceStyle) : Nat → Bool → Bytes → Bytes → Act Nat
  | 0, _, _, _ => pure 2
  | depth + 1, isInside, first, second => do
    let files := (← get).files
    let isFolder (path : Bytes) : Bool := match files.stat path with
      | .ok .directory => path ≠ [45]
      | _ => false
    let below (folder name : Bytes) : Bytes := if Files.endsWithSlash folder then folder ++ name else folder ++ [47] ++ name
    match isFolder first, isFolder second with
    | true, true =>
      if isInside && !s.isDeep then
        Act.put ("Common subdirectories: " ++ first ++ " and " ++ second ++ "\n")
        pure 0
      else
        let lefts := namesIn files first
        let rights := namesIn files second
        let names := (lefts ++ rights.filter (!lefts.contains ·)).mergeSort fun a b => !Bytes.less b a
        let statuses ← names.mapM fun name => do
          if !rights.contains name then
            Act.put ("Only in " ++ first ++ ": " ++ name ++ "\n")
            pure 1
          else if !lefts.contains name then
            Act.put ("Only in " ++ second ++ ": " ++ name ++ "\n")
            pure 1
          else s.paths depth true (below first name) (below second name)
        pure (statuses.foldl max 0)
    | isLeft, isRight =>
      let first := if isLeft && !isInside then below first (Path.base second) else first
      let second := if isRight && !isInside then below second (Path.base first) else second
      let read (path : Bytes) : Act (Except Files.Cause Bytes) := do
        if path = [45] then pure (.ok (← Act.readAll)) else Act.contentAt path
      match ← read first, ← read second with
      | .ok left, .ok right =>
        let title : Bytes :=
          if isInside then Bytes.joinWith [32] (Bytes.ofString "diff" :: s.options ++ [first, second]) ++ [10] else []
        s.compare title first second left right
      | left, right =>
        let complain (path : Bytes) (read : Except Files.Cause Bytes) : Act Unit := do
          match read with
          | .error cause => Act.report ("diff: " ++ path ++ ": " ++ reasonOf cause)
          | .ok _ => pure ()
        complain first left
        complain second right
        pure 2

end DifferenceStyle

/-- The differences between two files, or between those of the same name in two directories. -/
def diff (args : List Bytes) : Act Nat := do
  let long := [("brief", 'q'), ("report-identical-files", 's'), ("recursive", 'r'), ("ignore-case", 'i'),
    ("ignore-all-space", 'w'), ("ignore-space-change", 'b'), ("unified", '\x01'), ("text", 'a'), ("normal", '\x02'),
    ("new-file", 'N'), ("ignore-blank-lines", 'B'), ("minimal", 'd')]
  let refuse (message : Bytes) : Act Nat := do
    Act.report ("diff: " ++ message)
    Act.report "diff: Try 'diff --help' for more information."
    pure 2
  match (OptionTable.mk "qsriwbuaBdN" "U" long false).read none args with
  | .error message => refuse message
  | .ok given =>
    let style : DifferenceStyle :=
      { options := args.filter fun word => word.head? = some 45 && word.length > 1
        isBrief := given.has 'q'
        tellsSame := given.has 's'
        isDeep := given.has 'r'
        foldsCase := given.has 'i'
        dropsBlanks := given.has 'w'
        joinsBlanks := given.has 'b'
        context := match given.value? 'U', given.value? '\x01' with
          | some lines, _ => some (Bytes.digitsValue lines)
          | none, some lines => some (if lines.isEmpty then 3 else Bytes.digitsValue lines)
          | none, none => if given.has 'u' then some 3 else none }
    match given.operands with
    | [] => refuse "missing operand after 'diff'"
    | [path] => refuse ("missing operand after " ++ inQuotes path)
    | [first, second] => style.paths depthLimit false first second
    | _ :: _ :: extra :: _ => refuse ("extra operand " ++ inQuotes extra)

end Programs

end Shell

end MobilitySweep
