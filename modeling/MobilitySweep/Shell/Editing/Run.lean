import MobilitySweep.Shell.Editing.Reading
import MobilitySweep.Shell.Utility

/-! # Running edit scripts

Each line is put into the working text, the instructions run on it, and the working text is written.
-/

namespace MobilitySweep

namespace Shell

namespace Editing

/-- The state of an edit: the lines ahead, the working text and whether its line had an end, the kept text,
the number of the line, what is written and whether the last line of that lacks its end, what is to be
written behind the line, texts for files, the ranges under way with the lines that they end at, the
expression used last, whether anything was replaced, the name of the input, and the byte that ends a
line. -/
structure Desk where
  lines : List Bytes
  working : Bytes
  hasEnd : Bool
  kept : Bytes
  number : Nat
  output : Bytes
  lacksEnd : Bool
  queue : Bytes
  written : List (Bytes × Bytes)
  ranges : List (Nat × Option Nat)
  recent : Option Matcher
  isReplaced : Bool
  name : Bytes
  mark : UInt8

namespace Desk

/-- Text written, behind the end that the line before still lacks. -/
def emit (d : Desk) (text : Bytes) (hasEnd : Bool) : Desk :=
  { d with
    output := d.output ++ (if d.lacksEnd then [d.mark] else []) ++ text ++ (if hasEnd then [d.mark] else [])
    lacksEnd := !hasEnd }

/-- Whole lines written. -/
def emitLines (d : Desk) (text : Bytes) : Desk :=
  if text.isEmpty then d else d.emit (lineText text) (text.getLast? = some 10)

/-- The working text written. -/
def print (d : Desk) : Desk := d.emit d.working d.hasEnd

/-- What waited behind the line written, as it is. -/
def flush (d : Desk) : Desk :=
  if d.queue.isEmpty then d
  else
    { d with
      output := d.output ++ (if d.lacksEnd then [d.mark] else []) ++ d.queue
      lacksEnd := false
      queue := [] }

/-- Text for a file. -/
def writeTo (d : Desk) (path text : Bytes) : Desk :=
  if path = "/dev/stdout" then d.emit text d.hasEnd
  else { d with written := d.written ++ [(path, text ++ [10])] }

/-- The next line, if there is one. -/
def next? (d : Desk) : Option (Bytes × Desk) :=
  match d.lines with
  | [] => none
  | line :: rest =>
    some ((Bytes.dropSuffix? [d.mark] line).getD line,
      { d with lines := rest, number := d.number + 1, hasEnd := line.getLast? = some d.mark })

/-- The expression meant, which becomes the one used last. -/
def meant (d : Desk) (matcher : Option Matcher) : Option Matcher × Desk :=
  match matcher with
  | some m => (some m, { d with recent := some m })
  | none => (d.recent, d)

/-- Whether an address is at the current line. -/
def isAt (d : Desk) : Address → Bool × Desk
  | .line number => (d.number = number, d)
  | .last => (d.lines.isEmpty, d)
  | .every first step => (first ≤ d.number && (d.number - first) % step = 0, d)
  | .found matcher =>
    let (matcher, d) := d.meant matcher
    (matcher.any (·.isFoundIn d.working), d)

/-- Whether the lines of an instruction at a place include the current one. -/
def isSelected (d : Desk) (place : Nat) : Selection → Bool × Desk
  | .all => (true, d)
  | .one address => d.isAt address
  | .range first finish =>
    let close (d : Desk) : Desk := { d with ranges := d.ranges.filter (·.1 ≠ place) }
    match d.ranges.find? (·.1 = place) with
    | some (_, some last) =>
      (d.number ≤ last, if last ≤ d.number then close d else d)
    | some (_, none) =>
      match finish with
      | .upTo address =>
        let (isLast, d) := d.isAt address
        (true, if isLast then close d else d)
      | _ => (true, d)
    | none =>
      let (isFirst, d) := d.isAt first
      if !isFirst then (false, d)
      else
        let last : Option Nat := match finish with
          | .upTo (.line number) => some number
          | .count lines => some (d.number + lines)
          | .multiple 0 => some d.number
          | .multiple number => some ((d.number + number - 1) / number * number)
          | .upTo _ => none
        let isOver := last.any (· ≤ d.number)
        (true, if isOver then d else { d with ranges := (place, last) :: d.ranges })

end Desk

/-- How case is changed: from here on, and for the next byte only. -/
structure CaseChange where
  lasting : Option UInt8
  once : Option UInt8

/-- A byte in upper case. -/
def upperByte (b : UInt8) : UInt8 := if 97 ≤ b && b ≤ 122 then b - 32 else b

/-- A text with a change of case. -/
def CaseChange.apply (c : CaseChange) (text : Bytes) : Bytes × CaseChange :=
  match text with
  | [] => ([], c)
  | b :: rest =>
    let change (letter : Option UInt8) (b : UInt8) : UInt8 := match letter with
      | some letter => if letter = 85 || letter = 117 then upperByte b else Bytes.lowerByte b
      | none => b
    let first := change (if c.once.isSome then c.once else c.lasting) b
    (first :: rest.map (change c.lasting), { c with once := none })

/-- What a match is replaced by. -/
def filled (pieces : List Filling) (o : Occurrence) : Bytes :=
  (pieces.foldl (fun (done, c) piece =>
    match piece with
    | .text value =>
      let (text, c) := CaseChange.apply c value
      (done ++ text, c)
    | .group number =>
      let (text, c) := CaseChange.apply c (o.group number)
      (done ++ text, c)
    | .case letter =>
      if letter = 69 then (done, ⟨none, none⟩)
      else if letter = 85 || letter = 76 then (done, ({ c with lasting := some letter } : CaseChange))
      else (done, { c with once := some letter })) ([], (⟨none, none⟩ : CaseChange))).1

/-- The working text with matches replaced. -/
def Desk.substitute (d : Desk) (s : Substitution) : Desk :=
  match d.meant s.matcher with
  | (none, d) => d
  | (some matcher, d) =>
    let found := (matcher.occurrences d.working).drop (s.first - 1)
    let chosen := if s.isEverywhere then found else found.take 1
    if chosen.isEmpty then d
    else
      let d := { d with working := Matcher.replaced d.working (filled s.filling) chosen, isReplaced := true }
      let d := if s.prints then d.print else d
      match s.file with
      | some path => d.writeTo path d.working
      | none => d

/-- A byte shown without doubt. -/
def shownByte (b : UInt8) : Bytes :=
  match b with
  | 92 => "\\\\"
  | 7 => "\\a"
  | 8 => "\\b"
  | 12 => "\\f"
  | 10 => "\\n"
  | 13 => "\\r"
  | 9 => "\\t"
  | 11 => "\\v"
  | b =>
    if 32 ≤ b && b < 127 then [b]
    else
      let n := b.toNat
      [92, UInt8.ofNat (48 + n / 64), UInt8.ofNat (48 + n / 8 % 8), UInt8.ofNat (48 + n % 8)]

/-- A text shown without doubt, on lines of a limited width. -/
def unfolded (text : Bytes) : Bytes :=
  let step : Bytes × Nat → UInt8 → Bytes × Nat := fun (done, width) b =>
    let shown := shownByte b
    if 69 < width + shown.length then (done ++ [92, 10] ++ shown, shown.length)
    else (done ++ shown, width + shown.length)
  (text.foldl step ([], 0)).1 ++ [36]

/-- How a line ends: its working text is written or not, the instructions start again without a new line,
the edit is over, or never gets further. -/
inductive CycleEnd where
  | done (prints : Bool)
  | again
  | quit (status : Nat) (prints : Bool)
  | stuck
deriving DecidableEq, Repr

/-- The working text without its first line, if it has another one. -/
def behindFirstLine (text : Bytes) : Option Bytes :=
  match text.dropWhile (· ≠ 10) with
  | _ :: rest => some rest
  | [] => none

/-- The instructions from a place on, in at most so many steps. -/
def runFrom (quiet : Bool) (contentOf : Bytes → Bytes) (script : Array Instruction) :
    Nat → Nat → Desk → Desk × CycleEnd
  | 0, _, d => (d, .stuck)
  | steps + 1, place, d =>
    match script[place]? with
    | none => (d, .done true)
    | some instruction =>
      let go := runFrom quiet contentOf script steps
      let (isSelected, d) := d.isSelected place instruction.selection
      if isSelected == instruction.isNegated then
        match instruction.command with
        | .block finish => go finish d
        | _ => go (place + 1) d
      else
        match instruction.command with
        | .nothing | .block _ => go (place + 1) d
        | .jump time target =>
          let isDue := time = .always || (time = .afterSubstitution) == d.isReplaced
          let d := if time = .always then d else { d with isReplaced := false }
          go (if isDue then target else place + 1) d
        | .append text => go (place + 1) { d with queue := d.queue ++ text }
        | .insert text => go (place + 1) (d.emitLines text)
        | .change text =>
          let isInside := d.ranges.any (·.1 = place) && !instruction.isNegated
          (if isInside then d else d.emitLines text, .done false)
        | .delete => (d, .done false)
        | .deleteLine =>
          match behindFirstLine d.working with
          | some rest => ({ d with working := rest }, .again)
          | none => (d, .done false)
        | .fetch adds => go (place + 1) { d with working := if adds then d.working ++ [d.mark] ++ d.kept else d.kept }
        | .keep adds => go (place + 1) { d with kept := if adds then d.kept ++ [d.mark] ++ d.working else d.working }
        | .exchange => go (place + 1) { d with working := d.kept, kept := d.working }
        | .next =>
          let d := if d.lines.isEmpty || quiet then d else d.print
          match d.flush.next? with
          | some (line, d) => go (place + 1) { d with working := line }
          | none => (d, .quit 0 true)
        | .nextAdded =>
          match d.lines with
          | [] => (d, .quit 0 true)
          | _ =>
            match d.flush.next? with
            | some (line, d) => go (place + 1) { d with working := d.working ++ [d.mark] ++ line }
            | none => (d, .quit 0 true)
        | .print => go (place + 1) d.print
        | .printLine => go (place + 1) (d.emit (d.working.takeWhile (· ≠ 10)) true)
        | .number => go (place + 1) (d.emit (Decimal.ofNat d.number) true)
        | .fileName => go (place + 1) (d.emit d.name true)
        | .unfold => go (place + 1) (d.emit (unfolded d.working) true)
        | .quit status prints => (d, .quit status prints)
        | .read path => go (place + 1) { d with queue := d.queue ++ contentOf path }
        | .write path => go (place + 1) (d.writeTo path d.working)
        | .substitute substitution => go (place + 1) (d.substitute substitution)
        | .exchangeBytes table =>
          go (place + 1) { d with working := d.working.map fun b => ((table.find? (·.1 = b)).map (·.2)).getD b }
        | .clear => go (place + 1) { d with working := [] }

/-- How many steps the instructions take for one line at most. -/
def stepLimit : Nat := 20000

/-- All lines edited, in at most so many rounds: the end of the edit with its status, or none if it never
comes. -/
def edit (quiet : Bool) (contentOf : Bytes → Bytes) (script : Array Instruction) :
    Nat → Bool → Desk → Desk × Option Nat
  | 0, _, d => (d, none)
  | rounds + 1, isAgain, d =>
    let start : Option Desk := if isAgain then some d
      else (d.next?).map fun (line, d) => { d with working := line }
    match start with
    | none => (d, some 0)
    | some d =>
      let (d, finish) := runFrom quiet contentOf script stepLimit 0 { d with isReplaced := d.isReplaced && isAgain }
      match finish with
      | .stuck => (d, none)
      | .again => edit quiet contentOf script rounds true d.flush
      | .done prints => edit quiet contentOf script rounds false (if prints && !quiet then d.print else d).flush
      | .quit status prints =>
        let d := if prints && !quiet then d.print else d
        (if prints then d.flush else d, some status)

/-- An edit of some lines from its start. Ranges that start before the first line are under way. -/
def Desk.start (script : Array Instruction) (name : Bytes) (mark : UInt8) (lines : List Bytes) : Desk where
  mark := mark
  lines := lines
  working := []
  hasEnd := true
  kept := []
  number := 0
  output := []
  lacksEnd := false
  queue := []
  written := []
  ranges := script.toList.zipIdx.filterMap fun (instruction, place) =>
    match instruction.selection with
    | .range (.line 0) _ => some (place, none)
    | _ => none
  recent := none
  isReplaced := false
  name := name

/-- The files that a script writes to. -/
def targets (script : List Instruction) : List Bytes :=
  (script.filterMap fun instruction => match instruction.command with
    | .write path => some path
    | .substitute substitution => substitution.file
    | _ => none).filter fun (path : Bytes) => path ≠ "/dev/stdout"

/-- Whether an expression is used before there is one. -/
def lacksExpression (script : List Instruction) : Bool :=
  let own (address : Address) : Option Bool := match address with
    | .found matcher => some matcher.isSome
    | _ => none
  let uses := script.flatMap fun instruction =>
    (match instruction.selection with
      | .all => []
      | .one address => (own address).toList
      | .range first (.upTo address) => (own first).toList ++ (own address).toList
      | .range first _ => (own first).toList) ++
    (match instruction.command with
      | .substitute substitution => [substitution.matcher.isSome]
      | _ => [])
  uses.head? = some false

end Editing

namespace Programs

/-- Texts written to files that an edit opened. -/
def writeOut (written : List (Bytes × Bytes)) : Act Unit := do
  for (path, text) in written do
    if path = "/dev/stderr" then Act.write 2 text
    else modify fun p => { p with files := p.files.append path text }

/-- The message for a script that is wrong: which of several, and how far it was read. -/
def scriptFault (scripts : List Bytes) (flaw : Editing.Flaw) (place : Nat) : Bytes :=
  match flaw with
  | .unknownLabel _ => "sed: " ++ flaw.message
  | _ =>
    let (number, place) := locate 1 place scripts
    "sed: -e expression #" ++ Decimal.ofNat number ++ ", char " ++ Decimal.ofNat place ++ ": " ++ flaw.message
where
  /-- The script that a place of all of them is in, and the place there. -/
  locate (number place : Nat) : List Bytes → Nat × Nat
    | [] => (number, place)
    | [_] => (number, place)
    | script :: rest => if place ≤ script.length then (number, place) else locate (number + 1) (place - script.length - 1) rest

/-- Inputs edited line by line. -/
def sed (args : List Bytes) : Act Nat := do
  let long := [("quiet", 'n'), ("silent", 'n'), ("expression", 'e'), ("regexp-extended", 'E'), ("in-place", 'i'),
    ("separate", 's'), ("file", 'f'), ("null-data", 'z'), ("unbuffered", 'u')]
  if args.contains "--version" then
    Act.put "sed (GNU sed) 4.9\n"
    return 0
  let isInPlace (word : Bytes) : Bool := ("-i" : Bytes).isPrefixOf word || ("--in-place" : Bytes).isPrefixOf word
  let suffix := ((args.find? isInPlace).map fun word =>
    if ("--in-place=" : Bytes).isPrefixOf word then word.drop 11 else if ("-i" : Bytes).isPrefixOf word then word.drop 2 else [])
  let args := args.filter (!isInPlace ·)
  let table : OptionTable := ⟨"nErsuz", "efl", long, false⟩
  match table.read none args with
  | .error message =>
    Act.report ("sed: " ++ message)
    Act.report usage
    pure 1
  | .ok given =>
    let mut scripts := given.values 'e'
    for path in given.values 'f' do
      match ← Act.contentAt path with
      | .ok content => scripts := scripts ++ [lineText content]
      | .error cause =>
        Act.report ("sed: couldn't open file " ++ path ++ ": " ++ reasonOf cause)
        return 4
    let mut paths := given.operands
    if !given.has 'e' && !given.has 'f' then
      match paths with
      | script :: rest =>
        scripts := [script]
        paths := rest
      | [] =>
        Act.report usage
        return 1
    let script := Bytes.joinWith [10] scripts
    match Editing.parse (given.has 'E' || given.has 'r') script with
    | .error (flaw, place) =>
      Act.report (scriptFault scripts flaw place)
      pure (match flaw with
        | .unknownLabel _ => 4
        | _ => 1)
    | .ok instructions =>
      if Editing.lacksExpression instructions then
        Act.report (scriptFault scripts .noPrevious 0)
        return 1
      let quiet := given.has 'n' || (script.take 2 = [35, 110] && (script.length = 2 || script.getD 2 0 = 10))
      for path in Editing.targets instructions do
        let (files, fault) := (← get).files.create path
        match fault with
        | none => modify fun p => { p with files := files }
        | some _ =>
          Act.report ("sed: couldn't open file " ++ path ++ ": No such file or directory")
          return 4
      let instructions := instructions.toArray
      let mark : UInt8 := if given.has 'z' then 0 else 10
      let cutUp (content : Bytes) : List Bytes :=
        if given.has 'z' then
          let pieces := Bytes.splitOn 0 content
          pieces.dropLast.map (· ++ [0]) ++ (pieces.getLast?.filter (!·.isEmpty)).toList
        else linesOf content
      let files := (← get).files
      let contentOf (path : Bytes) : Bytes := match files.stat path with
        | .ok (.file content) => content.toBytes
        | _ => []
      let run (name : Bytes) (lines : List Bytes) : Act (Editing.Desk × Nat) := do
        let desk := Editing.Desk.start instructions name mark lines
        let (desk, status) := Editing.edit quiet contentOf instructions (20 * lines.length + 100) false desk
        writeOut desk.written
        match status with
        | some status => pure (desk, status)
        | none => Act.finish .deadline
      let mut failure := 0
      let mut all : List Bytes := []
      let mut status := 0
      for path in (if paths.isEmpty then [[45]] else paths) do
        let content : Except Files.Cause Bytes ← if path = [45] && suffix.isNone then .ok <$> Act.readAll
          else Act.contentAt path
        match content with
        | .error cause =>
          if cause = .isDirectory then
            if suffix.isSome then
              Act.report ("sed: couldn't edit " ++ path ++ ": not a regular file")
              failure := 4
            else
              Act.report ("sed: read error on " ++ path ++ ": " ++ reasonOf cause)
              failure := 4
          else
            Act.report ("sed: can't read " ++ path ++ ": " ++ reasonOf cause)
            failure := 2
        | .ok content =>
          match suffix with
          | some suffix =>
            let (desk, own) ← run path (cutUp content)
            if !suffix.isEmpty then
              modify fun p => { p with files := (p.files.writeFile (path ++ suffix) content).1 }
            let rest := desk.lines.flatten
            modify fun p => { p with files := (p.files.writeFile path (desk.output ++ rest)).1 }
            status := own
          | none =>
            if given.has 's' then
              let (desk, own) ← run path (cutUp content)
              Act.put desk.output
              status := own
            else
              let last := all.getLastD []
              let isOpen := !last.isEmpty && last.getLast? ≠ some mark && !content.isEmpty
              all := (if isOpen then all.dropLast ++ [last ++ [mark]] else all) ++ cutUp content
      if suffix.isNone && !given.has 's' then
        let (desk, own) ← run (paths.headD [45]) all
        Act.put desk.output
        status := own
      pure (if status ≠ 0 then status else failure)
where
  /-- The first line of the usage. -/
  usage : Bytes := "Usage: sed [OPTION]... \x7bscript-only-if-no-other-script\x7d [input-file]..."

end Programs

end Shell

end MobilitySweep
