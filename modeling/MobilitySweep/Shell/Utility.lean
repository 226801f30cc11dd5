import MobilitySweep.Shell.Format
import MobilitySweep.Shell.Job
import MobilitySweep.Text.Bytes

/-! # Utilities

The options of programs, and what the programs share.
-/

namespace MobilitySweep

/-! ## Options of programs

Options are letters behind a dash, alone or with a value, or long names behind two dashes that stand for
letters. Two dashes alone end the options.
-/

namespace Shell

/-- The options that a program knows: letters that stand alone, letters with a value, long names with the
letters that they stand for, and whether the first operand ends the options. -/
structure OptionTable where
  plain : String
  valued : String
  long : List (String × Char)
  endsAtOperand : Bool

/-- The options that were given, in order, and the operands. -/
structure Given where
  options : List (UInt8 × Bytes)
  operands : List Bytes
deriving Repr, Inhabited

namespace Given

/-- Whether an option was given. -/
def has (g : Given) (letter : Char) : Bool := g.options.any (·.1 = letter.toUInt8)

/-- The values given with an option. -/
def values (g : Given) (letter : Char) : List Bytes :=
  g.options.filterMap fun (own, value) => if own = letter.toUInt8 then some value else none

/-- The last value given with an option. -/
def value? (g : Given) (letter : Char) : Option Bytes := (g.values letter).getLast?

/-- One more option in front. -/
def withOption (letter : UInt8) (value : Bytes) (g : Given) : Given :=
  { g with options := (letter, value) :: g.options }

end Given

namespace OptionTable

/-- The letters of a word behind its dash: the options that they are, and whether the last of them takes
the next word as its value. -/
def letters (t : OptionTable) : Bytes → Except Bytes (List (UInt8 × Bytes) × Option UInt8)
  | [] => .ok ([], none)
  | letter :: rest =>
    if (t.valued : Bytes).contains letter then
      if rest.isEmpty then .ok ([], some letter) else .ok ([(letter, rest)], none)
    else if (t.plain : Bytes).contains letter then do
      let (others, waiting) ← t.letters rest
      .ok ((letter, []) :: others, waiting)
    else .error ("invalid option -- '" ++ [letter] ++ "'")

/-- The letter of a long name; a start that only one name has is enough. -/
def longLetter (t : OptionTable) (name : Bytes) : Except Bytes UInt8 :=
  match t.long.find? fun entry => Bytes.ofString entry.1 = name with
  | some (_, letter) => .ok letter.toUInt8
  | none =>
    match t.long.filter fun entry => name.isPrefixOf (Bytes.ofString entry.1) with
    | [(_, letter)] => .ok letter.toUInt8
    | _ => .error ("unrecognized option '--" ++ name ++ "'")

/-- Words read as options and operands; the message says what is wrong with them. -/
def read (t : OptionTable) : Option UInt8 → List Bytes → Except Bytes Given
  | none, [] => .ok ⟨[], []⟩
  | some letter, [] => .error ("option requires an argument -- '" ++ [letter] ++ "'")
  | some letter, word :: rest => (t.read none rest).map (·.withOption letter word)
  | none, word :: rest =>
    match word with
    | [45, 45] => .ok ⟨[], rest⟩
    | 45 :: 45 :: name =>
      let (name, value) := (name.takeWhile (· ≠ 61), name.dropWhile (· ≠ 61))
      do
        let letter ← t.longLetter name
        if (t.valued : Bytes).contains letter && value.isEmpty then t.read (some letter) rest
        else (t.read none rest).map (·.withOption letter value.tail)
    | 45 :: first :: more => do
      let (options, waiting) ← t.letters (first :: more)
      (t.read waiting rest).map fun g => { g with options := options ++ g.options }
    | _ =>
      if t.endsAtOperand then .ok ⟨[], word :: rest⟩
      else (t.read none rest).map fun g => { g with operands := word :: g.operands }

end OptionTable

end Shell

/-! ## What programs have in common

How programs read their options and inputs, and how they word what they could not do.
-/

namespace Shell

/-- A cause as programs word it. -/
def reasonOf (cause : Files.Cause) : Bytes :=
  match cause.message with
  | [] => []
  | b :: rest => (if 97 ≤ b && b ≤ 122 then b - 32 else b) :: rest

/-- A text in single quotes. -/
def inQuotes (text : Bytes) : Bytes := [39] ++ text ++ [39]

/-- A path in quotes where a shell would need them. -/
def inNeededQuotes (path : Bytes) : Bytes :=
  let special : Bytes := " \t\n!\"#$&'()*;<=>?[\\^`\x7b|\x7d~"
  if path.isEmpty || path.any special.contains then inQuotes path else path

/-- Where help about a program is found. -/
def helpHint (name : Bytes) : Bytes := "Try '" ++ name ++ " --help' for more information."

namespace Act

/-- The content of a file that a program reads. -/
def contentAt (path : Bytes) : Act (Except Files.Cause Bytes) := do
  if path = "/dev/null" then pure (.ok [])
  else if path = "/dev/stdin" then pure (.ok (← readAll))
  else if ("/dev/fd/" : Bytes).isPrefixOf path then
    let p ← get
    match p.channel? (Bytes.digitsValue (path.drop 8)) with
    | some channel => pure (.ok (p.contentOf channel))
    | none => pure (.error .missing)
  else
    match (← get).files.stat path with
    | .ok (.file content) => pure (.ok content.toBytes)
    | .ok _ => pure (.error .isDirectory)
    | .error cause => pure (.error cause)

/-- Files changed; a fault is a failure. -/
def changed (files : Files) (fault : Option Fault) : Act Nat := do
  modify fun p => { p with files := files }
  pure (if fault.isNone then 0 else 1)

/-- An activity for each of some texts; the status is that of the last failure. -/
def forEach (activity : Bytes → Act Nat) : List Bytes → Act Nat
  | [] => pure 0
  | text :: rest => do
    let status ← activity text
    let others ← forEach activity rest
    pure (if others = 0 then status else others)

/-- The inputs of a program joined: the files that it is given, or what it reads. -/
def inputs (name : Bytes) (paths : List Bytes) (activity : Bytes → Bytes → Act Unit) : Act Nat := do
  if paths.isEmpty then
    activity [] (← readAll)
    pure 0
  else
    forEach (fun path => do
      if path = "-" then
        activity path (← readAll)
        pure 0
      else
        match ← contentAt path with
        | .ok content =>
          activity path content
          pure 0
        | .error cause =>
          report (name ++ failure cause ++ shown cause path ++ ": " ++ reasonOf cause)
          pure 1) paths
where
  /-- What a program could not do with a file. -/
  failure (cause : Files.Cause) : Bytes :=
    if (name = "head" || name = "tail") && cause ≠ .isDirectory then
      ": cannot open "
    else if name = "head" || name = "tail" then ": error reading "
    else ": "
  /-- The path as the program writes it. -/
  shown (cause : Files.Cause) (path : Bytes) : Bytes :=
    if (name = "head" || name = "tail") then
      inQuotes path ++ (if cause = .isDirectory then [] else (" for reading" : Bytes))
    else inNeededQuotes path

end Act

/-- An activity with the options that a program is given; words that it does not know are reported. -/
def Act.withOptions (name : Bytes) (status : Nat) (table : OptionTable) (args : List Bytes)
    (activity : Given → Act Nat) : Act Nat := do
  match table.read none args with
  | .ok given => activity given
  | .error message =>
    report (name ++ ": " ++ message)
    report (helpHint name)
    pure status

/-- The options of a command and its other words. Two dashes end the options. -/
def splitOptions : List Bytes → List Bytes × List Bytes
  | [] => ([], [])
  | word :: rest =>
    if word = "--" then ([], rest)
    else
      let (options, operands) := splitOptions rest
      if word.head? = some 45 && word.length > 1 then (word :: options, operands)
      else (options, word :: operands)

/-- Whether a letter is among some options. -/
def hasOption (options : List Bytes) (letter : UInt8) : Bool := options.any fun option => option.tail.contains letter

/-- The lines of a text, each with its end. -/
def linesOf (text : Bytes) : List Bytes :=
  let step : Bytes × List Bytes → UInt8 → Bytes × List Bytes := fun (current, done) b =>
    if b = 10 then ([], (b :: current).reverse :: done) else (b :: current, done)
  let (current, done) := text.foldl step ([], [])
  (if current.isEmpty then done else current.reverse :: done).reverse

/-- A line without its end. -/
def lineText (line : Bytes) : Bytes := (Bytes.dropSuffix? [10] line).getD line

/-- A line with an end. -/
def asLine (line : Bytes) : Bytes := if line.getLast? = some 10 then line else line ++ [10]

/-- A program that was given no operand. -/
def missingOperand (name what : Bytes) : Act Nat := do
  Act.report (name ++ ": missing " ++ what)
  Act.report (helpHint name)
  pure 1

/-- A span of seconds in nanoseconds, with a fraction and a unit. -/
def spanOf (text : Bytes) : Nat :=
  let whole := text.takeWhile Bytes.isDigit
  let digits := match text.drop whole.length with
    | 46 :: more => more.takeWhile Bytes.isDigit
    | _ => []
  let nanos := Bytes.digitsValue whole * 1000000000 + Bytes.digitsValue ((digits ++ List.replicate 9 48).take 9)
  match text.getLast? with
  | some 109 => nanos * 60
  | some 104 => nanos * 3600
  | _ => nanos

end Shell

end MobilitySweep
