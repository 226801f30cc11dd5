import MobilitySweep.Number.Decimal
import MobilitySweep.Shell.RegularExpression

/-! # Editing scripts

The commands of editing scripts, and how scripts are read.
-/

namespace MobilitySweep

/-! ## Edit scripts

An edit script is a list of instructions, each with the lines that it is for. Lines are taken one after
another into a working text; there is a second text to keep things in.
-/

namespace Shell

namespace Editing

/-- A line that an instruction is for: by its number, as the last one, by an expression or the one used
last, or by steps of a number. -/
inductive Address where
  | line (number : Nat)
  | last
  | found (matcher : Option Matcher)
  | every (first step : Nat)
deriving DecidableEq, Repr

/-- Where a range of lines ends: at a line, after a count, or at the next multiple of a number. -/
inductive RangeEnd where
  | upTo (address : Address)
  | count (lines : Nat)
  | multiple (number : Nat)
deriving DecidableEq, Repr

/-- The lines that an instruction is for. -/
inductive Selection where
  | all
  | one (address : Address)
  | range (first : Address) (finish : RangeEnd)
deriving DecidableEq, Repr

/-- A piece of a replacement: a text, what a group matched, or a change of case from there on. -/
inductive Filling where
  | text (value : Bytes)
  | group (number : Nat)
  | case (letter : UInt8)
deriving DecidableEq, Repr

/-- A replacement of matches: the expression or the one used last, what it is replaced by, from which
match on, whether all of those, whether the result is printed, and the file that it is written to. -/
structure Substitution where
  matcher : Option Matcher
  filling : List Filling
  first : Nat
  isEverywhere : Bool
  prints : Bool
  file : Option Bytes
deriving DecidableEq, Repr

/-- When a jump is made. -/
inductive JumpTime where
  | always
  | afterSubstitution
  | withoutSubstitution
deriving DecidableEq, Repr

/-- What an instruction does. Blocks and jumps lead to the instruction with a number. -/
inductive Command where
  | nothing
  | block (finish : Nat)
  | jump (time : JumpTime) (target : Nat)
  | append (text : Bytes)
  | insert (text : Bytes)
  | change (text : Bytes)
  | delete
  | deleteLine
  | fetch (adds : Bool)
  | keep (adds : Bool)
  | exchange
  | next
  | nextAdded
  | print
  | printLine
  | number
  | fileName
  | unfold
  | quit (status : Nat) (prints : Bool)
  | read (path : Bytes)
  | write (path : Bytes)
  | substitute (substitution : Substitution)
  | exchangeBytes (table : List (UInt8 × UInt8))
  | clear
deriving DecidableEq, Repr

/-- An instruction. -/
structure Instruction where
  selection : Selection
  isNegated : Bool
  command : Command
deriving DecidableEq, Repr

end Editing

end Shell

/-! ## Reading edit scripts

Instructions follow one another, divided by line ends or semicolons. Blocks and labels are resolved to
numbers of instructions once all of them are read.
-/

namespace Shell

namespace Editing

/-- What is wrong with a script. -/
inductive Flaw where
  | unknownCommand (letter : UInt8)
  | unterminated (letter : UInt8)
  | unknownFlag
  | openBlock
  | lonelyEnd
  | unexpectedComma
  | missingCommand
  | extra
  | noText
  | openAddress
  | missingReference (number : Nat)
  | lineZero
  | differentLengths
  | noLabel
  | noFile
  | noAddressWanted (letter : UInt8)
  | noPrevious
  | repeatedFlag (letter : UInt8)
  | zeroCount
  | misprint (reason : Misprint)
  | unknownLabel (label : Bytes)
deriving DecidableEq, Repr

/-- A letter in the quotes of messages. -/
def quotedLetter (letter : UInt8) : Bytes := "`" ++ [letter] ++ "'"

/-- The wording of a flaw. -/
def Flaw.message : Flaw → Bytes
  | unknownCommand letter => "unknown command: " ++ quotedLetter letter
  | unterminated letter => "unterminated " ++ quotedLetter letter ++ " command"
  | unknownFlag => "unknown option to `s'"
  | openBlock => "unmatched `\x7b'"
  | lonelyEnd => "unexpected `\x7d'"
  | unexpectedComma => "unexpected `,'"
  | missingCommand => "missing command"
  | extra => "extra characters after command"
  | noText => "expected \\ after `a', `c' or `i'"
  | openAddress => "unterminated address regex"
  | missingReference number => "invalid reference \\" ++ Decimal.ofNat number ++ " on `s' command's RHS"
  | lineZero => "invalid usage of line address 0"
  | differentLengths => "strings for `y' command are different lengths"
  | noLabel => "\":\" lacks a label"
  | noFile => "missing filename in r/R/w/W commands"
  | noAddressWanted letter =>
    if letter = 58 then ": doesn't want any addresses" else "comments don't accept any addresses"
  | noPrevious => "no previous regular expression"
  | repeatedFlag letter =>
    if letter = 48 then "multiple number options to `s' command"
    else "multiple " ++ quotedLetter letter ++ " options to `s' command"
  | zeroCount => "number option to `s' command may not be zero"
  | misprint reason => reason.message
  | unknownLabel label => "can't find label for jump to `" ++ label ++ "'"

/-- Reading from the rest of a script; a flaw is found with so much of it left. -/
abbrev Descent := StateT Bytes (Except (Flaw × Nat))

namespace Descent

/-- A flaw found behind the next bytes. -/
def refuse {α : Type} (flaw : Flaw) (ahead : Nat) : Descent α := do
  let rest ← get
  throw (flaw, rest.length - ahead)

/-- Bytes of a kind passed over. -/
def skip (holds : UInt8 → Bool) : Descent Unit := modify (List.dropWhile holds)

/-- Bytes of a kind taken. -/
def takeWhile (holds : UInt8 → Bool) : Descent Bytes := do
  let rest ← get
  set (rest.dropWhile holds)
  pure (rest.takeWhile holds)

/-- A blank inside a line. -/
def isBlank (b : UInt8) : Bool := b = 32 || b = 9

/-- The end of an instruction. -/
def finish : Descent Unit := do
  skip isBlank
  match ← get with
  | [] => pure ()
  | b :: rest =>
    if b = 10 || b = 59 then set rest
    else if b = 125 || b = 35 then pure ()
    else refuse .extra 1

/-- Whether a place is outside of brackets, right behind an opening one, behind a mark of negation there,
or further inside. -/
inductive Depth where
  | outside
  | opened
  | negated
  | inside
deriving DecidableEq, Repr

/-- The place behind a byte. -/
def Depth.behind (isExpression : Bool) (b : UInt8) : Depth → Depth
  | outside => if b = 91 && isExpression then opened else outside
  | opened => if b = 94 then negated else inside
  | negated => inside
  | inside => if b = 93 then outside else inside

/-- The text up to a divider, which may stand in brackets or behind a backslash. -/
def divided (divider : UInt8) (isExpression : Bool) : Depth → Bytes → Bytes → Option (Bytes × Bytes)
  | _, _, [] => none
  | depth, done, [b] => if depth = .outside && b = divider then some (done.reverse, []) else none
  | depth, done, b :: c :: rest =>
    if depth = .outside && b = 92 then
      if c = divider then
        let isSpecial := isExpression && ("*.[]^$+?()|" : Bytes).contains c
        divided divider isExpression depth (if isSpecial then c :: 92 :: done else c :: done) rest
      else if c = 10 && isExpression then divided divider isExpression depth (c :: done) rest
      else divided divider isExpression depth (c :: 92 :: done) rest
    else if depth = .outside && b = divider then some (done.reverse, c :: rest)
    else divided divider isExpression (depth.behind isExpression b) (b :: done) (c :: rest)

/-- An expression; an empty one stands for the one used last. -/
def expression (isExtended foldsCase : Bool) (text : Bytes) : Descent (Option (Matcher × Nat)) := do
  if text.isEmpty then pure none
  else
    match Writing.read ⟨isExtended, foldsCase, .wordsAndControls⟩ text with
    | .ok found => pure (some found)
    | .error reason => refuse (.misprint reason) 0

/-- The number in the next digits. -/
def number : Descent Nat := do pure (Bytes.digitsValue (← takeWhile Bytes.isDigit))

/-- An address, if there is one. -/
def address (isExtended : Bool) : Descent (Option Address) := do
  let matching (divider : UInt8) (body : Bytes) : Descent (Option Address) := do
    match divided divider true .outside [] body with
    | none => throw (.openAddress, 0)
    | some (text, rest) =>
      set rest
      let flags ← takeWhile fun b => b = 73 || b = 77
      let found ← expression isExtended (flags.contains 73) text
      pure (some (.found (found.map (·.1))))
  match ← get with
  | [] => pure none
  | b :: rest =>
    if Bytes.isDigit b then
      let first ← number
      match ← get with
      | 126 :: more =>
        set more
        let step ← number
        pure (some (if step = 0 then .line first else .every first step))
      | _ => pure (some (.line first))
    else if b = 36 then
      set rest
      pure (some .last)
    else if b = 47 then matching 47 rest
    else if b = 92 then
      match rest with
      | divider :: body => matching divider body
      | [] => refuse .unexpectedComma 1
    else pure none

/-- The lines that an instruction is for. -/
def selection (isExtended : Bool) : Descent Selection := do
  match ← address isExtended with
  | none => pure .all
  | some first =>
    skip isBlank
    match ← get with
    | 44 :: rest =>
      set rest
      skip isBlank
      match ← get with
      | 43 :: more =>
        set more
        pure (.range first (.count (← number)))
      | 126 :: more =>
        set more
        pure (.range first (.multiple (← number)))
      | _ =>
        match ← address isExtended with
        | some final => pure (.range first (.upTo final))
        | none => refuse .unexpectedComma 0
    | _ => pure (.one first)

/-- A replacement in pieces, in reverse. -/
def fillings : Bytes → List Filling → List Filling
  | [], done => done
  | 92 :: c :: rest, done =>
    if Bytes.isDigit c then fillings rest (.group (c.toNat - 48) :: done)
    else if ("LUElu" : Bytes).contains c then fillings rest (.case c :: done)
    else fillings rest (.text [(Writing.control? c).getD c] :: done)
  | 38 :: rest, done => fillings rest (.group 0 :: done)
  | b :: rest, done => fillings rest (.text [b] :: done)

/-- The name of a file up to the end of the line. -/
def fileName : Descent Bytes := do
  skip isBlank
  let name ← takeWhile (· ≠ 10)
  if name.isEmpty then refuse .noFile 0 else pure name

/-- The flags of a replacement. -/
structure Flags where
  first : Option Nat
  isEverywhere : Bool
  prints : Bool
  foldsCase : Bool
  file : Option Bytes

/-- The flags behind a replacement, at most so many. -/
def flags : Nat → Flags → Descent Flags
  | 0, done => pure done
  | count + 1, done => do
    match ← get with
    | [] => pure done
    | b :: rest =>
      if b = 103 then
        if done.isEverywhere then refuse (.repeatedFlag b) 1
        set rest
        flags count { done with isEverywhere := true }
      else if b = 112 then
        if done.prints then refuse (.repeatedFlag b) 1
        set rest
        flags count { done with prints := true }
      else if b = 105 || b = 73 then
        set rest
        flags count { done with foldsCase := true }
      else if b = 109 || b = 77 || b = 101 then
        set rest
        flags count done
      else if Bytes.isDigit b then
        let n ← number
        if n = 0 then refuse .zeroCount 0
        if done.first.isSome then refuse (.repeatedFlag 48) 0
        flags count { done with first := some n }
      else if b = 119 then
        set rest
        pure { done with file := some (← fileName) }
      else if b = 10 || b = 59 then
        set rest
        pure done
      else if isBlank b then
        set rest
        flags count done
      else if b = 125 || b = 35 then pure done
      else refuse .unknownFlag 1

/-- A replacement behind its letter. -/
def substitution (isExtended : Bool) : Descent Command := do
  match ← get with
  | [] => throw (.unterminated 115, 0)
  | divider :: body =>
    let some (pattern, rest) := divided divider true .outside [] body | throw (.unterminated 115, 0)
    let some (replacement, rest) := divided divider false .outside [] rest | throw (.unterminated 115, 0)
    set rest
    let found ← flags (rest.length + 1) ⟨none, false, false, false, none⟩
    let matcher ← expression isExtended found.foldsCase pattern
    let filling := (fillings replacement []).reverse
    let highest := filling.foldl (fun most piece => match piece with
      | .group n => max most n
      | _ => most) 0
    match matcher with
    | some (_, groups) => if groups < highest then refuse (.missingReference highest) 0
    | none => pure ()
    pure (.substitute ⟨matcher.map (·.1), filling, found.first.getD 1, found.isEverywhere, found.prints, found.file⟩)

/-- The bytes of an exchange, with their escapes. -/
def exchanged (divider : UInt8) : Bytes → Bytes
  | 92 :: c :: rest =>
    if c = 92 || c = divider then c :: exchanged divider rest
    else match Writing.control? c with
      | some b => b :: exchanged divider rest
      | none => 92 :: c :: exchanged divider rest
  | b :: rest => b :: exchanged divider rest
  | [] => []

/-- An exchange of bytes behind its letter. -/
def exchange : Descent Command := do
  match ← get with
  | [] => throw (.unterminated 121, 0)
  | divider :: body =>
    let some (source, rest) := divided divider false .outside [] body | throw (.unterminated 121, 0)
    let some (target, rest) := divided divider false .outside [] rest | throw (.unterminated 121, 0)
    set rest
    let source := exchanged divider source
    let target := exchanged divider target
    if source.length ≠ target.length then refuse .differentLengths 0
    finish
    pure (.exchangeBytes (source.zip target))

/-- The lines of a text up to one that does not end with a backslash, and what follows. -/
def textLines : Bytes → Bytes → Bytes × Bytes
  | done, [] => (done.reverse, [])
  | done, 92 :: c :: rest => textLines (c :: done) rest
  | done, 10 :: rest => (done.reverse, rest)
  | done, b :: rest => textLines (b :: done) rest

/-- The text of an instruction that adds one. -/
def text : Descent Bytes := do
  skip isBlank
  match ← get with
  | [] => refuse .noText 0
  | 92 :: rest =>
    let behind := rest.dropWhile isBlank
    let body := match behind with
      | 10 :: more => more
      | _ => rest
    let (text, rest) := textLines [] body
    set rest
    pure (text ++ [10])
  | rest =>
    let (text, rest) := textLines [] rest
    set rest
    pure (text ++ [10])

/-- A label up to a blank or a semicolon. -/
def label : Descent Bytes := do
  skip isBlank
  takeWhile fun b => !(b = 10 || b = 59 || isBlank b || b = 125)

end Descent

/-- An instruction whose target is still a label or a block under way. -/
inductive Draft where
  | ready (instruction : Instruction)
  | opening (selection : Selection) (isNegated : Bool)
  | ending
  | label (name : Bytes)
  | jump (selection : Selection) (isNegated : Bool) (time : JumpTime) (target : Bytes)
deriving Repr

/-- The instructions that have a letter alone. -/
def plainCommand? (letter : UInt8) : Option Command :=
  match letter with
  | 61 => some .number
  | 70 => some .fileName
  | 68 => some .deleteLine
  | 100 => some .delete
  | 103 => some (.fetch false)
  | 71 => some (.fetch true)
  | 104 => some (.keep false)
  | 72 => some (.keep true)
  | 110 => some .next
  | 78 => some .nextAdded
  | 112 => some .print
  | 80 => some .printLine
  | 120 => some .exchange
  | 122 => some .clear
  | _ => none

namespace Descent

/-- The instruction behind its addresses. -/
def instruction (isExtended : Bool) (selection : Selection) (isNegated : Bool) : Descent Draft := do
  let ready (command : Command) : Descent Draft := pure (.ready ⟨selection, isNegated, command⟩)
  match ← get with
  | [] => refuse .missingCommand 0
  | b :: rest =>
    set rest
    match plainCommand? b with
    | some command =>
      finish
      ready command
    | none =>
      if b = 123 then pure (.opening selection isNegated)
      else if b = 125 then
        if selection ≠ .all then refuse .lonelyEnd 0
        finish
        pure .ending
      else if b = 58 then
        if selection ≠ .all then refuse (.noAddressWanted b) 0
        let name ← label
        if name.isEmpty then refuse .noLabel 0
        pure (.label name)
      else if b = 98 || b = 116 || b = 84 then
        let name ← label
        finish
        pure (.jump selection isNegated
          (if b = 98 then .always else if b = 116 then .afterSubstitution else .withoutSubstitution) name)
      else if b = 97 then ready (.append (← text))
      else if b = 105 then ready (.insert (← text))
      else if b = 99 then ready (.change (← text))
      else if b = 113 || b = 81 then
        skip isBlank
        let status ← number
        finish
        ready (.quit status (b = 113))
      else if b = 108 then
        skip isBlank
        let _ ← number
        finish
        ready .unfold
      else if b = 114 then ready (.read (← fileName))
      else if b = 119 then ready (.write (← fileName))
      else if b = 115 then ready (← substitution isExtended)
      else if b = 121 then ready (← exchange)
      else if b = 10 || b = 59 then refuse .missingCommand 0
      else refuse (.unknownCommand b) 0

/-- The instructions of a script, at most so many. -/
def instructions (isExtended : Bool) : Nat → Descent (List Draft)
  | 0 => pure []
  | count + 1 => do
    skip fun b => isBlank b || b = 10 || b = 59
    match ← get with
    | [] => pure []
    | 35 :: rest =>
      set (rest.dropWhile (· ≠ 10))
      instructions isExtended count
    | _ =>
      let selection ← selection isExtended
      skip isBlank
      let marks ← takeWhile fun b => b = 33 || isBlank b
      match selection with
      | .one (.line 0) => refuse .lineZero 1
      | .range (.line 0) (.upTo (.found _)) => pure ()
      | .range (.line 0) _ => refuse .lineZero 1
      | _ => pure ()
      if (← get).head? = some 35 && selection ≠ .all then refuse (.noAddressWanted 35) 1
      let draft ← instruction isExtended selection (marks.contains 33)
      pure (draft :: (← instructions isExtended count))

end Descent

/-- The place behind the end of a block, given how many blocks are open inside it. -/
def blockEnd : Nat → Nat → List Draft → Option Nat
  | _, _, [] => none
  | place, depth, .opening _ _ :: rest => blockEnd (place + 1) (depth + 1) rest
  | place, depth, .ending :: rest =>
    match depth with
    | 0 => some (place + 1)
    | depth + 1 => blockEnd (place + 1) depth rest
  | place, depth, _ :: rest => blockEnd (place + 1) depth rest

/-- Instructions with the places that their blocks and labels lead to. -/
def resolved (all : List Draft) : Nat → List Draft → Except Flaw (List Instruction)
  | _, [] => .ok []
  | place, draft :: rest => do
    let first : Instruction ← match draft with
      | .ready instruction => pure instruction
      | .ending | .label _ => pure ⟨.all, false, .nothing⟩
      | .opening selection isNegated =>
        match blockEnd (place + 1) 0 rest with
        | some target => pure ⟨selection, isNegated, .block target⟩
        | none => .error .openBlock
      | .jump selection isNegated time name =>
        if name.isEmpty then pure ⟨selection, isNegated, .jump time all.length⟩
        else
          match all.findIdx? fun (other : Draft) => match other with
            | .label own => own = name
            | _ => false with
          | some target => pure ⟨selection, isNegated, .jump time target⟩
          | none => .error (.unknownLabel name)
    .ok (first :: (← resolved all (place + 1) rest))

/-- How deep blocks are after some instructions, if none ends before it starts. -/
def closesEvenly : Nat → List Draft → Bool
  | _, [] => true
  | depth, .opening _ _ :: rest => closesEvenly (depth + 1) rest
  | depth, .ending :: rest =>
    match depth with
    | 0 => false
    | depth + 1 => closesEvenly depth rest
  | depth, _ :: rest => closesEvenly depth rest

/-- The instructions of a script. A flaw comes with how much of the script had been read; nothing is said
about that where the script as a whole is wrong. -/
def parse (isExtended : Bool) (script : Bytes) : Except (Flaw × Nat) (List Instruction) := do
  let (drafts, _) ← (Descent.instructions isExtended (script.length + 1)).run script |>.mapError fun (flaw, left) =>
    (flaw, script.length - left)
  if !closesEvenly 0 drafts then .error (.lonelyEnd, (script.takeWhile (· ≠ 125)).length + 1)
  else (resolved drafts 0 drafts).mapError fun flaw => (flaw, 0)

end Editing

end Shell

end MobilitySweep
