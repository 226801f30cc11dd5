import MobilitySweep.Number.Decimal
import MobilitySweep.Shell.Arithmetic
import MobilitySweep.Shell.Job
import MobilitySweep.Shell.Pattern
import MobilitySweep.Shell.Token

/-! # Expansion

What becomes of the words of a command: braces first, then parameters, substitutions and patterns.
-/

namespace MobilitySweep

/-! ## Alternatives in braces

A word with alternatives or a sequence in braces stands for several words, one for each of them. What is
quoted or expanded later has no part in this.
-/

namespace Shell

namespace Braces

/-- A piece of a word: a byte that may be special, or a part that is not looked into. -/
inductive Atom where
  | byte (b : UInt8)
  | part (p : Part)
deriving DecidableEq, Repr

/-- The pieces of a word. -/
def atoms (word : Word) : List Atom :=
  word.flatMap fun (part : Part) => match part with
    | .text value false => value.map .byte
    | other => [.part other]

/-- The word that pieces make. -/
def word (pieces : List Atom) : Word :=
  (pieces.foldl (fun done piece => match piece with
    | .byte b => addPart (.text [b] false) done
    | .part p => addPart p done) []).reverse

/-- The pieces up to the brace that closes, divided at commas, and what follows it. -/
def alternatives : Nat → List Atom → List (List Atom) → List Atom → Option (List (List Atom) × List Atom)
  | _, _, _, [] => none
  | depth, current, done, piece :: rest =>
    if piece = .byte 123 then alternatives (depth + 1) (piece :: current) done rest
    else if piece = .byte 125 then
      match depth with
      | 0 => some ((current.reverse :: done).reverse, rest)
      | depth + 1 => alternatives depth (piece :: current) done rest
    else if piece = .byte 44 && depth = 0 then alternatives depth [] (current.reverse :: done) rest
    else alternatives depth (piece :: current) done rest

/-- The text that pieces are, if all of them are bytes. -/
def plainBytes (pieces : List Atom) : Option Bytes :=
  pieces.foldr (fun piece rest => match piece with
    | .byte b => rest.map (b :: ·)
    | .part _ => none) (some [])

/-- A text at two dots. -/
def splitDots : Bytes → List Bytes
  | [] => [[]]
  | 46 :: 46 :: rest => [] :: splitDots rest
  | b :: rest =>
    match splitDots rest with
    | first :: others => (b :: first) :: others
    | [] => [[b]]

/-- Whether a text is an integer. -/
def isInteger (text : Bytes) : Bool :=
  let digits := if text.head? = some 45 || text.head? = some 43 then text.tail else text
  !digits.isEmpty && digits.all Bytes.isDigit

/-- The integer that a text is. -/
def integer (text : Bytes) : Int :=
  let (negative, digits) := Decimal.splitSign text
  if negative then -(Bytes.digitsValue digits : Int) else Bytes.digitsValue digits

/-- The integers from one to another by a step. -/
def steps (first last : Int) (step : Nat) : List Int :=
  let step := max step 1
  let count := (last - first).natAbs / step + 1
  (List.range count).map fun (n : Nat) => if first ≤ last then first + (n * step : Nat) else first - (n * step : Nat)

/-- An integer with zeros up to a width. -/
def padded (width : Nat) (n : Int) : Bytes :=
  let digits := Decimal.ofNat n.natAbs
  let sign : Bytes := if n < 0 then [45] else []
  sign ++ List.replicate (width - sign.length - digits.length) 48 ++ digits

/-- The members of a sequence, if a text is one. -/
def sequence? (text : Bytes) : Option (List Bytes) :=
  let between (first last : Bytes) (step : Nat) : Option (List Bytes) :=
    if isInteger first && isInteger last then
      let isPadded (t : Bytes) : Bool :=
        let digits := if t.head? = some 45 then t.tail else t
        digits.length > 1 && digits.head? = some 48
      let width := if isPadded first || isPadded last then max first.length last.length else 0
      some ((steps (integer first) (integer last) step).map (padded width))
    else
      match first, last with
      | [a], [b] =>
        let isLetter (c : UInt8) : Bool := (97 ≤ c && c ≤ 122) || (65 ≤ c && c ≤ 90)
        if isLetter a && isLetter b then
          some ((steps a.toNat b.toNat step).map fun n => [UInt8.ofNat n.toNat])
        else none
      | _, _ => none
  match splitDots text with
  | [first, last] => between first last 1
  | [first, last, step] => if isInteger step then between first last (integer step).natAbs else none
  | _ => none

/-- The words that pieces stand for, in at most so many steps. -/
def expand : Nat → List Atom → List (List Atom)
  | 0, pieces => [pieces]
  | _, [] => [[]]
  | steps + 1, piece :: rest =>
    let skipped : List (List Atom) := (expand steps rest).map (piece :: ·)
    if piece ≠ .byte 123 then skipped
    else
      match alternatives 0 [] [] rest with
      | none => skipped
      | some (found, behind) =>
        let tails := expand steps behind
        match found with
        | [only] =>
          match (plainBytes only).bind sequence? with
          | some members => members.flatMap fun member => tails.map (member.map .byte ++ ·)
          | none => skipped
        | _ => (found.flatMap (expand steps)).flatMap fun choice => tails.map (choice ++ ·)

/-- The words that a word stands for. -/
def words (w : Word) : List Word :=
  let pieces := atoms w
  if pieces.contains (.byte 123) then (expand (pieces.length + 1) pieces).map word else [w]

end Braces

end Shell

/-! ## Expansion of words

Parameters, substitutions and arithmetic in a word are replaced by their values. What is not quoted is
then split into fields, and fields that are patterns become the paths that they match.
-/

namespace Shell

namespace Job

/-- The bytes that divide fields. -/
def separators (p : Job) : Bytes :=
  match p.lookUp? "IFS" with
  | some found => found.value
  | none => [32, 9, 10]

/-- What the extended language tells about itself. -/
def ownValue? (p : Job) (name : Bytes) : Option Bytes :=
  if name = "BASH" then some "/usr/bin/bash"
  else if name = "BASH_VERSION" then some "5.2.15(1)-release"
  else if name = "UID" || name = "EUID" then some "0"
  else if name = "OSTYPE" then some "linux-gnu"
  else if name = "HOSTTYPE" then some "x86_64"
  else if name = "LINENO" then some (Decimal.ofNat p.line)
  else if name = "SECONDS" then some (Decimal.ofNat (p.elapsed / 1000000000))
  else if name = "BASHPID" then some (Decimal.ofNat (p.number + p.depth))
  else if name = "RANDOM" then some (Decimal.ofNat ((p.elapsed / 1000 + p.number * 7919) % 32768))
  else none

/-- The value of a parameter, if it is set. Of an array that is its first text. -/
def value? (p : Job) (name : Bytes) : Option Bytes :=
  if name = "#" then some (Decimal.ofNat p.args.length)
  else if name = "?" then some (Decimal.ofNat p.status)
  else if name = "$" then some (Decimal.ofNat p.number)
  else if name = "-" then
    if !p.isExtended then some p.options
    else some ((("abefhkmnptuvxBC" : Bytes).filter fun letter => letter = 104 || letter = 66 || p.options.contains letter)
      ++ (if p.origin = "-c" then [99] else []))
  else if name = "!" then if p.background.isEmpty then none else some (Decimal.ofNat (p.number + p.background.length))
  else if name = "@" || name = "*" then
    if p.args.isEmpty then none
    else some (Bytes.joinWith (if name = "@" then [32] else p.separators.take 1) p.args)
  else if name = "0" then some p.name
  else if name.all Bytes.isDigit then p.args[Bytes.digitsValue name - 1]?
  else
    match p.collection? name with
    | some found => found.get? [48]
    | none =>
      match p.lookUp? name with
      | some found => some found.value
      | none => if name = "PWD" then some p.files.workingPath
        else if name = "IFS" then some [32, 9, 10]
        else if name = "OPTIND" || name = "PPID" then some [49]
        else if p.isExtended then p.ownValue? name
        else none

/-- The value of a parameter; nothing if it is unset. -/
def value (p : Job) (name : Bytes) : Bytes := (p.value? name).getD []

/-- The name and the subscript of an element. -/
def element? (name : Bytes) : Option (Bytes × Bytes) :=
  let base := name.takeWhile (· ≠ 91)
  if base.length < name.length then some (base, (name.drop (base.length + 1)).dropLast) else none

/-- The entry of an array that a number means: negative ones count from the end. -/
def place (found : Option Collection) (number : Int64) : Bytes :=
  let next : Int := ((found.map Collection.nextNumber).getD 0 : Nat)
  let number := number.toInt
  Decimal.ofNat (if number < 0 then next + number else number).toNat

/-- The text of a variable or element in arithmetic, with subscripts nested at most so deep. -/
def textOf (p : Job) : Nat → Bytes → Bytes
  | 0, _ => []
  | depth + 1, name =>
    match element? name with
    | none => p.value name
    | some (base, subscript) =>
      let found := p.collection? base
      if found.any (·.isKeyed) then
        (found.bind (·.get? (subscript.filter fun b => b ≠ 34 && b ≠ 39))).getD []
      else
        match Arithmetic.value .extended (Arithmetic.valueWithin (p.textOf depth) 100) subscript with
        | .ok (number, _) =>
          match found with
          | some c => (c.get? (place found number)).getD []
          | none => if number = 0 then p.value base else []
        | .error _ => []

/-- The value of an expression and the assignments that it makes. -/
def calculate (p : Job) (text : Bytes) : Except Arithmetic.Trouble (Int64 × List (Bytes × Int64)) :=
  if p.isExtended then Arithmetic.value .extended (Arithmetic.valueWithin (p.textOf 20) 100) text
  else Arithmetic.value .plain (fun name => Arithmetic.wordOfText (p.value name)) text

/-- The entry of an array that the text of a subscript means. -/
def entryOf (p : Job) (name subscript : Bytes) : Except Arithmetic.Trouble Bytes :=
  let found := p.collection? name
  if found.any (·.isKeyed) then .ok subscript
  else (p.calculate subscript).map fun (number, _) => place found number

/-- An element of an array set; the array comes into being if it has to. -/
def withElement (p : Job) (name key text : Bytes) : Job :=
  let start : Collection := match p.collection? name, p.lookUp? name with
    | some found, _ => found
    | none, some old => .ofList [old.value]
    | none, none => ⟨false, []⟩
  ({ p with bindings := p.bindings.filter (·.1 ≠ name) }).withCollection name (some (start.insert key text))

/-- A variable, or the first text of an array, set. -/
def given (p : Job) (name text : Bytes) (exported : Bool) : Job :=
  if (p.collection? name).isSome then p.withElement name [48] text else p.assigned name text exported

/-- What arithmetic assigned. -/
def calculated (p : Job) (made : List (Bytes × Int64)) : Job :=
  made.foldr (fun (name, value) p =>
    let text := Decimal.ofInt64 value
    match element? name with
    | some (base, subscript) =>
      match p.entryOf base subscript with
      | .ok key => p.withElement base key text
      | .error _ => p
    | none => p.given name text false) p

end Job

/-- Fields under way: the finished ones in reverse, the one that grows, and whether the last one was
ended by a blank. -/
structure Fields where
  done : List Field
  current : Option Field
  isBlank : Bool

namespace Fields

/-- Nothing yet. -/
def empty : Fields := ⟨[], none, false⟩

/-- More of the field that grows. -/
def add (f : Fields) (field : Field) : Fields := ⟨f.done, some (f.current.getD [] ++ field), false⟩

/-- The field that grows ended. -/
def cut (f : Fields) : Fields := ⟨f.current.toList ++ f.done, none, false⟩

/-- A text split at separators: blanks among them count once, others each time. -/
def split (separators : Bytes) (f : Fields) (text : Bytes) : Fields :=
  text.foldl (fun f b =>
    if !separators.contains b then f.add [⟨b, false⟩]
    else if b = 32 || b = 9 || b = 10 then
      match f.current with
      | some _ => { f.cut with isBlank := true }
      | none => f
    else
      match f.current with
      | some _ => f.cut
      | none => if f.isBlank then { f with isBlank := false } else (f.add []).cut) f

/-- The fields of a list of texts, of which the first joins what stands before it. -/
def addAll (f : Fields) (quoted : Bool) (separators : Bytes) : List Bytes → Fields
  | [] => f
  | [last] => one f last
  | first :: rest => addAll (one f first).cut quoted separators rest
where
  /-- One more text. -/
  one (f : Fields) (text : Bytes) : Fields :=
    if quoted then f.add (Field.ofBytes true text) else split separators f text

/-- All fields in order. -/
def toList (f : Fields) : List Field := f.cut.done.reverse

end Fields

/-- How a word is expanded: by whether it is split into fields, and by what gives the output of scripts. -/
structure Expander where
  splits : Bool
  outputOf : Bytes → Act Bytes

/-- The output of a script as a value: without the line ends behind it. -/
def outputValue (output : Bytes) : Bytes := ((output.filter (· ≠ 0)).reverse.dropWhile (· = 10)).reverse

namespace Expander

/-- A value added to the fields. -/
def addValue (e : Expander) (quoted : Bool) (fields : Fields) (text : Bytes) : Act Fields := do
  if quoted || !e.splits then pure (fields.add (Field.ofBytes quoted text))
  else pure (fields.split (← get).separators text)

/-- Texts added to the fields, each on its own. -/
def addTexts (e : Expander) (quoted : Bool) (fields : Fields) (texts : List Bytes) : Act Fields := do
  if !e.splits then pure (fields.add (Field.ofBytes quoted (Bytes.joinWith [32] texts)))
  else if texts.isEmpty then
    pure (if fields.current = some [] then { fields with current := none } else fields)
  else pure (fields.addAll quoted (← get).separators texts)

/-- A text read as a word. -/
def wordIn (mode : Mode) (text : Bytes) : Act Word := do
  match wordOf (← get).dialect mode text with
  | .ok word => pure word
  | .error flaw => Act.refuse ("Syntax error: " ++ flaw.message) (text ++ ": bad substitution")

/-- A parameter with all its values: whether it stands for a list, whether that is joined in quotes, and
the values; none if it is unset. -/
structure Meant where
  isList : Bool
  isJoined : Bool
  values : Option (List Bytes)

/-- What a parameter means, given how subscripts are expanded. -/
def meant (subscriptText : Bytes → Act Bytes) (name : Bytes) : Act Meant := do
  let p ← get
  if name = "@" || name = "*" then
    pure ⟨true, name = "*", if p.args.isEmpty then none else some p.args⟩
  else
    match if p.isExtended then Job.element? name else none with
    | none => pure ⟨false, false, (p.value? name).map ([·])⟩
    | some (base, subscript) =>
      if subscript = [64] || subscript = [42] then
        let values := match p.collection? base with
          | some found => found.values
          | none => (p.value? base).toList
        pure ⟨true, subscript = [42], if values.isEmpty then none else some values⟩
      else
        let text ← subscriptText subscript
        match p.entryOf base text with
        | .ok key =>
          let value := match p.collection? base with
            | some found => found.get? key
            | none => if key = [48] then p.value? base else none
          pure ⟨false, false, value.map ([·])⟩
        | .error trouble => Act.refuse [] (trouble.extendedMessage text)

/-- A text in single quotes that stands for itself. -/
def asQuoted (text : Bytes) : Bytes :=
  [39] ++ (text.flatMap fun b => if b = 39 then [39, 92, 39, 39] else [b]) ++ [39]

/-- A text with its first byte or all of it changed. -/
def changedCase (change : UInt8 → UInt8) (all : Bool) (text : Bytes) : Bytes :=
  match text with
  | [] => []
  | b :: rest => change b :: (if all then rest.map change else rest)

/-- A letter in upper case. -/
def upper (b : UInt8) : UInt8 := if 97 ≤ b && b ≤ 122 then b - 32 else b

/-- The pattern and the filling of an exchange, divided by the first slash outside of quotes and braces. -/
def splitExchange : Quotes → Nat → Bytes → Bytes → Bytes × Bytes
  | _, _, done, [] => (done.reverse, [])
  | quotes, depth, done, 92 :: c :: rest => splitExchange quotes depth (c :: 92 :: done) rest
  | .single, depth, done, b :: rest => splitExchange (if b = 39 then .none else .single) depth (b :: done) rest
  | .double, depth, done, b :: rest => splitExchange (if b = 34 then .none else .double) depth (b :: done) rest
  | .none, depth, done, b :: rest =>
    if b = 47 && depth = 0 then (done.reverse, rest)
    else if b = 39 then splitExchange .single depth (b :: done) rest
    else if b = 34 then splitExchange .double depth (b :: done) rest
    else splitExchange .none (if b = 123 then depth + 1 else if b = 125 then depth - 1 else depth) (b :: done) rest

/-- The filling of a match: a mark that is not quoted stands for what was found. -/
def exchangeText (filling : Field) (found : Bytes) : Bytes :=
  filling.flatMap fun mark => if mark.isSpecial 38 then found else [mark.byte]

/-- How much of the start of a text a pattern matches at most. -/
def longestMatch (pattern : Field) (text : Bytes) : Option Nat :=
  (List.range (text.length + 1)).reverse.find? fun n => isMatch pattern (text.take n)

/-- A text with matches of a pattern exchanged, in at most so many steps. -/
def exchanged (pattern filling : Field) (isEverywhere : Bool) : Nat → Bytes → Bytes
  | 0, text => text
  | _, [] => []
  | steps + 1, b :: rest =>
    match longestMatch pattern (b :: rest) with
    | some (length + 1) =>
      let found := (b :: rest).take (length + 1)
      let behind := (b :: rest).drop (length + 1)
      exchangeText filling found ++ (if isEverywhere then exchanged pattern filling true steps behind else behind)
    | _ => b :: exchanged pattern filling isEverywhere steps rest

/-- A text with matches exchanged. -/
def exchange (extent : Extent) (pattern filling : Field) (text : Bytes) : Bytes :=
  if pattern.isEmpty && (extent = .first || extent = .all) then text
  else
    match extent with
    | .first => exchanged pattern filling false (text.length + 1) text
    | .all => exchanged pattern filling true (text.length + 1) text
    | .start =>
      match longestMatch pattern text with
      | some length => exchangeText filling (text.take length) ++ text.drop length
      | none => text
    | .finish =>
      match (List.range (text.length + 1)).find? fun n => isMatch pattern (text.drop n) with
      | some n => text.take n ++ exchangeText filling (text.drop n)
      | none => text

/-- The parts of a slice: a start and perhaps a length, divided by a colon outside of parentheses. -/
def splitSlice : Nat → Bytes → Bytes → Bytes × Option Bytes
  | _, done, [] => (done.reverse, none)
  | depth, done, b :: rest =>
    if b = 58 && depth = 0 then (done.reverse, some rest)
    else splitSlice (if b = 40 || b = 63 then depth + 1 else if b = 41 || b = 58 then depth - 1 else depth) (b :: done) rest

/-- A part of some items. Negative starts count from the end, and so do negative lengths. -/
def sliced {α : Type} (items : List α) (start : Int) (length : Option Int) : List α :=
  let size : Int := items.length
  let start := if start < 0 then size + start else start
  if start < 0 then []
  else
    let rest := items.drop start.toNat
    match length with
    | none => rest
    | some length => if length < 0 then rest.take (size + length - start).toNat else rest.take length.toNat

/-- A number in a slice. -/
def number (text : Bytes) : Act Int := do
  match (← get).calculate text with
  | .ok (value, made) =>
    modify (·.calculated made)
    pure value.toInt
  | .error trouble => Act.refuse [] (trouble.extendedMessage text)

/-- A parameter added to the fields, given how words inside it are expanded. -/
def addParameter (e : Expander) (inner : Fields → Word → Act Fields) (again : Part → Act Fields) (fields : Fields)
    (name : Bytes) (use : Use) (operand : Bytes) (quoted : Bool) : Act Fields := do
  let p ← get
  let textOf (mode : Mode) (text : Bytes) : Act Field := do
    let word ← wordIn mode text
    pure ((← inner .empty word).toList.flatten)
  let found ← if use = .unknown || use = .names then pure ⟨false, false, none⟩
    else meant (fun text => do pure (← textOf .operand text).toBytes) name
  let isMissing (evenEmpty : Bool) : Bool := match found.values with
    | none => true
    | some values => evenEmpty && values.all (·.isEmpty)
  let needed : Act (List Bytes) := match found.values with
    | some values => pure values
    | none =>
      if p.options.contains 117 && !found.isList then do
        if p.isExtended then
          Act.complain (name ++ ": unbound variable")
          Act.finish (.exit 127)
        else Act.abort (name ++ ": parameter not set")
      else pure (if found.isList then [] else [[]])
  let add (values : List Bytes) : Act Fields :=
    if found.isList && !(found.isJoined && quoted) then e.addTexts quoted fields values
    else if found.isList then do
      let separator := (← get).separators.take 1
      e.addValue quoted fields (Bytes.joinWith separator values)
    else e.addValue quoted fields (values.headD [])
  let present : Act Fields := do add (← needed)
  let operandWord := wordIn (if quoted then .quotedOperand else .operand) operand
  let operandText : Act Field := do
    let word ← operandWord
    pure ((← inner .empty word).toList.flatten)
  match use with
  | .value => present
  | .length =>
    let values ← needed
    let isCounted := found.isList && p.isExtended
    e.addValue quoted fields (Decimal.ofNat (if isCounted then values.length
      else if found.isList then (Bytes.joinWith [32] values).length else (values.headD []).length))
  | .fallback evenEmpty => if isMissing evenEmpty then inner fields (← operandWord) else present
  | .replacement evenEmpty => if isMissing evenEmpty then pure fields else inner fields (← operandWord)
  | .assignment evenEmpty =>
    if isMissing evenEmpty then
      let text := (← operandText).toBytes
      modify fun p => p.given name text false
      e.addValue quoted fields text
    else present
  | .demand evenEmpty =>
    if isMissing evenEmpty then
      let text := (← operandText).toBytes
      let usual ← if evenEmpty then Act.worded "parameter not set or null" "parameter null or not set"
        else Act.worded "parameter not set" "parameter not set"
      let reason : Bytes := if text.isEmpty then usual else text
      Act.complain (name ++ ": " ++ reason)
      Act.finish (.exit (if p.isExtended then 127 else 2))
    else present
  | .withoutStart longest =>
    let pattern ← textOf .operand operand
    add ((← needed).map (withoutStart longest pattern))
  | .withoutEnd longest =>
    let pattern ← textOf .operand operand
    add ((← needed).map (withoutEnd longest pattern))
  | .slice =>
    let (start, length) := splitSlice 0 [] (← textOf .document operand).toBytes
    let start ← number start
    let length ← length.mapM number
    if found.isList then
      if name = "@" || name = "*" then add (sliced (p.name :: p.args) start length)
      else
        let values ← needed
        match (Job.element? name).bind fun (base, _) => p.collection? base with
        | some c => add (if start < 0 || c.isKeyed then sliced values start length
            else sliced (c.valuesFrom start.toNat) 0 length)
        | none => add (sliced values start length)
    else add ((← needed).map fun value => sliced value start length)
  | .exchange extent =>
    let (pattern, filling) := splitExchange .none 0 [] operand
    let pattern ← textOf .operand pattern
    let filling ← textOf .operand filling
    add ((← needed).map (exchange extent pattern filling))
  | .upperCase all => add ((← needed).map (changedCase upper all))
  | .lowerCase all => add ((← needed).map (changedCase Bytes.lowerByte all))
  | .inQuotes => add ((← needed).map asQuoted)
  | .indirect =>
    let target := (← needed).headD []
    if target.isEmpty then Act.refuse [] (name ++ ": invalid indirect expansion")
    else again (bracedParameter p.dialect quoted (target ++ operand))
  | .keys =>
    let keys := match (Job.element? name).bind fun (base, _) => p.collection? base with
      | some c => c.keys
      | none => if found.values.isSome then [[48]] else []
    add keys
  | .names =>
    let names := ((p.bindings.map (·.1) ++ p.collections.map (·.1)).filter fun own => name.isPrefixOf own).mergeSort
      fun a b => !Bytes.less b a
    e.addTexts quoted fields names
  | .unknown => Act.refuse "Bad substitution" ("$\x7b" ++ name ++ "\x7d: bad substitution")

/-- The descriptor behind which the output of a script is found as a file. -/
def freeDescriptor (p : Job) : Nat :=
  ((List.range 64).reverse.find? fun n => (p.channel? n).isNone).getD 63

/-- A part added to the fields, given how words inside it are expanded; a part that stands for another one
is added once more. -/
def addPart (e : Expander) (inner : Fields → Word → Act Fields) (again : Part → Act Fields) (fields : Fields) (part : Part) :
    Act Fields := do
  match part with
  | .text value quoted => pure (fields.add (Field.ofBytes quoted value))
  | .command script quoted => e.addValue quoted fields (outputValue (← e.outputOf script))
  | .arithmetic expression quoted =>
    let word ← wordIn .document expression
    let text := ((← inner .empty word).current.getD []).toBytes
    let text := if (← get).isExtended then text.filter (· ≠ 34) else text
    match (← get).calculate text with
    | .ok (value, made) =>
      modify (·.calculated made)
      e.addValue quoted fields (Decimal.ofInt64 value)
    | .error trouble => Act.refuse (trouble.message text) (trouble.extendedMessage text)
  | .members body => pure (fields.add (Field.ofBytes true body))
  | .outputFile script =>
    let output ← e.outputOf script
    let number := freeDescriptor (← get)
    modify fun p =>
      let (p, channel) := p.withStream output
      p.withChannel number (some channel)
    pure (fields.add (Field.ofBytes true ("/dev/fd/" ++ Decimal.ofNat number)))
  | .parameter name use operand quoted => e.addParameter inner again fields name use operand quoted

/-- The parts of a word added to the fields, in at most so many steps. -/
def addParts (e : Expander) : Nat → Fields → Word → Act Fields
  | 0, fields, _ => pure fields
  | _, fields, [] => pure fields
  | steps + 1, fields, part :: rest => do
    let fields ← e.addPart (addParts e steps) (fun part => addParts e steps fields [part]) fields part
    addParts e steps fields rest

/-- How many parts an expansion may go through. -/
def partLimit : Nat := 10000

end Expander

/-- A word with the home directory in place of a tilde at its start. -/
def withHome (p : Job) (word : Word) : Word :=
  match word with
  | .text (126 :: text) false :: rest =>
    let name := text.takeWhile (· ≠ 47)
    let isWhole := name.length < text.length || rest.isEmpty
    let home : Option Bytes := if !isWhole then none
      else if name.isEmpty then p.value? "HOME"
      else if name = "root" then some "/root"
      else none
    match home with
    | some home => .text home true :: .text (text.drop name.length) false :: rest
    | none => word
  | _ => word

/-- The mark for patterns that vanish where nothing matches them. -/
def vanishingPatterns : UInt8 := 2

/-- The fields of a word; patterns become paths unless an option keeps them. -/
def expandFields (outputOf : Bytes → Act Bytes) (word : Word) : Act (List Bytes) := do
  let fields ← Expander.addParts ⟨true, outputOf⟩ Expander.partLimit .empty (withHome (← get) word)
  let p ← get
  let vanishes := p.options.contains vanishingPatterns
  if p.options.contains 102 then pure (fields.toList.map Field.toBytes)
  else pure (fields.toList.flatMap fun field =>
    let paths := pathsMatching p.files field
    if vanishes && isPattern field && paths = [field.toBytes] && (p.files.linkStat field.toBytes).toOption.isNone then []
    else paths)

/-- A word as one field, for a pattern or a text. -/
def expandField (outputOf : Bytes → Act Bytes) (word : Word) : Act Field := do
  let fields ← Expander.addParts ⟨false, outputOf⟩ Expander.partLimit .empty (withHome (← get) word)
  pure fields.toList.flatten

/-- A word as one text. -/
def expandText (outputOf : Bytes → Act Bytes) (word : Word) : Act Bytes := do
  pure (← expandField outputOf word).toBytes

end Shell

end MobilitySweep
