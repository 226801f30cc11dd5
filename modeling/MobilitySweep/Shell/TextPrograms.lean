import MobilitySweep.Shell.Pattern
import MobilitySweep.Shell.Utility
import MobilitySweep.Text.Bytes

/-! # Programs on texts

Programs that write, join, cut and count texts.
-/

namespace MobilitySweep

namespace Shell

namespace Programs

/-! ## Writing -/

/-- Words written on a line, with escapes, by the shell itself. -/
def echo (args : List Bytes) : Act Nat := do
  let (plain, words) := match args with
    | first :: rest => if first = "-n" then (true, rest) else (false, args)
    | [] => (false, [])
  let text := Bytes.joinWith " " words
  let (text, isCut) := unescape (text.length + 1) [] text
  Act.put (if plain || isCut then text else text ++ [10])
  pure 0

/-- The letters of the options before the words to be written, and the words. -/
def echoOptions : List Bytes → Bytes × List Bytes
  | [] => ([], [])
  | word :: rest =>
    match word with
    | 45 :: b :: letters =>
      if (b :: letters).all ("neE" : Bytes).contains then
        let (more, words) := echoOptions rest
        ((b :: letters) ++ more, words)
      else ([], word :: rest)
    | _ => ([], word :: rest)

/-- Words written on a line, with escapes only where they are asked for. -/
def plainEcho (args : List Bytes) : Act Nat := do
  let (letters, words) := echoOptions args
  let text := Bytes.joinWith " " words
  let hasEscapes := (letters.filter (· ≠ 110)).getLast? = some 101
  let (text, isCut) := if hasEscapes then unescape (text.length + 1) [] text else (text, false)
  Act.put (if letters.contains 110 || isCut then text else text ++ [10])
  pure 0

/-- A format written with arguments. -/
def printf (args : List Bytes) : Act Nat := do
  match if args.head? = some [45, 45] then args.tail else args with
  | [] =>
    Act.complain "usage: printf format [arg ...]"
    pure 2
  | format :: args =>
    let isExtended := (← get).isExtended
    let result := Printing.ofFormat isExtended format args
    for warning in result.warnings do
      Act.complain (match warning with
        | .noNumber text => text ++ (if isExtended then ": invalid number" else ": expected numeric value")
        | .partly text => text ++ (if isExtended then ": invalid number" else ": not completely converted"))
    Act.put result.output
    match result.unknown with
    | some specification =>
      Act.complain (if isExtended then "`" ++ (specification.getLast?).toList ++ "': invalid format character"
        else specification ++ ": invalid directive")
      pure (if isExtended then 1 else 2)
    | none => pure (if result.warnings.isEmpty then 0 else 1)

/-- A decimal number as a count of its last places, and how many places it has; an exponent moves the
point. -/
def decimal? (text : Bytes) : Option (Int × Nat) :=
  let mantissa := text.takeWhile fun b => b ≠ 101 && b ≠ 69
  let exponent := text.drop (mantissa.length + 1)
  if mantissa.length = text.length then plain? text
  else
    match plain? mantissa, (Decimal.read exponent).toOption with
    | some (count, places), some power =>
      let power := power.toInt
      if power < 0 then some (count, places + power.natAbs)
      else if power.natAbs ≤ places then some (count, places - power.natAbs)
      else some (count * (Nat.pow 10 (min 400 (power.natAbs - places)) : Nat), 0)
    | _, _ => none
where
  /-- A decimal number without an exponent. -/
  plain? (text : Bytes) : Option (Int × Nat) :=
  let (negative, body) := Decimal.splitSign text
  let whole := body.takeWhile Bytes.isDigit
  let (places, rest) : Bytes × Bytes := match body.drop whole.length with
    | 46 :: more => (more.takeWhile Bytes.isDigit, more.dropWhile Bytes.isDigit)
    | other => ([], other)
  if !rest.isEmpty || (whole.isEmpty && places.isEmpty) then none
  else
    let count : Int := Bytes.digitsValue (whole ++ places)
    some (if negative then -count else count, places.length)

/-- A count of last places as a decimal number of at least some width. -/
def decimalText (width places : Nat) (count : Int) : Bytes :=
  let digits := Decimal.padded (places + 1) count.natAbs
  let text := digits.take (digits.length - places) ++
    (if places = 0 then [] else [46] ++ digits.drop (digits.length - places))
  filled false true width (if count < 0 then 45 :: text else text)

/-- What is wrong with a format for numbers with a fraction. -/
def formatFlaw? (format : Bytes) : Option Bytes :=
  let skipped (text : Bytes) : Bytes := Bytes.replaceAll [37, 37] [] text
  let body := skipped format
  let behind := (body.dropWhile (· ≠ 37)).tail
  let letters := behind.dropWhile fun b => Bytes.isDigit b || ("-+ #0'." : Bytes).contains b
  if !body.contains 37 then some ("format " ++ inQuotes format ++ " has no % directive")
  else
    match letters with
    | [] => some ("format " ++ inQuotes format ++ " ends in %")
    | letter :: rest =>
      if !("aefgAEFG" : Bytes).contains letter then
        some ("format " ++ inQuotes format ++ " has unknown %" ++ [letter] ++ " directive")
      else if rest.contains 37 then some ("format " ++ inQuotes format ++ " has too many % directives")
      else none

/-- Numbers from the first to the last in steps. -/
def seq (args : List Bytes) : Act Nat := do
  let isNumber (word : Bytes) : Bool := word.head? = some 45 && (word.getD 1 0 = 46 || Bytes.isDigit (word.getD 1 0))
  let leading := args.takeWhile fun word => word.head? = some 45 && !isNumber word
  let valued := leading.getLast? = some ("-s" : Bytes) || leading.getLast? = some ("-f" : Bytes)
  let (options, numbers) := args.splitAt (leading.length + (if valued then 1 else 0))
  Act.withOptions "seq" 1 ⟨"w", "sf", [("separator", 's'), ("equal-width", 'w'), ("format", 'f')], false⟩ options fun given => do
    if numbers.isEmpty then return ← missingOperand "seq" "operand"
    match numbers.find? fun word => (decimal? word).isNone with
    | some word =>
      Act.report ("seq: invalid floating point argument: " ++ inQuotes word)
      Act.report (helpHint "seq")
      return 1
    | none => pure ()
    if numbers.length > 3 then
      Act.report ("seq: extra operand " ++ inQuotes (numbers.getD 3 []))
      Act.report (helpHint "seq")
      return 1
    match (given.value? 'f').bind formatFlaw? with
    | some flaw =>
      Act.report ("seq: " ++ flaw)
      return 1
    | none => pure ()
    let values := numbers.filterMap decimal?
    let all := values.foldl (fun most (_, places) => max most places) 0
    let scaled := values.map fun (count, places) => count * (Nat.pow 10 (all - places) : Nat)
    let one : Int := (Nat.pow 10 all : Nat)
    let (first, step, last) : Int × Int × Int := match scaled with
      | [last] => (one, one, last)
      | [first, last] => (first, one, last)
      | first :: step :: last :: _ => (first, step, last)
      | [] => (one, one, 0)
    if step = 0 then
      Act.report ("seq: invalid Zero increment value: " ++ inQuotes (numbers.getD 1 []))
      Act.report (helpHint "seq")
      return 1
    let shown := (values.dropLast).foldl (fun most (_, places) => max most places) 0
    let unit : Int := (Nat.pow 10 (all - shown) : Nat)
    let count := ((last - first) / step + 1).toNat
    let items := (List.range count).map fun (n : Nat) => (first + step * n) / unit
    let width := if given.has 'w' then
        items.foldl (fun most item => max most (decimalText 0 shown item).length) 0
      else 0
    let separator := (given.value? 's').getD [10]
    if !items.isEmpty then
      let texts := items.map fun item => match given.value? 'f' with
        | some format => (Printing.ofFormat false format [decimalText 0 shown item]).output
        | none => decimalText width shown item
      Act.put (Bytes.joinWith separator texts ++ [10])
    pure 0

/-! ## Joining and numbering -/

/-- A line behind its number. -/
def numbered (number : Nat) (line : Bytes) : Bytes := filled false false 6 (Decimal.ofNat number) ++ [9] ++ line

/-- Lines with numbers; those for which none is wanted stay without. -/
def numberedLines (isCounted : Bytes → Bool) (blank : Bytes → Bytes) : Nat → List Bytes → List Bytes
  | _, [] => []
  | number, line :: rest =>
    if isCounted line then numbered number line :: numberedLines isCounted blank (number + 1) rest
    else blank line :: numberedLines isCounted blank number rest

/-- Lines of which only one of several empty ones in a row is kept. -/
def squeezed : Bool → List Bytes → List Bytes
  | _, [] => []
  | wasEmpty, line :: rest =>
    let isEmpty := line = [10]
    if isEmpty && wasEmpty then squeezed true rest else line :: squeezed isEmpty rest

/-- Inputs joined. -/
def cat (args : List Bytes) : Act Nat :=
  Act.withOptions "cat" 1 ⟨"nbsEATvetu", "", [("number", 'n'), ("squeeze-blank", 's'), ("show-ends", 'E')], false⟩ args
    fun given => do
      let index := (← get).streams.length
      modify fun p => (p.withStream []).1
      let isChanged := ['n', 'b', 's', 'E', 'A', 'T', 'e', 't'].any given.has
      let status ← Act.inputs "cat" given.operands fun _ content =>
        if isChanged then modify fun p => p.emit (.stream index) content else Act.put content
      if isChanged then
        let lines := linesOf ((← get).contentOf (.stream index))
        let lines := if given.has 's' then squeezed false lines else lines
        let showsEnds := given.has 'E' || given.has 'A' || given.has 'e'
        let showsTabs := given.has 'T' || given.has 'A' || given.has 't'
        let lines := lines.map fun line =>
          let text := lineText line
          let text := if showsTabs then Bytes.replaceAll [9] "^I" text else text
          text ++ (if showsEnds && line.getLast? = some 10 then [36] else []) ++ line.drop (lineText line).length
        let isEmpty (line : Bytes) : Bool := line = [10] || line = [36, 10]
        let lines := if given.has 'b' then numberedLines (!isEmpty ·) id 1 lines
          else if given.has 'n' then numberedLines (fun _ => true) id 1 lines else lines
        Act.put lines.flatten
      pure status

/-- Lines with numbers, empty ones without, unless other lines are asked for. -/
def nl (args : List Bytes) : Act Nat :=
  let long := [("body-numbering", 'b'), ("number-width", 'w'), ("number-separator", 's'), ("number-format", 'n'),
    ("starting-line-number", 'v'), ("line-increment", 'i'), ("no-renumber", 'p')]
  Act.withOptions "nl" 1 ⟨"p", "bwsnvidfhl", long, false⟩ args fun given => do
    let index := (← get).streams.length
    modify fun p => (p.withStream []).1
    let style := (given.value? 'b').getD [116]
    let format := (given.value? 'n').getD "rn"
    let number (letter : Char) (usual : Int) : Int := match given.value? letter with
      | some text => ((Decimal.read text).toOption.map Int64.toInt).getD usual
      | none => usual
    let width := (number 'w' 6).toNat
    let separator := (given.value? 's').getD [9]
    if !("atnp" : Bytes).contains (style.headD 0) then
      Act.report ("nl: invalid body numbering style: " ++ inQuotes style)
      Act.report (helpHint "nl")
      return 1
    if format ≠ "ln" && format ≠ "rn" && format ≠ "rz" then
      Act.report ("nl: invalid line numbering format: " ++ inQuotes format)
      Act.report (helpHint "nl")
      return 1
    let status ← Act.inputs "nl" given.operands fun _ content => modify fun p => p.emit (.stream index) content
    let lines := (linesOf ((← get).contentOf (.stream index))).map asLine
    let isCounted (line : Bytes) : Bool := style = [97] || (style ≠ [110] && line ≠ [10])
    let row (n : Int) (line : Bytes) : Bytes :=
      filled (format = "ln") (format = "rz") width (Decimal.ofInt n) ++ separator ++ line
    let (rows, _) := lines.foldl (fun (done, n) line =>
      if isCounted line then (row n line :: done, n + number 'i' 1)
      else ((List.replicate (width + separator.length) (32 : UInt8) ++ line) :: done, n)) (([] : List Bytes), number 'v' 1)
    Act.put rows.reverse.flatten
    pure status

/-- The pieces of a text, each with the mark at its end, at most so many. -/
def piecesUpTo (mark : Bytes) : Nat → Bytes → Bytes → List Bytes
  | 0, piece, rest => [piece.reverse ++ rest]
  | _, piece, [] => if piece.isEmpty then [] else [piece.reverse]
  | steps + 1, piece, b :: rest =>
    if !mark.isEmpty && mark.isPrefixOf (b :: rest) then
      (piece.reverse ++ mark) :: piecesUpTo mark steps [] ((b :: rest).drop mark.length)
    else piecesUpTo mark steps (b :: piece) rest

/-- Lines, or other pieces, in reverse order. -/
def tac (args : List Bytes) : Act Nat :=
  Act.withOptions "tac" 1 ⟨"br", "s", [("separator", 's'), ("before", 'b'), ("regex", 'r')], false⟩ args fun given =>
    Act.inputs "tac" given.operands fun _ content =>
      Act.put (piecesUpTo ((given.value? 's').getD [10]) (content.length + 1) [] content).reverse.flatten

/-- Every line from its end to its start. -/
def rev (args : List Bytes) : Act Nat :=
  Act.withOptions "rev" 1 ⟨"", "", [], false⟩ args fun given =>
    Act.inputs "rev" given.operands fun _ content =>
      Act.put ((linesOf content).flatMap fun line => (lineText line).reverse ++ line.drop (lineText line).length)

/-- Rows of the lines that several inputs have in one place, at most so many. -/
def pastedRows : Nat → List (List Bytes) → List (List Bytes)
  | 0, _ => []
  | count + 1, columns =>
    if columns.all List.isEmpty then []
    else columns.map (·.headD []) :: pastedRows count (columns.map List.tail)

/-- Pieces joined by dividers that are used in turn. -/
def joinedInTurn (dividers : Bytes) : Nat → List Bytes → Bytes
  | _, [] => []
  | _, [piece] => piece
  | n, piece :: rest =>
    piece ++ (dividers[n % max 1 dividers.length]?).toList ++ joinedInTurn dividers (n + 1) rest

/-- The contents of inputs; each dash takes the next line of the input in turn. -/
def columnsOf (paths : List Bytes) : Act (List (List Bytes) × Nat) := do
  let dashes := (paths.filter fun (path : Bytes) => path = "-").length
  let own ← if dashes = 0 then pure [] else (linesOf ·) <$> Act.readAll
  let mut columns : List (List Bytes) := []
  let mut status := 0
  let mut seen := 0
  for path in paths do
    if path = "-" then
      let place := seen
      columns := columns ++ [(own.zipIdx.filter fun (_, n) => n % dashes = place).map (·.1)]
      seen := seen + 1
    else
      match ← Act.contentAt path with
      | .ok content => columns := columns ++ [linesOf content]
      | .error cause =>
        Act.report ("paste: " ++ inNeededQuotes path ++ ": " ++ reasonOf cause)
        status := 1
  pure (columns.map (·.map lineText), status)

/-- Lines of several inputs side by side, or the lines of each input on one line. -/
def paste (args : List Bytes) : Act Nat :=
  Act.withOptions "paste" 1 ⟨"sz", "d", [("serial", 's'), ("delimiters", 'd')], false⟩ args fun given => do
    let dividers := ((given.value? 'd').getD [9])
    let dividers := (unescape (dividers.length + 1) [] dividers).1
    let paths : List Bytes := if given.operands.isEmpty then [[45]] else given.operands
    let (columns, status) ← columnsOf paths
    if status ≠ 0 then return status
    let rows := if given.has 's' then columns
      else pastedRows (columns.foldl (fun most column => max most column.length) 0) columns
    Act.put (rows.flatMap fun row => joinedInTurn dividers 0 row ++ [10])
    pure 0

/-- A text cut into pieces of a width, at most so many. -/
def foldedText (width : Nat) : Nat → Bytes → Bytes
  | 0, text => text
  | count + 1, text =>
    if text.length ≤ width then text else text.take width ++ [10] ++ foldedText width count (text.drop width)

/-- A text cut into pieces of at most a width, at most so many; a piece ends behind a blank if it has one. -/
def foldedWords (width : Nat) : Nat → Bytes → Bytes
  | 0, text => text
  | count + 1, text =>
    if text.length ≤ width then text
    else
      let piece := text.take width
      let ending := piece.reverse.dropWhile fun b => b ≠ 32 && b ≠ 9
      let size := if ending.isEmpty then width else ending.length
      text.take size ++ [10] ++ foldedWords width count (text.drop size)

/-- Lines cut to a width. -/
def fold (args : List Bytes) : Act Nat :=
  Act.withOptions "fold" 1 ⟨"bs", "w", [("width", 'w')], false⟩ args fun given => do
    let asked := (given.value? 'w').getD "80"
    let width := Bytes.digitsValue asked
    if width = 0 || !asked.all Bytes.isDigit then
      Act.report ("fold: invalid number of columns: " ++ inQuotes ((given.value? 'w').getD []))
      return 1
    Act.inputs "fold" given.operands fun _ content =>
      Act.put ((linesOf content).flatMap fun line =>
        (if given.has 's' then foldedWords else foldedText) width line.length (lineText line) ++
          line.drop (lineText line).length)

/-! ## Parts -/

/-- How much of an input is wanted: whether bytes are counted, the count with its sign, and the title of
each input. -/
structure Amount where
  inBytes : Bool
  sign : Option UInt8
  count : Nat
  title : Bytes → Bytes

/-- The count that a text writes, with a unit. -/
def unitCount? (text : Bytes) : Option Nat :=
  let digits := text.takeWhile Bytes.isDigit
  let unit := text.drop digits.length
  let factor : Option Nat :=
    if unit.isEmpty then some 1 else if unit = "b" then some 512 else if unit = "K" || unit = "k" then some 1024
    else if unit = "kB" then some 1000 else if unit = "M" then some 1048576 else if unit = "MB" then some 1000000 else none
  if digits.isEmpty then none else factor.map (Bytes.digitsValue digits * ·)

/-- A program that shows a part of each input. -/
def part (name : Bytes) (args : List Bytes) (shown : Amount → Bytes → Bytes) : Act Nat := do
  match if name = "head" then strayLetter? args else none with
  | some letter =>
    Act.report ("head: invalid trailing option -- " ++ [letter])
    Act.report (helpHint "head")
    return 1
  | none => pure ()
  let args := match args with
    | (45 :: b :: more) :: rest =>
      if Bytes.isDigit b then
        (if more.getLast? = some 99 then [45, 99] ++ (b :: more.dropLast) else [45, 110] ++ (b :: more)) :: rest
      else if name = "tail" && b = 43 then args else args
    | (43 :: b :: more) :: rest => if name = "tail" && Bytes.isDigit b then ([45, 110, 43, b] ++ more) :: rest else args
    | _ => args
  Act.withOptions name 1 ⟨"qvzfFr", "nc", [("lines", 'n'), ("bytes", 'c'), ("quiet", 'q'), ("silent", 'q')], false⟩ args
    fun given => do
      let (letter, value) := (given.options.filter fun (letter, _) => letter = 110 || letter = 99).getLastD (110, "10")
      let sign := match value with
        | b :: _ => if b = 45 || b = 43 then some b else none
        | [] => none
      let digits := if sign.isSome then value.tail else value
      match unitCount? digits with
      | none =>
        let what : Bytes := if letter = 99 then "bytes" else "lines"
        Act.report (name ++ ": invalid number of " ++ what ++ ": " ++ inQuotes value)
        pure 1
      | some count =>
        let paths := given.operands
        let hasTitles := (paths.length > 1 || given.has 'v') && !given.has 'q'
        let title (path : Bytes) : Bytes := if !hasTitles then [] else
          (if paths.head? = some path then ([] : Bytes) else [10]) ++ ("==> " : Bytes) ++
            (if path = "-" then ("standard input" : Bytes) else path) ++ " <==\n"
        let amount : Amount := ⟨letter = 99, sign, count, title⟩
        if paths = [("/dev/zero" : Bytes)] then
          Act.put (if amount.inBytes then List.replicate count 0 else [])
          pure 0
        else
          Act.inputs name paths fun path content => do
            Act.put (title path)
            Act.put (shown amount content)

where
  /-- A letter that may not stand behind a count, or a digit of a later one. -/
  strayLetter? (args : List Bytes) : Option UInt8 :=
    match args with
    | word :: rest =>
      if isCount word then
        ((word.tail.dropWhile Bytes.isDigit).find? fun b => !("bcklmqv" : Bytes).contains b).or (laterCount? rest)
      else laterCount? args
    | [] => none
  /-- Whether a word is a count behind a dash. -/
  isCount (word : Bytes) : Bool := word.head? = some 45 && (word.getD 1 0 |> Bytes.isDigit)
  /-- The first digit of a count that is no value of an option. -/
  laterCount? : List Bytes → Option UInt8
    | [] => none
    | word :: rest =>
      if word = "--" then none
      else if word = "-n" || word = "-c" || word = "--lines" || word = "--bytes" then laterCount? rest.tail
      else if isCount word then word.tail.head?
      else laterCount? rest
  termination_by words => words.length

/-- The start of an input, or all but an end of it. -/
def head (args : List Bytes) : Act Nat :=
  part "head" args fun amount content =>
    let wanted (size : Nat) : Nat := if amount.sign = some 45 then size - amount.count else amount.count
    if amount.inBytes then content.take (wanted content.length)
    else
      let lines := linesOf content
      (lines.take (wanted lines.length)).flatten

/-- The end of an input; a plus sign counts from the start. -/
def tail (args : List Bytes) : Act Nat :=
  part "tail" args fun amount content =>
    let cut (size : Nat) : Nat := if amount.sign = some 43 then amount.count - 1 else size - amount.count
    if amount.inBytes then content.drop (cut content.length)
    else
      let lines := linesOf content
      (lines.drop (cut lines.length)).flatten

/-- Ranges of places that a list gives, each with an end if it has one. -/
def placeRanges? (text : Bytes) : Option (List (Nat × Option Nat)) :=
  (Bytes.splitOn 44 text).mapM fun (item : Bytes) =>
    match Bytes.splitOn 45 item with
    | [one] => if one.isEmpty || !one.all Bytes.isDigit then none
      else some (Bytes.digitsValue one, some (Bytes.digitsValue one))
    | [first, last] =>
      if (first.isEmpty && last.isEmpty) || !(first ++ last).all Bytes.isDigit then none
      else some (if first.isEmpty then 1 else Bytes.digitsValue first,
        if last.isEmpty then none else some (Bytes.digitsValue last))
    | _ => none

/-- Fields or bytes of every line. -/
def cut (args : List Bytes) : Act Nat :=
  let long := [("fields", 'f'), ("delimiter", 'd'), ("bytes", 'b'), ("characters", 'c'), ("only-delimited", 's'),
    ("complement", 'C'), ("output-delimiter", 'o')]
  Act.withOptions "cut" 1 ⟨"snzC", "fdbco", long, false⟩ args fun given => do
    let lists := (given.options.filter fun (letter, _) => letter = 102 || letter = 98 || letter = 99)
    let refuse (message : Bytes) : Act Nat := do
      Act.report ("cut: " ++ message)
      Act.report (helpHint "cut")
      pure 1
    if ((given.value? 'd').getD [9]).length > 1 then return ← refuse "the delimiter must be a single character"
    match lists with
    | [] => refuse "you must specify a list of bytes, characters, or fields"
    | (letter, list) :: more =>
      if !more.isEmpty then return ← refuse "only one list may be specified"
      let byFields := letter = 102
      if given.has 'd' && !byFields then
        return ← refuse "an input delimiter may be specified only\n\twhen operating on fields"
      if (Bytes.splitOn 44 list).contains [45] then return ← refuse "invalid range with no endpoint: -"
      match placeRanges? list with
      | none => refuse (if byFields then "invalid field value " ++ inQuotes list else "invalid byte/character position " ++ inQuotes list)
      | some ranges =>
        if ranges.any fun (first, _) => first = 0 then
          return ← refuse (if byFields then "fields are numbered from 1" else "byte/character positions are numbered from 1")
        if ranges.any fun (first, last) => last.any (· < first) then return ← refuse "invalid decreasing range"
        let isWanted (n : Nat) : Bool :=
          (ranges.any fun (first, last) => first ≤ n && last.all (n ≤ ·)) != given.has 'C'
        let divider := ((given.value? 'd').getD [9]).headD 0
        let joint := (given.value? 'o').getD (if byFields then [divider] else [])
        let pick {α : Type} (items : List α) : List α :=
          (items.zipIdx.filter fun (_, n) => isWanted (n + 1)).map (·.1)
        Act.inputs "cut" given.operands fun _ content =>
          Act.put ((linesOf content).flatMap fun line =>
            let text := lineText line
            if !byFields then pick text ++ [10]
            else if text.contains divider then Bytes.joinWith joint (pick (Bytes.splitOn divider text)) ++ [10]
            else if given.has 's' then [] else text ++ [10])

/-! ## Counting -/

/-- The number of words in a text. -/
def wordCount (text : Bytes) : Nat :=
  let isBlank (b : UInt8) : Bool := b = 32 || (9 ≤ b && b ≤ 13)
  (text.foldl (fun (count, before) b => (if before && !isBlank b then count + 1 else count, isBlank b)) (0, true)).1

/-- The length of the longest line. -/
def longestLine (text : Bytes) : Nat := (linesOf text).foldl (fun most line => max most (lineText line).length) 0

/-- Lines, words and bytes counted, with their sums if there are several inputs. -/
def wc (args : List Bytes) : Act Nat :=
  Act.withOptions "wc" 1 ⟨"lwcmL", "", [("lines", 'l'), ("words", 'w'), ("bytes", 'c'), ("chars", 'm')], false⟩ args
    fun given => do
      let paths := given.operands
      let measures : List (Char × (Bytes → Nat)) :=
        [('l', fun text => text.count 10), ('w', wordCount), ('m', List.length), ('c', List.length), ('L', longestLine)]
      let chosen := measures.filter fun (letter, _) =>
        if given.options.isEmpty then letter = 'l' || letter = 'w' || letter = 'c' else given.has letter
      let index := (← get).streams.length
      modify fun p => (p.withStream []).1
      let total ← joinedSize paths
      let files := (← get).files
      let isFolder (path : Bytes) : Bool := match files.stat path with
        | .ok .directory => true
        | _ => false
      let width := if paths.isEmpty then (if chosen.length = 1 then 0 else 7)
        else if chosen.length = 1 && paths.length = 1 then 0
        else if paths.contains "-" || paths.any isFolder then 7
        else (Decimal.ofNat total).length
      let row (path : Bytes) (counts : List Nat) : Bytes :=
        Bytes.joinWith " " (counts.map fun count => filled false false width (Decimal.ofNat count)) ++
          (if path.isEmpty then [] else [32] ++ path) ++ [10]
      let count (path content : Bytes) : Act Unit := do
        modify fun p => p.emit (.stream index) content
        Act.put (row path (chosen.map fun (_, measure) => measure content))
      let status ← if paths.isEmpty then Act.inputs "wc" [] count
        else Act.forEach (fun path => do
          let status ← Act.inputs "wc" [path] count
          if isFolder path then Act.put (row path (chosen.map fun _ => 0))
          pure status) paths
      if paths.length > 1 then
        let all := (← get).contentOf (.stream index)
        Act.put (row "total" (chosen.map fun (_, measure) => measure all))
      pure status
where
  /-- The size of all files together. -/
  joinedSize : List Bytes → Act Nat
    | [] => pure 0
    | path :: rest => do
      let own := match (← get).files.stat path with
        | .ok (.file content) => content.toBytes.length
        | _ => 0
      pure (own + (← joinedSize rest))

/-- An input in the letters of an alphabet of 64, or back. -/
def base64 (args : List Bytes) : Act Nat :=
  Act.withOptions "base64" 1 ⟨"di", "w", [("decode", 'd'), ("wrap", 'w')], false⟩ args fun given => do
    let width := Bytes.digitsValue ((given.value? 'w').getD "76")
    let index := (← get).streams.length
    modify fun p => (p.withStream []).1
    let status ← Act.inputs "base64" given.operands fun _ content => do
      if given.has 'd' then
        match Base64.decode? (content.filter (· ≠ 10)) with
        | some text => Act.put text
        | none =>
          Act.report "base64: invalid input"
          modify fun p => p.emit (.stream index) [1]
      else
        let text := Base64.encode content
        Act.put (if text.isEmpty then [] else if width = 0 then text else foldedText width text.length text ++ [10])
    pure (if ((← get).contentOf (.stream index)).isEmpty then status else 1)

/-! ## Bytes replaced -/

/-- A byte of a set, with its escape, and what follows it. -/
def setByte : Bytes → UInt8 × Bytes
  | 92 :: more =>
    match escape? more with
    | some ([b], rest) => (b, rest)
    | _ => (more.headD 92, more.tail)
  | b :: rest => (b, rest)
  | [] => (0, [])

/-- The bytes of a set with its escapes, classes and ranges, in at most so many steps; a byte may be
repeated up to a length. -/
def byteSet (length : Nat) : Nat → Bytes → Bytes → Bytes
  | 0, done, _ => done
  | _, done, [] => done
  | steps + 1, done, text =>
    let name := (text.drop 2).takeWhile (· ≠ 58)
    let behind := text.drop (2 + name.length)
    let named := if text.take 2 = [91, 58] && behind.take 2 = [58, 93] then ByteClass.ranges? name else none
    match named with
    | some ranges =>
      let bytes := ranges.flatMap fun (low, high) =>
        (List.range (high.toNat + 1 - low.toNat)).map fun n => low + UInt8.ofNat n
      byteSet length steps (done ++ bytes) (behind.drop 2)
    | none =>
      match repetition? text with
      | some (b, count, rest) =>
        byteSet length steps (done ++ List.replicate (if count = 0 then length - done.length else count) b) rest
      | none =>
        let (b, rest) := setByte text
        match rest with
        | 45 :: more =>
          if more.isEmpty then byteSet length steps (done ++ [b]) rest
          else
            let (last, behind) := setByte more
            byteSet length steps
              (done ++ (List.range (last.toNat + 1 - b.toNat)).map fun n => b + UInt8.ofNat n) behind
        | _ => byteSet length steps (done ++ [b]) rest
where
  /-- A byte with the number of its repetitions, written in brackets. -/
  repetition? (text : Bytes) : Option (UInt8 × Nat × Bytes) :=
    match text with
    | 91 :: b :: 42 :: rest =>
      let digits := rest.takeWhile Bytes.isDigit
      if (rest.drop digits.length).head? = some 93 then
        some (b, Bytes.digitsValue digits, rest.drop (digits.length + 1))
      else none
    | _ => none

/-- A text in which a byte of a set follows itself nowhere. -/
def withoutRuns (set : Bytes) (text : Bytes) : Bytes :=
  (text.foldl (fun (done : Bytes) b => if done.head? = some b && set.contains b then done else b :: done) []).reverse

/-- What is wrong with a set, in at most so many steps. -/
def setFlaw? : Nat → Bytes → Option Bytes
  | 0, _ => none
  | _, [] => none
  | steps + 1, text =>
    let name := (text.drop 2).takeWhile (· ≠ 58)
    let behind := text.drop (2 + name.length)
    if text.take 2 = [91, 58] && behind.take 2 = [58, 93] then
      if (ByteClass.ranges? name).isNone then some ("invalid character class " ++ inQuotes name)
      else setFlaw? steps (behind.drop 2)
    else
      let (first, rest) := setByte text
      match rest with
      | 45 :: more =>
        if more.isEmpty then none
        else
          let (last, behind) := setByte more
          if last < first then
            some ("range-endpoints of '" ++ text.take (text.length - behind.length) ++
              "' are in reverse collating sequence order")
          else setFlaw? steps behind
      | _ => setFlaw? steps rest

/-- Bytes of one set replaced by those of another, deleted, or reduced to one of a run. -/
def tr (args : List Bytes) : Act Nat :=
  let long := [("delete", 'd'), ("squeeze-repeats", 's'), ("complement", 'c'), ("truncate-set1", 't')]
  Act.withOptions "tr" 1 ⟨"dscCt", "", long, true⟩ args fun given => do
    let sets := given.operands
    let isDeleting := given.has 'd'
    let isSqueezing := given.has 's'
    let hint : Act Nat := do
      Act.report (helpHint "tr")
      pure 1
    match sets with
    | [] => return ← missingOperand "tr" "operand"
    | [one] =>
      if (isDeleting && isSqueezing) || (!isDeleting && !isSqueezing) then
        Act.report ("tr: missing operand after " ++ inQuotes one)
        Act.report (if isDeleting then ("Two strings must be given when both deleting and squeezing repeats." : Bytes)
          else "Two strings must be given when translating.")
        return ← hint
    | _ :: second :: more =>
      if !more.isEmpty then
        Act.report ("tr: extra operand " ++ inQuotes (more.headD []))
        return ← hint
      if isDeleting && !isSqueezing then
        Act.report ("tr: extra operand " ++ inQuotes second)
        Act.report "Only one string may be given when deleting without squeezing repeats."
        return ← hint
    match sets.findSome? fun set => setFlaw? (set.length + 1) set with
    | some flaw =>
      Act.report ("tr: " ++ flaw)
      return 1
    | none => pure ()
    if sets.length = 2 && !isDeleting && !given.has 't' && (sets.getD 1 []).isEmpty then
      Act.report "tr: when not truncating set1, string2 must be non-empty"
      return 1
    let source := byteSet 256 ((sets.headD []).length + 1) [] (sets.headD [])
    let source := if given.has 'c' || given.has 'C' then
        ((List.range 256).map UInt8.ofNat).filter (!source.contains ·)
      else source
    let target := byteSet source.length ((sets.getD 1 []).length + 1) [] (sets.getD 1 [])
    let content ← Act.readAll
    let content := if isDeleting then content.filter (!source.contains ·)
      else if sets.length < 2 then content
      else content.map fun b =>
        if source.contains b then
          target.getD (source.idxOf b) (if given.has 't' then b else target.getLastD b)
        else b
    Act.put (if isSqueezing then withoutRuns (if sets.length < 2 then source else target) content else content)
    pure 0

/-! ## Names -/

/-- The last names of paths, without an ending. -/
def basename (args : List Bytes) : Act Nat :=
  Act.withOptions "basename" 1 ⟨"az", "s", [("multiple", 'a'), ("suffix", 's')], true⟩ args fun given => do
    let isMany := given.has 'a' || given.has 's'
    match given.operands with
    | [] => missingOperand "basename" "operand"
    | first :: rest =>
      if !isMany && rest.length > 1 then
        Act.report ("basename: extra operand " ++ inQuotes (rest.getD 1 []))
        Act.report (helpHint "basename")
        return 1
      let ending := if isMany then (given.value? 's').getD [] else rest.headD []
      let shown (path : Bytes) : Bytes :=
        let name := if path.isEmpty then [] else Path.base path
        (if ending.isEmpty || name = ending then name else (Bytes.dropSuffix? ending name).getD name) ++ [10]
      Act.put (if isMany then (first :: rest).flatMap shown else shown first)
      pure 0

/-- Paths without their last names. -/
def dirname (args : List Bytes) : Act Nat :=
  Act.withOptions "dirname" 1 ⟨"z", "", [], false⟩ args fun given => do
    if given.operands.isEmpty then return ← missingOperand "dirname" "operand"
    Act.put (given.operands.flatMap fun path =>
      let folder := Files.withoutSlash (Path.splitLast (Files.withoutSlash path)).1
      (if !folder.isEmpty then folder else if Path.isAbsolute path then [47] else [46]) ++ [10])
    pure 0

end Programs

end Shell

end MobilitySweep
