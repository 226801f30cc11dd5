import MobilitySweep.Shell.Utility

/-! # Programs on lines in order

Lines are ordered by keys, which are parts of them, each with an order of its own; lines whose keys agree
are ordered as a whole.
-/

namespace MobilitySweep

namespace Shell

namespace Programs

/-- An order of keys: by numbers, by numbers with exponents, by numbers within names, by months, by letters without
case or without other signs, without blanks in front, or the other way round. -/
structure KeyOrder where
  isNumeric : Bool
  isGeneral : Bool
  isVersion : Bool
  isMonth : Bool
  hasUnits : Bool
  foldsCase : Bool
  isDictionary : Bool
  skipsBlanks : Bool
  isReversed : Bool
deriving DecidableEq, Repr, Inhabited

/-- The order that letters ask for. -/
def KeyOrder.ofLetters (letters : Bytes) : KeyOrder :=
  ⟨letters.contains 110, letters.contains 103, letters.contains 86, letters.contains 77, letters.contains 104, letters.contains 102, letters.contains 100,
    letters.contains 98, letters.contains 114⟩

/-- A key: the field and byte it starts at, those it ends at, and its order, if it has one of its own. -/
structure SortKey where
  first : Nat
  firstByte : Nat
  last : Option (Nat × Nat)
  order : Option KeyOrder
  skipsBlanksAtEnd : Bool
deriving DecidableEq, Repr

/-- A blank between fields. -/
def isFieldBlank (b : UInt8) : Bool := b = 32 || b = 9 || b = 10

/-- A text behind a number of its fields. With a divider each field ends behind it, or before it for the
last one where that is asked for; otherwise blanks belong to the field behind them. -/
def behindFields (divider : Option UInt8) (keepsDivider : Bool) : Nat → Bytes → Bytes
  | 0, text => text
  | count + 1, text =>
    match divider with
    | some divider =>
      let behind := text.dropWhile (· ≠ divider)
      behindFields (some divider) keepsDivider count (if count = 0 && keepsDivider then behind else behind.tail)
    | none => behindFields none keepsDivider count ((text.dropWhile isFieldBlank).dropWhile (!isFieldBlank ·))

/-- The part of a line that a key stands for. -/
def SortKey.part (key : SortKey) (divider : Option UInt8) (skipsBlanks : Bool) (line : Bytes) : Bytes :=
  let start := behindFields divider false (key.first - 1) line
  let start := if skipsBlanks then start.dropWhile isFieldBlank else start
  let start := start.drop (key.firstByte - 1)
  let behind := match key.last with
    | none => []
    | some (field, 0) => behindFields divider true field line
    | some (field, byte) =>
      let rest := behindFields divider false (field - 1) line
      let rest := if key.skipsBlanksAtEnd then rest.dropWhile isFieldBlank else rest
      rest.drop byte
  start.take (start.length - behind.length)

/-- A field with a byte in it, and the letters behind. -/
def keyPlace (text : Bytes) : Option (Nat × Option Nat × Bytes × Bytes) :=
  let field := text.takeWhile Bytes.isDigit
  let rest := text.drop field.length
  let (byte, rest) : Option Nat × Bytes := match rest with
    | 46 :: more => (some (Bytes.digitsValue (more.takeWhile Bytes.isDigit)), more.dropWhile Bytes.isDigit)
    | _ => (none, rest)
  let letters := rest.takeWhile fun b => ("bdfgiMhnRrV" : Bytes).contains b
  if field.isEmpty then none
  else some (Bytes.digitsValue field, byte, letters, rest.drop letters.length)

/-- What is wrong with the text of a key. -/
def keyFlaw (text : Bytes) : Bytes :=
  let specification : Bytes := ": invalid field specification " ++ inQuotes text
  let count (place rest : Bytes) : Bytes := "invalid number " ++ place ++ ": invalid count at start of " ++ inQuotes rest
  let ends (rest : Bytes) : Bytes :=
    if rest.isEmpty then [] else "stray character in field spec" ++ specification
  let position (place text : Bytes) : Bytes :=
    let afterDot := ((text.dropWhile Bytes.isDigit).dropWhile (· = 46))
    match keyPlace text with
    | none => count place text
    | some (field, byte, _, _) =>
      if field = 0 then "field number is zero" ++ specification
      else if byte.isSome && !afterDot.head?.any Bytes.isDigit then count "after '.'" afterDot
      else if byte = some 0 && place = "at field start" then "character offset is zero" ++ specification
      else []
  match position "at field start" text, keyPlace text with
  | [], some (_, _, _, 44 :: more) =>
    match position "after ','" more, keyPlace more with
    | [], some (_, _, _, rest) => ends rest
    | flaw, _ => flaw
  | [], some (_, _, _, rest) => ends rest
  | flaw, _ => flaw

/-- The key that a text describes. -/
def sortKey? (text : Bytes) : Option SortKey := do
  let (first, byte, letters, rest) ← keyPlace text
  let start := byte.getD 1
  match rest with
  | [] =>
    if first = 0 || start = 0 then none
    else some ⟨first, start, none, if letters.isEmpty then none else some (.ofLetters letters), false⟩
  | 44 :: more =>
    let (last, lastByte, further, rest) ← keyPlace more
    let all := letters ++ further
    if !rest.isEmpty || first = 0 || start = 0 || last = 0 then none
    else some ⟨first, start, some (last, lastByte.getD 0), if all.isEmpty then none else some (.ofLetters all),
      further.contains 98⟩
  | _ => none

/-- The number at the start of a text as numerator and power of ten below it, with a unit. -/
def leadingNumber (hasUnits : Bool) (text : Bytes) : Int × Nat × Nat :=
  let body := text.dropWhile isFieldBlank
  let (negative, body) : Bool × Bytes := match body with
    | 45 :: rest => (true, rest)
    | _ => (false, body)
  let whole := body.takeWhile Bytes.isDigit
  let rest := body.drop whole.length
  let (places, rest) : Bytes × Bytes := match rest with
    | 46 :: more => (more.takeWhile Bytes.isDigit, more.dropWhile Bytes.isDigit)
    | _ => ([], rest)
  let value : Int := Bytes.digitsValue (whole ++ places)
  let unit := if hasUnits then (("KMGTPEZY" : Bytes).idxOf (rest.headD 0) + 1) % 9 else 0
  (if negative then -value else value, places.length, unit)

/-- How two texts are ordered. -/
def compareBytes (a b : Bytes) : Ordering := if Bytes.less a b then .lt else if Bytes.less b a then .gt else .eq

/-- The number at the start of a text, with an exponent; a text without one comes first. -/
def generalNumber (text : Bytes) : Option Binary64 :=
  let body := text.dropWhile isFieldBlank
  (List.range (body.length + 1)).reverse.findSome? fun n => (Reading.read (body.take n)).toOption

/-- The place of a month by its first letters; zero if it is none. -/
def monthPlace (text : Bytes) : Nat :=
  let name := ((text.dropWhile isFieldBlank).take 3).map Bytes.lowerByte
  let months := ["jan", "feb", "mar", "apr", "may", "jun", "jul", "aug", "sep", "oct", "nov", "dec"]
  (months.idxOf? (Utf8.toString name)).elim 0 (· + 1)

/-- Names compared piece by piece, digits by the numbers that they write, in at most so many steps. -/
def versionLess : Nat → Bytes → Bytes → Bool
  | 0, _, _ => false
  | steps + 1, a, b =>
    let wordOf (text : Bytes) : Bytes := text.takeWhile (!Bytes.isDigit ·)
    let numberOf (text : Bytes) : Bytes := text.takeWhile Bytes.isDigit
    if a.isEmpty || b.isEmpty then a.isEmpty && !b.isEmpty
    else if wordOf a ≠ wordOf b then Bytes.less (wordOf a) (wordOf b)
    else
      let (a, b) := (a.drop (wordOf a).length, b.drop (wordOf b).length)
      let (x, y) := (Bytes.digitsValue (numberOf a), Bytes.digitsValue (numberOf b))
      if x ≠ y then x < y else versionLess steps (a.drop (numberOf a).length) (b.drop (numberOf b).length)

/-- How two names with numbers in them are ordered. -/
def compareVersions (a b : Bytes) : Ordering :=
  let steps := a.length + b.length + 1
  if versionLess steps a b then .lt else if versionLess steps b a then .gt else .eq

/-- How two keys are ordered. -/
def KeyOrder.compare (order : KeyOrder) (a b : Bytes) : Ordering :=
  let result :=
    if order.isGeneral then
      match generalNumber a, generalNumber b with
      | some x, some y => if x.less y then .lt else if y.less x then .gt else .eq
      | none, some _ => .lt
      | some _, none => .gt
      | none, none => .eq
    else if order.isVersion then compareVersions a b
    else if order.isMonth then Ord.compare (monthPlace a) (monthPlace b)
    else if order.isNumeric || order.hasUnits then
      let (x, xPlaces, xUnit) := leadingNumber order.hasUnits a
      let (y, yPlaces, yUnit) := leadingNumber order.hasUnits b
      let left := x * (Nat.pow 10 yPlaces : Nat)
      let right := y * (Nat.pow 10 xPlaces : Nat)
      if xUnit ≠ yUnit && 0 < x && 0 < y then Ord.compare xUnit yUnit
      else if left < right then .lt else if right < left then .gt else .eq
    else
      let plain (text : Bytes) : Bytes :=
        let text := if order.isDictionary then
            text.filter fun c => isFieldBlank c || Bytes.isDigit c || (65 ≤ c && c ≤ 90) || (97 ≤ c && c ≤ 122)
          else text
        if order.foldsCase then text.map Bytes.lowerByte else text
      compareBytes (plain a) (plain b)
  if order.isReversed then result.swap else result

/-- How two lines are ordered by keys. -/
def compareKeys (divider : Option UInt8) (usual : KeyOrder) : List SortKey → Bytes → Bytes → Ordering
  | [], _, _ => .eq
  | key :: rest, a, b =>
    let order := key.order.getD usual
    match order.compare (key.part divider order.skipsBlanks a) (key.part divider order.skipsBlanks b) with
    | .eq => compareKeys divider usual rest a b
    | other => other

/-- Lines of which each differs from the one before. -/
def withoutRepeats (isSame : Bytes → Bytes → Bool) (lines : List Bytes) : List Bytes :=
  (lines.foldl (fun (done : List Bytes) line =>
    match done with
    | last :: _ => if isSame last line then done else line :: done
    | [] => [line]) []).reverse

/-- The first line that is not in order, with its number. -/
def firstDisorder (isOrdered : Bytes → Bytes → Bool) : Nat → List Bytes → Option (Nat × Bytes)
  | number, a :: b :: rest =>
    if isOrdered a b then firstDisorder isOrdered (number + 1) (b :: rest) else some (number + 1, b)
  | _, _ => none

/-- Lines in order. -/
def sort (args : List Bytes) : Act Nat :=
  let long := [("reverse", 'r'), ("numeric-sort", 'n'), ("unique", 'u'), ("key", 'k'), ("field-separator", 't'),
    ("ignore-case", 'f'), ("output", 'o'), ("stable", 's'), ("check", 'c'), ("human-numeric-sort", 'h'), ("general-numeric-sort", 'g'), ("version-sort", 'V'),
    ("month-sort", 'M'), ("merge", 'm'), ("zero-terminated", 'z'), ("ignore-leading-blanks", 'b'), ("dictionary-order", 'd'),
    ("random-sort", 'R')]
  Act.withOptions "sort" 2 ⟨"bdfghinrRsuVcCzmM", "kotST", long, false⟩ args fun given => do
    let keys := (given.values 'k').map sortKey?
    if keys.any Option.isNone then
      let bad := ((given.values 'k').find? fun text => (sortKey? text).isNone).getD []
      Act.report ("sort: " ++ keyFlaw bad)
      return 2
    match (given.values 't').find? fun text => text.length ≠ 1 && text ≠ [92, 48] with
    | some text =>
      Act.report (if text.isEmpty then ("sort: empty tab" : Bytes) else "sort: multi-character tab " ++ inQuotes text)
      return 2
    | none => pure ()
    let keys := keys.filterMap id
    let usual : KeyOrder := .ofLetters (given.options.map (·.1))
    let divider := (given.value? 't').map fun (text : Bytes) => if text = [92, 48] then 0 else text.headD 0
    let index := (← get).streams.length
    modify fun p => (p.withStream []).1
    let shown (path : Bytes) : Bytes := if path.isEmpty then [45] else path
    let mark : UInt8 := if given.has 'z' then 0 else 10
    let whole (content : Bytes) : Bytes :=
      if content.isEmpty || content.getLast? = some mark then content else content ++ [mark]
    let status ← Act.forEach (fun path => do
      if path = [45] then
        let content ← Act.readAll
        modify fun p => p.emit (.stream index) (whole content)
        pure 0
      else
        match ← Act.contentAt path with
        | .ok content =>
          modify fun p => p.emit (.stream index) (whole content)
          pure 0
        | .error cause =>
          let failure : Bytes := if cause = .isDirectory then "sort: read failed: " else "sort: cannot read: "
          Act.report (failure ++ path ++ ": " ++ reasonOf cause)
          pure 2) (if given.operands.isEmpty then [[45]] else given.operands)
    if status ≠ 0 then return 2
    let content := (← get).contentOf (.stream index)
    let lines := if given.has 'z' then
        let pieces := Bytes.splitOn 0 content
        if pieces.getLast? = some [] then pieces.dropLast else pieces
      else (linesOf content).map lineText
    let byKeys (a b : Bytes) : Ordering :=
      if keys.isEmpty then usual.compare a b else compareKeys divider usual keys a b
    let whole (a b : Bytes) : Ordering :=
      match byKeys a b with
      | .eq =>
        if given.has 's' || given.has 'u' then .eq
        else if usual.isReversed then compareBytes b a else compareBytes a b
      | other => other
    if given.has 'c' || given.has 'C' then
      let isOrdered (a b : Bytes) : Bool := if given.has 'u' then byKeys a b = .lt else whole a b ≠ .gt
      match firstDisorder isOrdered 1 lines with
      | some (number, line) =>
        if given.has 'C' then return 1
        Act.report ("sort: " ++ shown (given.operands.headD []) ++ ":" ++ Decimal.ofNat number ++ ": disorder: " ++ line)
        return 1
      | none => return 0
    let sorted := lines.mergeSort fun a b => whole a b ≠ .gt
    let sorted := if given.has 'u' then withoutRepeats (fun a b => byKeys a b = .eq) sorted else sorted
    let text := sorted.flatMap (· ++ [if given.has 'z' then 0 else 10])
    match given.value? 'o' with
    | some path =>
      let (files, fault) := (← get).files.writeFile path text
      Act.changed files fault
    | none =>
      Act.put text
      pure 0

/-- Lines with how often each stands in a row. -/
def runsOf (isSame : Bytes → Bytes → Bool) (lines : List Bytes) : List (Nat × Bytes) :=
  (lines.foldl (fun (done : List (Nat × Bytes)) line =>
    match done with
    | (count, last) :: rest => if isSame last line then (count + 1, last) :: rest else (1, line) :: done
    | [] => [(1, line)]) []).reverse

/-- Lines without those that repeat the one before, or only some of them. -/
def uniq (args : List Bytes) : Act Nat :=
  let long := [("count", 'c'), ("repeated", 'd'), ("unique", 'u'), ("ignore-case", 'i'), ("skip-fields", 'f')]
  Act.withOptions "uniq" 1 ⟨"cduizD", "fsw", long, false⟩ args fun given => do
    if given.operands.length > 2 then
      Act.report ("uniq: extra operand " ++ inQuotes (given.operands.getD 2 []))
      Act.report (helpHint "uniq")
      return 1
    let compared (line : Bytes) : Bytes :=
      let text := behindFields none false (Bytes.digitsValue ((given.value? 'f').getD [])) line
      let text := text.drop (Bytes.digitsValue ((given.value? 's').getD []))
      let text := match given.value? 'w' with
        | some width => text.take (Bytes.digitsValue width)
        | none => text
      if given.has 'i' then text.map Bytes.lowerByte else text
    let index := (← get).streams.length
    modify fun p => (p.withStream []).1
    let status ← Act.inputs "uniq" (given.operands.take 1) fun _ content =>
      modify fun p => p.emit (.stream index) content
    if status ≠ 0 then return status
    let lines := (linesOf ((← get).contentOf (.stream index))).map lineText
    let runs := runsOf (fun a b => compared a = compared b) lines
    let chosen := runs.filter fun (count, _) =>
      (!given.has 'd' || 1 < count) && (!given.has 'u' || count = 1)
    let isRepeated (line : Bytes) : Bool := runs.any fun (count, own) => 1 < count && compared own = compared line
    let text := if given.has 'D' then (lines.filter isRepeated).flatMap (· ++ [10]) else chosen.flatMap fun (count, line) =>
      (if given.has 'c' then filled false false 7 (Decimal.ofNat count) ++ [32] else []) ++ line ++ [10]
    match given.operands.tail with
    | path :: _ =>
      let (files, fault) := (← get).files.writeFile path text
      Act.changed files fault
    | [] =>
      Act.put text
      pure status

/-- What a comparison of two lists comes upon: a line of one of three columns, or that one list is not in
order. -/
inductive CommonLine where
  | line (column : Nat) (text : Bytes)
  | disorder (list : Nat)
deriving DecidableEq, Repr

namespace CommonLine

/-- The lines of two ordered lists in three columns: the first one's alone, the second one's alone, and
common ones, in at most so many steps. Once a line is alone, lists that are not in order are told, each of
them once. -/
def ofLists (checks : Bool) : Nat → Bool → Bool → Bool → List Bytes → List Bytes → List CommonLine
  | 0, _, _, _, _, _ => []
  | steps + 1, isUneven, toldLeft, toldRight, left, right =>
    let isWrong (list : List Bytes) : Bool := match list with
      | a :: b :: _ => Bytes.less b a
      | _ => false
    let leftOnly (a : Bytes) : List CommonLine :=
      let tells := checks && !toldLeft && isWrong left
      line 1 a :: (if tells then [disorder 1] else []) ++
        ofLists checks steps true (toldLeft || tells) toldRight left.tail right
    let rightOnly (b : Bytes) : List CommonLine :=
      let tells := checks && !toldRight && isWrong right
      line 2 b :: (if tells then [disorder 2] else []) ++
        ofLists checks steps true toldLeft (toldRight || tells) left right.tail
    match left, right with
    | [], [] => []
    | a :: _, [] => leftOnly a
    | [], b :: _ => rightOnly b
    | a :: _, b :: _ =>
      if a = b then
        let tellsLeft := checks && isUneven && !toldLeft && isWrong left
        let tellsRight := checks && isUneven && !toldRight && isWrong right
        line 3 a :: (if tellsLeft then [disorder 1] else []) ++ (if tellsRight then [disorder 2] else []) ++
          ofLists checks steps isUneven (toldLeft || tellsLeft) (toldRight || tellsRight) left.tail right.tail
      else if Bytes.less a b then leftOnly a
      else rightOnly b

end CommonLine

/-- Two ordered inputs compared line by line. -/
def comm (args : List Bytes) : Act Nat :=
  let long := [("check-order", '\x01'), ("nocheck-order", '\x02'), ("output-delimiter", '\x03'), ("total", '\x04')]
  Act.withOptions "comm" 1 ⟨"123z", "\x03", long, false⟩ args fun given => do
    match given.operands with
    | [left, right] =>
      let read (path : Bytes) : Act (Option (List Bytes)) := do
        if path = [45] then pure (some ((linesOf (← Act.readAll)).map lineText))
        else
          match ← Act.contentAt path with
          | .ok content => pure (some ((linesOf content).map lineText))
          | .error cause =>
            Act.report ("comm: " ++ path ++ ": " ++ reasonOf cause)
            pure none
      match ← read left with
      | none => pure 1
      | some left =>
        match ← read right with
        | none => pure 1
        | some right =>
          let isHidden (column : Nat) : Bool :=
            (column = 1 && given.has '1') || (column = 2 && given.has '2') || (column = 3 && given.has '3')
          let tabs (column : Nat) : Bytes :=
            (List.replicate (((List.range column).filter fun n => 0 < n && !isHidden n).length)
              ((given.value? '\x03').getD [9])).flatten
          let found := CommonLine.ofLists (!given.has '\x02') (left.length + right.length + 1) false false false left right
          for item in found do
            match item with
            | .line column text => if !isHidden column then Act.put (tabs column ++ text ++ [10])
            | .disorder list => Act.report ("comm: file " ++ Decimal.ofNat list ++ " is not in sorted order")
          let isDisordered := found.any fun item => match item with
            | .disorder _ => true
            | .line _ _ => false
          if isDisordered then
            Act.report "comm: input is not in sorted order"
            pure 1
          else pure 0
    | [] => missingOperand "comm" "operand"
    | [one] =>
      Act.report ("comm: missing operand after " ++ inQuotes one)
      Act.report (helpHint "comm")
      pure 1
    | _ =>
      Act.report ("comm: extra operand " ++ inQuotes (given.operands.getD 2 []))
      Act.report (helpHint "comm")
      pure 1

end Programs

end Shell

end MobilitySweep
