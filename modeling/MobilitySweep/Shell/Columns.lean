import MobilitySweep.Shell.Utility

/-! # Columns of texts

Programs on the fields of lines and on tabs: lines of two inputs joined by a field that they share, and
blanks in place of tabs or the other way round.
-/

namespace MobilitySweep

namespace Shell

/-- A line as fields: between marks of one kind, or between runs of blanks. -/
def fieldsBetween (mark : Option UInt8) (line : Bytes) : List Bytes :=
  match mark with
  | some mark => Bytes.splitOn mark line
  | none => (Bytes.splitOn 32 (line.map fun b => if b = 9 then 32 else b)).filter (!·.isEmpty)

/-- How lines are joined: by which fields, with which mark between fields, what is written of lines without a
partner, and which fields are written. -/
structure JoinRule where
  first : Nat
  second : Nat
  mark : Option UInt8
  showsPairs : Bool
  showsFirst : Bool
  showsSecond : Bool
  chosen : Option (List (Nat × Nat))
  missing : Bytes
  ignoresCase : Bool

namespace JoinRule

/-- The field of a line that it is joined by. -/
def key (r : JoinRule) (isFirst : Bool) (fields : List Bytes) : Bytes :=
  let own := fields.getD ((if isFirst then r.first else r.second) - 1) []
  if r.ignoresCase then own.map fun b => if 97 ≤ b && b ≤ 122 then b - 32 else b else own

/-- Fields without the one that a line is joined by. -/
def others (place : Nat) (fields : List Bytes) : List Bytes := fields.take (place - 1) ++ fields.drop place

/-- The line that a pair gives; one of the two may be missing. -/
def line (r : JoinRule) (a b : List Bytes) : Bytes :=
  let shared := if a.isEmpty then b.getD (r.second - 1) [] else a.getD (r.first - 1) []
  let fields := match r.chosen with
    | none => shared :: (if a.isEmpty then [] else others r.first a) ++ (if b.isEmpty then [] else others r.second b)
    | some chosen => chosen.map fun (source, place) =>
      let own := if source = 0 then shared else (if source = 1 then a else b).getD (place - 1) []
      if own.isEmpty then r.missing else own
  Bytes.joinWith [r.mark.getD 32] fields ++ [10]

/-- The joined lines of two inputs in order, in at most so many steps. -/
def lines (r : JoinRule) : Nat → List (List Bytes) → List (List Bytes) → Bytes
  | 0, _, _ => []
  | _, [], [] => []
  | steps + 1, a :: rest, [] => (if r.showsFirst then r.line a [] else []) ++ r.lines steps rest []
  | steps + 1, [], b :: rest => (if r.showsSecond then r.line [] b else []) ++ r.lines steps [] rest
  | steps + 1, a :: as, b :: bs =>
    let left := r.key true a
    let right := r.key false b
    if left = right then
      let mine := (a :: as).takeWhile fun fields => r.key true fields = left
      let yours := (b :: bs).takeWhile fun fields => r.key false fields = left
      let pairs := if r.showsPairs then mine.flatMap fun x => yours.flatMap (r.line x) else []
      pairs ++ r.lines steps ((a :: as).drop mine.length) ((b :: bs).drop yours.length)
    else if Bytes.less left right then (if r.showsFirst then r.line a [] else []) ++ r.lines steps as (b :: bs)
    else (if r.showsSecond then r.line [] b else []) ++ r.lines steps (a :: as) bs

/-- The first line that stands behind one with a greater key, with its number. -/
def disorder? (r : JoinRule) (isFirst : Bool) : Nat → List Bytes → Option (Nat × Bytes)
  | number, a :: b :: rest =>
    let keyOf (line : Bytes) : Bytes := r.key isFirst (fieldsBetween r.mark line)
    if Bytes.less (keyOf b) (keyOf a) then some (number + 1, b) else r.disorder? isFirst (number + 1) (b :: rest)
  | _, _ => none

end JoinRule

/-- A field that is asked for: the shared one, or one of an input. -/
def chosenField (text : Bytes) : Nat × Nat :=
  match Bytes.splitOn 46 text with
  | [source, place] => (Bytes.digitsValue source, Bytes.digitsValue place)
  | _ => (0, 0)

namespace Programs

/-- Lines of two inputs joined by a field. -/
def join (args : List Bytes) : Act Nat :=
  Act.withOptions "join" 1 ⟨"iz", "12javtoe", [("ignore-case", 'i')], false⟩ args fun given => do
    match given.operands with
    | [] => missingOperand "join" "operand"
    | [path] => missingOperand "join" ("operand after " ++ inQuotes path)
    | left :: right :: _ =>
      let place (letter : Char) : Nat := Bytes.digitsValue (((given.value? letter).or (given.value? 'j')).getD [49])
      let alone := given.values 'a' ++ given.values 'v'
      let r : JoinRule :=
        { first := place '1'
          second := place '2'
          mark := (given.value? 't').bind (·.head?)
          showsPairs := !given.has 'v'
          showsFirst := alone.contains [49]
          showsSecond := alone.contains [50]
          chosen := (given.value? 'o').map fun text =>
            ((Bytes.splitOn 44 (text.map fun b => if b = 32 then 44 else b)).filter (!·.isEmpty)).map chosenField
          missing := (given.value? 'e').getD []
          ignoresCase := given.has 'i' }
      let read (path : Bytes) : Act (Option (List Bytes)) := do
        let content ← if path = [45] then do pure (.ok (← Act.readAll)) else Act.contentAt path
        match content with
        | .ok content => pure (some ((linesOf content).map lineText))
        | .error cause =>
          Act.report ("join: " ++ inNeededQuotes path ++ ": " ++ reasonOf cause)
          pure none
      match ← read left with
      | none => pure 1
      | some first =>
        match ← read right with
        | none => pure 1
        | some second =>
          let fields (lines : List Bytes) : List (List Bytes) := lines.map (fieldsBetween r.mark)
          Act.put (r.lines (first.length + second.length + 1) (fields first) (fields second))
          let complaints := ((r.disorder? true 1 first).toList.map fun found => (left, found)) ++
            ((r.disorder? false 1 second).toList.map fun found => (right, found))
          for (path, number, line) in complaints do
            Act.report ("join: " ++ path ++ ":" ++ Decimal.ofNat number ++ ": is not sorted: " ++ line)
          if complaints.isEmpty then pure 0
          else
            Act.report "join: input is not in sorted order"
            pure 1

/-- A line with blanks in place of its tabs, from a column on; perhaps only those before the first other
character. -/
def expandedLine (size : Nat) (onlyLeading : Bool) : Nat → Bytes → Bytes
  | _, [] => []
  | column, b :: rest =>
    if b = 9 then
      let count := size - column % size
      List.replicate count 32 ++ expandedLine size onlyLeading (column + count) rest
    else if onlyLeading && b ≠ 32 then b :: rest
    else b :: expandedLine size onlyLeading (if b = 10 then 0 else column + 1) rest

/-- The size of tabs that is asked for. -/
def tabSize (given : Given) : Nat := max 1 (((given.value? 't').map Bytes.digitsValue).getD 8)

/-- Tabs made blanks. -/
def expand (args : List Bytes) : Act Nat :=
  Act.withOptions "expand" 1 ⟨"i", "t", [("tabs", 't'), ("initial", 'i')], false⟩ args fun given =>
    Act.inputs "expand" given.operands fun _ content =>
      Act.put ((linesOf content).flatMap (expandedLine (tabSize given) (given.has 'i') 0))

/-- A line with tabs in place of blanks that reach a stop: those that wait are counted. Unless all are asked
for, only blanks before the first other character are meant. -/
def unexpandedLine (size : Nat) (all : Bool) : Nat → Nat → Bytes → Bytes
  | _, waiting, [] => List.replicate waiting 32
  | column, waiting, b :: rest =>
    if b = 32 then
      if (column + 1) % size = 0 then
        (if waiting = 0 && all && !rest.isEmpty && rest.head? ≠ some 32 then [32] else [9]) ++
          unexpandedLine size all (column + 1) 0 rest
      else unexpandedLine size all (column + 1) (waiting + 1) rest
    else if b = 9 then 9 :: unexpandedLine size all ((column / size + 1) * size) 0 rest
    else if all then List.replicate waiting 32 ++ b :: unexpandedLine size all (column + 1) 0 rest
    else List.replicate waiting 32 ++ b :: rest

/-- Blanks made tabs. -/
def unexpand (args : List Bytes) : Act Nat :=
  Act.withOptions "unexpand" 1 ⟨"a", "t", [("tabs", 't'), ("all", 'a')], false⟩ args fun given =>
    Act.inputs "unexpand" given.operands fun _ content =>
      Act.put ((linesOf content).flatMap (unexpandedLine (tabSize given) (given.has 'a' || given.has 't') 0 0))

end Programs

end Shell

end MobilitySweep
