import MobilitySweep.Shell.Records.Machine
import MobilitySweep.Shell.Records.Reading

/-! # Running record scripts

The rules for the start run first, then those for each record in turn, then those for the end. Running is
bounded: a script that nests or repeats beyond the bound never ends.
-/

namespace MobilitySweep

namespace Shell

namespace Records

/-- What can be carried out: an expression has a value, an action has none. -/
inductive Phrase where
  | expression (e : Expression)
  | action (a : Action)

/-- What carries phrases out. -/
abbrev Interpreter := Phrase → Step Value

/-- What a script is carried out with: how commands are started, and the functions of the script. -/
structure Scene where
  launcher : Launcher
  functions : List Function

/-- A target with its subscripts known. -/
inductive Spot where
  | named (name : Bytes)
  | field (index : Nat)
  | element (array : Nat) (key : Bytes)

/-- A truth value as a number. -/
def Value.ofBool (b : Bool) : Value := .number (.ofInt (if b then 1 else 0))

/-- An integer as a value. -/
def Value.ofInt (n : Int) : Value := .number (.ofInt n)

/-- A text with escaped and plain marks for what was found. -/
def replacement (found : Bytes) : Bytes → Bytes
  | 92 :: 38 :: rest => 38 :: replacement found rest
  | 92 :: 92 :: 38 :: rest => 92 :: (found ++ replacement found rest)
  | 38 :: rest => found ++ replacement found rest
  | b :: rest => b :: replacement found rest
  | [] => []

/-- A part of a text from a place on, of a length. Places before the start count from the first byte, and
make the part longer. -/
def part (text : Bytes) (start : Int) (length : Option Int) : Bytes :=
  let skipped := (max start 1 - 1).toNat
  let rest := text.drop skipped
  match length with
  | none => rest
  | some length => rest.take (if start < 0 then length - start else length).toNat

/-- Where a text first stands in another one, from one on; zero if nowhere. -/
def placeOf (text sought : Bytes) : Nat :=
  match (List.range (text.length + 1)).find? fun n => sought.isPrefixOf (text.drop n) with
  | some n => n + 1
  | none => 0

/-- The text of a caught result: what was caught, or none. -/
def Step.attempt {α : Type} (s : Step α) : Step (Except Leap α) := ExceptT.mk (s.run >>= fun r => pure (.ok r))

namespace Interpreter

/-- The value of an expression. -/
def eval (run : Interpreter) (e : Expression) : Step Value := run (.expression e)

/-- An action carried out. -/
def exec (run : Interpreter) (a : Action) : Step Unit := do
  let _ ← run (.action a)
  pure ()

/-- The number that an expression has. -/
def number (run : Interpreter) (e : Expression) : Step Binary64 := do pure (← run.eval e).toNumber

/-- The text that an expression has. -/
def text (run : Interpreter) (e : Expression) : Step Bytes := do
  let value ← run.eval e
  pure (value.toText (← get).convert)

/-- The text that subscripts make together. -/
def key (run : Interpreter) (subscripts : List Expression) : Step Bytes := do
  let texts ← subscripts.mapM run.text
  pure (Bytes.joinWith ((← get).textOf "SUBSEP") texts)

/-- The array of a name. -/
def arrayOf (name : Bytes) : Step Nat := do
  let (number, m) := (← get).arrayOf name
  set m
  pure number

/-- A target with its subscripts. -/
def spot (run : Interpreter) : Expression → Step Spot
  | .field index => do
    let index := (← run.number index).toInt
    if index < 0 then Step.fail ("negative field index $" ++ Decimal.ofInt index)
    else pure (.field index.toNat)
  | .element array subscripts => do
    let key ← run.key subscripts
    pure (.element (← arrayOf array) key)
  | .named name => pure (.named name)
  | _ => pure (.named [])

/-- What stands at a target. -/
def read : Spot → Step Value
  | .named name => do pure ((← get).valueOf name)
  | .field 0 => do pure (.ofInput (← get).record)
  | .field index => do pure ((← get).fields.getD (index - 1) .unset)
  | .element array key => do
    let m ← get
    match (m.table array).get? key with
    | some value => pure value
    | none =>
      set (m.withTable array ((m.table array).insert key .unset))
      pure .unset

/-- A value put at a target. -/
def write (value : Value) : Spot → Step Unit
  | .named name => modify fun m => m.assigned name value
  | .field 0 => do Step.setRecord (value.toText (← get).convert)
  | .field index => modify fun m => m.withField index value
  | .element array key => modify fun m => m.withTable array ((m.table array).insert key value)

/-- What an expression matches with. -/
def matcher (run : Interpreter) : Expression → Step Matcher
  | .pattern matcher => pure matcher
  | other => do Step.matcherOf (← run.text other)

/-- Arithmetic. -/
def arithmetic (operator : UInt8) (a b : Binary64) : Binary64 :=
  if operator = 43 then a.add b
  else if operator = 45 then a.sub b
  else if operator = 42 then a.mul b
  else if operator = 47 then a.div b
  else if operator = 37 then a.rem b
  else Elementary.pow a b

/-- A record that was read put where it belongs: one, and the record itself without a target. -/
def receive (run : Interpreter) (target : Option Expression) (record : Bytes) : Step Value := do
  match target with
  | some target => write (.ofInput record) (← run.spot target)
  | none => Step.setRecord record
  pure (.ofInt 1)

/-- A record read from a file or command. -/
def lineFrom (run : Interpreter) (l : Launcher) (name : Expression) (isPipe : Bool) (target : Option Expression) :
    Step Value := do
  match ← Step.lineOf l (← run.text name) isPipe with
  | none => pure (.ofInt (-1))
  | some none => pure (.ofInt 0)
  | some (some record) => run.receive target record

/-- A format filled with values; the text so far comes with a failure. -/
def format (run : Interpreter) (name : Bytes) (items : List Expression) : Step (Bytes × Option Bytes) := do
  let values ← items.mapM run.eval
  let convert := (← get).convert
  match values with
  | [] => pure ([], none)
  | first :: values =>
    let source := first.toText convert
    let shown : Bytes := name ++ "(\"" ++ source ++ "\")"
    let (text, trouble) := formatValues convert (source.length + 1) 0 [] source values
    pure (text, trouble.map fun trouble => match trouble with
      | .tooFew => "not enough arguments passed to " ++ shown
      | .unknown number => "improper conversion(number " ++ Decimal.ofNat number ++ ") in " ++ shown)

/-- Matches in a target replaced: the first one or all. The value is how many. -/
def substitute (run : Interpreter) (isEverywhere : Bool) (args : List Expression) : Step Value := do
  match args with
  | pattern :: filling :: rest =>
    let matcher ← run.matcher pattern
    let filling ← run.text filling
    let target ← run.spot (rest.headD (.field (.number .zero)))
    let text := (← read target).toText (← get).convert
    let found := matcher.occurrences text
    let chosen := if isEverywhere then found else found.take 1
    if !chosen.isEmpty then
      write (.text (Matcher.replaced text (fun o => replacement o.text filling) chosen)) target
    pure (.ofInt chosen.length)
  | _ => pure .unset

/-- A text divided into an array. -/
def split (run : Interpreter) (args : List Expression) : Step Value := do
  match args with
  | subject :: .named array :: rest =>
    let text ← run.text subject
    let divider : Divider ← match rest with
      | .pattern matcher :: _ => pure (.pattern matcher)
      | e :: _ => Step.dividerOf (← run.text e)
      | [] => Step.dividerOf ((← get).textOf "FS")
    let pieces := divider.pieces text
    let number ← arrayOf array
    modify fun m => m.withTable number (.ofList (pieces.map .ofInput))
    pure (.ofInt pieces.length)
  | _ => pure .unset

/-- The length of a text or the size of an array. -/
def length (run : Interpreter) (args : List Expression) : Step Value := do
  match args with
  | [] => pure (.ofInt (← get).record.length)
  | .named name :: _ =>
    let m ← get
    match (m.slot name).array, m.valueOf name with
    | some number, .unset => pure (.ofInt (m.table number).size)
    | _, value => pure (.ofInt (value.toText m.convert).length)
  | e :: _ => pure (.ofInt (← run.text e).length)

/-- A function of one number. -/
def ofNumber (run : Interpreter) (f : Binary64 → Binary64) (args : List Expression) : Step Value := do
  pure (.number (f (← run.number (args.headD (.field (.number .zero))))))

/-- A function of one text. -/
def ofText (run : Interpreter) (f : Bytes → Value) (args : List Expression) : Step Value := do
  pure (f (← run.text (args.headD (.field (.number .zero)))))

/-- A function that every script has. -/
def builtin (run : Interpreter) (l : Launcher) (name : Bytes) (args : List Expression) : Step Value := do
  if name = "length" then run.length args
  else if name = "substr" then
    match args with
    | subject :: start :: rest =>
      let text ← run.text subject
      let start ← run.number start
      let length ← rest.mapM run.number
      pure (.text (part text start.toInt (length.head?.map (·.toInt))))
    | _ => pure .unset
  else if name = "index" then
    match args with
    | subject :: sought :: _ =>
      let text ← run.text subject
      pure (.ofInt (placeOf text (← run.text sought)))
    | _ => pure .unset
  else if name = "split" then run.split args
  else if name = "sub" then run.substitute false args
  else if name = "gsub" then run.substitute true args
  else if name = "match" then
    match args with
    | subject :: pattern :: _ =>
      let text ← run.text subject
      let (start, length) : Int × Int := match (← run.matcher pattern).find? text with
        | some o => (text.length - o.start.rest.length + 1, o.text.length)
        | none => (0, -1)
      modify fun m => (m.assigned "RSTART" (.ofInt start)).assigned "RLENGTH" (.ofInt length)
      pure (.ofInt start)
    | _ => pure .unset
  else if name = "sprintf" then
    match ← run.format name args with
    | (text, none) => pure (.text text)
    | (_, some message) => Step.fail message
  else if name = "atan2" then
    match args with
    | y :: x :: _ =>
      let y ← run.number y
      pure (.number (Elementary.atan2 y (← run.number x)))
    | _ => pure .unset
  else if name = "sin" then run.ofNumber Elementary.sin args
  else if name = "cos" then run.ofNumber Elementary.cos args
  else if name = "exp" then run.ofNumber Elementary.exp args
  else if name = "log" then run.ofNumber Elementary.log args
  else if name = "sqrt" then run.ofNumber Elementary.sqrt args
  else if name = "int" then run.ofNumber (·.truncated) args
  else if name = "tolower" then run.ofText (fun text => .text (text.map Bytes.lowerByte)) args
  else if name = "toupper" then
    run.ofText (fun text => .text (text.map fun b => if 97 ≤ b && b ≤ 122 then b - 32 else b)) args
  else if name = "system" then
    let line ← run.text (args.headD (.text []))
    Step.flush
    pure (.ofInt (← Step.act (Step.command l line)))
  else if name = "close" then
    pure (.ofInt (← Step.close l (← run.text (args.headD (.text [])))))
  else if name = "fflush" then
    Step.flush
    pure (.ofInt 0)
  else if name = "srand" then
    let seed ← match args with
      | e :: _ => run.eval e
      | [] => pure (.ofInt 1)
    let m ← get
    set (m.withSlot "#seed" ⟨seed, none⟩)
    pure (m.slot "#seed").value
  else pure (.ofInt 0)

/-- An argument of a function: a bare name is passed with its array. -/
def argument (run : Interpreter) : Expression → Step Slot
  | .named name => do
    let m ← get
    match m.valueOf name with
    | .unset =>
      let _ ← arrayOf name
      pure ((← get).slot name)
    | value => pure ⟨value, (m.slot name).array⟩
  | e => do pure ⟨← run.eval e, none⟩

/-- A function called. -/
def call (run : Interpreter) (f : Function) (args : List Expression) : Step Value := do
  let slots ← args.mapM run.argument
  let before := (← get).locals
  let given := f.parameters.zipIdx.map fun (name, place) => (name, slots.getD place ⟨.unset, none⟩)
  modify fun m => { m with locals := given }
  let result ← Step.attempt (run.exec f.body)
  modify fun m => { m with locals := before }
  match result with
  | .error (.comeBack value) => pure value
  | .error leap => throw leap
  | .ok _ => pure .unset

/-- The value of an expression, given what carries out those inside it. -/
def evalStep (run : Interpreter) (c : Scene) : Expression → Step Value
  | .number value => pure (.number value)
  | .text value => pure (.text value)
  | .pattern matcher => do pure (.ofBool (matcher.isFoundIn (← get).record))
  | .named name => do pure ((← get).valueOf name)
  | .field index => do read (← run.spot (.field index))
  | .element array subscripts => do read (← run.spot (.element array subscripts))
  | .assignment operator target value => do
    let target ← run.spot target
    let value ← run.eval value
    let value ← if operator = [61] then pure value
      else do pure (.number (arithmetic (operator.headD 0) (← read target).toNumber value.toNumber))
    write value target
    pure value
  | .conditional test yes no => do if (← run.eval test).isTrue then run.eval yes else run.eval no
  | .both first second => do
    if (← run.eval first).isTrue then pure (.ofBool (← run.eval second).isTrue) else pure (.ofBool false)
  | .either first second => do
    if (← run.eval first).isTrue then pure (.ofBool true) else pure (.ofBool (← run.eval second).isTrue)
  | .has array subscripts => do
    let key ← run.key subscripts
    let number ← arrayOf array
    pure (.ofBool (((← get).table number).get? key).isSome)
  | .matching isNegated subject pattern => do
    let text ← run.text subject
    pure (.ofBool ((← run.matcher pattern).isFoundIn text != isNegated))
  | .comparison operator left right => do
    let left ← run.eval left
    let right ← run.eval right
    let order := Value.compare (← get).convert left right
    pure (.ofBool (if operator = "<" then order = .lt
      else if operator = "<=" then order ≠ .gt
      else if operator = "==" then order = .eq
      else if operator = "!=" then order ≠ .eq
      else if operator = ">" then order = .gt
      else order ≠ .lt))
  | .joined left right => do
    let left ← run.text left
    pure (.text (left ++ (← run.text right)))
  | .binary operator left right => do
    let left ← run.number left
    pure (.number (arithmetic operator left (← run.number right)))
  | .unary operator operand => do
    let value ← run.eval operand
    pure (if operator = 33 then .ofBool (!value.isTrue)
      else if operator = 45 then .number value.toNumber.neg
      else .number value.toNumber)
  | .step isUp isBefore target => do
    let target ← run.spot target
    let old := (← read target).toNumber
    let new := old.add (.ofInt (if isUp then 1 else -1))
    write (.number new) target
    pure (.number (if isBefore then new else old))
  | .call name args => do
    match c.functions.find? (·.name = name) with
    | some f => run.call f args
    | none => pure .unset
  | .builtin name args => run.builtin c.launcher name args
  | .line target => do
    match ← Step.nextRecord 100000 with
    | some record => run.receive target record
    | none => pure (.ofInt 0)
  | .lineOfFile path target => run.lineFrom c.launcher path false target
  | .lineOfCommand line target => run.lineFrom c.launcher line true target
  | .group members => run.eval (members.headD (.text []))

/-- Text sent where an output statement says. -/
def sendTo (run : Interpreter) (text : Bytes) : Output → Step Unit
  | .plain => Step.put text
  | .file path appends => do Step.send (← run.text path) false appends text
  | .pipe line => do Step.send (← run.text line) true false text

/-- The rounds of a loop, at most so many. -/
def rounds (run : Interpreter) (test : Option Expression) (advance body : Action) : Nat → Step Unit
  | 0 => Step.act (Act.finish .deadline)
  | count + 1 => do
    let goesOn ← match test with
      | some test => do pure (← run.eval test).isTrue
      | none => pure true
    if goesOn then
      match ← Step.attempt (run.exec body) with
      | .error .leave => pure ()
      | .error .resume | .ok _ =>
        run.exec advance
        rounds run test advance body count
      | .error leap => throw leap

/-- The rounds of a loop over subscripts. -/
def eachRound (run : Interpreter) (name : Bytes) (body : Action) : List Bytes → Step Unit
  | [] => pure ()
  | key :: rest => do
    modify fun m => m.assigned name (.text key)
    match ← Step.attempt (run.exec body) with
    | .error .leave => pure ()
    | .error .resume | .ok _ => eachRound run name body rest
    | .error leap => throw leap

/-- How many rounds a loop has at most. -/
def roundLimit : Nat := 200000

/-- An action, given what carries out what is inside it. -/
def execStep (run : Interpreter) : Action → Step Unit
  | .nothing => pure ()
  | .expression e => do
    let _ ← run.eval e
    pure ()
  | .print items output => do
    let m ← get
    let values ← items.mapM run.eval
    let after ← get
    let shown := if items.isEmpty then m.record
      else Bytes.joinWith (after.textOf "OFS") (values.map fun (value : Value) => value.toText (after.textOf "OFMT"))
    run.sendTo (shown ++ after.textOf "ORS") output
  | .printf items output => do
    let (text, trouble) ← run.format "printf" items
    run.sendTo text output
    match trouble with
    | some message => Step.fail message
    | none => pure ()
  | .conditional test yes no => do if (← run.eval test).isTrue then run.exec yes else run.exec no
  | .loop test advance body => run.rounds test advance body roundLimit
  | .loopAfter test body => do
    match ← Step.attempt (run.exec body) with
    | .error .leave => pure ()
    | .error .resume | .ok _ => run.rounds (some test) .nothing body roundLimit
    | .error leap => throw leap
  | .each name array body => do
    let number ← arrayOf array
    run.eachRound name body ((← get).table number).keys
  | .sequence first second => do
    run.exec first
    run.exec second
  | .next => throw .next
  | .nextFile => throw .nextFile
  | .leave => throw .leave
  | .resume => throw .resume
  | .exit status => do
    match status with
    | some e =>
      let status := (← run.number e).toInt
      modify fun m => { m with status := (status % 256).toNat }
    | none => pure ()
    throw .exit
  | .comeBack value => do
    let value ← match value with
      | some e => run.eval e
      | none => pure .unset
    throw (.comeBack value)
  | .delete array subscripts => do
    let key ← subscripts.mapM run.key
    let number ← arrayOf array
    modify fun m => m.withTable number (match key with
      | some key => (m.table number).erase key
      | none => .empty)

end Interpreter

/-- Phrases carried out with others nested inside them at most so deep. -/
def interpreter (c : Scene) : Nat → Interpreter
  | 0, _ => Step.act (Act.finish .deadline)
  | depth + 1, .expression e => Interpreter.evalStep (interpreter c depth) c e
  | depth + 1, .action a => do
    Interpreter.execStep (interpreter c depth) a
    pure .unset

/-- How deep phrases may be nested while they are carried out. -/
def phraseDepth : Nat := 2500

/-- The rules for one occasion. -/
def Script.actionsFor (s : Script) (isWanted : Occasion → Bool) : List Action :=
  s.rules.filterMap fun rule => if isWanted rule.occasion then rule.action else none

/-- Whether a rule is for the current record; ranges are told apart by the places of their rules. -/
def isMeant (run : Interpreter) (place : Nat) : Occasion → Step Bool
  | .start | .finish => pure false
  | .always => pure true
  | .test e => do pure (← run.eval e).isTrue
  | .range first last => do
    let isUnderWay := (← get).ranges.contains place
    let isStarted ← if isUnderWay then pure true else do pure (← run.eval first).isTrue
    if isStarted then
      let isOver := (← run.eval last).isTrue
      modify fun m =>
        let others := m.ranges.filter (· ≠ place)
        { m with ranges := if isOver then others else place :: others }
      pure true
    else pure false

/-- The rules carried out for the current record. -/
def rulesRun (run : Interpreter) : List (Rule × Nat) → Step Unit
  | [] => pure ()
  | (rule, place) :: rest => do
    if ← isMeant run place rule.occasion then run.exec (rule.action.getD (.print [] .plain))
    rulesRun run rest

/-- All records worked on, at most so many. -/
def recordsRun (run : Interpreter) (rules : List (Rule × Nat)) : Nat → Step Unit
  | 0 => Step.act (Act.finish .deadline)
  | count + 1 => do
    match ← Step.nextRecord 100000 with
    | none => pure ()
    | some record =>
      Step.setRecord record
      match ← Step.attempt (rulesRun run rules) with
      | .ok _ | .error .next => recordsRun run rules count
      | .error .nextFile =>
        modify fun m => { m with current := m.current.map fun _ => [] }
        recordsRun run rules count
      | .error leap => throw leap

/-- How many records there are at most. -/
def recordLimit : Nat := 1000000

/-- A whole script carried out. The rules for the end run also if the script ends before its input does. -/
def scriptRun (c : Scene) (s : Script) : Step Unit := do
  let run := interpreter c phraseDepth
  let isStart : Occasion → Bool := fun o => match o with
    | .start => true
    | _ => false
  let isFinish : Occasion → Bool := fun o => match o with
    | .finish => true
    | _ => false
  let own := s.rules.zipIdx.filter fun (rule, _) => !isStart rule.occasion && !isFinish rule.occasion
  let endings := s.actionsFor isFinish
  let body : Step Unit := do
    for action in s.actionsFor isStart do run.exec action
    if !own.isEmpty || !endings.isEmpty then recordsRun run own recordLimit
  match ← Step.attempt body with
  | .ok _ | .error .exit => pure ()
  | .error leap => throw leap
  match ← Step.attempt (do for action in endings do run.exec action) with
  | .ok _ | .error .exit => pure ()
  | .error leap => throw leap

/-- The state at the start: the names that every script has. -/
def Machine.start (p : Job) (args : List Bytes) : Machine :=
  let environment := (p.bindings.filter (·.2.isExported)).map fun (name, found) => (name, Value.ofInput found.value)
  let operands := ([97, 119, 107] :: args).zipIdx.map fun (operand, place) => (Decimal.ofNat place, Value.ofInput operand)
  let texts : List (String × String) :=
    [("FS", " "), ("OFS", " "), ("ORS", "\n"), ("RS", "\n"), ("SUBSEP", "\x1c"), ("CONVFMT", "%.6g"), ("OFMT", "%.6g"),
      ("FILENAME", "")]
  let numbers : List (String × Int) :=
    [("NR", 0), ("FNR", 0), ("RSTART", 0), ("RLENGTH", -1), ("ARGC", args.length + 1)]
  let arrays : List (String × Nat) := [("ENVIRON", 0), ("ARGV", 1)]
  let globals : List (Bytes × Slot) :=
    arrays.map (fun (name, number) => (Bytes.ofString name, (⟨.unset, some number⟩ : Slot))) ++
    texts.map (fun (name, value) => (Bytes.ofString name, (⟨.text (Bytes.ofString value), none⟩ : Slot))) ++
    numbers.map (fun (name, value) => (Bytes.ofString name, (⟨.ofInt value, none⟩ : Slot)))
  { globals := globals
    locals := []
    tables := [(0, ⟨environment⟩), (1, ⟨operands⟩)]
    record := []
    fields := []
    output := []
    sinks := []
    springs := []
    operand := 1
    current := none
    hasInput := false
    ranges := []
    status := 0 }

/-- What a call asks for: the parts of the script, the names given values before it starts, and the
operands. -/
structure Order where
  scripts : List Bytes
  files : List Bytes
  names : List Bytes
  operands : List Bytes
deriving Repr

/-- The order that some words are, in at most so many steps; what is wrong with them otherwise. -/
def Order.read : Nat → Order → List Bytes → Except Bytes Order
  | 0, order, _ => .ok order
  | _, order, [] => .ok order
  | steps + 1, order, word :: rest =>
    if word = "--" then .ok { order with operands := rest }
    else if word.head? ≠ some 45 || word = [45] then .ok { order with operands := word :: rest }
    else
      let letter := word.getD 1 0
      let take (value : Bytes) (rest : List Bytes) : Except Bytes Order :=
        if letter = 70 then read steps { order with names := order.names ++ ["FS=" ++ value] } rest
        else if letter = 118 then
          if (Step.assignment? value).isSome then read steps { order with names := order.names ++ [value] } rest
          else .error ("awk: improper assignment: -v " ++ value)
        else read steps { order with files := order.files ++ [value] } rest
      if letter = 70 || letter = 118 || letter = 102 then
        if word.length > 2 then take (word.drop 2) rest
        else
          match rest with
          | value :: rest => take value rest
          | [] => .error ("awk: option -" ++ [letter] ++ " lacks argument")
      else .error ("awk: not an option: " ++ word)

end Records

namespace Launcher

/-- Inputs worked on record by record. -/
def awk (l : Launcher) (args : List Bytes) : Act Nat := do
  match Records.Order.read (args.length + 1) ⟨[], [], [], []⟩ args with
  | .error message =>
    Act.report message
    pure 2
  | .ok order =>
    let mut scripts := order.scripts
    let mut operands := order.operands
    for path in order.files do
      match ← Act.contentAt path with
      | .ok content => scripts := scripts ++ [content]
      | .error cause =>
        Act.report ("awk: cannot open \"" ++ path ++ "\" (" ++ reasonOf cause ++ ")")
        return 2
    if order.files.isEmpty then
      match operands with
      | script :: rest =>
        scripts := [script]
        operands := rest
      | [] =>
        Act.report "Usage: awk [Options] [Program] [file ...]"
        return 0
    match Records.parse (Bytes.joinWith [10] scripts) with
    | .error (flaw, line) =>
      let file : Bytes := match order.files with
        | path :: _ => path ++ ": "
        | [] => []
      Act.report (flaw.message file line)
      pure 2
    | .ok script =>
      let names := order.names
      let activity : Records.Step Unit := do
        for assignment in names do
          match Records.Step.assignment? assignment with
          | some (name, value) => Records.Step.assignOperand name value
          | none => pure ()
        match ← Records.Step.attempt (Records.scriptRun ⟨l, script.functions⟩ script) with
        | .error (.fatal message) =>
          Records.Step.act (Act.report message)
          modify fun m => { m with status := 2 }
        | _ => pure ()
        Records.Step.finish l
      let (_, m) ← (activity.run).run (Records.Machine.start (← get) operands)
      pure m.status

end Launcher

end Shell

end MobilitySweep
