import MobilitySweep.Shell.Builtins

/-! # Commands of the extended shell language

Commands that declare variables and arrays, calculate, read lines into arrays, and tell what names stand
for; and those of the plain language that work or speak in another way.
-/

namespace MobilitySweep

namespace Shell

namespace Builtins

/-- A text in double quotes that stands for itself. -/
def inDoubleQuotes (text : Bytes) : Bytes :=
  [34] ++ (text.flatMap fun b => if b = 34 || b = 36 || b = 96 || b = 92 then [92, b] else [b]) ++ [34]

/-- The declaration that would make a variable or an array what it is. -/
def declarationOf (p : Job) (name : Bytes) : Option Bytes :=
  let found := p.lookUp? name
  let letters : Bytes := (if p.integers.contains name then [105] else []) ++
    (if found.any (·.isFixed) then [114] else []) ++ (if found.any (·.isExported) then [120] else [])
  match p.collection? name with
  | some c =>
    let entries := c.toList.map fun (key, text) => [91] ++ key ++ [93, 61] ++ inDoubleQuotes text
    let body := Bytes.joinWith [32] entries ++ (if c.isKeyed && !entries.isEmpty then [32] else [])
    let kind : UInt8 := if c.isKeyed then 65 else 97
    let shown : Bytes := ("declare -" : Bytes) ++ [kind] ++ letters ++ [32] ++ name ++ [61, 40] ++ body ++ [41]
    some shown
  | none => found.map fun v =>
    let letters : Bytes := if letters.isEmpty then [45] else letters
    let shown : Bytes := ("declare -" : Bytes) ++ letters ++ [32] ++ name ++ [61] ++ inDoubleQuotes v.value
    shown

/-- Variables whose values come back when the function ends. -/
def shelterNames (names : List Bytes) : Act Unit := do
  for name in names do
    modify fun p => { p with
      sheltered := p.sheltered ++ [(name, p.lookUp? name, p.collection? name)]
      bindings := p.bindings.filter (·.1 ≠ name)
      collections := p.collections.filter (·.1 ≠ name) }

/-- Names declared to be variables of some kind; inside a function they are its own unless all are meant. -/
def declare (title : Bytes) (isLocal : Bool) (args : List Bytes) : Act Nat := do
  let p ← get
  let isOption (word : Bytes) : Bool := (word.head? = some 45 || word.head? = some 43) && word.length > 1
  let letters := ((args.takeWhile isOption).filter (·.head? = some 45)).flatMap List.tail
  let words := args.dropWhile isOption
  match letters.find? fun letter => !("aAfFgiIlnprtux" : Bytes).contains letter with
  | some letter =>
    Act.complain ("-" ++ [letter] ++ ": invalid option")
    Act.report (title ++ ": usage: " ++ title ++
      " [-aAfFgiIlnrtux] [name[=value] ...] or declare -p [-aAfFilnrtux] [name ...]")
    return 2
  | none => pure ()
  if isLocal && p.calls = 0 then
    Act.complain "can only be used in a function"
    return 1
  if letters.contains 112 then
    return ← Act.forEach (fun name => do
      match declarationOf (← get) name with
      | some text =>
        Act.put (text ++ [10])
        pure 0
      | none =>
        Act.complain (name ++ ": not found")
        pure 1) words
  if letters.contains 102 || letters.contains 70 then
    return if words.all fun name => p.functions.any (·.1 = name) then 0 else 1
  let mut status := 0
  for word in words do
    let (name, value) := nameAndValue word
    if !isName name then
      Act.complain ("`" ++ word ++ "': not a valid identifier")
      status := 1
    else
      if p.calls > 0 && !letters.contains 103 then shelterNames [name]
      if letters.contains 65 || letters.contains 97 then
        modify fun p => if (p.collection? name).isSome then p
          else p.withCollection name (some ⟨letters.contains 65, []⟩)
      if letters.contains 105 then modify fun p => { p with integers := name :: p.integers.filter (· ≠ name) }
      match value with
      | some value => assign name value (letters.contains 120)
      | none => pure ()
      if letters.contains 120 then
        modify fun p => if (p.lookUp? name).isSome then p else p.assigned name [] true
        mark name fun old => { old with isExported := true }
  pure status

/-- Expressions calculated one after another; the last one decides. -/
def letValues (args : List Bytes) : Act Nat := do
  let mut status := 1
  for text in args do
    match (← get).calculate text with
    | .ok (value, made) =>
      modify (·.calculated made)
      status := if value = 0 then 1 else 0
    | .error trouble =>
      Act.complain (trouble.extendedMessage text)
      return 1
  pure status

/-- The lines of the input put into an array. -/
def mapLines (args : List Bytes) : Act Nat :=
  Act.withOptions "mapfile" 2 ⟨"t", "dnOsucC", [], true⟩ args fun given => do
    let content ← Act.readAll
    let mark : UInt8 := match given.value? 'd' with
      | some text => text.headD 0
      | none => 10
    let pieces := Bytes.splitOn mark content
    let ended := pieces.dropLast.map fun line => if given.has 't' then line else line ++ [mark]
    let lines := ended ++ (match pieces.getLast? with
      | some [] | none => []
      | some last => [last])
    let lines := lines.drop (((given.value? 's').map Bytes.digitsValue).getD 0)
    let lines := match given.value? 'n' with
      | some most => if Bytes.digitsValue most = 0 then lines else lines.take (Bytes.digitsValue most)
      | none => lines
    let name := given.operands.headD "MAPFILE"
    modify fun p => { p with bindings := p.bindings.filter (·.1 ≠ name) }.withCollection name (some (.ofList lines))
    pure 0

/-- The words of a condition in the extended language, and what it says about those that are none. -/
def testWords (words : List Bytes) : Act Nat := do
  let words := match words with
    | [left, operator, right] => if operator = "==" then [left, [61], right] else words
    | [first, left, operator, right] =>
      if first = "!" && operator = "==" then [first, left, [61], right] else words
    | _ => words
  let p ← get
  match words with
  | [option, name] =>
    if option = "-v" then return if (p.value? name).isSome || (p.collection? name).isSome then 0 else 1
    else if option ≠ "!" && !Condition.isUnary option && option ≠ "-a" && option ≠ "-o" then
      Act.complain (option ++ ": unary operator expected")
      return 2
  | _ => pure ()
  match Condition.holds p words with
  | .ok value => pure (if value then 0 else 1)
  | .error trouble =>
    Act.complain (match trouble with
      | .noNumber text => text ++ ": integer expression expected"
      | .noClosing => "`)' expected"
      | .noArgument operator => operator ++ ": unary operator expected"
      | .unexpected _ =>
        match words with
        | [_, operator, _] => operator ++ ": binary operator expected"
        | _ => "too many arguments")
    pure 2

/-- A condition in brackets. -/
def bracketWords (words : List Bytes) : Act Nat := do
  if words.getLast? = some [93] then testWords words.dropLast
  else
    Act.complain "missing `]'"
    pure 2

/-- A format written with arguments, or put into a variable. -/
def printMore (args : List Bytes) : Act Nat := do
  match args with
  | option :: name :: rest =>
    if option = "-v" then
      let (text, status) ← Act.capture (Programs.printf rest)
      assign name text false
      pure status
    else Programs.printf args
  | [] =>
    Act.report "printf: usage: printf [-v var] format [arguments]"
    pure 2
  | _ => Programs.printf args

/-- The kind of thing that a name stands for, in one word. -/
def kindOf (p : Job) (name : Bytes) : Act (Option Bytes) := do
  let isNamed (own : String) : Bool := Bytes.ofString own = name
  if (describe.keywordNames ++ ["function", "select", "time", "[[", "]]", "\x7b", "\x7d"]).any isNamed then
    pure (some "keyword")
  else if p.functions.any (·.1 = name) then pure (some "function")
  else if ownNames.any isNamed then pure (some "builtin")
  else pure ((← located name).map fun _ => "file")
where
  /-- The commands of the shell itself. -/
  ownNames : List String :=
    [":", ".", "[", "alias", "bg", "break", "builtin", "caller", "cd", "command", "continue", "declare", "dirs", "echo",
      "enable", "eval", "exec", "exit", "export", "false", "fc", "fg", "getopts", "hash", "help", "history", "jobs",
      "kill", "let", "local", "mapfile", "popd", "printf", "pushd", "pwd", "read", "readarray", "readonly", "return",
      "set", "shift", "shopt", "source", "test", "times", "trap", "true", "type", "typeset", "ulimit", "umask",
      "unalias", "unset", "wait"]

/-- What names stand for, in words. -/
def tell (args : List Bytes) : Act Nat := do
  let p ← get
  let isShort := args.head? = some ("-t" : Bytes)
  let isPath := args.head? = some ("-p" : Bytes) || args.head? = some ("-P" : Bytes)
  Act.forEach (fun name => do
    match ← kindOf p name with
    | some kind =>
      let place := ((← located name).getD name)
      let text : Bytes := if isShort then kind
        else if isPath then (if kind = "file" then place else [])
        else if kind = "keyword" then name ++ " is a shell keyword"
        else if kind = "function" then name ++ " is a function"
        else if kind = "builtin" then name ++ " is a shell builtin"
        else name ++ " is " ++ place
      if !text.isEmpty then Act.put (text ++ [10])
      pure 0
    | none =>
      if !isShort && !isPath then Act.complain (name ++ ": not found")
      pure 1) (if isShort || isPath then args.tail else args)

/-- Further options switched on or off. -/
def switchMore (args : List Bytes) : Act Nat := do
  match args with
  | option :: names =>
    for name in names do
      if name = "nullglob" then switch (option = "-s") vanishingPatterns
    pure 0
  | [] => pure 0

/-- The commands that the extended language has beside those of the plain one, or in place of them. -/
def extended : List (String × (List Bytes → Act Nat)) :=
  [("echo", Programs.plainEcho), ("read", readMore), ("printf", printMore), ("test", testWords), ("[", bracketWords),
    ("declare", declare "declare" false), ("typeset", declare "typeset" false), ("local", declare "local" true),
    ("let", letValues), ("mapfile", mapLines), ("readarray", mapLines), ("type", tell),
    ("shopt", switchMore), ("enable", fun _ => pure 0), ("disown", fun _ => pure 0)]

end Builtins

end Shell

end MobilitySweep
