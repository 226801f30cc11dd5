import MobilitySweep.Shell.Expansion
import MobilitySweep.Shell.Programs

/-! # Commands of the shell itself

Commands that change the shell which runs them: its variables, arguments, options and directory, and
the order in which it goes on.
-/

namespace MobilitySweep

namespace Shell

namespace Builtins

/-- A count given as an argument; anything else ends the script, or in the extended language the line. -/
def count (text : Bytes) : Act Nat := do
  let digits := text.dropWhile fun b => b = 32 || b = 9 || b = 10
  let digits := if digits.head? = some 43 then digits.tail else digits
  let value := Bytes.digitsValue digits
  if !digits.isEmpty && digits.all Bytes.isDigit && value < 2147483648 then pure value
  else Act.refuse ("Illegal number: " ++ text) (text ++ ": numeric argument required")

/-- The status given as an argument, or the last one. -/
def statusArgument (args : List Bytes) : Act Nat := do
  match args with
  | [] => pure (← get).status
  | text :: _ => pure ((← count text) % 256)

/-- The status that an argument of the extended language gives: any integer, cut to a byte. -/
def cutStatus (args : List Bytes) : Act Nat := do
  match args with
  | [] => pure (← get).status
  | text :: _ =>
    let (negative, digits) := Decimal.splitSign text
    if digits.isEmpty || !digits.all Bytes.isDigit then
      Act.complain (text ++ ": numeric argument required")
      pure 2
    else
      let value : Int := Bytes.digitsValue digits
      pure ((if negative then -value else value) % 256).toNat

/-- The end of the shell. -/
def exit (args : List Bytes) : Act Nat := do
  if (← get).isExtended then Act.finish (.exit (← cutStatus args))
  else Act.finish (.exit (← statusArgument args))

/-- The end of a function or a script. -/
def comeBack (args : List Bytes) : Act Nat := do
  let p ← get
  if !p.isExtended then throw (.comeBack (← statusArgument args))
  else if p.calls = 0 then
    Act.complain "can only `return' from a function or sourced script"
    pure 2
  else throw (.comeBack (← cutStatus args))

/-- A jump out of loops or to their next round; outside of loops nothing happens. -/
def loopJump (jump : Nat → Jump) (args : List Bytes) : Act Nat := do
  let p ← get
  if p.loops = 0 && p.isExtended then
    Act.complain "only meaningful in a `for', `while', or `until' loop"
    return 0
  let levels ← match args with
    | [] => pure 1
    | text :: _ =>
      let levels ← count text
      if levels = 0 then Act.refuse ("Illegal number: " ++ text) (text ++ ": loop count out of range") else pure levels
  if p.loops = 0 then pure 0 else throw (jump (min levels p.loops))

/-- Another working directory. -/
def cd (args : List Bytes) : Act Nat := do
  let p ← get
  let words := args.filter fun (word : Bytes) => word ≠ "--" && word ≠ "-P" && word ≠ "-L"
  let target := match words with
    | [] => p.value "HOME"
    | word :: _ => if word = "-" then p.value "OLDPWD" else word
  if target.isEmpty then pure 0
  else
    match p.files.resolve true target with
    | .ok (.taken place .directory) =>
      let old := p.files.workingPath
      set ({ p with files := { p.files with workingDirectory := place } }.assigned "OLDPWD" old false)
      if words.head? = some [45] then Act.put (target ++ [10])
      pure 0
    | other =>
      let cause : Files.Cause := match other with
        | .error cause => cause
        | .ok (.taken _ _) => .notDirectory
        | .ok (.free _ _) => .missing
      Act.complain (← Act.worded ("can't cd to " ++ target) (target ++ ": " ++ reasonOf cause))
      pure (if p.isExtended then 1 else 2)

/-- Whether a variable keeps its value. -/
def isFixed (p : Job) (name : Bytes) : Bool := ((p.lookUp? name).map (·.isFixed)).getD false

/-- A variable assigned, unless it is fixed. Integers are calculated. -/
def assign (name value : Bytes) (exported : Bool) : Act Unit := do
  if name = "OPTIND" then
    modify fun p => { p with optionWord := max 1 (Bytes.digitsValue (value.takeWhile Bytes.isDigit)), optionOffset := 0 }
  let p ← get
  if isFixed p name then Act.refuse (name ++ ": is read only") (name ++ ": readonly variable")
  else if p.integers.contains name then
    match p.calculate value with
    | .ok (number, made) => set ((p.calculated made).given name (Decimal.ofInt64 number) exported)
    | .error trouble => Act.refuse [] (trouble.extendedMessage value)
  else set (p.given name value exported)

/-- The name and the value of an argument that may assign. -/
def nameAndValue (word : Bytes) : Bytes × Option Bytes :=
  let name := word.takeWhile (· ≠ 61)
  (name, if name.length < word.length then some (word.drop (name.length + 1)) else none)

/-- A variable changed, if there is one. -/
def mark (name : Bytes) (change : Variable → Variable) : Act Unit :=
  modify fun p => { p with bindings := p.bindings.map fun (other, old) =>
    if other = name then (other, change old) else (other, old) }

/-- Variables given to the programs that are started. -/
def exportNames (args : List Bytes) : Act Nat := do
  let isExtended := (← get).isExtended
  let mut status := 0
  for word in args.filter (·.head? ≠ some 45) do
    let (name, value) := nameAndValue word
    if isName name then
      match value with
      | some value => assign name value true
      | none => mark name fun old => { old with isExported := args.head? ≠ some [45, 110] }
    else if isExtended then
      Act.complain ("`" ++ word ++ "': not a valid identifier")
      status := 1
    else Act.abort (name ++ ": bad variable name")
  pure status

/-- Variables that keep their value from now on. -/
def fix (args : List Bytes) : Act Nat := do
  for word in args.filter (·.head? ≠ some 45) do
    let (name, value) := nameAndValue word
    assign name (value.getD ((← get).value name)) false
    mark name fun old => { old with isFixed := true }
  pure 0

/-- Variables or functions removed. -/
def unset (args : List Bytes) : Act Nat := do
  let isFunction := args.head? = some ("-f" : Bytes)
  for name in args.filter (·.head? ≠ some 45) do
    let p ← get
    if isFunction then set { p with functions := p.functions.filter (·.1 ≠ name) }
    else if isFixed p name then
      if p.isExtended then
        Act.complain (name ++ ": cannot unset: readonly variable")
        return 1
      else Act.abort (name ++ ": is read only")
    else if !p.isExtended then set { p with bindings := p.bindings.filter (·.1 ≠ name) }
    else
      match Job.element? name with
      | some (base, subscript) =>
        match p.collection? base, p.entryOf base subscript with
        | some found, .ok key => set (p.withCollection base (some (found.erase key)))
        | _, _ => pure ()
      | none =>
        if !isName name then
          Act.complain ("`" ++ name ++ "': not a valid identifier")
          return 1
        let isVariable := (p.lookUp? name).isSome || (p.collection? name).isSome
        if isVariable || args.head? = some ("-v" : Bytes) then
          set { p.withCollection name none with
            bindings := p.bindings.filter (·.1 ≠ name)
            integers := p.integers.filter (· ≠ name) }
        else set { p with functions := p.functions.filter (·.1 ≠ name) }
  pure 0

/-- The letters of options with long names. -/
def longOptions : List (String × UInt8) :=
  [("allexport", 97), ("errexit", 101), ("noglob", 102), ("nounset", 117), ("xtrace", 120), ("verbose", 118),
    ("noexec", 110), ("noclobber", 67)]

/-- An option switched on or off. -/
def switch (isOn : Bool) (letter : UInt8) : Act Unit :=
  modify fun p =>
    let others := p.options.filter (· ≠ letter)
    { p with options := if isOn then others ++ [letter] else others }

/-- The mark for pipelines that fail with any of their commands. -/
def pipeFailure : UInt8 := 1

/-- Options and arguments set, in at most so many steps. -/
def setWithin : Nat → List Bytes → Act Nat
  | 0, _ => pure 0
  | _, [] => pure 0
  | steps + 1, word :: rest => do
    let setWords := setWithin steps
    match word with
    | [45, 45] =>
      modify fun p => { p with args := rest, optionWord := 1, optionOffset := 0 }
      pure 0
    | [45, 111] | [43, 111] =>
      match rest with
      | name :: rest =>
        match longOptions.find? fun entry => Bytes.ofString entry.1 = name with
        | some (_, letter) => switch (word.headD 0 = 45) letter
        | none =>
          if !(← get).isExtended then Act.abort ("Illegal option " ++ word ++ " " ++ name)
          else if name = "pipefail" then switch (word.headD 0 = 45) pipeFailure
          else if name ≠ "posix" && name ≠ "errtrace" && name ≠ "functrace" then
            Act.complain (name ++ ": invalid option name")
            return 2
        setWords rest
      | [] => pure 0
    | 45 :: letters =>
      for letter in letters do
        if !("aefuxvnCmbhI" : Bytes).contains letter && !(← get).isExtended then
          Act.abort ("Illegal option -" ++ [letter])
        switch true letter
      if letters.getLast? = some 111 then
        modify fun p => { p with options := p.options.filter (· ≠ 111) }
        setWords ([45, 111] :: rest)
      else setWords rest
    | 43 :: letters =>
      for letter in letters do switch false letter
      setWords rest
    | _ =>
      modify fun p => { p with args := word :: rest, optionWord := 1, optionOffset := 0 }
      pure 0

/-- Options and arguments set. -/
def setWords (words : List Bytes) : Act Nat := setWithin (2 * words.length + 2) words

/-- Arguments dropped at the front. -/
def shift (args : List Bytes) : Act Nat := do
  let levels ← match args with
    | [] => pure 1
    | text :: _ => count text
  let p ← get
  if p.args.length < levels then
    if p.isExtended then pure 1 else Act.abort "can't shift that many"
  else
    set { p with args := p.args.drop levels }
    pure 0

/-- Values given to names: the last name takes all that is left. -/
def giveFields (separators : Bytes) : List Bytes → Bytes → Act Unit
  | [], _ => pure ()
  | [name], text =>
    let isBlank (b : UInt8) : Bool := (b = 32 || b = 9 || b = 10) && separators.contains b
    assign name ((text.dropWhile isBlank).reverse.dropWhile isBlank).reverse false
  | name :: rest, text => do
    let isBlank (b : UInt8) : Bool := (b = 32 || b = 9 || b = 10) && separators.contains b
    let text := text.dropWhile isBlank
    let field := text.takeWhile (!separators.contains ·)
    let behind := (text.drop field.length).dropWhile isBlank
    let behind := match behind with
      | b :: more => if separators.contains b then more else behind
      | [] => []
    assign name field false
    giveFields separators rest behind

/-- A text without the backslashes that protect its bytes. -/
def withoutBackslashes : Bytes → Bytes
  | [] => []
  | 92 :: b :: rest => b :: withoutBackslashes rest
  | b :: rest => b :: withoutBackslashes rest

/-- A line of input given to variables; no complete line is a failure. -/
def read (args : List Bytes) : Act Nat := do
  let (options, names) := splitOptions args
  let (line, isComplete) ← Act.readLine
  let line := if hasOption options 114 then line else withoutBackslashes line
  if names.isEmpty then
    Act.complain "arg count"
    pure 2
  else
    giveFields (← get).separators names line
    pure (if isComplete then 0 else 1)

/-- The fields of a text. -/
def fieldsOf (separators text : Bytes) : List Bytes :=
  ((Fields.empty.split separators text).toList).map Field.toBytes

/-- Input given to variables in the extended language: up to a mark, at most so many bytes, into an array or
under a name of its own. -/
def readMore (args : List Bytes) : Act Nat :=
  Act.withOptions "read" 2 ⟨"rse", "adinNptu", [], true⟩ args fun given => do
    let mark : UInt8 := match given.value? 'd' with
      | some text => text.headD 0
      | none => 10
    let most := ((given.value? 'n').or (given.value? 'N')).map Bytes.digitsValue
    let (line, isComplete) ← Act.readUpTo (if given.has 'N' then none else some mark) most
    let line := if given.has 'r' then line else withoutBackslashes line
    let separators := (← get).separators
    match given.value? 'a' with
    | some name =>
      modify fun p => { p with bindings := p.bindings.filter (·.1 ≠ name) }.withCollection name
        (some (.ofList (fieldsOf separators line)))
    | none =>
      if given.operands.isEmpty then assign "REPLY" line false else giveFields separators given.operands line
    pure (if isComplete then 0 else 1)

/-- The signals by name and number, and how a process that they end is described. -/
def signals : List (String × Nat × String) :=
  [("HUP", 1, "hangup"), ("INT", 2, "interrupt"), ("QUIT", 3, "quit"), ("ILL", 4, "illegal instruction"),
    ("TRAP", 5, "trace/breakpoint trap"), ("ABRT", 6, "aborted"), ("BUS", 7, "bus error"),
    ("FPE", 8, "floating point exception"), ("KILL", 9, "killed"), ("USR1", 10, "user defined signal 1"),
    ("SEGV", 11, "segmentation fault"), ("USR2", 12, "user defined signal 2"), ("PIPE", 13, "broken pipe"),
    ("ALRM", 14, "alarm clock"), ("TERM", 15, "terminated"), ("STKFLT", 16, "stack fault"),
    ("CHLD", 17, "child exited"), ("CONT", 18, "continued"), ("STOP", 19, "stopped (signal)"), ("TSTP", 20, "stopped"),
    ("TTIN", 21, "stopped (tty input)"), ("TTOU", 22, "stopped (tty output)"), ("URG", 23, "urgent I/O condition"),
    ("XCPU", 24, "CPU time limit exceeded"), ("XFSZ", 25, "file size limit exceeded"),
    ("VTALRM", 26, "virtual timer expired"), ("PROF", 27, "profiling timer expired"), ("WINCH", 28, "window changed"),
    ("IO", 29, "I/O possible"), ("PWR", 30, "power failure"), ("SYS", 31, "bad system call")]

/-- The signals that do nothing to a process that does not ask for them. -/
def harmless : List String := ["CHLD", "CONT", "URG", "WINCH"]

/-- The signals that stop a process until another one comes. -/
def stopping : List String := ["STOP", "TSTP", "TTIN", "TTOU"]

/-- The name of a signal that a text gives by name or number. -/
def signalName? (name : Bytes) : Option Bytes :=
  if name = "EXIT" || name = "0" then some "EXIT"
  else
    (signals.find? fun (own, number, _) => Bytes.ofString own = name || Decimal.ofNat number = name).map
      (Bytes.ofString ·.1)

/-- The names of the signals with some numbers, or of those that ended processes with some statuses. -/
def signalNames (args : List Bytes) : Act Nat := do
  if args.isEmpty then
    for (name, _, _) in signals do Act.put (Bytes.ofString name ++ [10])
    pure 0
  else
    let text := args.headD []
    let given := Bytes.digitsValue text
    let number := if 128 < given then given - 128 else given
    if !text.all Bytes.isDigit then
      Act.complain ("Illegal number: " ++ text)
      return 2
    match signals.find? fun (_, own, _) => own = number with
    | some (name, _, _) =>
      Act.put (Bytes.ofString name ++ [10])
      pure 0
    | none =>
      Act.complain ("invalid signal number or exit status: " ++ text)
      pure 2

/-- What is done when a signal comes or the shell ends. -/
def trap (args : List Bytes) : Act Nat := do
  match args.filter fun (word : Bytes) => word ≠ "--" with
  | [] => pure 0
  | action :: names =>
    let (action, names) := if names.isEmpty then (([45] : Bytes), [action]) else (action, names)
    let isExtended := (← get).isExtended
    let nameOf (text : Bytes) : Option Bytes :=
      if !isExtended then signalName? text
      else if text = "ERR" || text = "DEBUG" || text = "RETURN" then some text
      else signalName? (if ("SIG" : Bytes).isPrefixOf text then text.drop 3 else text)
    for text in names do
      match nameOf text with
      | some name =>
        modify fun p =>
          let others := p.traps.filter (·.1 ≠ name)
          { p with traps := if action = [45] then others else (name, action) :: others }
      | none =>
        if isExtended then Act.complain (text ++ ": invalid signal specification")
        else Act.report ("trap: " ++ text ++ ": bad trap")
    pure (if names.all fun text => (nameOf text).isSome then 0 else 1)

/-- Where commands are found: what the name of each is answered with. -/
def located (name : Bytes) : Act (Option Bytes) := do
  let p ← get
  if (p.functions.find? (·.1 = name)).isSome then pure (some name)
  else if isOwn name then pure (some name)
  else if name.contains 47 then
    match p.executableAt name with
    | .program _ | .script _ _ => pure (some name)
    | _ => pure none
  else
    let folders := Bytes.splitOn 58 (((p.lookUp? "PATH").map (·.value)).getD usualSearchPath)
    let paths := folders.map fun folder => if folder.isEmpty then name else folder ++ [47] ++ name
    pure (paths.find? fun path => match p.executableAt path with
      | .program _ | .script _ _ => true
      | _ => false)
where
  /-- The commands of the shell itself, by name. -/
  isOwn (name : Bytes) : Bool :=
    ["cd", "echo", "eval", "exec", "exit", "export", "false", "kill", "printf", "pwd", "read", "return", "set",
      "shift", "test", "trap", "true", "type", "umask", "unset", "wait", "[", ":", "."].any (Bytes.ofString · = name)

/-- Variables whose values come back when the function ends. -/
def shelter (args : List Bytes) : Act Nat := do
  for word in args do
    let (name, value) := nameAndValue word
    modify fun p => { p with sheltered := p.sheltered ++ [(name, p.lookUp? name, p.collection? name)] }
    match value with
    | some value => assign name value false
    | none => pure ()
  pure 0

/-- What names stand for, in words. -/
def describe (args : List Bytes) : Act Nat :=
  Act.forEach (fun name => do
    let isNamed (own : String) : Bool := Bytes.ofString own = name
    let kind : Option Bytes :=
      if keywordNames.any isNamed then some "a shell keyword"
      else if specialNames.any isNamed then some "a special shell builtin"
      else none
    match kind with
    | some kind =>
      Act.put (name ++ " is " ++ kind ++ "\n")
      pure 0
    | none =>
      match ← located name with
      | some place =>
        let isFunction := ((← get).functions.find? (·.1 = name)).isSome
        let kind : Bytes := if isFunction then "a shell function"
          else if place = name then "a shell builtin" else place
        Act.put (name ++ " is " ++ kind ++ "\n")
        pure 0
      | none =>
        Act.put (name ++ ": not found\n")
        pure 127) args
where
  /-- The keywords. -/
  keywordNames : List String :=
    ["!", "case", "do", "done", "elif", "else", "esac", "fi", "for", "if", "in", "then", "until", "while"]
  /-- The commands with a special standing. -/
  specialNames : List String :=
    [".", ":", "break", "continue", "eval", "exec", "exit", "export", "readonly", "return", "set", "shift", "times",
      "trap", "unset"]

/-- Whether an option takes a value, if it is among some letters: a colon behind a letter says that it
does. -/
def knownOption? (letter : UInt8) : Bytes → Option Bool
  | [] => none
  | own :: 58 :: rest => if own = letter then some true else knownOption? letter rest
  | own :: rest => if own = letter then some false else knownOption? letter rest

/-- The next option of some words given to a name; no more of them is a failure. Letters that start with a
colon keep quiet about what is wrong. -/
def nextOption (args : List Bytes) : Act Nat := do
  match args with
  | letters :: name :: own =>
    let p ← get
    let words := if own.isEmpty then p.args else own
    let isQuiet := letters.head? = some 58
    let letters := if isQuiet then letters.tail else letters
    let current := (words.getD (p.optionWord - 2) []).drop p.optionOffset
    let isInside := 1 < p.optionWord && p.optionOffset ≠ 0 && !current.isEmpty
    let (text, next) : Bytes × Nat := if isInside then (current, p.optionWord)
      else match words[p.optionWord - 1]? with
        | some (45 :: b :: more) =>
          if b = 45 && more.isEmpty then ([], p.optionWord + 1) else (b :: more, p.optionWord + 1)
        | _ => ([], p.optionWord)
    let settle (found : UInt8) (value : Option Bytes) (next : Nat) (left : Bytes) : Act Unit := do
      match value with
      | some value => assign "OPTARG" value false
      | none => modify fun p => { p with bindings := p.bindings.filter (·.1 ≠ ("OPTARG" : Bytes)) }
      assign "OPTIND" (Decimal.ofNat next) false
      assign name [found] false
      let word := words.getD (next - 2) []
      modify fun p => { p with optionWord := next, optionOffset := if left.isEmpty then 0 else word.length - left.length }
    let tell (plain extended : Bytes) (letter : UInt8) : Act Unit := do
      let text : Bytes := if p.isExtended then p.name ++ ": " ++ extended ++ [letter]
        else plain ++ [letter] ++ (if plain = "No arg for -" then (" option" : Bytes) else [])
      Act.report text
    match text with
    | [] =>
      let value := (p.lookUp? "OPTARG").map (·.value)
      settle 63 value next []
      pure 1
    | letter :: left =>
      let silent : Option Bytes := if p.isExtended then none else some []
      match knownOption? letter letters with
      | none =>
        if !isQuiet then tell "Illegal option -" "illegal option -- " letter
        settle 63 (if isQuiet then some [letter] else none) next left
      | some false => settle letter silent next left
      | some true =>
        if !left.isEmpty then settle letter (some left) next []
        else match words[next - 1]? with
          | some value => settle letter (some value) (next + 1) []
          | none =>
            if !isQuiet then tell "No arg for -" "option requires an argument -- " letter
            settle (if isQuiet then 58 else 63) (if isQuiet then some [letter] else none) next []
      pure 0
  | _ =>
    if (← get).isExtended then
      Act.report "getopts: usage: getopts optstring name [arg ...]"
      pure 2
    else Act.abort "Usage: getopts optstring var [arg...]"

/-- Names that stand for other words from the next line on, or what they stand for. -/
def standFor (args : List Bytes) : Act Nat := do
  let lead : Bytes := if (← get).isExtended then "alias " else []
  let shown (name text : Bytes) : Bytes := lead ++ name ++ "='" ++ Bytes.replaceAll [39] "'\\''" text ++ "'\n"
  if args.isEmpty then
    for (name, text) in (← get).aliases.reverse do Act.put (shown name text)
  Act.forEach (fun word => do
    match nameAndValue word with
    | (name, some text) =>
      modify fun p => { p with aliases := (name, text) :: p.aliases.filter (·.1 ≠ name) }
      pure 0
    | (name, none) =>
      match (← get).aliases.find? (·.1 = name) with
      | some (_, text) =>
        Act.put (shown name text)
        pure 0
      | none =>
        Act.complain (← Act.worded (name ++ " not found") (name ++ ": not found"))
        pure 1) args

/-- Names that stand for nothing else any more. -/
def standForNothing (args : List Bytes) : Act Nat := do
  if args.head? = some ("-a" : Bytes) then
    modify fun p => { p with aliases := [] }
    pure 0
  else
    Act.forEach (fun name => do
      let p ← get
      if p.aliases.any (·.1 = name) then
        set { p with aliases := p.aliases.filter (·.1 ≠ name) }
        pure 0
      else
        Act.complain (← Act.worded (name ++ " not found") (name ++ ": not found"))
        pure 1) args

/-- The commands of a table: those with a special standing, whose failures end a script. -/
def special : List (String × (List Bytes → Act Nat)) :=
  [(":", fun _ => pure 0), ("exit", exit), ("return", comeBack), ("break", loopJump .leave),
    ("continue", loopJump .resume), ("export", exportNames), ("readonly", fix), ("unset", unset),
    ("set", setWords), ("shift", shift), ("trap", trap), ("times", fun _ => pure 0)]

/-- The other commands of the shell itself. -/
def regular : List (String × (List Bytes → Act Nat)) :=
  [("cd", cd), ("read", read), ("echo", Programs.echo), ("printf", Programs.printf), ("test", Programs.test),
    ("[", Programs.bracket), ("true", fun _ => pure 0), ("false", fun _ => pure 1), ("pwd", Programs.pwd),
    ("wait", wait), ("umask", umask)] ++
  [("local", shelter), ("type", describe), ("hash", fun _ => pure 0), ("alias", standFor),
    ("unalias", standForNothing), ("getopts", nextOption),
    ("ulimit", fun _ => pure 0), ("jobs", fun _ => pure 0)]
where
  /-- The status of a job in the background, or none if all are waited for. -/
  wait (args : List Bytes) : Act Nat := do
    match args with
    | [] => pure 0
    | text :: _ =>
      let p ← get
      pure (p.background.getD (Bytes.digitsValue text - p.number - 1) 127)
  /-- The permissions that new files are not given. -/
  umask (args : List Bytes) : Act Nat := do
    if args.isEmpty then Act.put "0022\n"
    pure 0

/-- A command of a table by its name. -/
def find? (table : List (String × (List Bytes → Act Nat))) (name : Bytes) : Option (List Bytes → Act Nat) :=
  (table.find? fun entry => Bytes.ofString entry.1 = name).map (·.2)

end Builtins

end Shell

end MobilitySweep
