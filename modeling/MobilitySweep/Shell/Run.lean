import MobilitySweep.Shell.Expansion
import MobilitySweep.Shell.Declarations
import MobilitySweep.Shell.Script

/-! # Running scripts

Statements are run in order. A simple command is a function, a command of the shell itself or a program;
its words are expanded first, then its redirections are made, then its assignments. Running is bounded:
a script that nests or repeats deeper than the bound is one that never ends.

The simulator of a sweep is whatever command its configuration names, and where no network simulator is at hand that
is a shell with a short script, which makes a log out of the configuration with the usual text and file programs. What
such a script does to the files and how it ends decides what a run leaves behind, so it is carried out and not
assumed. Nothing that is said of sweeps depends on which programs there are: there, a simulator is any program of
steps on the bench.
-/

namespace MobilitySweep

namespace Shell

/-- What runs statements, given whether the failure of a statement is looked at by the one around it. -/
abbrev Runner := Bool → Statement → Act Nat

namespace Runner

/-- What is said about a flaw in a script of the extended language that starts on a line. -/
def reportFlaw (text : Bytes) (flaw : Flaw) (line first : Nat) : Act Unit := do
  let p ← get
  let origin : Bytes := if p.origin.isEmpty then [] else p.origin ++ ": "
  let (message, isShown) := flaw.extendedMessage
  let isAtEnd := message = "syntax error: unexpected end of file" || flaw = .openParenthesis
  let line := if isAtEnd && text.getLast? ≠ some 10 then line + 1 else line
  let place : Bytes := p.name ++ ": " ++ origin ++ "line " ++ Decimal.ofNat (line + first - 1) ++ ": "
  Act.report (place ++ message)
  match flaw with
  | .condition _ found => Act.report (place ++ "syntax error near `" ++ found ++ "'")
  | _ => pure ()
  if isShown then
    Act.report (place ++ "`" ++ ((Bytes.splitOn 10 text)[line - 1]?).getD [] ++ "'")

/-- The commands of some tokens of a text run one after another, at most so many. In the extended language a
line that is given up is a failure and no more. -/
def runTokens (run : Runner) (tested : Bool) (text : Bytes) : Nat → List (Token × Nat) → Nat → Act Nat
  | 0, _, status => pure status
  | count + 1, tokens, status => do
    let p ← get
    match nextStatement (.of p.dialect p.aliases) tokens with
    | .error (flaw, line) =>
      if (← get).isExtended then
        reportFlaw text flaw line 1
        Act.finish (.exit 2)
      else
        modify fun p => { p with line := line }
        Act.abort ("Syntax error: " ++ flaw.message)
    | .ok none => pure status
    | .ok (some (statement, rest)) =>
      match ← Act.attempt (run tested statement) with
      | .ok status => runTokens run tested text count rest status
      | .error .abandon =>
        modify fun p => { p with status := 1 }
        runTokens run tested text count rest 1
      | .error jump => throw jump

/-- A script run from its text. -/
def runText (run : Runner) (tested : Bool) (text : Bytes) : Act Nat := do
  let found := tokens (← get).dialect text
  runTokens run tested text (found.length + 1) found 0

/-- The output of a script. -/
def outputOf (run : Runner) (text : Bytes) : Act Bytes := do
  let (output, status) ← Act.capture (run.runText false text)
  modify fun p => { p with substituted := status }
  pure output

/-- A descriptor led elsewhere; a redirection that fails is reported. -/
def redirect (run : Runner) (r : Redirect) : Act Bool := do
  let target ← expandText run.outputOf r.target
  let p ← get
  let lead (p : Job) (channel : Option Channel) : Act Bool := do
    set (p.withChannel r.descriptor channel)
    pure true
  let opened (result : Files × Option Fault) : Act Bool := do
    if target = "/dev/null" || target = "/dev/zero" then lead p (some .nowhere)
    else if target = "/dev/full" then lead p (some .full)
    else if target = "/dev/stderr" then lead p (p.channel? 2)
    else if target = "/dev/stdout" then lead p (p.channel? 1)
    else
      match result with
      | (files, none) => lead { p with files := files } (some (.file (p.fixedPath target)))
      | (_, some _) =>
        Act.complain (← Act.worded
          ("cannot create " ++ target ++ ": " ++ whyNot p.files target "Directory nonexistent")
          (target ++ ": " ++ reasonOf (causeOf p.files target)))
        pure false
  match r.kind with
  | .document =>
    let (p, channel) := p.withStream target
    lead p (some channel)
  | .text =>
    let (p, channel) := p.withStream (target ++ [10])
    lead p (some channel)
  | .overwriteBoth | .appendBoth =>
    if ← opened (if r.kind = .appendBoth then p.files.openAppend target else p.files.create target) then
      modify fun p => p.withChannel 2 (p.channel? r.descriptor)
      pure true
    else pure false
  | .duplicate =>
    match target with
    | [45] => lead p none
    | [digit] =>
      if !Bytes.isDigit digit then Act.refuse "Syntax error: Bad fd number" (target ++ ": ambiguous redirect")
      else
        match p.channel? (digit.toNat - 48) with
        | some channel => lead p (some channel)
        | none =>
          Act.complain (target ++ ": Bad file descriptor")
          pure false
    | _ => Act.refuse "Syntax error: Bad fd number" (target ++ ": ambiguous redirect")
  | .input =>
    if target = "/dev/null" then lead p (some .nowhere)
    else
      match p.files.stat target with
      | .ok (.file content) =>
        let (p, channel) := p.withStream content.toBytes
        lead p (some channel)
      | .ok _ => lead p (some .nowhere)
      | .error cause =>
        if ("/dev/fd/" : Bytes).isPrefixOf target then
          let (p, channel) := p.withStream (((p.channel? (Bytes.digitsValue (target.drop 8))).map p.contentOf).getD [])
          lead p (some channel)
        else
          Act.complain (← Act.worded ("cannot open " ++ target ++ ": " ++ whyNot p.files target "No such file")
            (target ++ ": " ++ reasonOf cause))
          pure false
  | .overwrite =>
    let isKept := p.options.contains 67 && match p.files.stat target with
      | .ok (.file _) => true
      | _ => false
    if isKept then
      Act.complain (← Act.worded ("cannot create " ++ target ++ ": File exists")
        (target ++ ": cannot overwrite existing file"))
      pure false
    else opened (p.files.create target)
  | .replace => opened (p.files.create target)
  | .append => opened (p.files.openAppend target)
where
  /-- Why a file cannot be opened. -/
  causeOf (files : Files) (path : Bytes) : Files.Cause :=
    match files.writablePlace path with
    | .error cause => cause
    | .ok _ => .missing
  /-- Why a file cannot be opened; a path that leads nowhere has a wording of its own. -/
  whyNot (files : Files) (path missing : Bytes) : Bytes :=
    let cause := causeOf files path
    if cause = .missing || cause = .notDirectory then missing else reasonOf cause

/-- Redirections made in order until one fails. -/
def redirectAll (run : Runner) : List Redirect → Act Bool
  | [] => pure true
  | r :: rest => do if ← run.redirect r then run.redirectAll rest else pure false

/-- An activity with descriptors that come back afterwards. -/
def withDescriptors (activity : Act Nat) : Act Nat :=
  Act.restoring (fun before after => { after with channels := before.channels }) activity

/-- A process of its own: what it does to its shell is gone afterwards, and a signal that ends it is
reported, unless it has replaced the shell that started it. -/
def asProcess (replaces : Bool) (activity : Act Nat) : Act Nat := do
  match ← Act.apart activity with
  | .ok status => pure status
  | .error (.finish (.exit status)) => pure status
  | .error (.finish (.signal description)) =>
    if replaces then Act.finish (.signal description)
    else
      if description ≠ "interrupt" && description ≠ "broken pipe" then
        Act.report (match description with
          | [] => []
          | b :: rest => (if 97 ≤ b && b ≤ 122 then b - 32 else b) :: rest)
      let number := (Builtins.signals.find? fun (_, _, text) => Bytes.ofString text = description).map (·.2.1)
      pure (128 + number.getD 0)
  | .error (.finish .deadline) => Act.finish .deadline
  | .error _ => pure 0

/-- What is to be done at the end of a shell, with the status that it ends with. -/
def endShell (run : Runner) (result : Except Jump Nat) : Act Nat := do
  let status : Option Nat := match result with
    | .ok status => some status
    | .error (.finish (.exit status)) => some status
    | .error (.comeBack status) => some status
    | .error (.finish _) => none
    | .error .abandon => some 1
    | .error _ => some 0
  match status with
  | none => Act.passOn result
  | some status =>
    let p ← get
    match p.traps.find? (·.1 = ("EXIT" : Bytes)) with
    | none => pure status
    | some (_, action) =>
      set { p with traps := p.traps.filter (·.1 ≠ ("EXIT" : Bytes)), status := status }
      match ← Act.attempt (run.runText false action) with
      | .error (.finish ending) => Act.finish ending
      | _ => pure status

/-- A signal sent to the shell itself: its trap, or its end. In a subshell the signal waits for the shell
around it. -/
def signal (run : Runner) (name description : Bytes) : Act Nat := do
  let p ← get
  if p.depth ≠ 0 then
    set { p with pending := some (name, description) }
    pure 0
  else match p.traps.find? fun (own, _) => own = name && name ≠ "KILL" with
  | some (_, action) =>
    let status := p.status
    let _ ← run.runText false action
    modify fun p => { p with status := status }
    pure 0
  | none =>
    if Builtins.harmless.any (Bytes.ofString · = name) then pure 0
    else if Builtins.stopping.any (Bytes.ofString · = name) then Act.finish .deadline
    else Act.finish (.signal description)

/-- A subshell, with the end that is asked for inside it. A signal that waited comes when it is over. -/
def subshell (run : Runner) (activity : Act Nat) : Act Nat := do
  let depth := (← get).depth
  let (status, pending) ← fun p =>
    let inner : Act Nat := do
      modify fun p => { p with traps := [], loops := 0, depth := p.depth + 1 }
      let result ← Act.attempt activity
      run.endShell result
    match (Act.inSubshell inner).run p with
    | (.ok status, after) => (.ok (status, after.pending), { after with pending := none })
    | (.error jump, after) => (.error jump, after)
  match pending with
  | some (name, description) =>
    if depth = 0 then
      let _ ← run.signal name description
    else modify fun p => { p with pending := pending }
    pure status
  | none => pure status

/-- What a shell is started for: a script given as text, a script in a file, or its input. -/
inductive Errand where
  | text (script : Bytes) (name : Bytes) (args : List Bytes)
  | file (path : Bytes) (args : List Bytes)
  | input
  | unknown (message : Bytes)

/-- The errand that the arguments of a shell give, and its options. -/
def errand (name : Bytes) : Bool → Bytes → List Bytes → Errand × Bytes
  | isText, options, [] => (if isText then .unknown "-c requires an argument" else .input, options)
  | isText, options, word :: rest =>
    let operands : Errand × Bytes :=
      if isText then (.text word (rest.headD name) rest.tail, options) else (.file word rest, options)
    match word with
    | 45 :: letters =>
      if letters.isEmpty || letters = [45] then
        match rest with
        | [] => (if isText then .unknown "-c requires an argument" else .input, options)
        | first :: more =>
          if isText then (.text first (more.headD name) more.tail, options) else (.file first more, options)
      else
        match letters.find? fun letter => !("aefuxvnCcsimbhI" : Bytes).contains letter with
        | some letter => (.unknown ("Illegal option -" ++ [letter]), options)
        | none => errand name (isText || letters.contains 99) (options ++ letters.filter (· ≠ 99)) rest
    | _ => operands

/-- The errand that the arguments of a shell of the extended language give, and its options, in at most so
many steps. -/
def extendedErrand (name : Bytes) : Nat → Bool → Bytes → List Bytes → Errand × Bytes
  | 0, _, options, _ => (.input, options)
  | _, isText, options, [] =>
    (if isText then .unknown "-c: option requires an argument" else .input, options)
  | steps + 1, isText, options, word :: rest =>
    let operands (words : List Bytes) : Errand × Bytes := match words with
      | [] => (if isText then .unknown "-c: option requires an argument" else .input, options)
      | first :: more =>
        if isText then (.text first (more.headD name) more.tail, options) else (.file first more, options)
    match word with
    | [45] | [45, 45] => operands rest
    | 45 :: 45 :: _ => extendedErrand name steps isText options rest
    | 45 :: letters =>
      let own := letters.filter fun letter => letter ≠ 99 && letter ≠ 111 && letter ≠ 108
      let isText := isText || letters.contains 99
      if letters.contains 111 then
        let long := rest.headD []
        let letter : Bytes := if long = "pipefail" then [Builtins.pipeFailure]
          else ((Builtins.longOptions.find? fun entry => Bytes.ofString entry.1 = long).map (·.2)).toList
        extendedErrand name steps isText (options ++ own ++ letter) rest.tail
      else extendedErrand name steps isText (options ++ own) rest
    | _ => operands (word :: rest)

/-- A shell of a language with its arguments, run to its end. -/
def shell (run : Runner) (d : Dialect) (name : Bytes) (args : List Bytes) : Act Nat := do
  let (task, options) := if d = .extended then extendedErrand name (args.length + 1) false [] args
    else errand name false [] args
  modify fun p => { p with dialect := d, options := options, name := name, line := 0, speaker := [], origin := [] }
  let (text, title, args) : Bytes × Bytes × List Bytes ← match task with
    | .text script title args => do
      if d = .extended then modify fun p => { p with origin := "-c" }
      pure (script, title, args)
    | .input => pure (← Act.readAll, name, [])
    | .unknown message =>
      if d = .extended then do
        Act.report (name ++ ": " ++ message)
        Act.finish (.exit 2)
      else Act.abort message
    | .file path args => do
      match ← Act.contentAt path with
      | .ok content => pure (content, path, args)
      | .error .isDirectory =>
        if d = .extended then
          Act.report (path ++ ": " ++ path ++ ": Is a directory")
          Act.finish (.exit 126)
        else pure ([], path, args)
      | .error cause =>
        if d = .extended then
          Act.report (name ++ ": " ++ path ++ ": " ++ reasonOf cause)
          Act.finish (.exit 127)
        else Act.abort ("cannot open " ++ path ++ ": No such file")
  modify fun p => { p with name := title, args := args, line := 1, status := 0 }
  let result ← Act.attempt (run.runText false text)
  run.endShell result

/-- What programs start others with. -/
def launcher (run : Runner) : Launcher := ⟨fun name args => run false (.launch name args)⟩

/-- A new process of a shell. -/
def shellProcess (run : Runner) (d : Dialect) (replaces : Bool) (name : Bytes) (args : List Bytes) : Act Nat :=
  asProcess replaces do
    modify fun p =>
      { p with
        number := p.number + 1
        depth := 0
        bindings := p.bindings.filter (·.2.isExported)
        collections := []
        integers := []
        functions := []
        traps := []
        loops := 0
        calls := 0
        sheltered := []
        aliases := []
        optionWord := 1
        optionOffset := 0 }
    run.shell d name args

/-- The program that a script names in its first line, with the argument that it gives it. -/
def interpreter? (text : Bytes) : Option (Bytes × List Bytes) :=
  match text with
  | 35 :: 33 :: rest =>
    let isBlank (b : UInt8) : Bool := b = 32 || b = 9
    let line := ((rest.takeWhile (· ≠ 10)).dropWhile isBlank).reverse.dropWhile isBlank |>.reverse
    let name := line.takeWhile (!isBlank ·)
    let argument := (line.drop name.length).dropWhile isBlank
    if name.isEmpty then none else some (name, if argument.isEmpty then [] else [argument])
  | _ => none

/-- A program started by its name, perhaps in place of the shell that starts it. -/
def program (run : Runner) (replaces : Bool) (name : Bytes) (args : List Bytes) : Act Nat := do
  let missing : Act Nat := do
    Act.complain (← Act.worded (name ++ ": not found")
      (name ++ (if name.contains 47 then ": No such file or directory" else ": command not found")))
    pure 127
  match (← get).executable name with
  | .program own =>
    if own = "sh" || own = "dash" then run.shellProcess .plain replaces name args
    else if own = "bash" then run.shellProcess .extended replaces name args
    else
      match (Programs.find? own).or (Programs.starting? run.launcher own) with
      | some activity =>
        Act.restoring (fun before after => { after with speaker := before.speaker, channels := before.channels }) do
          modify fun p => { p with speaker := own, lost := none }
          let status ← activity args
          match (← get).lost with
          | some reason =>
            modify fun p => { p with lost := none }
            let (message, failure) := Programs.lossOf own name reason
            Act.report message
            pure (if status = 0 then failure else status)
          | none => pure status
      | none => missing
  | .script path text =>
    match interpreter? text with
    | some (interpreter, leading) =>
      match (← get).executable interpreter with
      | .program _ | .script _ _ => run false (.launch interpreter (leading ++ [path] ++ args))
      | _ => missing
    | none => do run.shellProcess (← get).dialect replaces name (path :: args)
  | .forbidden =>
    let isDirectory := match (← get).files.stat name with
      | .ok .directory => true
      | _ => false
    Act.complain (← Act.worded (name ++ ": Permission denied")
      (name ++ (if isDirectory then ": Is a directory" else ": Permission denied")))
    pure 126
  | .missing =>
    if name.isEmpty then
      Act.complain ": Permission denied"
      pure 127
    else missing

/-- A function called: its arguments replace those of the shell while it runs. -/
def call (run : Runner) (tested : Bool) (body : Statement) (args : List Bytes) : Act Nat := do
  let before ← get
  set { before with
    args := args, loops := 0, calls := before.calls + 1, sheltered := [], optionWord := 1, optionOffset := 0 }
  let result ← Act.attempt (run tested body)
  modify fun after =>
    let after := after.sheltered.foldr (fun (name, old, array) after =>
      (after.withVariable name old).withCollection name array) after
    { after with
      args := before.args
      loops := before.loops
      calls := before.calls
      sheltered := before.sheltered
      optionWord := before.optionWord
      optionOffset := before.optionOffset }
  match result with
  | .error (.comeBack status) => pure status
  | other => Act.passOn other

/-- Signals sent; only the shell itself can be reached. -/
def kill (run : Runner) (args : List Bytes) : Act Nat := do
  let (given, targets) : Bytes × List Bytes := match args with
    | first :: rest =>
      if first = "-s" then (rest.headD [], rest.tail)
      else if first = "--" then ("TERM", rest)
      else if first.head? = some 45 && first.length > 1 then (first.tail, rest)
      else ("TERM", args)
    | [] => ([], [])
  if given = "l" then return ← Builtins.signalNames targets
  match targets with
  | [] =>
    Act.complain "Usage: kill [-s sigspec | -signum | -sigspec] [pid | job]... or\nkill -l [exitstatus]"
    pure 2
  | _ =>
    match Builtins.signalName? given with
    | none =>
      Act.complain ("Illegal option -" ++ given.take 1)
      pure 2
    | some name =>
      let targets := if (← get).isExtended && targets.head? = some [45, 45] then targets.tail else targets
      signalAll name 0 targets
where
  /-- A signal sent to processes in turn, until one of them is none. -/
  signalAll (name : Bytes) (status : Nat) : List Bytes → Act Nat
    | [] => pure status
    | target :: rest => do
      let digits := if target.head? = some 45 then target.tail else target
      if digits.isEmpty || !digits.all Bytes.isDigit then
        Act.complain (← Act.worded ("Illegal number: " ++ digits) (target ++ ": arguments must be process or job IDs"))
        if (← get).isExtended then signalAll name 1 rest else pure 2
      else if target ≠ (← get).value "$" then
        Act.complain (← Act.worded "No such process" ("(" ++ target ++ ") - No such process"))
        signalAll name 1 rest
      else
        match Builtins.signals.find? fun (own, _, _) => Bytes.ofString own = name with
        | some (_, _, description) =>
          let sent ← run.signal name description
          signalAll name (if sent = 0 then status else sent) rest
        | none => signalAll name status rest

/-- A script of the extended language run from a file inside the shell. -/
def source (run : Runner) (tested : Bool) (args : List Bytes) : Act Nat := do
  match args with
  | [] =>
    Act.complain "filename argument required"
    pure 2
  | path :: args =>
    match ← Act.contentAt path with
    | .ok content =>
      let before ← get
      set { before with calls := before.calls + 1, args := if args.isEmpty then before.args else args }
      let result ← Act.attempt (run.runText tested content)
      modify fun p => { p with calls := before.calls, args := if args.isEmpty then p.args else before.args }
      match result with
      | .error (.comeBack status) => pure status
      | other => Act.passOn other
    | .error cause =>
      modify fun p => { p with speaker := [] }
      Act.complain (path ++ ": " ++ reasonOf cause)
      pure 1

/-- A text of the extended language run inside the shell; a flaw in it is a failure. -/
def evaluate (run : Runner) (tested : Bool) (args : List Bytes) : Act Nat := do
  let text := Bytes.joinWith [32] args
  let p ← get
  let found := tokens p.dialect text
  match nextStatement (.of p.dialect []) found with
  | .error (flaw, line) =>
    set { p with origin := "eval" }
    reportFlaw text flaw line p.line
    modify fun after => { after with origin := p.origin }
    pure 2
  | .ok _ => do
    modify fun p => { p with speaker := [] }
    run.runText tested text

/-- The commands that run others. -/
def governing (run : Runner) (tested : Bool) (p : Job) (name : Bytes) :
    Option (List Bytes → Act Nat) :=
  if p.isExtended && name = "eval" then some (run.evaluate tested)
  else if p.isExtended && (name = "." || name = "source") then some (run.source tested)
  else if name = "eval" then some fun args => run.runText tested (Bytes.joinWith [32] args)
  else if name = "." then some fun args => do
    let path := args.headD []
    if !path.contains 47 then Act.abort (path ++ ": not found")
    match ← Act.contentAt path with
    | .ok content =>
      match ← Act.attempt (run.runText tested content) with
      | .error (.comeBack status) => pure status
      | other => Act.passOn other
    | .error _ => Act.abort ("cannot open " ++ path ++ ": No such file")
  else if name = "kill" then some run.kill
  else none

/-- What a name stands for as a command. -/
inductive Meaning where
  | special (activity : List Bytes → Act Nat)
  | function (body : Statement)
  | regular (activity : List Bytes → Act Nat)
  | program

/-- The meaning of a name; functions stand before the commands that are not special. -/
def plainMeaning (run : Runner) (tested : Bool) (p : Job) (name : Bytes) : Meaning :=
  match Builtins.find? Builtins.special name with
  | some activity => .special activity
  | none =>
    match p.functions.find? (·.1 = name) with
    | some (_, body) => .function body
    | none =>
      match run.governing tested p name with
      | some activity => if name = "kill" then .regular activity else .special activity
      | none =>
        match Builtins.find? Builtins.regular name with
        | some activity => .regular activity
        | none => .program

/-- The meaning of a name in the extended language, where functions stand before all commands and no command
is special. -/
def extendedMeaning (run : Runner) (tested : Bool) (p : Job) (name : Bytes) : Meaning :=
  match p.functions.find? (·.1 = name) with
  | some (_, body) => .function body
  | none =>
    let own := (run.governing tested p name).or (Builtins.find?
      (Builtins.extended ++ Builtins.special ++ Builtins.regular) name)
    match own with
    | some activity => .regular activity
    | none => .program

/-- The meaning of a name. -/
def meaning (run : Runner) (tested : Bool) (p : Job) (name : Bytes) : Meaning :=
  if p.isExtended then run.extendedMeaning tested p name else run.plainMeaning tested p name

/-- A command with its arguments. -/
def command (run : Runner) (tested : Bool) (m : Meaning) (name : Bytes) (args : List Bytes) : Act Nat := do
  match m with
  | .special activity | .regular activity =>
    Act.restoring (fun before after => { after with speaker := before.speaker }) do
      modify fun p => { p with speaker := name, lost := none }
      let status ← activity args
      match (← get).lost with
      | some reason =>
        modify fun p => { p with lost := none }
        Act.complain (← Act.worded (name ++ ": I/O error") ("write error: " ++ reason))
        pure 1
      | none => pure status
  | .function body => run.call tested body args
  | .program => run.program false name args

/-- The words of a command shown before it runs. -/
def trace (words : List Bytes) : Act Unit := do
  if (← get).options.contains 120 then Act.report ("+ " ++ Bytes.joinWith [32] words)

/-- The fields of words in order. In the extended language braces come first. -/
def fields (run : Runner) : List Word → Act (List Bytes)
  | [] => pure []
  | word :: rest => do
    let words := if (← get).isExtended then Braces.words word else [word]
    let first ← words.mapM (expandFields run.outputOf)
    pure (first.flatten ++ (← run.fields rest))

/-- The members of an array that words give: with a subscript or without. -/
def membersOf (run : Runner) : List Word → Act (List (Option Bytes × Bytes))
  | [] => pure []
  | word :: rest => do
    let subscripted : Option (Word × Word) := match word with
      | .text (91 :: inside) false :: parts =>
        match upToBracket [] (.text inside false :: parts) with
        | some (subscript, 61 :: behind, parts) => some (subscript, .text behind false :: parts)
        | _ => none
      | _ => none
    let own : List (Option Bytes × Bytes) ← match subscripted with
      | some (subscript, value) => do
        let key ← expandText run.outputOf subscript
        pure [(some key, ← expandText run.outputOf value)]
      | none => do pure ((← run.fields [word]).map fun text => (none, text))
    pure (own ++ (← run.membersOf rest))

/-- Texts without subscripts taken as keys and values in turn. -/
def paired : List (Option Bytes × Bytes) → List (Option Bytes × Bytes)
  | (none, key) :: (none, value) :: rest => (some key, value) :: paired rest
  | (none, key) :: rest => (some key, []) :: paired rest
  | entry :: rest => entry :: paired rest
  | [] => []

/-- An array with more members. -/
def withMembers (p : Job) (name : Bytes) : Collection → List (Option Bytes × Bytes) → Collection
  | c, [] => c
  | c, (none, text) :: rest => withMembers p name (c.insert (Decimal.ofNat c.nextNumber) text) rest
  | c, (some subscript, text) :: rest =>
    let key := if c.isKeyed then subscript else (p.entryOf name subscript).toOption.getD [48]
    withMembers p name (c.insert key text) rest

/-- An array assigned from the text of its members. -/
def assignMembers (run : Runner) (name body : Bytes) (appends : Bool) : Act Unit := do
  let words := (tokens .extended body).filterMap fun (token, _) => match token with
    | .word word => some word
    | _ => none
  let members ← run.membersOf words
  let p ← get
  if Builtins.isFixed p name then Act.refuse [] (name ++ ": readonly variable")
  let old : Collection := match p.collection? name, p.lookUp? name with
    | some found, _ => found
    | none, some old => .ofList [old.value]
    | none, none => ⟨false, []⟩
  let start : Collection := if appends then old else ⟨old.isKeyed, []⟩
  let members := if start.isKeyed then paired members else members
  set ({ p with bindings := p.bindings.filter (·.1 ≠ name) }.withCollection name
    (some (withMembers p name start members)))

/-- An assignment made, and shown as a text. -/
def perform (run : Runner) (exported : Bool) (a : Assignment) : Act Bytes := do
  let members := a.value.findSome? fun (part : Part) => match part with
    | .members body => some body
    | _ => none
  match members with
  | some body =>
    run.assignMembers a.name body a.appends
    pure (a.name ++ "=(" ++ body ++ ")")
  | none =>
    let text ← expandText run.outputOf a.value
    match a.subscript with
    | none =>
      let p ← get
      let value := if !a.appends then text
        else if p.integers.contains a.name then p.value a.name ++ [43] ++ [40] ++ text ++ [41]
        else p.value a.name ++ text
      Builtins.assign a.name value exported
      pure (a.name ++ [61] ++ text)
    | some subscript =>
      let subscript ← expandText run.outputOf subscript
      let p ← get
      if Builtins.isFixed p a.name then Act.refuse [] (a.name ++ ": readonly variable")
      match p.entryOf a.name subscript with
      | .ok key =>
        let old := ((p.collection? a.name).bind (·.get? key)).getD []
        set (p.withElement a.name key (if a.appends then old ++ text else text))
        pure (a.name ++ [91] ++ subscript ++ [93, 61] ++ text)
      | .error trouble => Act.refuse [] (trouble.extendedMessage subscript)

/-- Assignments made, and shown as texts. -/
def assignments (run : Runner) (exported : Bool) : List Assignment → Act (List Bytes)
  | [] => pure []
  | a :: rest => do
    let shown ← run.perform exported a
    pure (shown :: (← run.assignments exported rest))

/-- The commands whose arguments may assign. -/
def declaring : List String := ["declare", "typeset", "local", "export", "readonly"]

/-- A declaration of the extended language: the names are declared, then given their values, and then kept
from changing or handed to programs. -/
def declaration (run : Runner) (tested : Bool) (name : Bytes) (words : List Word) : Act Nat := do
  let isOption (word : Word) : Bool := match plainText? word with
    | some (45 :: _ :: _) => true
    | _ => false
  let options ← run.fields (words.filter isOption)
  let others := words.filter (!isOption ·)
  let given := others.filterMap (assignment? .extended)
  let plain ← run.fields (others.filter fun word => (assignment? .extended word).isNone)
  let isMarking := name = "export" || name = "readonly"
  let isFixing := name = "readonly" || options.any fun (option : Bytes) => option.contains 114
  let names := given.map (·.name)
  let activity (args : List Bytes) : Act Nat := do
    run.command tested (run.meaning tested (← get) name) name args
  let status ← if isMarking then pure 0 else activity (options ++ names ++ plain)
  if status ≠ 0 then pure status
  else
    let _ ← run.assignments (name = "export" || options.any fun (option : Bytes) => option.contains 120) given
    let status ← if isMarking then activity (options ++ names ++ plain) else pure 0
    if isFixing then
      for name in names do Builtins.mark name fun old => { old with isFixed := true }
    pure status

/-- A command that replaces the shell. -/
def replaceShell (run : Runner) (args : List Bytes) : Act Nat := do
  match args with
  | [] => pure 0
  | name :: args =>
    let isExtended := (← get).isExtended
    if !isExtended then modify fun p => { p with traps := [] }
    let refuse (reason : Bytes) (status : Nat) : Act Nat := do
      modify fun p => { p with speaker := "exec" }
      Act.complain (name ++ reason)
      Act.finish (.exit status)
    match (← get).executable name with
    | .missing => refuse ": not found" 127
    | .forbidden => refuse ": Permission denied" 126
    | _ =>
      modify fun p => { p with traps := [] }
      let status ← run.program true name args
      Act.finish (.exit status)

/-- A command that is looked for beside the functions: its place is told, or it is run. -/
def beside (run : Runner) (tested : Bool) (words : List Bytes) : Act Nat := do
  let start (name : Bytes) (args : List Bytes) : Act Nat := do
    let p ← get
    let apart := if p.isExtended then { p with functions := [] } else p
    run.command tested (run.meaning tested apart name) name args
  match words with
  | option :: other :: rest =>
    if option = "-v" then
      match ← Builtins.located other with
      | some place =>
        Act.put (place ++ [10])
        pure 0
      | none => pure (if (← get).isExtended then 1 else 127)
    else start option (other :: rest)
  | [other] => start other []
  | [] => pure 0

/-- A simple command. -/
def simple (run : Runner) (tested : Bool) (line : Nat) (words : List Word) (redirects : List Redirect) :
    Act Nat := do
  modify fun p => { p with line := line, substituted := 0 }
  let d := (← get).dialect
  let leading := words.takeWhile fun word => (assignment? d word).isSome
  let rest := words.drop leading.length
  let given := leading.filterMap (assignment? d)
  let isDeclaring := d = .extended && rest.tail.any (fun word => (assignment? d word).isSome) &&
    declaring.any fun own => (rest.head?.bind plainText?) = some (Bytes.ofString own)
  let args ← run.fields (if isDeclaring then rest.take 1 else rest)
  let failure := if d = .extended then 1 else 2
  match args with
  | [] =>
    withDescriptors do
      if ← run.redirectAll redirects then
        let shown ← run.assignments false given
        if !shown.isEmpty then trace shown
        pure (← get).substituted
      else pure failure
  | name :: others =>
    let isExec := name = "exec"
    let m := run.meaning tested (← get) name
    let isSpecial := isExec || match m with
      | .special _ => true
      | _ => false
    let activity : Act Nat := do
      if ← run.redirectAll redirects then
        let activity : Act Nat := do
          let shown ← run.assignments true given
          trace (shown ++ args)
          if isExec then run.replaceShell others
          else if isDeclaring then run.declaration tested name rest.tail
          else if name = "command" || (d = .extended && name = "builtin") then run.beside tested others
          else run.command tested m name others
        let undo (before after : Job) : Job :=
          given.foldl (fun after a => after.withVariable a.name (before.lookUp? a.name)) after
        if (isSpecial && d = .plain) || given.isEmpty then activity else Act.restoring undo activity
      else if isSpecial && d = .plain then Act.finish (.exit 2)
      else pure failure
    if isExec && others.isEmpty then activity else withDescriptors activity

/-- Whether a word can be expanded ahead of its time. -/
def isSettled (word : Word) : Bool := word.all fun (part : Part) => match part with
  | .text _ _ | .parameter _ .value _ _ => true
  | _ => false

/-- The files created that a part of a pipeline writes to: its parts start together, and a file is opened
before anything has come through the pipe. -/
def openAhead (run : Runner) : Statement → Act Unit
  | .simple _ _ redirects | .redirected _ redirects => do
    for r in redirects do
      if (r.kind = .overwrite || r.kind = .append || r.kind = .replace) && isSettled r.target then
        let target ← expandText run.outputOf r.target
        if !("/dev/" : Bytes).isPrefixOf target then
          modify fun p =>
            let (files, _) := if r.kind = .append then p.files.openAppend target else p.files.create target
            { p with files := files }
  | .pipe source sink => do
    run.openAhead source
    run.openAhead sink
  | _ => pure ()

/-- A loop body or test run once: what it gives, and whether the loop goes on. -/
def round (run : Runner) (tested : Bool) (body : Statement) : Act (Nat × Bool) := do
  match ← Act.attempt (run tested body) with
  | .ok status => pure (status, true)
  | .error (.leave loops) => if loops ≤ 1 then pure (0, false) else throw (.leave (loops - 1))
  | .error (.resume loops) => if loops ≤ 1 then pure (0, true) else throw (.resume (loops - 1))
  | .error jump => throw jump

/-- The rounds of a loop over items. -/
def rounds (run : Runner) (tested : Bool) (name : Bytes) (body : Statement) : List Bytes → Nat → Act Nat
  | [], status => pure status
  | item :: rest, _ => do
    Builtins.assign name item false
    let (status, goesOn) ← run.round tested body
    if goesOn then run.rounds tested name body rest status else pure status

/-- An activity inside one more loop. -/
def inLoop (activity : Act Nat) : Act Nat :=
  Act.restoring (fun before after => { after with loops := before.loops }) do
    modify fun p => { p with loops := p.loops + 1 }
    activity

/-- The rounds of a loop with a test, at most so many. -/
def whileRounds (run : Runner) (tested : Bool) (wanted : Bool) (test body : Statement) : Nat → Nat → Act Nat
  | 0, _ => Act.finish .deadline
  | count + 1, status => do
    let (answer, goesOn) ← run.round true test
    if goesOn && ((answer = 0) == wanted) then
      let (status, goesOn) ← run.round tested body
      if goesOn then run.whileRounds tested wanted test body count status else pure status
    else pure status

/-- How many rounds a loop has at most. -/
def roundLimit : Nat := 20000

/-- The first arm with a pattern that matches. -/
def choose (run : Runner) (tested : Bool) (subject : Bytes) : Statement → Act Nat
  | .arm patterns body finish rest => do
    if ← anyMatch patterns then
      let status ← if body = .nothing then pure 0 else run tested body
      match finish with
      | .stop => pure status
      | .search => run.choose tested subject rest
      | .fallThrough => fallOn status rest
    else run.choose tested subject rest
  | _ => pure 0
where
  /-- The bodies of arms that follow without a look at their patterns. -/
  fallOn (status : Nat) : Statement → Act Nat
    | .arm _ body finish rest => do
      let status ← if body = .nothing then pure 0 else run tested body
      match finish with
      | .fallThrough => fallOn status rest
      | _ => pure status
    | _ => pure status
  /-- Whether one of the patterns matches. -/
  anyMatch : List Word → Act Bool
    | [] => pure false
    | word :: rest => do
      if isMatch (← expandField run.outputOf word) subject then pure true else anyMatch rest

/-- What is to be done about a failure that nothing looks at: its trap, and the end of a shell that is to end
with the first one. -/
def checked (run : Runner) (tested : Bool) (activity : Act Nat) : Act Nat := do
  let status ← activity
  modify fun p => { p with status := status }
  if status = 0 || tested then pure status
  else
    let p ← get
    match p.traps.find? (·.1 = ("ERR" : Bytes)) with
    | some (_, action) =>
      let _ ← run.runText true action
      modify fun p => { p with status := status }
    | none => pure ()
    if p.options.contains 101 then Act.finish (.exit status) else pure status

/-- A text calculated with what it stands for. -/
def calculate (run : Runner) (speaker text : Bytes) : Act (Option Int64) := do
  let word ← Expander.wordIn .document text
  let text := (← expandText run.outputOf word).filter (· ≠ 34)
  match (← get).calculate text with
  | .ok (value, made) =>
    modify (·.calculated made)
    pure (some value)
  | .error trouble =>
    Act.complain (speaker ++ trouble.extendedMessage text)
    pure none

/-- The expression that a field writes: what is quoted in it stands for itself. -/
def expressionSource (field : Field) : Bytes :=
  field.flatMap fun mark =>
    if mark.quoted && ("\\^$.|?*+()[]\x7b\x7d" : Bytes).contains mark.byte then [92, mark.byte] else [mark.byte]

/-- Whether a text matches an expression; the groups become an array. -/
def matchesExpression (text : Bytes) (field : Field) : Act Nat := do
  match Writing.read ⟨true, false, .controls⟩ (expressionSource field) with
  | .error _ => pure 2
  | .ok (matcher, _) =>
    match matcher.find? text with
    | none =>
      modify fun p => p.withCollection "BASH_REMATCH" none
      pure 1
    | some o =>
      let groups := (List.range (matcher.expression.groupCount + 1)).map o.group
      modify fun p => p.withCollection "BASH_REMATCH" (some (.ofList groups))
      pure 0

/-- The words of a condition: a text, a test of one operand, or a test of two. -/
def condition (run : Runner) (words : List Word) : Act Nat := do
  let answer (value : Bool) : Act Nat := pure (if value then 0 else 1)
  let textOf (word : Word) : Act Bytes := expandText run.outputOf word
  match words with
  | [word] => answer (!(← textOf word).isEmpty)
  | [operator, operand] =>
    let operator ← textOf operator
    let operand ← textOf operand
    let p ← get
    if operator = "-v" then
      let element := (Job.element? operand).bind fun (base, subscript) =>
        (p.entryOf base subscript).toOption.bind fun key => (p.collection? base).bind (·.get? key)
      answer ((p.value? operand).isSome || element.isSome)
    else answer (Condition.unary p (if operator = "-a" then "-e" else operator) operand)
  | [left, operator, right] =>
    let left ← textOf left
    let operator ← textOf operator
    if operator = "=" || operator = "==" then answer (isMatch (← expandField run.outputOf right) left)
    else if operator = "!=" then answer (!isMatch (← expandField run.outputOf right) left)
    else if operator = "=~" then matchesExpression left (← expandField run.outputOf right)
    else
      let right ← textOf right
      if operator = "<" then answer (Bytes.less left right)
      else if operator = ">" then answer (Bytes.less right left)
      else if operator = "-nt" || operator = "-ot" || operator = "-ef" then
        answer ((Condition.binary (← get).files operator left right).toOption.getD false)
      else
        match ← run.calculate "[[: " left, ← run.calculate "[[: " right with
        | some a, some b =>
          answer ((Condition.binary (← get).files operator (Decimal.ofInt64 a) (Decimal.ofInt64 b)).toOption.getD false)
        | _, _ => pure 1
  | _ => pure 2

/-- An arithmetic command: zero is a failure. -/
def arithmetic (run : Runner) (text : Bytes) : Act Nat := do
  match ← run.calculate "((: " text with
  | some value => pure (if value = 0 then 1 else 0)
  | none => pure 1

/-- The rounds of a loop that arithmetic governs, at most so many. -/
def countedRounds (run : Runner) (tested : Bool) (test next : Bytes) (body : Statement) : Nat → Nat → Act Nat
  | 0, _ => Act.finish .deadline
  | count + 1, status => do
    let isBlank (text : Bytes) : Bool := text.all Arithmetic.isBlank
    let answer ← if isBlank test then pure 0 else run.arithmetic test
    if answer ≠ 0 then pure status
    else
      let (status, goesOn) ← run.round tested body
      if !goesOn then pure status
      else
        if !isBlank next then
          let _ ← run.arithmetic next
        run.countedRounds tested test next body count status

/-- The commands of a pipeline. -/
def stages : Statement → List Statement
  | .pipe source sink => source :: stages sink
  | other => [other]

/-- The commands of a pipeline run on an input, each on the output of the one before; their statuses. -/
def runStages (run : Runner) (tested : Bool) : List Statement → Option Bytes → Act (List Nat)
  | [], _ => pure []
  | stage :: rest, input => do
    let activity : Act Nat := run.subshell do
      match input with
      | some text =>
        modify fun p =>
          let (p, channel) := p.withStream text
          p.withChannel 0 (some channel)
      | none => pure ()
      run tested stage
    match rest with
    | [] => pure [← activity]
    | _ =>
      let (output, status) ← Act.capture activity
      pure (status :: (← run.runStages tested rest (some output)))

/-- A pipeline: its status is that of the last command, or of the last that failed where an option asks for
it. -/
def pipeline (run : Runner) (tested : Bool) (source sink : Statement) : Act Nat := do
  run.openAhead sink
  let statuses ← run.runStages tested (source :: stages sink) none
  let p ← get
  if p.isExtended then set (p.withCollection "PIPESTATUS" (some (.ofList (statuses.map Decimal.ofNat))))
  let last := statuses.getLast?.getD 0
  let failed := (statuses.filter (· ≠ 0)).getLast?
  pure (if p.options.contains Builtins.pipeFailure then failed.getD 0 else last)

/-- One statement, given what runs those inside it. -/
def step (run : Runner) (tested : Bool) (statement : Statement) : Act Nat := do
  if (← get).options.contains 110 then return 0
  let status ← match statement with
    | .nothing => pure 0
    | .simple line words redirects => run.checked tested do
      let status ← run.simple tested line words redirects
      if (← get).isExtended then modify fun p => p.withCollection "PIPESTATUS" (some (.ofList [Decimal.ofNat status]))
      pure status
    | .definition name body => do
      modify fun p => { p with functions := (name, body) :: p.functions.filter (·.1 ≠ name) }
      pure 0
    | .redirected body redirects =>
      withDescriptors do
        if ← run.redirectAll redirects then run tested body
        else pure (if (← get).isExtended then 1 else 2)
    | .subshell body => run.checked tested (run.subshell (run tested body))
    | .background body => do
      let elapsed := (← get).elapsed
      let result ← Act.attempt (run.subshell (run false body))
      modify fun p => { p with elapsed := elapsed }
      match result with
      | .error (.finish (.signal description)) => Act.finish (.signal description)
      | .ok status => modify fun p => { p with background := p.background ++ [status] }
      | _ => modify fun p => { p with background := p.background ++ [0] }
      pure 0
    | .sequence first second => do
      let _ ← run tested first
      run tested second
    | .both first second => do
      let status ← run true first
      if status = 0 then run tested second else pure status
    | .either first second => do
      let status ← run true first
      if status = 0 then pure status else run tested second
    | .negation body => do
      let status ← run true body
      pure (if status = 0 then 1 else 0)
    | .pipe source sink => run.checked tested (run.pipeline tested source sink)
    | .conditional test yes no => do
      let status ← run true test
      if status = 0 then run tested yes
      else if no = .nothing then pure 0
      else run tested no
    | .loop wanted test body => inLoop (run.whileRounds tested wanted test body roundLimit 0)
    | .each name items body => do
      let items ← match items with
        | some words => run.fields words
        | none => pure (← get).args
      inLoop (run.rounds tested name body items 0)
    | .selection subject arms => do
      let text ← expandText run.outputOf subject
      run.choose tested text arms
    | .arm _ _ _ _ => pure 0
    | .launch name args => run.program false name args
    | .condition line words => run.checked tested do
      modify fun p => { p with line := line }
      run.condition words
    | .arithmetic line expression => run.checked tested do
      modify fun p => { p with line := line }
      run.arithmetic expression
    | .counting start test next body => do
      if !start.all Arithmetic.isBlank then
        let _ ← run.arithmetic start
      inLoop (run.countedRounds tested test next body roundLimit 0)
  modify fun p => { p with status := status }
  pure status

end Runner

/-- Statements run with others nested inside them at most so deep. -/
def runWithin : Nat → Runner
  | 0 => fun _ _ => Act.finish .deadline
  | depth + 1 => Runner.step (runWithin depth)

/-- How deep statements may be nested while they run. -/
def depthLimit : Nat := 1000

/-- A program run to its end: the process after it and how it ended. -/
def run (files : Files) (environment : List (Bytes × Bytes)) (deadline : Option Nat) (name : Bytes)
    (args : List Bytes) : Job × Ending :=
  let activity : Act Nat := Runner.program (runWithin depthLimit) true name args
  match activity.run (Job.start files environment deadline name) with
  | (.ok status, job) => (job, .exit status)
  | (.error (.finish ending), job) => (job, ending)
  | (.error _, job) => (job, .exit 0)

end Shell

end MobilitySweep
