import MobilitySweep.Shell.Job
import MobilitySweep.Shell.Utility

/-! # Programs that start others

Programs that run another program with other variables, for items of their input, or for a limited time.
-/

namespace MobilitySweep

namespace Shell

/-- What programs are started with: the run of a program with its arguments. -/
structure Launcher where
  start : Bytes → List Bytes → Act Nat

namespace Launcher

/-- A program started, or the reason why it cannot be, in the words of the program that starts it. -/
def launch (l : Launcher) (complaint : Bytes → Bytes) (name : Bytes) (args : List Bytes) : Act Nat := do
  match (← get).executable name with
  | .missing =>
    Act.report (complaint name ++ ": No such file or directory")
    pure 127
  | .forbidden =>
    Act.report (complaint name ++ ": Permission denied")
    pure 126
  | _ => l.start name args

/-- Assignments at the start of some words, and the other words. -/
def assignments : List Bytes → List (Bytes × Bytes) × List Bytes
  | [] => ([], [])
  | word :: rest =>
    let name := word.takeWhile (· ≠ 61)
    if name.length < word.length then
      let (others, words) := assignments rest
      ((name, word.drop (name.length + 1)) :: others, words)
    else ([], word :: rest)

/-- The variables that programs find, as lines. -/
def environmentText (p : Job) : Bytes :=
  (p.bindings.reverse.filter (·.2.isExported)).flatMap fun (name, found) => name ++ [61] ++ found.value ++ [10]

/-- A program run with other variables, or the variables shown. -/
def env (l : Launcher) (args : List Bytes) : Act Nat :=
  let args := args.map fun (word : Bytes) => if word = [45] then [45, 105] else word
  let long := [("ignore-environment", 'i'), ("unset", 'u'), ("null", '0'), ("chdir", 'C'), ("split-string", 'S'),
    ("debug", 'v')]
  Act.withOptions "env" 125 ⟨"i0v", "uCS", long, true⟩ args fun given =>
    Act.restoring (fun before after => { after with bindings := before.bindings, files := { after.files with
        workingDirectory := before.files.workingDirectory } }) do
      if given.has 'i' then modify fun p => { p with bindings := [] }
      for name in given.values 'u' do modify fun p => p.withVariable name none
      let split := (given.values 'S').flatMap fun text => (Bytes.splitOn 32 text).filter (!·.isEmpty)
      let (changes, words) := assignments (split ++ given.operands)
      for (name, value) in changes do modify fun p => p.withVariable name (some ⟨value, true, false⟩)
      match given.value? 'C' with
      | some path =>
        let p ← get
        match p.files.resolve true path with
        | .ok (.taken place .directory) => set { p with files := { p.files with workingDirectory := place } }
        | other =>
          let cause : Files.Cause := match other with
            | .error cause => cause
            | .ok (.taken _ _) => .notDirectory
            | .ok (.free _ _) => .missing
          Act.report ("env: cannot change directory to " ++ inQuotes path ++ ": " ++ reasonOf cause)
          return 125
      | none => pure ()
      match words with
      | [] =>
        let text := environmentText (← get)
        Act.put (if given.has '0' then text.map fun b => if b = 10 then 0 else b else text)
        pure 0
      | name :: args => l.launch (fun name => "env: " ++ inQuotes name) name args

/-- Items of an input: divided by blanks, with quotes and backslashes, and the line each is on. The mark
says which quote is open. -/
def quotedItems : Option UInt8 → Option Bytes → Nat → Bytes → Except UInt8 (List (Bytes × Nat))
  | none, current, line, [] => .ok (current.toList.map fun item => (item.reverse, line))
  | some quote, _, _, [] => .error quote
  | some quote, current, line, b :: rest =>
    if b = quote then quotedItems none current line rest
    else if b = 10 then .error quote
    else quotedItems (some quote) (some (b :: current.getD [])) line rest
  | none, current, line, b :: rest =>
    if b = 39 || b = 34 then quotedItems (some b) (some (current.getD [])) line rest
    else if b = 92 then
      match rest with
      | c :: more => quotedItems none (some (c :: current.getD [])) line more
      | [] => .ok (current.toList.map fun item => (item.reverse, line))
    else if b = 32 || b = 9 || b = 10 then do
      let others ← quotedItems none none (if b = 10 then line + 1 else line) rest
      .ok (current.toList.map (fun item => (item.reverse, line)) ++ others)
    else quotedItems none (some (b :: current.getD [])) line rest

/-- Items in groups of a size, at most so many. -/
def chunks {α : Type} (size : Nat) : Nat → List α → List (List α)
  | 0, _ => []
  | _, [] => []
  | count + 1, items => items.take (max 1 size) :: chunks size count (items.drop (max 1 size))

/-- Items grouped by the lines that they are on, a number of lines each. -/
def lineGroups (size : Nat) (items : List (Bytes × Nat)) : List (List Bytes) :=
  let lines := (items.map (·.2)).eraseDups
  (chunks size lines.length lines).map fun group => (items.filter fun (_, line) => group.contains line).map (·.1)

/-- A command run for each of some groups of arguments, until one of them ends it all. -/
def forGroups (run : List Bytes → Act Nat) (name : Bytes) : Nat → List (List Bytes) → Act Nat
  | status, [] => pure status
  | status, args :: rest => do
    let own ← run args
    if own = 127 || own = 126 then pure own
    else if own = 255 then
      Act.report ("xargs: " ++ name ++ ": exited with status 255; aborting")
      pure 124
    else forGroups run name (if own = 0 then status else 123) rest

/-- A program run for items of the input. -/
def xargs (l : Launcher) (args : List Bytes) : Act Nat :=
  let long := [("max-args", 'n'), ("replace", 'I'), ("max-lines", 'L'), ("delimiter", 'd'), ("null", '0'),
    ("no-run-if-empty", 'r'), ("verbose", 't'), ("max-procs", 'P'), ("arg-file", 'a')]
  Act.withOptions "xargs" 1 ⟨"0rtxpo", "nILdPasE", long, true⟩ args fun given => do
    let counts := ['n', 'L', 'P', 's'].filterMap fun letter => (given.value? letter).map (letter, ·)
    match counts.find? fun (_, text) => text.isEmpty || !text.all Bytes.isDigit with
    | some (letter, text) =>
      Act.report ("xargs: invalid number \"" ++ text ++ "\" for -" ++ [letter.toUInt8] ++ " option")
      Act.report (helpHint "xargs")
      return 1
    | none => pure ()
    match counts.find? fun (letter, text) => letter ≠ 'P' && Bytes.digitsValue text = 0 with
    | some (letter, _) =>
      Act.report ("xargs: value 0 for -" ++ [letter.toUInt8] ++ " option should be >= 1")
      Act.report (helpHint "xargs")
      return 1
    | none => pure ()
    let content ← match given.value? 'a' with
      | some path =>
        match ← Act.contentAt path with
        | .ok content => pure content
        | .error cause =>
          Act.report ("xargs: Cannot open input file " ++ inQuotes path ++ ": " ++ reasonOf cause)
          return 1
      | none => Act.readAll
    let divider : Option UInt8 := if given.has '0' then some 0
      else (given.value? 'd').map fun (text : Bytes) =>
        match text with
        | 92 :: rest => ((escape? rest).map fun (found, _) => found.headD 0).getD 92
        | _ => text.headD 0
    let found : Except UInt8 (List (Bytes × Nat)) := match divider with
      | some divider =>
        let pieces := Bytes.splitOn divider content
        .ok ((if pieces.getLast? = some [] then pieces.dropLast else pieces).zipIdx)
      | none =>
        if given.has 'I' then
          let lines := ((linesOf content).map fun line => (lineText line).dropWhile fun b => b = 32 || b = 9).filter
            (!·.isEmpty)
          .ok lines.zipIdx
        else quotedItems none none 0 content
    match found with
    | .error quote =>
      let kind : Bytes := if quote = 39 then "single" else "double"
      Act.report ("xargs: unmatched " ++ kind ++
        " quote; by default quotes are special to xargs unless you use the -0 option")
      pure 1
    | .ok items =>
      let texts := items.map (·.1)
      let name := given.operands.headD "echo"
      let fixed := given.operands.tail
      let run (words : List Bytes) : Act Nat := do
        if given.has 't' then Act.report (Bytes.joinWith [32] (name :: words))
        Act.restoring (fun before after => { after with channels := before.channels }) do
          modify fun p => p.withChannel 0 (some .nowhere)
          l.launch (fun name => "xargs: " ++ name) name words
      match given.value? 'I' with
      | some mark =>
        let words (item : Bytes) : List Bytes := fixed.map (Bytes.replaceAll mark item)
        forGroups run name 0 (texts.map words)
      | none =>
        let groups := match given.value? 'L', given.value? 'n' with
          | some size, _ => lineGroups (Bytes.digitsValue size) items
          | none, some size => chunks (Bytes.digitsValue size) texts.length texts
          | none, none => if texts.isEmpty then [] else [texts]
        let groups := if groups.isEmpty && !given.has 'r' then [[]] else groups
        forGroups run name 0 (groups.map (fixed ++ ·))

/-- A program run for a limited time. -/
def timeout (l : Launcher) (args : List Bytes) : Act Nat :=
  let long := [("signal", 's'), ("kill-after", 'k'), ("preserve-status", 'p'), ("foreground", 'f'), ("verbose", 'v')]
  Act.withOptions "timeout" 125 ⟨"pfv", "sk", long, true⟩ args fun given => do
    match given.operands with
    | [] | [_] =>
      let _ ← if given.operands.isEmpty then missingOperand "timeout" "operand" else
        missingOperand "timeout" ("operand after " ++ inQuotes (given.operands.headD []))
      pure 125
    | span :: name :: args =>
      if !(Bytes.isDigit (span.headD 0) || span.headD 0 = 46) then
        Act.report ("timeout: invalid time interval " ++ inQuotes span)
        Act.report (helpHint "timeout")
        return 125
      let before ← get
      let limit := before.elapsed + spanOf span
      let isNearer := spanOf span ≠ 0 && before.deadline.all (limit < ·)
      if isNearer then set { before with deadline := some limit }
      let result ← Act.attempt (l.launch (fun name => "timeout: failed to run command " ++ inQuotes name) name args)
      modify fun p => { p with deadline := before.deadline, channels := before.channels }
      match result with
      | .error (.finish .deadline) => if isNearer then pure 124 else Act.passOn result
      | other => Act.passOn other

/-- A program run as it is, behind options of another one. -/
def plain (l : Launcher) (name : Bytes) (valued : String) (complaint : Bytes) (args : List Bytes) : Act Nat :=
  Act.withOptions name 125 ⟨"", valued, [], true⟩ args fun given => do
    match given.operands with
    | [] => missingOperand name "operand"
    | program :: args => l.launch (fun program => complaint ++ inQuotes program) program args

/-- Where programs are. -/
def which (args : List Bytes) : Act Nat :=
  Act.forEach (fun name => do
    let p ← get
    let folders := Bytes.splitOn 58 (((p.lookUp? "PATH").map (·.value)).getD usualSearchPath)
    let paths := if name.contains 47 then [name] else folders.map fun folder => folder ++ [47] ++ name
    let isRunnable (path : Bytes) : Bool := match p.executableAt path with
      | .program _ | .script _ _ => true
      | _ => false
    match paths.find? isRunnable with
    | some path =>
      Act.put (path ++ [10])
      pure 0
    | none => pure 1) args

/-- The programs that start others, by name. -/
def table (l : Launcher) : List (String × (List Bytes → Act Nat)) :=
  [("env", l.env), ("xargs", l.xargs), ("timeout", l.timeout), ("which", which),
    ("nohup", l.plain "nohup" "" "nohup: failed to run command "), ("nice", l.plain "nice" "n" "nice: "),
    ("setsid", l.plain "setsid" "" "setsid: failed to execute "), ("stdbuf", l.plain "stdbuf" "ioe" "stdbuf: failed to run command ")]

end Launcher

end Shell

end MobilitySweep
