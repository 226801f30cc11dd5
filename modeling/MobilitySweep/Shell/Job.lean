import MobilitySweep.Files.Operations
import MobilitySweep.Number.Decimal
import MobilitySweep.Shell.Statement

/-! # Jobs

Collections of variables, the state of a running job, and the files that it can execute.
-/

namespace MobilitySweep

/-! ## Arrays of the extended shell language

An array keeps texts under numbers, in their order, or under keys, in the order of a digest of the keys.
-/

namespace Shell

/-- An array: whether its texts are kept under keys or under numbers, and its entries. Numbers are written
as decimals and ascend; of keys the newest comes first. -/
structure Collection where
  isKeyed : Bool
  entries : List (Bytes × Bytes)
deriving DecidableEq, Repr

namespace Collection

/-- Texts under their numbers, from zero on. -/
def ofList (texts : List Bytes) : Collection :=
  ⟨false, texts.zipIdx.map fun (text, place) => (Decimal.ofNat place, text)⟩

/-- The text under a key or number. -/
def get? (c : Collection) (key : Bytes) : Option Bytes := (c.entries.find? (·.1 = key)).map (·.2)

/-- An entry removed. -/
def erase (c : Collection) (key : Bytes) : Collection := { c with entries := c.entries.filter (·.1 ≠ key) }

/-- An entry set. -/
def insert (c : Collection) (key text : Bytes) : Collection :=
  if (c.get? key).isSome then
    { c with entries := c.entries.map fun entry => if entry.1 = key then (key, text) else entry }
  else if c.isKeyed then { c with entries := (key, text) :: c.entries }
  else
    let number := Bytes.digitsValue key
    let smaller := c.entries.takeWhile fun entry => Bytes.digitsValue entry.1 < number
    { c with entries := smaller ++ [(key, text)] ++ c.entries.drop smaller.length }

/-- The number behind the last one. -/
def nextNumber (c : Collection) : Nat :=
  match c.entries.getLast? with
  | some (key, _) => Bytes.digitsValue key + 1
  | none => 0

/-- The digest of a key. -/
def digest (key : Bytes) : UInt32 := key.foldl (fun h b => (h * 16777619) ^^^ b.toUInt32) 2166136261

/-- How many shelves keys are kept on. -/
def shelves : Nat := 1024

/-- The entries in the order in which they are listed. -/
def toList (c : Collection) : List (Bytes × Bytes) :=
  if c.isKeyed then
    let shelf (entry : Bytes × Bytes) : Nat := (digest entry.1).toNat % shelves
    c.entries.mergeSort fun a b => shelf a ≤ shelf b
  else c.entries

/-- The keys or numbers as they are listed. -/
def keys (c : Collection) : List Bytes := c.toList.map (·.1)

/-- The texts as they are listed. -/
def values (c : Collection) : List Bytes := c.toList.map (·.2)

/-- The texts from a number on. -/
def valuesFrom (c : Collection) (number : Nat) : List Bytes :=
  (c.toList.filter fun entry => number ≤ Bytes.digitsValue entry.1).map (·.2)

theorem get?_insert_empty (isKeyed : Bool) (key text : Bytes) :
    ((⟨isKeyed, []⟩ : Collection).insert key text).get? key = some text := by
  cases isKeyed <;> simp [insert, get?]

end Collection

end Shell

/-! ## Processes

A process acts on files, writes messages, takes time and ends with a status or by a signal. Time is
counted, not spent; a process that would pass its deadline is stopped there.
-/

namespace Shell

/-- How a process ends. -/
inductive Ending where
  | exit (status : Nat)
  | signal (name : Bytes)
  | deadline
deriving DecidableEq, Repr

/-- What a descriptor leads to. -/
inductive Channel where
  | nowhere
  | full
  | messages
  | file (path : Bytes)
  | stream (index : Nat)
deriving DecidableEq, Repr

/-- A variable of a shell. -/
structure Variable where
  value : Bytes
  isExported : Bool
  isFixed : Bool
deriving DecidableEq, Repr

/-- A process at work. Files, messages, time and streams are shared with the processes that it starts.
The rest is its own: its number, name and arguments, where its script is from, the language, variables,
arrays, functions and traps of a shell, which variables are integers, the descriptors, options and status,
the line that it is at and the command that speaks there, how many loops and functions it is in, the status
of the last substitution, the variables that a function will give back, how many subshells deep it is, a
signal that waits for the shell around it, the statuses of jobs in the background, the names that stand for
other words, where the reading of options has come to: the next word, and how far the one before it has
been read, and why output has been lost. -/
structure Job where
  files : Files
  messages : Bytes
  elapsed : Nat
  deadline : Option Nat
  streams : List Bytes
  number : Nat
  name : Bytes
  origin : Bytes
  args : List Bytes
  dialect : Dialect
  bindings : List (Bytes × Variable)
  collections : List (Bytes × Collection)
  integers : List Bytes
  functions : List (Bytes × Statement)
  traps : List (Bytes × Bytes)
  channels : List (Nat × Channel)
  options : Bytes
  status : Nat
  line : Nat
  speaker : Bytes
  loops : Nat
  calls : Nat
  substituted : Nat
  sheltered : List (Bytes × Option Variable × Option Collection)
  depth : Nat
  pending : Option (Bytes × Bytes)
  background : List Nat
  aliases : List (Bytes × Bytes)
  optionWord : Nat
  optionOffset : Nat
  lost : Option Bytes
deriving Repr

/-- What leaves the usual order: the process ends, loops are left or continued, a function returns, or the
rest of a line is given up. -/
inductive Jump where
  | finish (ending : Ending)
  | leave (loops : Nat)
  | resume (loops : Nat)
  | comeBack (status : Nat)
  | abandon
deriving DecidableEq, Repr

/-- An activity of a process. -/
abbrev Act := ExceptT Jump (StateM Job)

namespace Job

/-- A fresh process of a program: no input, output that nobody reads, and messages that are kept. -/
def start (files : Files) (environment : List (Bytes × Bytes)) (deadline : Option Nat) (name : Bytes) : Job where
  files := files
  messages := []
  elapsed := 0
  deadline := deadline
  streams := []
  number := 1
  name := name
  origin := []
  args := []
  dialect := .plain
  bindings := environment.filterMap fun (name, value) =>
    if isName name then some (name, ⟨value, true, false⟩) else none
  collections := []
  integers := []
  functions := []
  traps := []
  channels := [(0, .nowhere), (1, .nowhere), (2, .messages)]
  options := []
  status := 0
  line := 1
  speaker := []
  loops := 0
  calls := 0
  substituted := 0
  sheltered := []
  depth := 0
  pending := none
  background := []
  aliases := []
  optionWord := 1
  optionOffset := 0
  lost := none

/-- The channel of a descriptor. -/
def channel? (p : Job) (descriptor : Nat) : Option Channel :=
  (p.channels.find? (·.1 = descriptor)).map (·.2)

/-- A descriptor opened or closed. -/
def withChannel (p : Job) (descriptor : Nat) (channel : Option Channel) : Job :=
  let others := p.channels.filter (·.1 ≠ descriptor)
  { p with channels := (channel.toList.map (descriptor, ·)) ++ others }

/-- Text sent to a channel. -/
def emit (p : Job) (channel : Channel) (text : Bytes) : Job :=
  match channel with
  | .nowhere | .full => p
  | .messages => { p with messages := p.messages ++ text }
  | .file path => { p with files := p.files.append path text }
  | .stream index => { p with streams := p.streams.modify index (· ++ text) }

/-- A stream with a content, and its channel. -/
def withStream (p : Job) (content : Bytes) : Job × Channel :=
  ({ p with streams := p.streams ++ [content] }, .stream p.streams.length)

/-- What is left in a channel. -/
def contentOf (p : Job) : Channel → Bytes
  | .stream index => p.streams.getD index []
  | _ => []

/-- A variable. -/
def lookUp? (p : Job) (name : Bytes) : Option Variable := (p.bindings.find? (·.1 = name)).map (·.2)

/-- A variable set; it stays exported, or is exported while an option asks for it. -/
def assigned (p : Job) (name value : Bytes) (exported : Bool) : Job :=
  let old := p.lookUp? name
  let isExported := exported || p.options.contains 97 || (old.map (·.isExported)).getD false
  let others := p.bindings.filter (·.1 ≠ name)
  { p with bindings := (name, ⟨value, isExported, false⟩) :: others }

/-- A variable set or removed. -/
def withVariable (p : Job) (name : Bytes) (found : Option Variable) : Job :=
  { p with bindings := (found.toList.map (name, ·)) ++ p.bindings.filter (·.1 ≠ name) }

/-- An array. -/
def collection? (p : Job) (name : Bytes) : Option Collection := (p.collections.find? (·.1 = name)).map (·.2)

/-- An array set or removed. -/
def withCollection (p : Job) (name : Bytes) (found : Option Collection) : Job :=
  { p with collections := (found.toList.map (name, ·)) ++ p.collections.filter (·.1 ≠ name) }

/-- Whether the extended language is spoken. -/
def isExtended (p : Job) : Bool := p.dialect = .extended

/-- The path of a file that stays the same when the working directory changes. -/
def fixedPath (p : Job) (path : Bytes) : Bytes :=
  if Path.isAbsolute path then path else p.files.workingPath ++ [47] ++ path

end Job

namespace Act

/-- The process ends. -/
def finish {α : Type} (ending : Ending) : Act α := throw (.finish ending)

/-- Text written to a descriptor; a closed one takes nothing, and what is lost of the output is noted. -/
def write (descriptor : Nat) (text : Bytes) : Act Unit :=
  modify fun p =>
    let losing (p : Job) (reason : Bytes) : Job :=
      if descriptor = 1 && !text.isEmpty then { p with lost := some reason } else p
    match p.channel? descriptor with
    | some .full => losing p "No space left on device"
    | some channel => p.emit channel text
    | none => losing p "Bad file descriptor"

/-- Text for the output. -/
def put (text : Bytes) : Act Unit := write 1 text

/-- A line of a program among the messages. -/
def report (text : Bytes) : Act Unit := write 2 (text ++ [10])

/-- A message of the shell itself, with its place. -/
def complain (message : Bytes) : Act Unit := do
  let p ← get
  let speaker : Bytes := if p.speaker.isEmpty then [] else p.speaker ++ ": "
  let place : Bytes := if p.isExtended then "line " ++ Decimal.ofNat p.line else Decimal.ofNat p.line
  report (p.name ++ ": " ++ place ++ ": " ++ speaker ++ message)

/-- One of two wordings, by the language. -/
def worded (plain extended : Bytes) : Act Bytes := do pure (if (← get).isExtended then extended else plain)

/-- A message that ends a script. -/
def abort {α : Type} (message : Bytes) : Act α := do
  complain message
  finish (.exit 2)

/-- A message that ends a script, or in the extended language the line that it stands on. -/
def refuse {α : Type} (plain extended : Bytes) : Act α := do
  if (← get).isExtended then
    complain extended
    throw .abandon
  else abort plain

/-- All that is left of the input. -/
def readAll : Act Bytes := do
  let p ← get
  match p.channel? 0 with
  | some (.stream index) =>
    let content := p.streams.getD index []
    set { p with streams := p.streams.set index [] }
    pure content
  | _ => pure []

/-- The next line of the input without its end, and whether it had one. -/
def readLine : Act (Bytes × Bool) := do
  let p ← get
  match p.channel? 0 with
  | some (.stream index) =>
    let content := p.streams.getD index []
    let line := content.takeWhile (· ≠ 10)
    set { p with streams := p.streams.set index (content.drop (line.length + 1)) }
    pure (line, line.length < content.length)
  | _ => pure ([], false)

/-- The input up to a mark, which is passed over, or a number of bytes of it, and whether it went so far. -/
def readUpTo (mark : Option UInt8) (most : Option Nat) : Act (Bytes × Bool) := do
  let p ← get
  match p.channel? 0 with
  | some (.stream index) =>
    let content := p.streams.getD index []
    let whole := match mark with
      | some mark => content.takeWhile (· ≠ mark)
      | none => content
    let text := match most with
      | some most => whole.take most
      | none => whole
    let isCut := most.any (· ≤ whole.length)
    let passed := if isCut then text.length else text.length + 1
    set { p with streams := p.streams.set index (content.drop passed) }
    pure (text, isCut || text.length < content.length)
  | _ => pure ([], false)

/-- Time passes, up to the deadline. -/
def passTime (nanos : Nat) : Act Unit := do
  let p ← get
  let elapsed := p.elapsed + nanos
  match p.deadline with
  | some limit =>
    if limit ≤ elapsed then
      set { p with elapsed := limit }
      finish .deadline
    else set { p with elapsed := elapsed }
  | none => set { p with elapsed := elapsed }

/-- An activity whose jumps are caught; its changes stay. -/
def attempt {α : Type} (activity : Act α) : Act (Except Jump α) := fun p =>
  match activity.run p with
  | (result, after) => (.ok result, after)

/-- A caught result passed on. -/
def passOn {α : Type} : Except Jump α → Act α
  | .ok value => pure value
  | .error jump => throw jump

/-- An activity with a change to the process that is undone afterwards, whatever happens. -/
def restoring {α : Type} (undo : Job → Job → Job) (activity : Act α) : Act α := do
  let before ← get
  let result ← attempt activity
  modify (undo before)
  passOn result

/-- An activity whose changes to the shell itself are undone afterwards; files, messages, streams and
time go on. -/
def apart (activity : Act Nat) : Act (Except Jump Nat) := do
  let before ← get
  let result ← attempt activity
  modify fun after =>
    { before with
      files := { after.files with workingDirectory := before.files.workingDirectory }
      messages := after.messages
      elapsed := after.elapsed
      streams := after.streams
      pending := after.pending }
  pure result

/-- An activity in a subshell: its end is no more than a status, unless the process is stopped as a
whole. -/
def inSubshell (activity : Act Nat) : Act Nat := do
  match ← apart activity with
  | .ok status => pure status
  | .error (.finish (.exit status)) => pure status
  | .error (.comeBack status) => pure status
  | .error (.finish ending) => finish ending
  | .error .abandon => pure 1
  | .error _ => pure 0

/-- The output of an activity in a subshell, and its status. -/
def capture (activity : Act Nat) : Act (Bytes × Nat) := do
  let index := (← get).streams.length
  let status ← inSubshell do
    modify fun p =>
      let (p, channel) := p.withStream []
      p.withChannel 1 (some channel)
    activity
  let content := (← get).streams.getD index []
  modify fun p => { p with streams := p.streams.set index [] }
  pure (content, status)

end Act

end Shell

/-! ## What can be run

Programs are installed in directories that the tree of files does not list. A name without a slash is
looked up in the directories of the search path, in order.
-/

namespace Files

/-- Where names lead from a place, in at most so many steps: links are followed, and what the tree does
not know is taken as it is written. -/
def reach (files : Files) : Nat → Place → List Bytes → Place
  | 0, here, _ => here
  | _, here, [] => here
  | steps + 1, here, name :: rest =>
    if name = Path.here then files.reach steps here rest
    else if name = Path.above then files.reach steps here.dropLast rest
    else
      match files.get? (here ++ [name]) with
      | some (.link target) =>
        files.reach steps (if Path.isAbsolute target then [] else here) (Path.names target ++ rest)
      | _ => files.reach steps (here ++ [name]) rest

/-- How many names are followed. -/
def reachLimit : Nat := 10000

/-- The directories that programs are installed in. -/
def programFolders : List Place := [[Bytes.ofString "usr", Bytes.ofString "bin"], [Bytes.ofString "bin"]]

/-- The name of the program that a path leads to, if programs are installed there. -/
def programName? (files : Files) (path : Bytes) : Option Bytes :=
  let place := files.reach reachLimit (files.start path) (Path.names path)
  if programFolders.contains place.dropLast && !endsWithSlash path then place.getLast? else none

end Files

namespace Shell

/-- What a name stands for: an installed program, a script that may be run, a file that may not, or
nothing. -/
inductive Executable where
  | program (name : Bytes)
  | script (path text : Bytes)
  | forbidden
  | missing
deriving DecidableEq, Repr

/-- The programs that are installed. -/
def installedNames : List String :=
  ["sh", "dash", "bash", "env", "xargs", "timeout", "which", "nohup", "nice", "setsid", "stdbuf", "find", "awk", "mawk"] ++
  ["true", "false", "echo", "printf", "cat", "head", "tail", "wc", "seq", "tr", "tee", "sleep", "grep", "egrep",
    "fgrep", "sed", "sort", "uniq", "comm", "cut", "paste", "rev", "tac", "nl", "fold", "expr", "base64"] ++
  ["sha256sum", "ls", "mkdir", "rmdir", "rm", "touch", "cp", "mv", "ln", "chmod", "test", "[", "basename",
    "dirname", "readlink", "realpath", "truncate", "cmp", "stat"] ++
  ["od", "dd", "split", "join", "expand", "unexpand", "cksum", "md5sum", "sha1sum", "sha224sum", "sha384sum",
    "sha512sum", "unlink", "link", "install", "factor", "diff", "gzip", "gunzip", "zcat", "mktemp", "tty", "groups", "arch",
    "nproc", "hostname"] ++
  ["yes", "pwd", "date", "id", "whoami", "uname", "sync", "printenv"]

/-- Whether a program is installed. -/
def isInstalled (name : Bytes) : Bool := installedNames.any (Bytes.ofString · = name)

/-- The directories that are searched where nothing else is said. -/
def usualSearchPath : Bytes := "/usr/local/sbin:/usr/local/bin:/usr/sbin:/usr/bin:/sbin:/bin"

namespace Job

/-- Whether the file that a path leads to may be run. -/
def mayRun (p : Job) (path : Bytes) : Bool :=
  match p.files.resolve true path with
  | .ok (.taken place (.file _)) => p.files.mayRun place
  | _ => (p.files.programName? path).any isInstalled

/-- What is at a path. -/
def executableAt (p : Job) (path : Bytes) : Executable :=
  match (p.files.programName? path).filter isInstalled with
  | some name => .program name
  | none =>
    match p.files.stat path with
    | .ok (.file content) => if p.mayRun path then .script path content.toBytes else .forbidden
    | .ok _ => .forbidden
    | .error _ => .missing

/-- The first of some directories with something under a name that can be run; a file that may not be run
counts only if there is nothing else. -/
def searched (p : Job) (name : Bytes) : List Bytes → Executable
  | [] => .missing
  | folder :: rest =>
    let path := if folder.isEmpty then name else folder ++ [47] ++ name
    match p.executableAt path with
    | .missing => p.searched name rest
    | .forbidden =>
      match p.searched name rest with
      | .missing => match p.files.stat path with
        | .ok (.file _) => .forbidden
        | _ => .missing
      | found => found
    | found => found

/-- What a name stands for. -/
def executable (p : Job) (name : Bytes) : Executable :=
  if name.isEmpty then .missing
  else if name.contains 47 then p.executableAt name
  else
    let path := ((p.lookUp? "PATH").map (·.value)).getD usualSearchPath
    p.searched name (Bytes.splitOn 58 path)

end Job

end Shell

end MobilitySweep
