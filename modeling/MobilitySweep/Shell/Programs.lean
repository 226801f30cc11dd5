import MobilitySweep.Shell.Blocks
import MobilitySweep.Shell.Calculation
import MobilitySweep.Shell.Columns
import MobilitySweep.Shell.Compression
import MobilitySweep.Shell.Condition
import MobilitySweep.Shell.Dates
import MobilitySweep.Shell.Differences
import MobilitySweep.Shell.Digests
import MobilitySweep.Shell.Editing.Run
import MobilitySweep.Shell.FilePrograms
import MobilitySweep.Shell.Finding
import MobilitySweep.Shell.Listing
import MobilitySweep.Shell.Records.Run
import MobilitySweep.Shell.Searching
import MobilitySweep.Shell.Sorting
import MobilitySweep.Shell.TextPrograms

/-! # Installed programs

The programs that can be started by name. Each takes its arguments, acts on the process that runs it,
and has a status; what it has to say about a failure goes among the messages.
-/

namespace MobilitySweep

namespace Shell

namespace Programs

/-- Time passes. -/
def sleep (args : List Bytes) : Act Nat := do
  if args.isEmpty then return ← missingOperand "sleep" "operand"
  match args.find? fun arg => !(arg.head?.map fun b => Bytes.isDigit b || b = 46).getD false with
  | some arg =>
    Act.report ("sleep: invalid time interval " ++ inQuotes arg)
    Act.report (helpHint "sleep")
    return 1
  | none => pure ()
  Act.passTime ((args.map spanOf).foldl (· + ·) 0)
  pure 0

/-- A condition as a status. -/
def test (words : List Bytes) : Act Nat := do
  match Condition.holds (← get) words with
  | .ok value => pure (if value then 0 else 1)
  | .error trouble =>
    Act.complain trouble.message
    pure 2

/-- A condition in brackets. -/
def bracket (words : List Bytes) : Act Nat := do
  if words.getLast? = some [93] then test words.dropLast
  else
    Act.complain "missing ]"
    pure 2

/-- A line written again and again: a full pipe of it, or for ever. -/
def yes (args : List Bytes) : Act Nat := do
  let line := (if args.isEmpty then [121] else Bytes.joinWith [32] args) ++ [10]
  match (← get).channel? 1 with
  | some (.stream _) =>
    Act.put (Bytes.times (65536 / line.length + 1) line)
    pure 0
  | _ => Act.finish .deadline

/-- The working directory. -/
def pwd (_ : List Bytes) : Act Nat := do
  Act.put ((← get).files.workingPath ++ [10])
  pure 0

/-- The variables that programs find, all of them or some. -/
def printenv (args : List Bytes) : Act Nat := do
  let p ← get
  if args.isEmpty then
    Act.put (Launcher.environmentText p)
    pure 0
  else
    Act.forEach (fun name => do
      match (p.lookUp? name).filter (·.isExported) with
      | some found =>
        Act.put (found.value ++ [10])
        pure 0
      | none => pure 1) args

/-- The name of the system. -/
def uname (args : List Bytes) : Act Nat := do
  let option := args.headD "-s"
  if option = "-s" then Act.put "Linux\n"
  else if option = "-m" then Act.put "x86_64\n"
  pure 0

/-- Who runs the process. -/
def id (args : List Bytes) : Act Nat := do
  let option := args.headD []
  if option = "-u" || option = "-g" then Act.put "0\n"
  else if option = "-un" || option = "-gn" then Act.put "root\n"
  else Act.put "uid=0(root) gid=0(root) groups=0(root)\n"
  pure 0

/-- The terminal, of which there is none. -/
def tty (args : List Bytes) : Act Nat := do
  if args.isEmpty then Act.put "not a tty\n"
  pure 1

/-- A program that writes the same line whatever it is given. -/
def saying (line : Bytes) (_ : List Bytes) : Act Nat := do
  Act.put (line ++ [10])
  pure 0

/-- What a program says about output that is lost, and its status then. -/
def lossOf (own name reason : Bytes) : Bytes × Nat :=
  if own = "cat" then (name ++ ": standard output: " ++ reason, 1)
  else if own = "sed" then (name ++ ": couldn't close stdout: " ++ reason, 4)
  else if own = "awk" || own = "mawk" then (name ++ ": close failed on file \"/dev/stdout\" (" ++ reason ++ ")", 2)
  else if own = "sort" then (name ++ ": write failed: 'standard output': " ++ reason, 2)
  else
    let status := if own = "ls" || own = "grep" || own = "cmp" || own = "diff" then 2 else if own = "expr" then 3
      else if own = "env" then 125 else 1
    (name ++ ": write error: " ++ reason, status)

/-- The programs by name. -/
def table : List (String × (List Bytes → Act Nat)) :=
  [("true", fun _ => pure 0), ("false", fun _ => pure 1), ("echo", plainEcho), ("printf", printf), ("cat", cat),
    ("head", head), ("tail", tail), ("wc", wc), ("seq", seq), ("tr", tr), ("tee", tee),
    ("sleep", sleep), ("paste", paste), ("rev", rev), ("tac", tac), ("nl", nl), ("fold", fold)] ++
  [("grep", grep), ("egrep", fun args => grep ("-E" :: args)), ("fgrep", fun args => grep ("-F" :: args)), ("sed", sed),
    ("sort", sort), ("uniq", uniq), ("comm", comm), ("cut", cut), ("expr", expr), ("base64", base64),
    ("od", od), ("dd", dd), ("split", split), ("join", join), ("expand", expand), ("unexpand", unexpand),
    ("cksum", cksum), ("factor", factor), ("diff", diff), ("gzip", gzip), ("gunzip", fun args => gzip ("-d" :: args)),
    ("zcat", fun args => gzip ("-cd" :: args))] ++
  (digestKinds.map fun kind => (Utf8.toString kind.program, digests kind)) ++
  [("ls", ls), ("mkdir", mkdir), ("rmdir", rmdir), ("rm", rm),
    ("unlink", unlink), ("touch", touch), ("cp", cp), ("mv", mv), ("ln", ln), ("link", link), ("install", install),
    ("mktemp", mktemp)] ++
  [("chmod", chmod), ("readlink", readlink), ("realpath", realpath), ("truncate", truncate), ("cmp", cmp), ("stat", stat),
    ("test", test), ("[", bracket), ("basename", basename), ("dirname", dirname), ("yes", yes), ("pwd", pwd),
    ("printenv", printenv), ("uname", uname), ("id", id), ("whoami", fun _ => id ["-un"]),
    ("date", date), ("sync", fun _ => pure 0), ("tty", tty), ("groups", saying "root"), ("arch", saying "x86_64"),
    ("nproc", saying "1"), ("hostname", saying "localhost")]

/-- A program by its name. -/
def find? (name : Bytes) : Option (List Bytes → Act Nat) :=
  (table.find? fun entry => Bytes.ofString entry.1 = name).map (·.2)

/-- A program by its name, given what it starts others with. -/
def starting? (l : Launcher) (name : Bytes) : Option (List Bytes → Act Nat) :=
  ((l.table ++ [("find", l.find), ("awk", l.awk), ("mawk", l.awk)]).find? fun entry => Bytes.ofString entry.1 = name).map (·.2)

end Programs

end Shell

end MobilitySweep
