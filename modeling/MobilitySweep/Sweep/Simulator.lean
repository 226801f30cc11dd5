import MobilitySweep.Config.File
import MobilitySweep.Shell.Run
import MobilitySweep.Sweep.World
import MobilitySweep.Sweep.CommandLine
import MobilitySweep.Text.Utf8

/-! # Simulators

A simulator is a command that is started once per run in the root of the sweep. It fails when the
command cannot be started, ends with a status other than zero, or takes longer than it may. For tests
there is a simulator that follows a script of outcomes.
-/

namespace MobilitySweep

/-- A simulator command: what is run, where, how long it may take, and the variables that it finds. -/
structure SimulatorCommand where
  command : Bytes
  args : List Bytes
  directory : Bytes
  timeout : Duration
  environment : Environment
deriving DecidableEq, Repr, Inhabited

namespace SimulatorCommand

/-- The command of a configuration. -/
def ofConfig (c : Config) (environment : Environment) : SimulatorCommand :=
  ⟨c.simulator.command, c.simulator.args.getD [], c.layout.root, c.simulator.timeout, environment⟩

/-- Why a simulation failed. -/
inductive Failure where
  | noCommand
  | interrupted
  | timedOut (limit : Duration)
  | notStarted (fault : Fault)
  | ended (ending : Bytes) (messages : Bytes)
deriving DecidableEq, Repr

/-- The most bytes of messages that are shown. -/
def messageLimit : Nat := 4096

/-- The end of a text without blanks around it. -/
def tail (text : Bytes) : Bytes :=
  let text := Blank.trim text
  if text.length ≤ messageLimit then text else "..." ++ text.drop (text.length - messageLimit)

/-- The failure as a fault. -/
def Failure.fault : Failure → Fault
  | noCommand => .plain "simulator command is empty"
  | interrupted => Fault.cancelled.within "simulator interrupted"
  | timedOut limit => .plain ("simulator timed out after " ++ limit.toText)
  | notStarted fault => ⟨fault.kind, "simulator failed: " ++ fault.message ++ " (stderr: )"⟩
  | ended ending messages =>
    .plain ("simulator failed: " ++ ending ++ " (stderr: " ++ tail messages ++ ")")

/-- What the search path gives for a command. -/
inductive Lookup where
  | found (path : Bytes)
  | relative
  | missing
deriving DecidableEq, Repr

/-- The directories that are searched for a command. -/
def searchPath (s : SimulatorCommand) : Bytes := (s.environment.lookup? "PATH").getD Shell.usualSearchPath

/-- Whether a path leads to a file that may be run. -/
def isRunnable (files : Files) (path : Bytes) : Bool :=
  match files.resolve true path with
  | .ok (.taken place (.file _)) => files.mayRun place
  | _ => false

/-- Why a file that may be run cannot be: it names no program to read it, or one that cannot be run. -/
def unreadable? (files : Files) (path : Bytes) : Option Files.Cause :=
  match files.stat path with
  | .error cause => some cause
  | .ok .directory | .ok (.link _) => some .denied
  | .ok (.file content) =>
    if !isRunnable files path then some .denied
    else
      match Shell.Runner.interpreter? content.toBytes with
      | none => some .noProgram
      | some (interpreter, _) =>
        if (files.programName? interpreter).any Shell.isInstalled || isRunnable files interpreter then none
        else
          match files.stat interpreter with
          | .ok _ => some .denied
          | .error cause => some cause

/-- The first of some directories that has a program; one that is not given from the root down counts, but
nothing in it may be run. -/
def lookUp (files : Files) (command : Bytes) : List Bytes → Lookup
  | [] => .missing
  | folder :: rest =>
    let path := Path.join [if folder.isEmpty then Path.here else folder, command]
    if (files.programName? path).any Shell.isInstalled || isRunnable files path then
      if Path.isAbsolute path then .found path else .relative
    else lookUp files command rest

/-- The program of a command with some arguments, or why it cannot be started. The directory has to be
there before anything else is looked at; that it is one is found out by the new process. -/
def program? (files : Files) (s : SimulatorCommand) (args : List Bytes) : Except Fault (Bytes × Files) := do
  let hasSlash := s.command.contains ('/' : UInt8)
  let lookup := if hasSlash then .found s.command
    else if s.searchPath.isEmpty then .missing
    else lookUp files s.command (Bytes.splitOn 58 s.searchPath)
  match lookup with
  | .missing => .error (.plain ("exec: " ++ Quoted.quote s.command ++ ": executable file not found in $PATH"))
  | .relative =>
    .error (.plain ("exec: " ++ Quoted.quote s.command ++ ": cannot run executable found relative to current directory"))
  | .found started =>
    let refuse : Files.Cause → Except Fault (Bytes × Files) := fun cause =>
      .error (cause.fault "fork/exec" [started])
    let inside : Option Files ← if s.directory.isEmpty then pure (some files)
      else match files.resolve true s.directory with
        | .ok (.taken place .directory) => pure (some { files with workingDirectory := place })
        | .ok (.taken _ _) => pure none
        | .ok (.free _ _) => .error (Files.Cause.missing.fault "chdir" [s.directory])
        | .error cause => .error (cause.fault "chdir" [s.directory])
    if (s.command :: args).any (·.contains 0) then refuse .invalid
    else
      match inside with
      | none => refuse .notDirectory
      | some inside =>
        if !hasSlash || (inside.programName? s.command).any Shell.isInstalled then .ok (s.command, inside)
        else
          match unreadable? inside s.command with
          | some cause => refuse cause
          | none => .ok (s.command, inside)

/-- The words for an ending. -/
def endingText : Shell.Ending → Bytes
  | .exit status => "exit status " ++ Decimal.ofNat status
  | .signal name => "signal: " ++ name
  | .deadline => "signal: killed"

/-- How long it takes to start a command, in nanoseconds; a shorter limit is over before. -/
def startingTime : Int := 1000000

/-- One simulation on the files: the files after it, and the failure. -/
def simulate (s : SimulatorCommand) (cancelled : Bool) (config log : Bytes) (files : Files) :
    Files × Option Failure :=
  if s.command.isEmpty then (files, some .noCommand)
  else if cancelled then (files, some .interrupted)
  else if 0 < s.timeout.nanos.toInt && s.timeout.nanos.toInt < startingTime then (files, some (.timedOut s.timeout))
  else
    let args := CommandLine.expand s.args config log
    match s.program? files args with
    | .error fault => (files, some (.notStarted fault))
    | .ok (program, inside) =>
      -- A limit of zero is none at all.
      let limit := s.timeout.nanos.toInt.toNat
      let deadline := if limit = 0 then none else some limit
      let (job, ending) := Shell.run inside s.environment deadline program args
      let files := { job.files with workingDirectory := files.workingDirectory }
      match ending with
      | .exit 0 => (files, none)
      | .deadline => (files, some (.timedOut s.timeout))
      | ending => (files, some (.ended (endingText ending) job.messages))

/-- The simulator that runs a command. -/
def simulator (s : SimulatorCommand) : Simulator := fun config log =>
  .act fun bench =>
    let (files, failure) := s.simulate bench.cancelled config log bench.files
    (failure.map (·.fault), { bench with files := files, calls := (config, log) :: bench.calls })

end SimulatorCommand

/-- A script of outcomes by run: which simulations crash, fail with part of a log, interrupt the sweep,
succeed without a log, or write a given log. Paths of logs are relative to a root. -/
structure ScriptedSimulator where
  root : Bytes
  crashes : List (Bytes × Bytes)
  failures : List (Bytes × Bytes)
  interruptions : List Bytes
  silent : List Bytes
  logs : List (Bytes × Bytes)
deriving DecidableEq, Repr, Inhabited

namespace ScriptedSimulator

/-- The run that a log belongs to. -/
def runOf (log : Bytes) : Bytes :=
  let name := Path.base log
  let name := (Bytes.dropSuffix? ".txt" name).getD name
  if ("log" : Bytes).isPrefixOf name then name.drop 3 else name

/-- The entry of a run. -/
def outcomeFor (table : List (Bytes × Bytes)) (run : Bytes) : Option Bytes := (table.find? (·.1 = run)).map (·.2)

/-- A log written. -/
def writeLog (s : ScriptedSimulator) (log text : Bytes) (bench : Bench) : Bench × Option Fault :=
  let (files, fault) := bench.files.writeFile (Path.join [s.root, log]) text
  ({ bench with files := files }, fault)

/-- One simulation: the first outcome that the script has for the run. -/
def simulate (s : ScriptedSimulator) (config log : Bytes) (bench : Bench) : Option Fault × Bench :=
  let run := runOf log
  let bench := { bench with calls := (config, log) :: bench.calls }
  match outcomeFor s.crashes run with
  | some message => (some (.plain message), bench)
  | none =>
    match outcomeFor s.failures run with
    | some message => (some (.plain message), (s.writeLog log "partial\n" bench).1)
    | none =>
      if s.interruptions.contains run then (some Fault.cancelled, { bench with interrupted := true })
      else if s.silent.contains run then (none, bench)
      else
        let text := (outcomeFor s.logs run).getD ("log for " ++ config ++ "\n")
        let (bench, fault) := s.writeLog log text bench
        (fault, bench)

/-- The simulator that follows the script. -/
def simulator (s : ScriptedSimulator) : Simulator := fun config log => .act (s.simulate config log)

end ScriptedSimulator

end MobilitySweep
