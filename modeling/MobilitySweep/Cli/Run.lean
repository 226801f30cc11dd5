import MobilitySweep.Cli.Command
import MobilitySweep.Cli.Request
import MobilitySweep.Cli.Session
import MobilitySweep.Cli.Sweeps
import MobilitySweep.Cli.Traces
import MobilitySweep.Config.Printer
import MobilitySweep.Config.Validate
import MobilitySweep.Sweep.Execution

/-! # Running commands

Help texts, the commands on the configuration, and the choice among all commands.
-/

namespace MobilitySweep

/-! ## Help texts

The usage of a command lists how it is called, the commands below it, its flags and the flags from
above. Help is the explanation of the command followed by its usage.
-/

namespace Cli

namespace Usage

/-- Flags in the order of their names. -/
def sortedFlags (flags : List Flag) : List Flag := flags.mergeSort fun a b => !Bytes.less b.name a.name

/-- Commands in the order of their names. -/
def sortedCommands (commands : List Command) : List Command :=
  commands.mergeSort fun a b => !Bytes.less b.name a.name

/-- A flag with the name of its value. -/
def heading (f : Flag) : Bytes :=
  let called : Bytes := match f.letter? with
    | some _ => "  " ++ f.written
    | none => "      " ++ f.written
  match f.kind with
  | .switch _ => called
  | .text => called ++ " string"
  | .integer _ => called ++ " int"

/-- What a flag does, and its value if it is not set. Zero goes without saying. -/
def remark (f : Flag) : Bytes :=
  match f.kind with
  | .integer standard =>
    if standard = 0 then f.note else f.note ++ " (default " ++ Decimal.ofInt64 standard ++ ")"
  | _ => f.note

/-- Flags in two columns, three blanks apart. -/
def flagTable (flags : List Flag) : Bytes :=
  let width := ((flags.map (heading · |>.length)).max?).getD 0
  Bytes.joinWith "\n" ((sortedFlags flags).map fun f => Bytes.padRight (width + 3) (heading f) ++ remark f)

/-- The least width of the column of command names. -/
def nameWidth : Nat := 11

/-- The commands below a command, one on a line. -/
def commandTable (commands : List Command) : Bytes :=
  (sortedCommands commands).flatMap fun c => "\n  " ++ Bytes.padRight nameWidth c.name ++ " " ++ c.summary

/-- A titled part of a usage, left out if there are no flags. -/
def flagPart (title : Bytes) (flags : List Flag) : Bytes :=
  if flags.isEmpty then [] else "\n\n" ++ title ++ ":\n" ++ flagTable flags

/-- The usage of a command, with or without the flag for help. -/
def text (c : Command) (withHelp : Bool) : Bytes :=
  let helpFlags := if withHelp then [c.helpFlag] else []
  let call : Bytes := if c.isRunnable then "\n  " ++ c.path ++ c.operands ++ " [flags]" else []
  let below : Bytes := if c.children.isEmpty then [] else
    "\n  " ++ c.path ++ " [command]"
  let commands : Bytes := if c.children.isEmpty then [] else
    "\n\nAvailable Commands:" ++ commandTable c.children
  let hint : Bytes := if c.children.isEmpty then [] else
    "\n\nUse \"" ++ c.path ++ " [command] --help\" for more information about a command."
  "Usage:" ++ call ++ below ++ commands ++ flagPart "Flags" (helpFlags ++ c.ownFlags ++ c.sharedFlags) ++
    flagPart "Global Flags" c.inheritedFlags ++ hint ++ "\n"

end Usage

/-- The help of a command. -/
def Command.helpText (c : Command) : Bytes :=
  c.explanation ++ "\n\n" ++ if c.isRunnable || !c.children.isEmpty then Usage.text c true else []

end Cli

/-! ## Commands on the configuration

The effective configuration shown or checked, and a file with the standard one written.
-/

namespace Cli

/-- The effective configuration printed. -/
def configShow (s : Surroundings) (a : Arguments) (files : Files) : Outcome :=
  match loadConfig s a files with
  | .error fault => .failed fault
  | .ok c => if a.exchange then .exchanged c.toJson else .printed c.toYaml

/-- The number of runs that the check of a configuration prints: the lengths of the axes and the repetitions
multiplied, without any plan. -/
def announcedRuns (s : SweepSettings) : Int64 :=
  Int64.ofNat (s.nodeDistances.getD []).length * Int64.ofNat (s.swapCouples.getD []).length *
    Int64.ofNat (s.shuffleDistances.getD []).length * s.repetitions

/-- The effective configuration checked. -/
def configValidate (s : Surroundings) (a : Arguments) (files : Files) : Outcome :=
  match loadConfig s a files with
  | .error fault => .failed fault
  | .ok c =>
    match c.validate with
    | .error cause => .failed cause.fault
    | .ok () =>
      if a.exchange then
        .exchanged (.object [("runs", .ofInt64 (announcedRuns c.sweep)), ("valid", .bool true)])
      else .printed ("Configuration is valid (" ++ Decimal.ofInt64 (announcedRuns c.sweep) ++ " runs).\n")

/-- The lines in front of a configuration that is written. -/
def configHeading : Bytes :=
  "# cowtrace sweep configuration\n# Runs: node_distances x swap_couples x shuffle_distances x repetitions\n\n"

/-- The standard configuration written. A file that exists is kept unless overwriting is asked for. -/
def configInit (a : Arguments) (files : Files) : Outcome × Files :=
  let path := a.rest.headD Config.defaultFile
  if files.exists? path && !a.isOn "force" then
    (.failed (.plain (path ++ " already exists (use --force to overwrite)")), files)
  else
    match files.writeFile path (configHeading ++ Config.standard.toYaml) with
    | (files, some fault) => (.failed (fault.within "failed to write config"), files)
    | (files, none) =>
      if a.exchange then
        (.exchanged (.object [("path", .text path), ("status", .text "created")]), files)
      else (.printed ("Wrote " ++ path ++ "\n"), files)

end Cli

/-! ## Running a command line

A command line is read and what it asks for is done: a command executed, or help printed.
-/

namespace Cli

/-- The version of the program. -/
def versionText : Bytes := "0.1.0-dev"

/-- The revision the program was built from. -/
def revision : Bytes := "none"

/-- The day the program was built. -/
def built : Bytes := "unknown"

/-- The version printed. -/
def version (a : Arguments) : Outcome :=
  if a.exchange then
    .exchanged (.object [("commit", .text revision), ("date", .text built), ("version", .text versionText)])
  else
    .printed (Command.program.name ++ " version " ++ versionText ++ " (commit: " ++ revision ++ ", built: " ++
      built ++ ")\n")

/-- A command executed. Commands that only lead to others do nothing. -/
def execute (s : Surroundings) (a : Arguments) (files : Files) : Command → Outcome × Files
  | .version => (version a, files)
  | .trace => trace s a files
  | .inspect => (inspect a files, files)
  | .sweep => sweep s a files
  | .sweepPlan => (sweepPlan s a files, files)
  | .runsList => runsList s a files
  | .runsSweeps => runsSweeps s a files
  | .configShow => (configShow s a files, files)
  | .configInit => configInit a files
  | .configValidate => (configValidate s a files, files)
  | .program | .runs | .config | .help | .completion => (.printed [], files)

/-- The complaint about a topic nobody knows, with the usage of the program. -/
def unknownTopic (topic : List Bytes) : Bytes :=
  "Unknown help topic [" ++ Bytes.joinWith " " (topic.map Quoted.backquote) ++ "]\n" ++ Usage.text .program false

/-- A command line run on a tree of files. -/
def run (s : Surroundings) (line : List Bytes) (files : Files) : Outcome × Files :=
  match Request.read line with
  | .error misuse => (.failed (.plain misuse.message), files)
  | .ok (.help c) => (.printed c.helpText, files)
  | .ok (.unknownTopic topic) => (.printed (unknownTopic topic), files)
  | .ok (.execute c arguments) => execute s arguments files c

end Cli

end MobilitySweep
