import MobilitySweep.Cli.Flag
import MobilitySweep.Config.Basic

/-! # The commands

The commands form a tree below the program itself. Each has a name, flags of its own, flags that the
commands below it share, a number of arguments it accepts, and texts that explain it.
-/

namespace MobilitySweep

namespace Cli

/-- The commands of the program. -/
inductive Command where
  | program
  | version
  | trace
  | inspect
  | sweep
  | sweepPlan
  | runs
  | runsList
  | runsSweeps
  | config
  | configShow
  | configInit
  | configValidate
  | help
  | completion
deriving DecidableEq, Repr, Inhabited

/-- How many arguments a command accepts. -/
inductive Arity where
  | any
  | exactly (count : Nat)
  | atMost (count : Nat)
deriving DecidableEq, Repr, Inhabited

/-- The complaint about a number of arguments. -/
def Arity.complaint? (received : Nat) : Arity → Option Bytes
  | any => none
  | exactly count =>
    if received = count then none
    else some ("accepts " ++ Decimal.ofNat count ++ " arg(s), received " ++ Decimal.ofNat received)
  | atMost count =>
    if received ≤ count then none
    else some ("accepts at most " ++ Decimal.ofNat count ++ " arg(s), received " ++ Decimal.ofNat received)

namespace Command

/-- The name a command is called by. -/
def name : Command → Bytes
  | program => "cowtrace"
  | version => "version"
  | trace => "trace"
  | inspect => "inspect"
  | sweep => "sweep"
  | sweepPlan => "plan"
  | runs => "runs"
  | runsList => "list"
  | runsSweeps => "sweeps"
  | config => "config"
  | configShow => "show"
  | configInit => "init"
  | configValidate => "validate"
  | help => "help"
  | completion => "completion"

/-- The commands right below a command. -/
def children : Command → List Command
  | program => [version, trace, inspect, sweep, runs, config, help, completion]
  | sweep => [sweepPlan]
  | runs => [runsList, runsSweeps]
  | config => [configShow, configInit, configValidate]
  | _ => []

/-- The commands above a command, nearest first. -/
def ancestors : Command → List Command
  | program => []
  | sweepPlan => [sweep, program]
  | runsList => [runs, program]
  | runsSweeps => [runs, program]
  | configShow => [config, program]
  | configInit => [config, program]
  | configValidate => [config, program]
  | _ => [program]

/-- The names from the program down to a command. -/
def path (c : Command) : Bytes := Bytes.joinWith " " ((c :: c.ancestors).reverse.map name)

/-- Whether a command does something by itself rather than only lead to others. -/
def isRunnable : Command → Bool
  | program => false
  | runs => false
  | config => false
  | completion => false
  | _ => true

/-- The arguments of a command as its usage shows them. -/
def operands : Command → Bytes
  | trace => " <output>"
  | inspect => " <trace>"
  | configInit => " [path]"
  | help => " [command]"
  | _ => ""

/-- The number of arguments a command accepts. -/
def arity : Command → Arity
  | trace => .exactly 1
  | inspect => .exactly 1
  | configInit => .atMost 1
  | _ => .any

/-- The flag that sets the directory of a sweep. -/
def rootFlag : Flag := ⟨"root", .text, "Sweep root directory (overrides config)"⟩

/-- Flags that hold for a command and all below it. -/
def sharedFlags : Command → List Flag
  | program =>
    [⟨"json", .switch none, "Output as JSON"⟩,
      ⟨"config", .text, "Config file (default ./" ++ Config.defaultFile ++ " if present)"⟩,
      ⟨"log-level", .text, "Log level: info, debug or trace (overrides config)"⟩]
  | sweep => [rootFlag]
  | runs => [rootFlag]
  | _ => []

/-- Flags that hold for a command alone. -/
def ownFlags : Command → List Flag
  | trace =>
    [⟨"node-distance", .integer 8, "Grid spacing between neighbouring nodes"⟩,
      ⟨"swaps", .integer 0, "Node couples that swap destinations at each reshuffle"⟩,
      ⟨"shuffle-distance", .integer 10, "Distance destinations drift along x at each reshuffle"⟩,
      ⟨"seed", .integer 0, "PRNG seed (random when unset; the seed used is reported)"⟩,
      ⟨"nodes", .integer Options.standard.nodes, "Node count, must be a perfect square"⟩,
      ⟨"duration", .integer Options.standard.duration, "Experiment duration in ticks"⟩]
  | inspect => [⟨"final", .switch none, "List each node's last sampled position"⟩]
  | sweep =>
    [⟨"workers", .integer 0, "Concurrent repetitions per combination (overrides config)"⟩,
      ⟨"trace-only", .switch none, "Generate traces and configs without running the simulator"⟩,
      ⟨"resume", .switch none, "Skip runs whose output already exists"⟩,
      ⟨"seed", .integer 0, "Base seed for reproducible sweeps (overrides config; random when unset)"⟩]
  | runsList =>
    [⟨"sweep", .text, "Only runs of this sweep"⟩,
      ⟨"status", .text, "Only runs with this status (running, succeeded, failed, skipped)"⟩,
      ⟨"limit", .integer 50, "Maximum number of runs (0 for all)"⟩]
  | runsSweeps => [⟨"limit", .integer 10, "Maximum number of sweeps (0 for all)"⟩]
  | configInit => [⟨"force", .switch none, "Overwrite an existing file"⟩]
  | _ => []

/-- The flag that asks for the help of a command. -/
def helpFlag (c : Command) : Flag := ⟨"help", .switch (some 104), "help for " ++ c.name⟩

/-- The flags a command has from the commands above it. -/
def inheritedFlags (c : Command) : List Flag := c.ancestors.flatMap sharedFlags

/-- All flags of a command but the one for help. -/
def flags (c : Command) : List Flag := c.ownFlags ++ c.sharedFlags ++ c.inheritedFlags

/-- What a command does, in one line. -/
def summary : Command → Bytes
  | program => "FAKE-COW mobility traces and Cooja sweep driver"
  | version => "Print version information"
  | trace => "Generate a single mobility trace"
  | inspect => "Summarize an existing trace"
  | sweep => "Run the parameter sweep"
  | sweepPlan => "List the runs of the sweep without executing them"
  | runs => "Query the run ledger"
  | runsList => "List recorded runs, most recent first"
  | runsSweeps => "List recorded sweeps with run counts"
  | config => "Manage cowtrace configuration"
  | configShow => "Print the effective configuration"
  | configInit => "Write a config file with the default sweep"
  | configValidate => "Check the effective configuration"
  | help => "Help about any command"
  | completion => "Generate the autocompletion script for the specified shell"

/-- What a command does, at length. -/
def explanation : Command → Bytes
  | program => Bytes.joinWith "\n"
    ["cowtrace generates FAKE-COW node mobility traces for the Cooja simulator",
      "and drives simulator runs across a grid of mobility parameters.",
      "",
      "Nodes start on a square grid and walk one unit per tick toward their",
      "destinations. Every shuffle_distance + 4*node_distance ticks all",
      "destinations drift along x and a number of node couples swap them."]
  | trace => Bytes.joinWith "\n"
    ["Generate one FAKE-COW mobility trace and write it to <output>.",
      "Use \"-\" to write the trace to stdout.",
      "",
      "Unset generator options (--nodes, --duration) come from the config file.",
      "",
      "Examples:",
      "  cowtrace trace pos.txt --node-distance 15 --swaps 5 --shuffle-distance 50",
      "  cowtrace trace - --seed 42 | head"]
  | inspect => Bytes.joinWith "\n"
    ["Parse a FAKE-COW trace and report its node count, time span, bounding box",
      "and largest per-sample step. A trace produced by cowtrace is ordered and never",
      "moves a node more than the sample interval along either axis between samples.",
      "",
      "Examples:",
      "  cowtrace inspect positions/pos_8_5_10_0.txt",
      "  cowtrace inspect pos.txt --final --json"]
  | sweep => Bytes.joinWith "\n"
    ["Generate a trace for every (node distance, swap couples, shuffle distance,",
      "repetition) of the configured sweep, render a simulator config for it and",
      "run the simulator. Simulator logs are gzipped into the results directory.",
      "",
      "Repetitions of one combination run on up to --workers workers; the next",
      "combination starts once all of them have finished. The first failure stops",
      "the sweep. Interrupt with Ctrl-C and continue later with --resume.",
      "",
      "Examples:",
      "  cowtrace sweep                         # full sweep in the current directory",
      "  cowtrace sweep --workers 8 --resume    # continue an interrupted sweep",
      "  cowtrace sweep --trace-only --seed 1   # traces and configs only",
      "  cowtrace sweep plan                    # list runs without executing"]
  | runs => Bytes.joinWith "\n"
    ["Query the SQLite ledger that records every sweep and run.",
      "",
      "Examples:",
      "  cowtrace runs list --status failed",
      "  cowtrace runs list --sweep 3f2c... --limit 20",
      "  cowtrace runs sweeps"]
  | config => Bytes.joinWith "\n"
    ["View and create cowtrace configuration.",
      "",
      "Settings are read from --config, or ./cowtrace.yaml when present, and",
      "COWTRACE_* environment variables override the file.",
      "",
      "Examples:",
      "  cowtrace config init                 # write ./cowtrace.yaml with defaults",
      "  cowtrace config show                 # print the effective configuration",
      "  COWTRACE_WORKERS=8 cowtrace config show --json"]
  | help => Bytes.joinWith "\n"
    ["Help provides help for any command in the application.",
      "Simply type cowtrace help [path to command] for full details."]
  | completion => Bytes.joinWith "\n"
    ["Generate the autocompletion script for cowtrace for the specified shell.",
      "See each sub-command's help for details on how to use the generated script."]
  | c => c.summary

/-- The command of a name right below a command. -/
def child? (c : Command) (wanted : Bytes) : Option Command := c.children.find? (·.name = wanted)

end Command

end Cli

end MobilitySweep
