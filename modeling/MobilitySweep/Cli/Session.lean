import MobilitySweep.Cli.Command
import MobilitySweep.Config.File
import MobilitySweep.Text.Json
import MobilitySweep.Time.Instant

/-! # Sessions

A command runs on a tree of files in given surroundings: the environment, a clock, and what chance
supplies. It leaves an outcome: what it prints, what it reports on the way, and the fault it ends with.
-/

namespace MobilitySweep

namespace Cli

/-- What a command finds around it. Chance supplies an identity for a new sweep, a seed, and the order
in which the steps of concurrent runs are taken. -/
structure Surroundings where
  environment : Environment
  clock : Clock
  identity : Bytes
  seed : Int64
  schedules : List (List Nat)

/-- What a command leaves: the printed text, the reported lines, and the fault. -/
structure Outcome where
  output : Bytes
  messages : List Bytes
  fault : Option Fault
deriving DecidableEq, Repr, Inhabited

namespace Outcome

/-- A text printed. -/
def printed (text : Bytes) : Outcome := ⟨text, [], none⟩

/-- A value printed in exchange form. -/
def exchanged (value : Json) : Outcome := printed (value.render ++ "\n")

/-- Nothing but a fault. -/
def failed (fault : Fault) : Outcome := ⟨[], [], some fault⟩

end Outcome

/-- The integer a command takes for a flag: the one that is set, or the standard one. -/
def Command.integer (c : Command) (a : Arguments) (name : Bytes) : Int64 :=
  match a.integer? name, (Flag.named? c.flags name).map Flag.kind with
  | some value, _ => value
  | none, some (FlagKind.integer standard) => standard
  | none, _ => 0

/-- The configuration of a session. A level given by flag replaces the configured one. -/
def loadConfig (s : Surroundings) (a : Arguments) (files : Files) : Except Fault Config :=
  match Config.load files s.environment ((a.text? "config").getD []) with
  | .error fault => .error (fault.within "failed to load config")
  | .ok c =>
    match (a.text? "log-level").getD [] with
    | [] => .ok c
    | level => .ok { c with logLevel := level }

/-- Whether exchange form is asked for. -/
def Arguments.exchange (a : Arguments) : Bool := a.isOn "json"

end Cli

end MobilitySweep
