import MobilitySweep.Text.Bytes

/-! # Simulator command lines

The arguments of a simulator mention the files of a run by tokens. All tokens of an argument are
replaced at once, so that a path which looks like a token is never replaced again.
-/

namespace MobilitySweep

namespace CommandLine

/-- The token for the path of the configuration. -/
def configToken : Bytes := "\x7bconfig\x7d"

/-- The token for the path of the log. -/
def logToken : Bytes := "\x7blog\x7d"

/-- The arguments for given paths. -/
def expand (args : List Bytes) (config log : Bytes) : List Bytes :=
  args.map (Bytes.replaceEach [(configToken, config), (logToken, log)])

/-- The command as shown to people. -/
def display (command : Bytes) (args : List Bytes) (config log : Bytes) : Bytes :=
  Bytes.joinWith " " (command :: expand args config log)

end CommandLine

end MobilitySweep
