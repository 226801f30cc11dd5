import MobilitySweep.Files.Path
import MobilitySweep.Mobility.Params

/-! # Runs and where their files go

A combination is a point of the parameter grid, a run one repetition of it. The identifier of a run
names all its files, and the layout says in which directories they live.
-/

namespace MobilitySweep

/-- One repetition of a combination of parameters. -/
structure Run where
  params : Params
  repetition : Int64
deriving DecidableEq, Repr, Inhabited

namespace Run

/-- The identifier of a run. -/
def id (r : Run) : Bytes := r.params.toText ++ "_" ++ Decimal.ofInt64 r.repetition

/-- The name of the trace, which the simulator configuration mentions. -/
def traceName (r : Run) : Bytes := "pos_" ++ r.id ++ ".txt"

/-- The name of the simulator configuration. -/
def configName (r : Run) : Bytes := "sim_" ++ r.id ++ ".csc"

/-- The name of the simulator log before it is archived. -/
def logName (r : Run) : Bytes := "log" ++ r.id ++ ".txt"

end Run

/-- The directories of a sweep; all but the first are relative to it. -/
structure Layout where
  root : Bytes
  positions : Bytes
  configs : Bytes
  results : Bytes
deriving DecidableEq, Repr, Inhabited

namespace Layout

/-- A path below the root. -/
def path (l : Layout) (relative : Bytes) : Bytes := Path.join [l.root, relative]

/-- Where the trace of a run is written. -/
def tracePath (l : Layout) (r : Run) : Bytes := l.path (Path.join [l.positions, r.traceName])

/-- The simulator configuration of a run, relative to the root. -/
def configRelative (l : Layout) (r : Run) : Bytes := Path.join [l.configs, r.configName]

/-- The simulator log of a run, relative to the root. -/
def logRelative (l : Layout) (r : Run) : Bytes := Path.join [l.results, r.logName]

/-- The directories that hold files of runs. -/
def directories (l : Layout) : List Bytes := [l.path l.positions, l.path l.configs, l.path l.results]

end Layout

end MobilitySweep
