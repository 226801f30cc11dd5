import MobilitySweep.Mobility.Params
import MobilitySweep.Sweep.Layout
import MobilitySweep.Time.Duration

/-! # Configuration

All settings of a sweep and their defaults. A list setting can be unset, which readers treat as empty.
-/

namespace MobilitySweep

/-- The swept axes and how runs are scheduled. -/
structure SweepSettings where
  nodeDistances : Option (List Int64)
  swapCouples : Option (List Int64)
  shuffleDistances : Option (List Int64)
  repetitions : Int64
  workers : Int64
  seed : Option Int64
  resume : Bool
deriving DecidableEq, Repr, Inhabited

/-- The trace settings that are not swept. -/
structure GeneratorSettings where
  nodes : Int64
  duration : Int64
  sampleInterval : Int64
deriving DecidableEq, Repr, Inhabited

/-- The external simulator. -/
structure SimulatorSettings where
  enabled : Bool
  template : Bytes
  placeholder : Bytes
  command : Bytes
  args : Option (List Bytes)
  timeout : Duration
  compress : Bool
deriving DecidableEq, Repr, Inhabited

/-- The configuration of a sweep. -/
structure Config where
  sweep : SweepSettings
  generator : GeneratorSettings
  layout : Layout
  simulator : SimulatorSettings
  ledgerPath : Bytes
  logLevel : Bytes
deriving DecidableEq, Repr, Inhabited

namespace Config

/-- The file looked up in the working directory when none is named. -/
def defaultFile : Bytes := "cowtrace.yaml"

/-- The full sweep: 27 combinations with 64 repetitions each. -/
def standard : Config where
  sweep := ⟨some [8, 15, 30], some [0, 5, 10], some [10, 50, 100], 64, 1, none, false⟩
  generator := ⟨25, 3600, 10⟩
  layout := ⟨".", "positions", "csc", "results"⟩
  simulator :=
    ⟨true, "sim.csc.template", "xxPOSITION_FILExx", "java",
      some ["-Xmx256m", "-Doutputfile=\x7blog\x7d", "-jar", "../../../tools/cooja/dist/cooja.jar",
        "-nogui=\x7bconfig\x7d"],
      ⟨0⟩, true⟩
  ledgerPath := "results/runs.db"
  logLevel := "info"

/-- The trace options of a run with a given seed. -/
def options (c : Config) (seed : Int64) : Options :=
  ⟨c.generator.nodes, c.generator.duration, c.generator.sampleInterval, seed⟩

end Config

end MobilitySweep
