import MobilitySweep.Config.Basic
import MobilitySweep.Config.Validate
import MobilitySweep.Digest.Checksums
import MobilitySweep.Log.Line
import MobilitySweep.Number.Decimal
import MobilitySweep.Sweep.World

/-! # Plans and setups

The runs of a sweep with their seeds, and the sweep made ready from a configuration.
-/

namespace MobilitySweep

/-! ## The plan of a sweep

The runs of a sweep are the product of its axes and repetitions, in a fixed order: node distances vary
slowest, then swap couples, then shuffle distances, then repetitions.
-/

namespace Plan

/-- The combinations of a sweep in order. -/
def combinations (s : SweepSettings) : List Params :=
  (s.nodeDistances.getD []).flatMap fun distance =>
    (s.swapCouples.getD []).flatMap fun couples =>
      (s.shuffleDistances.getD []).map fun shuffle => ⟨distance, couples, shuffle⟩

/-- The repetitions of a combination. -/
def repetitions (p : Params) (count : Int64) : List Run :=
  (List.range count.toInt.toNat).map fun r => ⟨p, Int64.ofNat r⟩

/-- The runs of combinations in order. -/
def runs (combinations : List Params) (count : Int64) : List Run :=
  combinations.flatMap fun p => repetitions p count

end Plan

/-! ## Run seeds

Every run of a sweep has a seed of its own, derived from the base seed of the sweep and the identifier
of the run and from nothing else, so that scheduling cannot influence it.
-/

namespace Seed

/-- The seed of a run. -/
def derive (base : Int64) (id : Bytes) : Int64 :=
  (XxHash.hash (Decimal.ofInt64 base ++ "/" ++ id)).toInt64

end Seed

/-! ## Setting up a sweep

A sweep is set up from a valid configuration. Its base seed is the configured one, or one that was
drawn for it.
-/

/-- What a sweep is made of. -/
structure Setup where
  config : Config
  simulator : Option Simulator
  logger : Log.Logger
  sweepId : Bytes
  base : Int64

namespace Setup

/-- Why no sweep can be set up. -/
inductive Invalid where
  | noConfig
  | config (cause : Config.Invalid)
deriving DecidableEq, Repr

/-- The refusal as a fault. -/
def Invalid.fault : Invalid → Fault
  | noConfig => .plain "sweep: config is nil"
  | config cause => cause.fault

/-- A sweep for a configuration, with the seed that is used if none is configured. -/
def create (config : Option Config) (simulator : Option Simulator) (logger : Log.Logger) (sweepId : Bytes)
    (drawn : Int64) : Except Invalid Setup :=
  match config with
  | none => .error .noConfig
  | some c =>
    match c.validate with
    | .error cause => .error (.config cause)
    | .ok () => .ok ⟨c, simulator, logger, sweepId, c.sweep.seed.getD drawn⟩

/-- The runs of a sweep in order. -/
def runs (s : Setup) : List Run :=
  Plan.runs (Plan.combinations s.config.sweep) s.config.sweep.repetitions

end Setup

end MobilitySweep
