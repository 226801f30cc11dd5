import MobilitySweep.Fault
import MobilitySweep.Number.Binary64
import MobilitySweep.Number.Decimal

/-! # Motion parameters and trace options

The three numbers that a sweep varies: the spacing of the grid, how many pairs trade places at a
reshuffle, and how far the herd drifts. Arithmetic on them is that of 64-bit words.
-/

namespace MobilitySweep

/-- The parameters of a motion. -/
structure Params where
  nodeDistance : Int64
  swapCouples : Int64
  shuffleDistance : Int64
deriving DecidableEq, Repr, Inhabited

namespace Params

/-- Why parameters are refused. -/
inductive Invalid where
  | negativeNodeDistance (value : Int64)
  | negativeSwapCouples (value : Int64)
  | negativeShuffleDistance (value : Int64)
  | periodNotPositive (value : Int64)
deriving DecidableEq, Repr

/-- The wording of a refusal. -/
def Invalid.message : Invalid → Bytes
  | negativeNodeDistance n => "node distance must be non-negative, got " ++ Decimal.ofInt64 n
  | negativeSwapCouples n => "swap couples must be non-negative, got " ++ Decimal.ofInt64 n
  | negativeShuffleDistance n => "shuffle distance must be non-negative, got " ++ Decimal.ofInt64 n
  | periodNotPositive n =>
    "reshuffle period (shuffle distance + 4*node distance) must be positive, got " ++ Decimal.ofInt64 n

/-- The refusal as a fault. -/
def Invalid.fault (cause : Invalid) : Fault :=
  ⟨.invalidParams, "invalid mobility parameters: " ++ cause.message⟩

/-- The number of ticks between two reshuffles. -/
def period (p : Params) : Int64 := p.shuffleDistance + 4 * p.nodeDistance

/-- The length of a trace for an experiment of a given duration: one more period. -/
def totalTicks (p : Params) (duration : Int64) : Int64 := duration + p.period

/-- Parameters must be non-negative and their period positive; the first violation is reported. -/
def validate (p : Params) : Except Invalid Unit :=
  if p.nodeDistance < 0 then .error (.negativeNodeDistance p.nodeDistance)
  else if p.swapCouples < 0 then .error (.negativeSwapCouples p.swapCouples)
  else if p.shuffleDistance < 0 then .error (.negativeShuffleDistance p.shuffleDistance)
  else if p.period ≤ 0 then .error (.periodNotPositive p.period)
  else .ok ()

/-- The parameters as they stand in run identifiers. -/
def toText (p : Params) : Bytes :=
  Decimal.ofInt64 p.nodeDistance ++ "_" ++ Decimal.ofInt64 p.swapCouples ++ "_" ++
    Decimal.ofInt64 p.shuffleDistance

end Params

/-! ## Trace options

Everything about a trace that a sweep does not vary: the number of nodes, which must fill a square
grid, the length of the experiment, and the sampling interval.
-/

/-- The options of a trace. -/
structure Options where
  nodes : Int64
  duration : Int64
  sampleInterval : Int64
  seed : Int64
deriving DecidableEq, Repr, Inhabited

namespace Options

/-- A grid of five by five, sampled every ten ticks for an hour. -/
def standard : Options := ⟨25, 3600, 10, 0⟩

/-- Why options are refused. -/
inductive Invalid where
  | nodesNotPositive (value : Int64)
  | nodesNotSquare (value : Int64)
  | negativeDuration (value : Int64)
  | intervalNotPositive (value : Int64)
deriving DecidableEq, Repr

/-- The wording of a refusal. -/
def Invalid.message : Invalid → Bytes
  | nodesNotPositive n => "node count must be positive, got " ++ Decimal.ofInt64 n
  | nodesNotSquare n => "node count must be a perfect square, got " ++ Decimal.ofInt64 n
  | negativeDuration n => "duration must be non-negative, got " ++ Decimal.ofInt64 n
  | intervalNotPositive n => "sample interval must be positive, got " ++ Decimal.ofInt64 n

/-- The refusal as a fault. -/
def Invalid.fault (cause : Invalid) : Fault :=
  ⟨.invalidParams, "invalid mobility parameters: " ++ cause.message⟩

/-- The side of the grid that a number of nodes fills, by way of the double precision square root. -/
def gridSide (nodes : Int64) : Int64 := Int64.ofNat (Root.ofRounded nodes.toInt.toNat)

/-- Options must describe a square grid and a clock that advances; the first violation is reported. -/
def validate (o : Options) : Except Invalid Unit :=
  if o.nodes ≤ 0 then .error (.nodesNotPositive o.nodes)
  else if gridSide o.nodes * gridSide o.nodes ≠ o.nodes then .error (.nodesNotSquare o.nodes)
  else if o.duration < 0 then .error (.negativeDuration o.duration)
  else if o.sampleInterval ≤ 0 then .error (.intervalNotPositive o.sampleInterval)
  else .ok ()

end Options

end MobilitySweep
