import MobilitySweep.Mobility.Trace
import MobilitySweep.Number.Shortest
import MobilitySweep.Text.Json

/-! # Summaries

What a trace contains at a glance: how many nodes and samples, the time span, the bounding box, the
largest move between two samples of one node, whether the samples are in order, and where every node
was seen last.
-/

namespace MobilitySweep

/-- The digest of a list of samples. -/
structure Summary where
  nodes : Nat
  samples : Nat
  sampledTicks : Nat
  firstTime : Binary64
  lastTime : Binary64
  minX : Binary64
  maxX : Binary64
  minY : Binary64
  maxY : Binary64
  maxStep : Binary64
  ordered : Bool
  final : List Sample
deriving DecidableEq, Repr, Inhabited

namespace Summary

/-- The last samples by node, kept in ascending order of nodes. -/
def record (sample : Sample) : List Sample → List Sample
  | [] => [sample]
  | other :: rest =>
    if sample.node < other.node then sample :: other :: rest
    else if sample.node = other.node then sample :: rest
    else other :: record sample rest

/-- The larger of the moves along the two axes. -/
def stepBetween (earlier later : Sample) : Binary64 :=
  Binary64.max (later.x.sub earlier.x).abs (later.y.sub earlier.y).abs

/-- Whether a sample may follow another: time does not go back, and within one time the node index
grows. -/
def follows (earlier later : Sample) : Bool :=
  !(later.time.less earlier.time || (later.time.equals earlier.time && later.node ≤ earlier.node))

/-- The summary of no samples. -/
def empty : Summary :=
  ⟨0, 0, 0, .zero, .zero, .zero, .zero, .zero, .zero, .zero, true, []⟩

/-- The summary before the first sample is counted: the box starts at that sample. -/
def start (first : Sample) : Summary :=
  -- The last time starts at zero all the same.
  { empty with firstTime := first.time, minX := first.x, maxX := first.x, minY := first.y, maxY := first.y }

/-- One more sample counted, after a given previous one. -/
def count (previous : Option Sample) (s : Summary) (sample : Sample) : Summary :=
  let newTick := match previous with
    | none => true
    | some p => !sample.time.equals p.time
  let inOrder := match previous with
    | none => true
    | some p => follows p sample
  let maxStep := match s.final.find? (·.node = sample.node) with
    | none => s.maxStep
    | some seen => Binary64.max s.maxStep (stepBetween seen sample)
  { s with
    samples := s.samples + 1
    sampledTicks := if newTick then s.sampledTicks + 1 else s.sampledTicks
    ordered := s.ordered && inOrder
    maxStep := maxStep
    final := record sample s.final
    lastTime := Binary64.max s.lastTime sample.time
    minX := Binary64.min s.minX sample.x
    maxX := Binary64.max s.maxX sample.x
    minY := Binary64.min s.minY sample.y
    maxY := Binary64.max s.maxY sample.y }

/-- The rest of the samples counted, after a given previous one. -/
def countAll : Option Sample → Summary → List Sample → Summary
  | _, s, [] => { s with nodes := s.final.length }
  | previous, s, sample :: rest => countAll (some sample) (count previous s sample) rest

/-- The summary of samples in the order in which they were recorded. -/
def ofSamples : List Sample → Summary
  | [] => empty
  | first :: rest => countAll none (start first) (first :: rest)

end Summary

/-! ## Reports of summaries

A summary is reported as a table for people or in exchange form. The exchange form has no way to write
a number that is not finite.
-/

/-- A number that the exchange form cannot write. -/
inductive Unwritable where
  | value (number : Binary64)
deriving DecidableEq, Repr

/-- The report of such a number. -/
def Unwritable.fault : Unwritable → Fault
  | value number => .plain ("json: unsupported value: " ++ Fixed.render 0 number)

namespace Json

/-- A number in exchange form. -/
def ofBinary64 : Binary64 → Except Unwritable Json
  | .finite negative units => .ok (.number (Shortest.render negative units))
  | other => .error (.value other)

end Json

/-- A sample in exchange form. -/
def Sample.toJson (s : Sample) : Except Unwritable Json := do
  let time ← Json.ofBinary64 s.time
  let x ← Json.ofBinary64 s.x
  let y ← Json.ofBinary64 s.y
  return .object [("node", .ofInt64 s.node), ("time", time), ("x", x), ("y", y)]

namespace Summary

/-- A summary in exchange form; last positions are left out if there are none. -/
def toJson (s : Summary) : Except Unwritable Json := do
  let firstTime ← Json.ofBinary64 s.firstTime
  let lastTime ← Json.ofBinary64 s.lastTime
  let minX ← Json.ofBinary64 s.minX
  let maxX ← Json.ofBinary64 s.maxX
  let minY ← Json.ofBinary64 s.minY
  let maxY ← Json.ofBinary64 s.maxY
  let maxStep ← Json.ofBinary64 s.maxStep
  let final ← s.final.mapM Sample.toJson
  let positions := if final.isEmpty then [] else [(("final" : Bytes), Json.list final)]
  return .object ([(("nodes" : Bytes), Json.ofNat s.nodes), ("samples", .ofNat s.samples),
    ("sampled_ticks", .ofNat s.sampledTicks), ("first_time", firstTime), ("last_time", lastTime),
    ("min_x", minX), ("max_x", maxX), ("min_y", minY), ("max_y", maxY), ("max_step", maxStep),
    ("ordered", .bool s.ordered)] ++ positions)

/-- The row of a last position. -/
def positionRow (s : Sample) : Bytes :=
  "  " ++ Bytes.padLeft 3 (Decimal.ofInt64 s.node) ++ "  " ++ Bytes.padLeft 10 (Fixed.render 2 s.x) ++ " " ++
    Bytes.padLeft 10 (Fixed.render 2 s.y) ++ "\n"

/-- A summary as a table, with or without the last positions. -/
def table (path : Bytes) (positions : Bool) (s : Summary) : Bytes :=
  "Trace: " ++ path ++ "\n  nodes:         " ++ Decimal.ofNat s.nodes ++ "\n  samples:       " ++
    Decimal.ofNat s.samples ++ "\n  sampled ticks: " ++ Decimal.ofNat s.sampledTicks ++ " (t=" ++
    Fixed.render 0 s.firstTime ++ ".." ++ Fixed.render 0 s.lastTime ++ ")\n  x range:       " ++
    Fixed.render 2 s.minX ++ " .. " ++ Fixed.render 2 s.maxX ++ "\n  y range:       " ++
    Fixed.render 2 s.minY ++ " .. " ++ Fixed.render 2 s.maxY ++ "\n  max step:      " ++
    Fixed.render 2 s.maxStep ++ "\n  ordered:       " ++ (if s.ordered then "true" else "false" : Bytes) ++ "\n" ++
    if positions then "Final positions:\n" ++ s.final.flatMap positionRow else []

end Summary

end MobilitySweep
