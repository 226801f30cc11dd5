import MobilitySweep.Cli.Session
import MobilitySweep.Mobility.Summary
import MobilitySweep.Mobility.Trace
import MobilitySweep.Sweep.Publishing

/-! # Commands on traces

A single trace generated into a file or printed, and an existing trace summarised.
-/

namespace MobilitySweep

namespace Cli

/-- The output name that stands for printing. -/
def printedOutput : Bytes := "-"

/-- A trace printed; the account of it goes to the messages. -/
def printTrace (p : Params) (o : Options) : Outcome :=
  match Generator.create p o (Pcg.ofSeed o.seed) with
  | .error reason => .failed reason.fault
  | .ok g =>
    let (sink, g, _) := g.run .unlimited
    { output := sink.toBytes
      messages := [Decimal.ofInt64 g.stats.samples ++ " samples, " ++ Decimal.ofInt64 g.stats.reshuffles ++
        " reshuffles (seed " ++ Decimal.ofInt64 o.seed ++ ")"]
      fault := none }

/-- The account of a trace that was written. -/
def traceAccount (exchange : Bool) (path : Bytes) (p : Params) (seed : Int64) (stats : Stats) : Outcome :=
  if exchange then
    .exchanged (.object [("params", .text p.toText), ("path", .text path), ("period", .ofInt64 p.period),
      ("reshuffles", .ofInt64 stats.reshuffles), ("samples", .ofInt64 stats.samples), ("seed", .ofInt64 seed),
      ("ticks", .ofInt64 stats.ticks)])
  else
    .printed ("Wrote " ++ path ++ ": " ++ Decimal.ofInt64 stats.ticks ++ " ticks, " ++
      Decimal.ofInt64 stats.samples ++ " samples, " ++ Decimal.ofInt64 stats.reshuffles ++ " reshuffles (period " ++
      Decimal.ofInt64 p.period ++ ", seed " ++ Decimal.ofInt64 seed ++ ")\n")

/-- A trace generated. -/
def trace (s : Surroundings) (a : Arguments) (files : Files) : Outcome × Files :=
  match loadConfig s a files with
  | .error fault => (.failed fault, files)
  | .ok config =>
    let seed := (a.integer? "seed").getD s.seed
    let p : Params := ⟨Command.trace.integer a "node-distance", Command.trace.integer a "swaps",
      Command.trace.integer a "shuffle-distance"⟩
    let configured := config.options seed
    let o := { configured with
      nodes := (a.integer? "nodes").getD configured.nodes
      duration := (a.integer? "duration").getD configured.duration }
    let output := a.rest.headD []
    if output = printedOutput then (printTrace p o, files)
    else
      match (Trace.produce output p o (Pcg.ofSeed seed)).run files with
      | ((_, some fault), files) => (.failed (fault.within "failed to produce trace"), files)
      | ((stats, none), files) => (traceAccount a.exchange output p seed stats, files)

/-- The samples of a trace file. -/
def samplesAt (files : Files) (path : Bytes) : Except Fault (List Sample) :=
  match files.openFile path with
  | .error fault => .error (fault.within "failed to open trace")
  | .ok entry =>
    let context : Bytes := "failed to read trace " ++ path
    match Files.readOpened path entry with
    | .error fault => .error ((fault.within "reading trace").within context)
    | .ok content =>
      match Trace.read content.toBytes with
      | .error reason => .error ((Fault.plain reason.message).within context)
      | .ok samples => .ok samples

/-- A trace summarised. -/
def inspect (a : Arguments) (files : Files) : Outcome :=
  let path := a.rest.headD []
  match samplesAt files path with
  | .error fault => .failed fault
  | .ok samples =>
    let positions := a.isOn "final"
    let summary := Summary.ofSamples samples
    let summary := if positions then summary else { summary with final := [] }
    if a.exchange then
      match summary.toJson with
      | .error reason => .failed reason.fault
      | .ok value => .exchanged value
    else .printed (summary.table path positions)

end Cli

end MobilitySweep
