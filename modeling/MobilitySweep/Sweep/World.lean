import MobilitySweep.Fault
import MobilitySweep.Files.Tree
import MobilitySweep.Ledger.Basic
import MobilitySweep.Log.Event
import MobilitySweep.Log.Line
import MobilitySweep.Steps

/-! # The world of a sweep

What a run acts on and reports to, and the whole that all runs share.
-/

namespace MobilitySweep

/-! ## The bench

What the runs of a sweep share with their simulator: the files, whether the sweep was interrupted, the
first failure among the runs under way together, and which simulations were asked for.
-/

/-- The state that simulators act on. The calls are kept latest first. -/
structure Bench where
  files : Files
  interrupted : Bool
  failure : Option Fault
  calls : List (Bytes × Bytes)
deriving DecidableEq, Repr, Inhabited

namespace Bench

/-- A bench with nothing under way. -/
def ofFiles (files : Files) : Bench := ⟨files, false, none, []⟩

/-- Whether runs should stop: the sweep was interrupted, or a run beside them failed. -/
def cancelled (b : Bench) : Bool := b.interrupted || b.failure.isSome

/-- The outcome of a run noted; only the first failure is kept. -/
def noteFailure (outcome : Option Fault) (b : Bench) : Bench :=
  { b with failure := b.failure.or outcome }

end Bench

/-- A simulator: given the paths of a configuration and of a log, it acts on the bench and may fail. -/
def Simulator := (config log : Bytes) → Steps Bench (Option Fault)

namespace Steps

/-- A program on files run on a bench. -/
def onFiles {α : Type} (program : Steps Files α) : Steps Bench α :=
  program.onPart (·.files) fun bench files => { bench with files := files }

end Steps

/-! ## The world of a sweep

All that a sweep acts on: the bench with its files, the keeper of records, the event log, the
operational log, the clock, and the tally of finished runs.
-/

/-- How many runs have ended in each way, in words of 64 bits. -/
structure Tally where
  succeeded : Int64
  skipped : Int64
  failed : Int64
deriving DecidableEq, Repr, Inhabited

/-- The state of a sweep. The log is kept latest first, each record with its time. -/
structure World (κ : Type) where
  bench : Bench
  keeper : κ
  events : Option EventLog
  log : List (Instant × Log.Record)
  clock : Clock
  tally : Tally

namespace World

variable {κ α : Type}

/-- A world at the start of a sweep. -/
def start (files : Files) (keeper : κ) (events : Option EventLog) (clock : Clock) : World κ :=
  ⟨.ofFiles files, keeper, events, [], clock, ⟨0, 0, 0⟩⟩

/-- A program on the bench. -/
def onBench (program : Steps Bench α) : Steps (World κ) α :=
  program.onPart (·.bench) fun world bench => { world with bench := bench }

/-- A program on the files. -/
def onFiles (program : Steps Files α) : Steps (World κ) α := onBench program.onFiles

/-- A reading of the clock. -/
def now : Steps (World κ) Instant :=
  .act fun world =>
    let (time, clock) := world.clock.read
    (time, { world with clock := clock })

/-- A record for the operational log. It bears the time of the clock without advancing it. -/
def note (logger : Log.Logger) (level : Log.Level) (message : Bytes) (attributes : List (Bytes × Log.Value)) :
    Steps (World κ) Unit :=
  .change fun world =>
    match logger.record? level message attributes with
    | some record => { world with log := (world.clock.next, record) :: world.log }
    | none => world

/-- The world once its event log, if there is one, was told an event. The line is among the files at once. -/
def told (kind runId : Bytes) (fields : List (Bytes × Json)) (world : World κ) : World κ :=
  match world.events with
  | some events =>
    let (files, events) := events.log kind runId fields world.bench.files
    { world with bench := { world.bench with files := files }, events := some events }
  | none => world

/-- An event for the event log. -/
def event (kind runId : Bytes) (fields : List (Bytes × Json)) : Steps (World κ) Unit :=
  .change (told kind runId fields)

/-- A record for the keeper. Records are bookkeeping: one that is refused is only reported. -/
def record [Recorder κ] (logger : Log.Logger) (write : Ledger.Write) : Steps (World κ) Unit := do
  let refusal ← Steps.act fun (world : World κ) =>
    let (keeper, fault) := Recorder.record world.keeper write
    (fault, { world with keeper := keeper })
  match refusal with
  | some fault => note logger Log.Level.warn "ledger write failed" [("error", .text fault.message)]
  | none => return ()

/-- One more finished run. -/
def count (f : Tally → Tally) : Steps (World κ) Unit :=
  .change fun world => { world with tally := f world.tally }

/-- The outcome of a run noted on the bench. -/
def noteFailure (outcome : Option Fault) (world : World κ) : World κ :=
  { world with bench := world.bench.noteFailure outcome }

end World

end MobilitySweep
