import MobilitySweep.Cli.Session
import MobilitySweep.Ledger.File
import MobilitySweep.Ledger.Query
import MobilitySweep.Sweep.Execution
import MobilitySweep.Sweep.Simulator

/-! # Commands on sweeps

The configured sweep carried out or its runs planned, and what the ledger has recorded of sweeps and runs.
-/

namespace MobilitySweep

namespace Cli

/-- The configuration of a sweep with the flags laid over it. -/
def sweepConfig (s : Surroundings) (a : Arguments) (files : Files) : Except Fault Config := do
  let c ← loadConfig s a files
  return { c with
    layout := { c.layout with root := (a.text? "root").getD c.layout.root }
    sweep := { c.sweep with
      workers := (a.integer? "workers").getD c.sweep.workers
      resume := if (a.value? "resume").isSome then a.isOn "resume" else c.sweep.resume
      seed := a.integer? "seed" <|> c.sweep.seed }
    simulator := { c.simulator with enabled := c.simulator.enabled && !a.isOn "trace-only" } }

/-- Where the ledger of a configuration is, if there is one. -/
def ledgerPath? (c : Config) : Option Bytes :=
  match c.ledgerPath with
  | [] => none
  | path => some (if Path.isAbsolute path then path else c.layout.path path)

/-- The ledger of a configuration opened under a path. -/
def openLedger (s : Surroundings) (path : Bytes) (files : Files) : Files × Except Fault Ledger :=
  match Ledger.openFile files path s.clock with
  | (files, .error reason) => (files, .error (reason.fault.within "failed to open run ledger"))
  | (files, .ok ledger) => (files, .ok ledger)

/-- The keeper of records for a sweep. -/
def openKeeper (s : Surroundings) (c : Config) (files : Files) : Files × Except Fault (Option Ledger) :=
  match ledgerPath? c with
  | none => (files, .ok none)
  | some path =>
    let (files, opened) := openLedger s path files
    (files, opened.map some)

/-- The account of a sweep. -/
def sweepAccount (exchange : Bool) (r : Sweep.Report) : Bytes :=
  if exchange then
    (Json.object [("base_seed", .ofInt64 r.baseSeed), ("elapsed_ms", .ofInt r.elapsed.milliseconds),
      ("failed", .ofInt64 r.failed), ("skipped", .ofInt64 r.skipped), ("succeeded", .ofInt64 r.succeeded),
      ("sweep_id", .text r.sweepId), ("total", .ofInt64 r.total)]).render ++ "\n"
  else
    "Sweep " ++ r.sweepId ++ " (seed " ++ Decimal.ofInt64 r.baseSeed ++ "): " ++ Decimal.ofInt64 r.succeeded ++ "/" ++
      Decimal.ofInt64 r.total ++ " succeeded, " ++ Decimal.ofInt64 r.skipped ++ " skipped, " ++
      Decimal.ofInt64 r.failed ++ " failed in " ++ r.elapsed.toMillisecond.toText ++ "\n"

/-- A sweep set up and carried out with a keeper of records. -/
def carryOut (s : Surroundings) (a : Arguments) (c : Config) (keeper : Option Ledger) (files : Files) :
    Outcome × Files :=
  let simulator := if c.simulator.enabled then some (SimulatorCommand.ofConfig c s.environment).simulator else none
  let (files, events) := EventLog.create files (c.layout.path c.layout.results) c.logLevel s.identity s.clock
  match Setup.create (some c) simulator (.ofName c.logLevel) s.identity s.seed with
  | .error reason => (.failed reason.fault, files)
  | .ok setup =>
    let ((report, fault), world) := (Sweep.run setup s.schedules).run (World.start files keeper events s.clock)
    let files := match world.keeper with
      | some ledger => ledger.save world.bench.files
      | none => world.bench.files
    ({ output := sweepAccount a.exchange report
       messages := world.log.reverse.map fun (time, record) => record.stamped time
       fault := fault.map (·.within ("sweep " ++ report.sweepId)) }, files)

/-- The configured sweep carried out. -/
def sweep (s : Surroundings) (a : Arguments) (files : Files) : Outcome × Files :=
  match sweepConfig s a files with
  | .error fault => (.failed fault, files)
  | .ok c =>
    match c.validate with
    | .error cause => (.failed cause.fault, files)
    | .ok () =>
      match openKeeper s c files with
      | (files, .error fault) => (.failed fault, files)
      | (files, .ok keeper) => carryOut s a c keeper files

/-- A run of a plan in exchange form. -/
def planEntry (s : Setup) (r : Run) : Json :=
  let layout := s.config.layout
  .object [("id", .text r.id), ("node_distance", .ofInt64 r.params.nodeDistance),
    ("swap_couples", .ofInt64 r.params.swapCouples), ("shuffle_distance", .ofInt64 r.params.shuffleDistance),
    ("repetition", .ofInt64 r.repetition), ("period", .ofInt64 r.params.period),
    ("seed", .ofInt64 (Seed.derive s.base r.id)), ("trace", .text (layout.tracePath r)),
    ("config", .text (layout.configRelative r)), ("log", .text (layout.logRelative r))]

/-- A row of the table of runs. -/
def planRow (id distance couples drift repetition period : Bytes) : Bytes :=
  Bytes.padRight 16 id ++ " " ++ Bytes.padLeft 6 distance ++ " " ++ Bytes.padLeft 6 couples ++ " " ++
    Bytes.padLeft 6 drift ++ " " ++ Bytes.padLeft 4 repetition ++ " " ++ Bytes.padLeft 7 period ++ "\n"

/-- A plan as a table. -/
def planTable (s : Setup) : Bytes :=
  let settings := s.config.sweep
  let row (r : Run) : Bytes :=
    planRow r.id (Decimal.ofInt64 r.params.nodeDistance) (Decimal.ofInt64 r.params.swapCouples)
      (Decimal.ofInt64 r.params.shuffleDistance) (Decimal.ofInt64 r.repetition) (Decimal.ofInt64 r.params.period)
  let unpinned : Bytes := if settings.seed.isSome then []
    else "No seed configured: the base above is random; pass --seed to pin it.\n"
  Decimal.ofInt64 (Int64.ofNat s.runs.length / settings.repetitions) ++ " combinations x " ++ Decimal.ofInt64 settings.repetitions ++
    " repetitions = " ++ Decimal.ofNat s.runs.length ++ " runs (workers: " ++ Decimal.ofInt64 settings.workers ++
    ", seed: " ++ Decimal.ofInt64 s.base ++ ")\n" ++ unpinned ++ "\n" ++
    planRow "ID" "ND" "NS" "DS" "REP" "PERIOD" ++ s.runs.flatMap row

/-- The runs of the configured sweep listed. -/
def sweepPlan (s : Surroundings) (a : Arguments) (files : Files) : Outcome :=
  match sweepConfig s a files with
  | .error fault => .failed fault
  | .ok c =>
    match Setup.create (some c) none (.ofName []) s.identity s.seed with
    | .error reason => .failed reason.fault
    | .ok setup =>
      if a.exchange then .exchanged (.list (setup.runs.map (planEntry setup)))
      else .printed (planTable setup)

/-! ## Commands on the ledger

Recorded runs and sweeps are listed most recent first.
-/

/-- The configured ledger opened. None is created. -/
def openExisting (s : Surroundings) (a : Arguments) (files : Files) : Files × Except Fault Ledger :=
  match loadConfig s a files with
  | .error fault => (files, .error fault)
  | .ok c =>
    let c := { c with layout := { c.layout with root := (a.text? "root").getD c.layout.root } }
    match ledgerPath? c with
    | none => (files, .error (.plain "run ledger is disabled (ledger.path is empty)"))
    | some path =>
      match files.stat path with
      | .error .missing => (files, .error (.plain ("no run ledger at " ++ path ++ "; run a sweep first")))
      | .error cause => (files, .error ((cause.fault "stat" [path]).within "failed to stat run ledger"))
      | .ok _ => openLedger s path files

/-- The first letters of an identity. -/
def shortIdentity (id : Bytes) : Bytes := id.take 8

/-- How long a run took. -/
def durationText (r : RunRecord) : Bytes :=
  if r.finishedAt.isZero then "-" else (r.finishedAt.since r.startedAt).toMillisecond.toText

/-- A row of the table of runs. -/
def runRow (run status sweep started duration : Bytes) : Bytes :=
  Bytes.padRight 16 run ++ " " ++ Bytes.padRight 10 status ++ " " ++ Bytes.padRight 8 sweep ++ " " ++
    Bytes.padRight 20 started ++ " " ++ duration ++ "\n"

/-- Runs as a table; a run that failed has its fault below it. -/
def runTable (runs : List RunRecord) : Bytes :=
  let below (r : RunRecord) : Bytes := if r.error.isEmpty then [] else "    error: " ++ r.error ++ "\n"
  let rows (r : RunRecord) : Bytes :=
    runRow r.runId r.status (shortIdentity r.sweepId) r.startedAt.display (durationText r) ++ below r
  if runs.isEmpty then "No runs recorded.\n"
  else runRow "RUN" "STATUS" "SWEEP" "STARTED" "DURATION" ++ runs.flatMap rows

/-- The recorded runs listed. -/
def runsList (s : Surroundings) (a : Arguments) (files : Files) : Outcome × Files :=
  let status := (a.text? "status").getD []
  if !status.isEmpty && !RunStatus.isStatus status then
    (.failed (.plain ("invalid status " ++ Quoted.quote status ++
      " (valid: running, succeeded, failed, skipped)")), files)
  else
    match openExisting s a files with
    | (files, .error fault) => (.failed fault, files)
    | (files, .ok ledger) =>
      match ledger.listRuns ⟨(a.text? "sweep").getD [], status, Command.runsList.integer a "limit"⟩ with
      | .error refusal => (.failed (refusal.fault.within "failed to list runs"), files)
      | .ok runs =>
        (if a.exchange then .exchanged (.list (runs.map (·.toJson))) else .printed (runTable runs), files)

/-- A sweep with the numbers of its runs, in exchange form. The configuration is left out. -/
def sweepEntry (r : SweepRecord) (counts : SweepCounts) : Json :=
  .object (SweepRecord.fields { r with config := [] } ++ [(("counts" : Bytes), counts.toJson)])

/-- A sweep with the numbers of its runs, on two lines. -/
def sweepRow (r : SweepRecord) (counts : SweepCounts) : Bytes :=
  r.id ++ "  " ++ Bytes.padRight 9 r.status ++ "  started " ++ r.startedAt.display ++ "\n    " ++
    Decimal.ofNat counts.total ++ " runs: " ++ Decimal.ofNat counts.succeeded ++ " succeeded, " ++
    Decimal.ofNat counts.failed ++ " failed, " ++ Decimal.ofNat counts.skipped ++ " skipped, " ++
    Decimal.ofNat counts.running ++ " running\n"

/-- Sweeps with the numbers of their runs. -/
def counted (ledger : Ledger) (sweeps : List SweepRecord) : Except Fault (List (SweepRecord × SweepCounts)) :=
  sweeps.mapM fun r =>
    match ledger.summary r.id with
    | .error refusal => .error (refusal.fault.within ("failed to summarize sweep " ++ r.id))
    | .ok counts => .ok (r, counts)

/-- The recorded sweeps listed. -/
def runsSweeps (s : Surroundings) (a : Arguments) (files : Files) : Outcome × Files :=
  match openExisting s a files with
  | (files, .error fault) => (.failed fault, files)
  | (files, .ok ledger) =>
    match ledger.listSweeps (Command.runsSweeps.integer a "limit") with
    | .error refusal => (.failed (refusal.fault.within "failed to list sweeps"), files)
    | .ok sweeps =>
      match counted ledger sweeps with
      | .error fault => (.failed fault, files)
      | .ok entries =>
        if a.exchange then (.exchanged (.list (entries.map fun (r, counts) => sweepEntry r counts)), files)
        else if entries.isEmpty then (.printed "No sweeps recorded.\n", files)
        else (.printed (entries.flatMap fun (r, counts) => sweepRow r counts), files)

end Cli

end MobilitySweep
