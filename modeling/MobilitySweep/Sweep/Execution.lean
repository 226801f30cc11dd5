import MobilitySweep.Config.Printer
import MobilitySweep.Files.Confine
import MobilitySweep.Steps
import MobilitySweep.Sweep.Setup
import MobilitySweep.Sweep.Publishing
import MobilitySweep.Sweep.World

/-! # Executing a sweep

The combinations of a sweep run one after another, the repetitions of a combination side by side up to
the number of workers. A run generates its trace, renders its configuration, is simulated and has its
log archived. The first failing run stops the sweep. With resuming on, a run whose last file exists is
skipped.
-/

namespace MobilitySweep

namespace Sweep

variable {κ : Type} [Recorder κ]

/-- What a sweep came to. -/
structure Report where
  sweepId : Bytes
  baseSeed : Int64
  total : Int64
  succeeded : Int64
  skipped : Int64
  failed : Int64
  elapsed : Duration
deriving DecidableEq, Repr, Inhabited

/-- The report for exchange. -/
def Report.toJson (r : Report) : Json :=
  .object [("sweep_id", .text r.sweepId), ("base_seed", .ofInt64 r.baseSeed), ("total", .ofInt64 r.total),
    ("succeeded", .ofInt64 r.succeeded), ("skipped", .ofInt64 r.skipped), ("failed", .ofInt64 r.failed),
    ("elapsed", .ofInt64 r.elapsed.nanos)]

/-- The ending of the logs of failed simulations. -/
def failedEnding : Bytes := ".failed"

/-- The record of a run before it is started. -/
def recordOf (s : Setup) (run : Run) (startedAt : Instant) : RunRecord :=
  { sweepId := s.sweepId
    runId := run.id
    nodeDistance := run.params.nodeDistance
    swapCouples := run.params.swapCouples
    shuffleDistance := run.params.shuffleDistance
    repetition := run.repetition
    seed := Seed.derive s.base run.id
    status := []
    tracePath := s.config.layout.tracePath run
    configPath := []
    archivePath := []
    checksum := []
    samples := 0
    reshuffles := 0
    error := []
    startedAt := startedAt
    finishedAt := .zero }

/-- The last file a run produces, whose presence marks the run as done. -/
def marker (s : Setup) (template : Option Template) (run : Run) : Bytes :=
  let layout := s.config.layout
  match s.simulator, template with
  | none, none => layout.tracePath run
  | none, some _ => layout.path (layout.configRelative run)
  | some _, _ =>
    let log := layout.path (layout.logRelative run)
    if s.config.simulator.compress then Archive.pathFor log else log

/-- The log of a failed simulation renamed, so that it is kept but never taken for a finished run. -/
def setAside (logger : Log.Logger) (path : Bytes) : Steps (World κ) Unit := do
  if ← World.onFiles (Steps.look (·.exists? path)) then
    match ← World.onFiles (Archive.attempt (·.rename path (path ++ failedEnding))) with
    -- The run has failed already; that its log stays where it is adds nothing to the failure.
    | some fault =>
      World.note logger Log.Level.warn "failed to set aside simulator log"
        [("path", .text (Path.redact path)), ("error", .text fault.message)]
    | none => return ()

/-- The log of a simulated run archived, with the digest of the archive. -/
def archiveLog (path : Bytes) (record : RunRecord) : Steps (World κ) (RunRecord × Option Fault) := do
  let (archive, fault) ← World.onFiles (Archive.compress path)
  match fault with
  | some fault => return (record, some (fault.within "archiving simulator log"))
  | none =>
    let record := { record with archivePath := archive }
    match ← World.onFiles (Steps.look (Archive.checksum · archive)) with
    | .error fault => return (record, some (fault.within "checksumming archive"))
    | .ok sum => return ({ record with checksum := sum }, none)

/-- The rendered configuration of a run simulated. -/
def simulate (s : Setup) (simulator : Simulator) (logger : Log.Logger) (run : Run) (record : RunRecord) :
    Steps (World κ) (RunRecord × Option Fault) := do
  let layout := s.config.layout
  let log := layout.logRelative run
  match ← World.onBench (simulator (layout.configRelative run) log) with
  | some fault =>
    setAside logger (layout.path log)
    return (record, some fault)
  | none =>
    if s.config.simulator.compress then archiveLog (layout.path log) record else return (record, none)

/-- The configuration of a run rendered and, if there is a simulator, simulated. -/
def renderAndSimulate (s : Setup) (template : Template) (logger : Log.Logger) (run : Run) (record : RunRecord) :
    Steps (World κ) (RunRecord × Option Fault) := do
  let path := s.config.layout.path (s.config.layout.configRelative run)
  let record := { record with configPath := path }
  match ← World.onFiles (template.write path run.traceName) with
  | some fault => return (record, some fault)
  | none =>
    match s.simulator with
    | some simulator => simulate s simulator logger run record
    | none => return (record, none)

/-- The work of a run: its record filled in, and the failure. -/
def perform (s : Setup) (template : Option Template) (logger : Log.Logger) (run : Run) (record : RunRecord) :
    Steps (World κ) (RunRecord × Option Fault) := do
  let (stats, fault) ← World.onFiles
    (Trace.produce record.tracePath run.params (s.config.options record.seed) (Pcg.ofSeed record.seed))
  match fault with
  | some fault => return (record, some (fault.within "generating trace"))
  | none =>
    let record := { record with samples := stats.samples, reshuffles := stats.reshuffles }
    World.note logger Log.Level.trace "trace written"
      [("path", .text (Path.redact record.tracePath)), ("ticks", .int stats.ticks.toInt),
        ("samples", .int stats.samples.toInt), ("reshuffles", .int stats.reshuffles.toInt)]
    match template with
    | some template => renderAndSimulate s template logger run record
    | none => return (record, none)

/-- A run that is done already passed over. -/
def skip (s : Setup) (logger : Log.Logger) (run : Run) (path : Bytes) (record : RunRecord) :
    Steps (World κ) (Option Fault) := do
  World.note logger Log.Level.info "skipping completed run" [("artifact", .text (Path.redact path))]
  -- A skipped run has packed nothing itself, but the archive that it left earlier goes on record.
  let archived := s.simulator.isSome && s.config.simulator.compress
  World.record s.logger (.skip (if archived then { record with archivePath := path } else record))
  World.event "run_skipped" run.id [("artifact", .text path)]
  World.count fun tally => { tally with skipped := tally.skipped + 1 }
  return none

/-- A run started, worked through, and its outcome recorded. -/
def launch (s : Setup) (template : Option Template) (logger : Log.Logger) (run : Run) (record : RunRecord) :
    Steps (World κ) (Option Fault) := do
  World.note logger Log.Level.info "running"
    [("node_distance", .int run.params.nodeDistance.toInt), ("swap_couples", .int run.params.swapCouples.toInt),
      ("shuffle_distance", .int run.params.shuffleDistance.toInt), ("repetition", .int run.repetition.toInt)]
  World.record s.logger (.start record)
  World.event "run_started" run.id [("seed", .ofInt64 record.seed)]
  let (record, fault) ← perform s template logger run record
  let finishedAt ← World.now
  let record := { record with finishedAt := finishedAt }
  match fault with
  | some fault =>
    World.record s.logger (.finish { record with status := RunStatus.failed, error := fault.message })
    World.event "run_failed" run.id [("error", .text fault.message)]
    World.note logger Log.Level.error "run failed" [("error", .text fault.message)]
    World.count fun tally => { tally with failed := tally.failed + 1 }
    return some (fault.within ("run " ++ run.id))
  | none =>
    World.record s.logger (.finish { record with status := RunStatus.succeeded })
    World.event "run_finished" run.id
      [("samples", .ofInt64 record.samples), ("reshuffles", .ofInt64 record.reshuffles),
        ("checksum", .text record.checksum),
        ("duration_ms", .ofInt (record.finishedAt.since record.startedAt).milliseconds)]
    World.note logger Log.Level.debug "run finished"
      [("samples", .int record.samples.toInt), ("reshuffles", .int record.reshuffles.toInt)]
    World.count fun tally => { tally with succeeded := tally.succeeded + 1 }
    return none

/-- One run: skipped if it is done already and resuming is on, executed otherwise. -/
def execute (s : Setup) (template : Option Template) (run : Run) : Steps (World κ) (Option Fault) := do
  let logger := s.logger.carrying "run_id" (.text run.id)
  let record := recordOf s run (← World.now)
  let path := marker s template run
  -- Without resuming nobody looks for the mark, and every run is done over.
  let done ← if s.config.sweep.resume then World.onFiles (Steps.look (·.exists? path)) else pure false
  if done then skip s logger run path record else launch s template logger run record

/-- A run as a task of its group: it does nothing once the group is cancelled. -/
def task (s : Setup) (template : Option Template) (run : Run) : Steps (World κ) (Option Fault) := do
  if ← Steps.look fun world => world.bench.cancelled then return some Fault.cancelled
  else execute s template run

/-- The repetitions of a combination, interleaved by a schedule: the first failure among them. -/
def runCombination (s : Setup) (template : Option Template) (schedule : List Nat) (p : Params) :
    Steps (World κ) (Option Fault) := do
  -- A group begins without a failure, whatever became of the one before it.
  Steps.change fun (world : World κ) => { world with bench := { world.bench with failure := none } }
  Group.interleaved World.noteFailure s.config.sweep.workers.toInt.toNat schedule []
    ((Plan.repetitions p s.config.sweep.repetitions).map (task s template))
  Steps.look fun world => world.bench.failure

/-- Combinations in order up to the first failure or an interruption, each with the next schedule. -/
def runCombinations (s : Setup) (template : Option Template) :
    List (List Nat) → List Params → Steps (World κ) (Option Fault)
  | _, [] => .done none
  | schedules, p :: rest => do
    if ← Steps.look fun world => world.bench.interrupted then return some Fault.cancelled
    else
      match ← runCombination s template (schedules.headD []) p with
      | some fault => return some fault
      | none => runCombinations s template schedules.tail rest

/-- The template of a sweep. Without a simulator a missing one only means that nothing is rendered. -/
def loadTemplate (s : Setup) : Steps (World κ) (Except Fault (Option Template)) := do
  let given := s.config.simulator.template
  let path := if Path.isAbsolute given then given else s.config.layout.path given
  let found ← World.onFiles (Steps.look (·.exists? path))
  if s.simulator.isNone && !found then
    World.note s.logger Log.Level.warn "simulator template not found, skipping configs"
      [("template", .text (Path.redact path))]
    return .ok none
  else
    let loaded ← World.onFiles (Steps.look (Template.load · path s.config.simulator.placeholder))
    return loaded.map some

/-- The number of runs of a sweep. -/
def totalRuns (c : Config) : Int64 :=
  Int64.ofNat (Plan.combinations c.sweep).length * c.sweep.repetitions

/-- The beginning of a sweep recorded. The recorded configuration has the seed that is used, so that
the sweep can be repeated from it. -/
def announce (s : Setup) (startedAt : Instant) : Steps (World κ) Unit := do
  let c := s.config
  let pinned := { c with sweep := { c.sweep with seed := some s.base } }
  let combinations := (Plan.combinations c.sweep).length
  World.record s.logger (.beginSweep ⟨s.sweepId, SweepStatus.running, pinned.toYaml, startedAt, .zero⟩)
  World.note s.logger Log.Level.info "sweep started"
    [("sweep_id", .text s.sweepId), ("combinations", .int combinations), ("runs", .int (totalRuns c).toInt),
      ("workers", .int c.sweep.workers.toInt), ("seed", .int s.base.toInt),
      ("simulator", .bool s.simulator.isSome)]
  World.event "sweep_started" []
    [("combinations", .ofNat combinations), ("runs", .ofInt64 (totalRuns c)),
      ("workers", .ofInt64 c.sweep.workers), ("seed", .ofInt64 s.base)]

/-- The end of a sweep recorded: its report. -/
def conclude (s : Setup) (startedAt : Instant) (fault : Option Fault) : Steps (World κ) Report := do
  let tally ← Steps.look fun (world : World κ) => world.tally
  let elapsed := (← World.now).since startedAt
  let interrupted ← Steps.look fun (world : World κ) => world.bench.interrupted
  -- Interrupted runs fail as well, so the interruption is asked for ahead of the failures.
  let status :=
    if fault.isNone then SweepStatus.complete
    else if interrupted then SweepStatus.cancelled
    else SweepStatus.failed
  World.record s.logger (.endSweep s.sweepId status (← World.now))
  World.event "sweep_finished" []
    [("status", .text status), ("succeeded", .ofInt64 tally.succeeded), ("skipped", .ofInt64 tally.skipped),
      ("failed", .ofInt64 tally.failed), ("elapsed_ms", .ofInt elapsed.milliseconds)]
  World.note s.logger Log.Level.info "sweep finished"
    [("sweep_id", .text s.sweepId), ("status", .text status), ("succeeded", .int tally.succeeded.toInt),
      ("skipped", .int tally.skipped.toInt), ("failed", .int tally.failed.toInt),
      ("elapsed", .duration elapsed.toMillisecond)]
  return ⟨s.sweepId, s.base, totalRuns s.config, tally.succeeded, tally.skipped, tally.failed, elapsed⟩

/-- A sweep under given schedules: its report, and the failure that ended it. -/
def run (s : Setup) (schedules : List (List Nat)) : Steps (World κ) (Report × Option Fault) := do
  let startedAt ← World.now
  let blank : Report := ⟨s.sweepId, s.base, totalRuns s.config, 0, 0, 0, .zero⟩
  -- A sweep that cannot begin puts nothing on record.
  match ← World.onFiles (Archive.attempt s.config.layout.provision) with
  | some fault => return (blank, some fault)
  | none =>
    match ← loadTemplate s with
    | .error fault => return (blank, some fault)
    | .ok template =>
      announce s startedAt
      let fault ← runCombinations s template schedules (Plan.combinations s.config.sweep)
      let report ← conclude s startedAt fault
      return (report, fault)

end Sweep

end MobilitySweep
