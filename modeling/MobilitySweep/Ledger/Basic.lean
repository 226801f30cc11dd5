import MobilitySweep.Fault
import MobilitySweep.Ledger.Tables
import MobilitySweep.Time.Instant

/-! # The ledger

An open or closed ledger with the clock that fills in missing times. A write names what happened; it
either changes the tables or is refused, and a refused write leaves them as they were.
-/

namespace MobilitySweep

/-- The ledger of sweeps and runs. In a strict one every run belongs to a sweep, and one that is only read
refuses every write. -/
structure Ledger where
  path : Bytes
  tables : Ledger.Tables
  isOpen : Bool
  isStrict : Bool
  isReadOnly : Bool
  clock : Clock
deriving DecidableEq, Repr, Inhabited

namespace Ledger

/-- What can be written. -/
inductive Write where
  | beginSweep (sweep : SweepRecord)
  | endSweep (id status : Bytes) (finishedAt : Instant)
  | start (run : RunRecord)
  | finish (run : RunRecord)
  | skip (run : RunRecord)
deriving DecidableEq, Repr

/-- Why a write or a query is refused. -/
inductive Refusal where
  | emptySweepId
  | duplicateSweep (id : Bytes)
  | unknownSweep (id : Bytes)
  | finishStatus (status : Bytes)
  | missingIds
  | orphanRun (sweepId runId : Bytes)
  | closed (activity : Bytes)
  | readOnly (activity : Bytes)
deriving DecidableEq, Repr

/-- The refusal as a fault. -/
def Refusal.fault : Refusal → Fault
  | emptySweepId => .plain "sweep id is empty"
  | duplicateSweep id =>
    .plain ("failed to record sweep " ++ id ++
      ": constraint failed: UNIQUE constraint failed: sweeps.id (1555)")
  | unknownSweep id => .plain ("sweep " ++ id ++ " not found")
  | finishStatus status => ⟨.invalidRun, "invalid run record: finish status " ++ Quoted.quote status⟩
  | missingIds => ⟨.invalidRun, "invalid run record: sweep and run ids are required"⟩
  | orphanRun sweepId runId =>
    .plain ("failed to record run " ++ sweepId ++ "/" ++ runId ++
      ": constraint failed: FOREIGN KEY constraint failed (787)")
  | closed activity => .plain (activity ++ ": sql: database is closed")
  | readOnly activity => .plain (activity ++ ": attempt to write a readonly database (8)")

/-- A given moment, or a reading of the clock when it is missing. -/
def filled (l : Ledger) (t : Instant) : Instant × Ledger :=
  if t.isZero then
    let (now, clock) := l.clock.read
    (now, { l with clock := clock })
  else (t, l)

/-- Why nothing can be written, if so. -/
def unwritable? (l : Ledger) (activity : Bytes) : Option Refusal :=
  if !l.isOpen then some (.closed activity)
  else if l.isReadOnly then some (.readOnly activity)
  else none

/-- A new sweep is recorded under an identifier of its own. -/
def beginSweep (l : Ledger) (sweep : SweepRecord) : Ledger × Option Refusal :=
  if sweep.id.isEmpty then (l, some .emptySweepId)
  else
    let (startedAt, l) := l.filled sweep.startedAt
    let status := if sweep.status.isEmpty then SweepStatus.running else sweep.status
    match l.unwritable? ("failed to record sweep " ++ sweep.id) with
    | some refusal => (l, some refusal)
    | none =>
      if l.tables.hasSweep sweep.id then (l, some (.duplicateSweep sweep.id))
      else ({ l with tables := l.tables.addSweep ⟨sweep.id, status, sweep.config, startedAt.stamp, []⟩ }, none)

/-- A recorded sweep takes its final status. -/
def endSweep (l : Ledger) (id status : Bytes) (finishedAt : Instant) : Ledger × Option Refusal :=
  let (finishedAt, l) := l.filled finishedAt
  match l.unwritable? ("failed to finish sweep " ++ id) with
  | some refusal => (l, some refusal)
  | none =>
    if l.tables.hasSweep id then
      ({ l with tables := l.tables.finishSweep id status finishedAt.stamp }, none)
    else (l, some (.unknownSweep id))

/-- A run is stored, or the row it already has is overwritten. A strict ledger stores runs of recorded
sweeps only. -/
def storeRun (l : Ledger) (run : RunRecord) : Ledger × Option Refusal :=
  if run.sweepId.isEmpty || run.runId.isEmpty then (l, some .missingIds)
  else
    let (startedAt, l) := l.filled run.startedAt
    let row := RunRow.ofRecord { run with startedAt := startedAt }
    match l.unwritable? ("failed to record run " ++ run.sweepId ++ "/" ++ run.runId) with
    | some refusal => (l, some refusal)
    | none =>
      if l.tables.hasRun run.sweepId run.runId then ({ l with tables := l.tables.overwriteRun row }, none)
      else if !l.isStrict || l.tables.hasSweep run.sweepId then
        ({ l with tables := l.tables.addRun row }, none)
      else (l, some (.orphanRun run.sweepId run.runId))

/-- A run is under way. -/
def startRun (l : Ledger) (run : RunRecord) : Ledger × Option Refusal :=
  l.storeRun { run with status := RunStatus.running, finishedAt := .zero }

/-- A run has succeeded or failed. -/
def finishRun (l : Ledger) (run : RunRecord) : Ledger × Option Refusal :=
  if run.status ≠ RunStatus.succeeded && run.status ≠ RunStatus.failed then
    (l, some (.finishStatus run.status))
  else
    let (finishedAt, l) := l.filled run.finishedAt
    l.storeRun { run with finishedAt := finishedAt }

/-- A run was not executed because its output exists. The clock is read in any case. -/
def skipRun (l : Ledger) (run : RunRecord) : Ledger × Option Refusal :=
  let (now, clock) := l.clock.read
  { l with clock := clock }.storeRun { run with
    status := RunStatus.skipped
    startedAt := if run.startedAt.isZero then now else run.startedAt
    finishedAt := if run.finishedAt.isZero then now else run.finishedAt }

/-- A write applied, and why it was refused if it was. -/
def apply (l : Ledger) : Write → Ledger × Option Refusal
  | .beginSweep sweep => l.beginSweep sweep
  | .endSweep id status finishedAt => l.endSweep id status finishedAt
  | .start run => l.startRun run
  | .finish run => l.finishRun run
  | .skip run => l.skipRun run

/-- The ledger closed; closing twice is closing once. -/
def close (l : Ledger) : Ledger := { l with isOpen := false }

end Ledger

/-- A keeper of records: it takes writes and may refuse some. -/
class Recorder (κ : Type) where
  record : κ → Ledger.Write → κ × Option Fault

/-- The keeper that takes everything and keeps nothing. -/
instance : Recorder Unit := ⟨fun _ _ => ((), none)⟩

instance : Recorder Ledger :=
  ⟨fun l w =>
    let (l, refusal) := l.apply w
    (l, refusal.map (·.fault))⟩

/-- A keeper that may be absent. -/
instance {κ : Type} [Recorder κ] : Recorder (Option κ) :=
  ⟨fun keeper w =>
    match keeper with
    | none => (none, none)
    | some k =>
      let (k, fault) := Recorder.record k w
      (some k, fault)⟩

end MobilitySweep
