import MobilitySweep.Text.Json
import MobilitySweep.Time.Instant

/-! # The tables of a ledger

Records of sweeps and runs, and the tables that hold them.
-/

namespace MobilitySweep

/-! ## Ledger records

What is recorded of sweeps and runs, and the statuses they pass through.
-/

namespace RunStatus

def running : Bytes := "running"
def succeeded : Bytes := "succeeded"
def failed : Bytes := "failed"
def skipped : Bytes := "skipped"

/-- The statuses a run can have. -/
def all : List Bytes := [running, succeeded, failed, skipped]

/-- Whether a text names a status of runs. -/
def isStatus (status : Bytes) : Bool := all.contains status

end RunStatus

namespace SweepStatus

def running : Bytes := "running"
def complete : Bytes := "complete"
def failed : Bytes := "failed"
def cancelled : Bytes := "cancelled"

end SweepStatus

/-- What is recorded of a sweep. -/
structure SweepRecord where
  id : Bytes
  status : Bytes
  config : Bytes
  startedAt : Instant
  finishedAt : Instant
deriving DecidableEq, Repr, Inhabited

/-- What is recorded of a run. -/
structure RunRecord where
  sweepId : Bytes
  runId : Bytes
  nodeDistance : Int64
  swapCouples : Int64
  shuffleDistance : Int64
  repetition : Int64
  seed : Int64
  status : Bytes
  tracePath : Bytes
  configPath : Bytes
  archivePath : Bytes
  checksum : Bytes
  samples : Int64
  reshuffles : Int64
  error : Bytes
  startedAt : Instant
  finishedAt : Instant
deriving DecidableEq, Repr, Inhabited

/-- Which runs are listed; empty texts and a limit that is not positive let everything pass. -/
structure RunFilter where
  sweepId : Bytes
  status : Bytes
  limit : Int64
deriving DecidableEq, Repr, Inhabited

namespace RunFilter

/-- The filter that lets everything pass. -/
def everything : RunFilter := ⟨[], [], 0⟩

end RunFilter

/-- The runs of a sweep by status. -/
structure SweepCounts where
  sweepId : Bytes
  total : Nat
  running : Nat
  succeeded : Nat
  failed : Nat
  skipped : Nat
deriving DecidableEq, Repr, Inhabited

namespace Json

/-- A moment in its exchange form. -/
def ofInstant (t : Instant) : Json := .text (t.exchange?.getD [])

/-- A moment that is left out when it is missing. -/
def optionalInstant (name : Bytes) (t : Instant) : List (Bytes × Json) :=
  if t.isZero then [] else [(name, ofInstant t)]

end Json

namespace SweepRecord

/-- The fields of a record for exchange. -/
def fields (r : SweepRecord) : List (Bytes × Json) :=
  [(("id" : Bytes), Json.text r.id), ("status", .text r.status)] ++ Json.optionalText "config" r.config ++
    [(("started_at" : Bytes), Json.ofInstant r.startedAt)] ++ Json.optionalInstant "finished_at" r.finishedAt

/-- The record for exchange. -/
def toJson (r : SweepRecord) : Json := .object r.fields

end SweepRecord

namespace RunRecord

/-- The record for exchange. -/
def toJson (r : RunRecord) : Json :=
  .object ([(("sweep_id" : Bytes), Json.text r.sweepId), ("run_id", .text r.runId),
      ("node_distance", .ofInt64 r.nodeDistance), ("swap_couples", .ofInt64 r.swapCouples),
      ("shuffle_distance", .ofInt64 r.shuffleDistance), ("repetition", .ofInt64 r.repetition),
      ("seed", .ofInt64 r.seed), ("status", .text r.status)] ++
    Json.optionalText "trace_path" r.tracePath ++ Json.optionalText "config_path" r.configPath ++
    Json.optionalText "archive_path" r.archivePath ++ Json.optionalText "checksum" r.checksum ++
    [(("samples" : Bytes), Json.ofInt64 r.samples), ("reshuffles", .ofInt64 r.reshuffles)] ++
    Json.optionalText "error" r.error ++ [(("started_at" : Bytes), Json.ofInstant r.startedAt)] ++
    Json.optionalInstant "finished_at" r.finishedAt)

end RunRecord

namespace SweepCounts

/-- No runs at all. -/
def none (sweepId : Bytes) : SweepCounts := ⟨sweepId, 0, 0, 0, 0, 0⟩

/-- The counts for exchange. -/
def toJson (c : SweepCounts) : Json :=
  .object [("sweep_id", .text c.sweepId), ("total", .ofNat c.total), ("running", .ofNat c.running),
    ("succeeded", .ofNat c.succeeded), ("failed", .ofNat c.failed), ("skipped", .ofNat c.skipped)]

end SweepCounts

/-! ## Ledger tables

The stored form of the ledger: rows of sweeps and runs in order of insertion, and the schema versions.
Moments are stored as fixed-width text, so that their order is the order of texts; an empty text stands
for a missing value.
-/

namespace Ledger

/-- The stored form of a sweep. -/
structure SweepRow where
  id : Bytes
  status : Bytes
  config : Bytes
  startedAt : Bytes
  finishedAt : Bytes
deriving DecidableEq, Repr, Inhabited

/-- The stored form of a run. -/
structure RunRow where
  sweepId : Bytes
  runId : Bytes
  nodeDistance : Int64
  swapCouples : Int64
  shuffleDistance : Int64
  repetition : Int64
  seed : Int64
  status : Bytes
  tracePath : Bytes
  configPath : Bytes
  archivePath : Bytes
  checksum : Bytes
  samples : Int64
  reshuffles : Int64
  error : Bytes
  startedAt : Bytes
  finishedAt : Bytes
deriving DecidableEq, Repr, Inhabited

/-- How texts are kept, which decides their order. -/
inductive TextEncoding where
  | utf8
  | utf16 (bigEndian : Bool)
deriving DecidableEq, Repr, Inhabited

namespace TextEncoding

/-- The two bytes of a unit. -/
def unitBytes (bigEndian : Bool) (unit : Nat) : Bytes :=
  let high := UInt8.ofNat (unit / 256)
  let low := UInt8.ofNat unit
  if bigEndian then [high, low] else [low, high]

/-- The bytes of a character in units of two bytes; characters beyond the first plane take two units. -/
def charBytes (bigEndian : Bool) (c : Char) : Bytes :=
  let n := c.toNat
  if n < 0x10000 then unitBytes bigEndian n
  else
    unitBytes bigEndian (0xD800 + (n - 0x10000) / 1024) ++ unitBytes bigEndian (0xDC00 + (n - 0x10000) % 1024)

/-- The bytes that are kept for a text. -/
def kept (encoding : TextEncoding) (text : Bytes) : Bytes :=
  match encoding with
  | utf8 => text
  | utf16 bigEndian => (Utf8.characters text).flatMap (charBytes bigEndian)

/-- Whether a text comes before another. -/
def less (encoding : TextEncoding) (a b : Bytes) : Bool := Bytes.less (encoding.kept a) (encoding.kept b)

end TextEncoding

/-- All that is stored. -/
structure Tables where
  sweeps : List SweepRow
  runs : List RunRow
  versions : List Int
  encoding : TextEncoding
deriving DecidableEq, Repr, Inhabited

/-- The schema version that is written and understood. -/
def schemaVersion : Int := 1

/-- The stored form of a moment that may be missing. -/
def optionalStamp (t : Instant) : Bytes := if t.isZero then [] else t.stamp

/-- The moment of a stored text; a text that is none counts as missing. -/
def instantOf (text : Bytes) : Instant := (Instant.ofStamp? text).getD .zero

namespace SweepRow

/-- The record of a row. -/
def toRecord (r : SweepRow) : SweepRecord :=
  ⟨r.id, r.status, r.config, instantOf r.startedAt, instantOf r.finishedAt⟩

end SweepRow

namespace RunRow

/-- The row of a record. -/
def ofRecord (r : RunRecord) : RunRow :=
  ⟨r.sweepId, r.runId, r.nodeDistance, r.swapCouples, r.shuffleDistance, r.repetition, r.seed, r.status,
    r.tracePath, r.configPath, r.archivePath, r.checksum, r.samples, r.reshuffles, r.error,
    r.startedAt.stamp, optionalStamp r.finishedAt⟩

/-- The record of a row. -/
def toRecord (r : RunRow) : RunRecord :=
  ⟨r.sweepId, r.runId, r.nodeDistance, r.swapCouples, r.shuffleDistance, r.repetition, r.seed, r.status,
    r.tracePath, r.configPath, r.archivePath, r.checksum, r.samples, r.reshuffles, r.error,
    instantOf r.startedAt, instantOf r.finishedAt⟩

/-- Whether a row is about a run of a sweep. -/
def isFor (r : RunRow) (sweepId runId : Bytes) : Bool := r.sweepId = sweepId && r.runId = runId

/-- The later of two texts unless it is missing. -/
def latest (earlier later : Bytes) : Bytes := if later.isEmpty then earlier else later

/-- A row overwritten by a later one about the same run: the parameters stay those of the first, the
paths of trace and configuration are kept when the later row has none, and all else is the later row's. -/
def overwrite (first later : RunRow) : RunRow :=
  { later with
    sweepId := first.sweepId
    runId := first.runId
    nodeDistance := first.nodeDistance
    swapCouples := first.swapCouples
    shuffleDistance := first.shuffleDistance
    repetition := first.repetition
    tracePath := latest first.tracePath later.tracePath
    configPath := latest first.configPath later.configPath }

end RunRow

namespace Tables

/-- Tables of a fresh ledger. -/
def fresh (encoding : TextEncoding) : Tables := ⟨[], [], [schemaVersion], encoding⟩

/-- Whether a sweep has a row. -/
def hasSweep (t : Tables) (id : Bytes) : Bool := t.sweeps.any (·.id = id)

/-- Whether a run has a row. -/
def hasRun (t : Tables) (sweepId runId : Bytes) : Bool := t.runs.any (·.isFor sweepId runId)

/-- One more sweep. -/
def addSweep (t : Tables) (row : SweepRow) : Tables := { t with sweeps := t.sweeps ++ [row] }

/-- A sweep with a new status and finish time. -/
def finishSweep (t : Tables) (id status finishedAt : Bytes) : Tables :=
  { t with sweeps := t.sweeps.map fun row =>
      if row.id = id then { row with status := status, finishedAt := finishedAt } else row }

/-- One more run. -/
def addRun (t : Tables) (row : RunRow) : Tables := { t with runs := t.runs ++ [row] }

/-- The row of a run overwritten. -/
def overwriteRun (t : Tables) (row : RunRow) : Tables :=
  { t with runs := t.runs.map fun old =>
      if old.isFor row.sweepId row.runId then old.overwrite row else old }

/-- The rows of runs without a sweep, by their positions from one. -/
def orphans (t : Tables) : List Nat :=
  (t.runs.zipIdx 1).filterMap fun (row, position) => if t.hasSweep row.sweepId then none else some position

/-- The highest schema version. -/
def version? (t : Tables) : Option Int := t.versions.max?

end Tables

end Ledger

end MobilitySweep
