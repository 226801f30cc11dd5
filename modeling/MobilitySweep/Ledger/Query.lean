import MobilitySweep.Ledger.Basic

/-! # Ledger queries

Runs and sweeps are listed by start time, latest first; runs that started together are ordered by
identifier, and what is still tied stays in order of insertion.
-/

namespace MobilitySweep

namespace Ledger

namespace Tables

/-- Whether a run passes a filter. -/
def passes (filter : RunFilter) (row : RunRow) : Bool :=
  (filter.sweepId.isEmpty || row.sweepId = filter.sweepId) &&
    (filter.status.isEmpty || row.status = filter.status)

/-- Whether a run is listed no later than another. -/
def runNotAfter (encoding : TextEncoding) (a b : RunRow) : Bool :=
  Bytes.less b.startedAt a.startedAt || (a.startedAt = b.startedAt && !encoding.less b.runId a.runId)

/-- Whether a sweep is listed no later than another. -/
def sweepNotAfter (a b : SweepRow) : Bool := !Bytes.less a.startedAt b.startedAt

/-- The first entries of a list, all of them if the limit is not positive. -/
def limited {α : Type} (limit : Int64) (entries : List α) : List α :=
  if 0 < limit then entries.take limit.toInt.toNat else entries

/-- The runs that pass a filter. -/
def listRuns (t : Tables) (filter : RunFilter) : List RunRecord :=
  (limited filter.limit ((t.runs.filter (passes filter)).mergeSort (runNotAfter t.encoding))).map (·.toRecord)

/-- The sweeps up to a limit. -/
def listSweeps (t : Tables) (limit : Int64) : List SweepRecord :=
  (limited limit (t.sweeps.mergeSort sweepNotAfter)).map (·.toRecord)

/-- How many runs of a sweep have a status. -/
def countStatus (t : Tables) (sweepId status : Bytes) : Nat :=
  t.runs.countP fun row => row.sweepId = sweepId && row.status = status

/-- The runs of a sweep by status. -/
def counts (t : Tables) (sweepId : Bytes) : SweepCounts :=
  ⟨sweepId, t.runs.countP (·.sweepId = sweepId), t.countStatus sweepId RunStatus.running,
    t.countStatus sweepId RunStatus.succeeded, t.countStatus sweepId RunStatus.failed,
    t.countStatus sweepId RunStatus.skipped⟩

end Tables

/-- The runs that pass a filter, if the ledger is open. -/
def listRuns (l : Ledger) (filter : RunFilter) : Except Refusal (List RunRecord) :=
  if l.isOpen then .ok (l.tables.listRuns filter) else .error (.closed "failed to query runs")

/-- The sweeps up to a limit, if the ledger is open. -/
def listSweeps (l : Ledger) (limit : Int64) : Except Refusal (List SweepRecord) :=
  if l.isOpen then .ok (l.tables.listSweeps limit) else .error (.closed "failed to query sweeps")

/-- The runs of a sweep by status, if the ledger is open. -/
def summary (l : Ledger) (sweepId : Bytes) : Except Refusal SweepCounts :=
  if l.isOpen then .ok (l.tables.counts sweepId)
  else .error (.closed ("failed to summarize sweep " ++ sweepId))

end Ledger

/-- A keeper of records that answers about them: which runs pass a filter, which sweeps there are up to a limit, and how
many runs of a sweep there are by status. -/
class RecordReader (κ : Type) where
  listRuns : κ → RunFilter → Except Ledger.Refusal (List RunRecord)
  listSweeps : κ → Int64 → Except Ledger.Refusal (List SweepRecord)
  summary : κ → Bytes → Except Ledger.Refusal SweepCounts

/-- The keeper that keeps nothing has nothing to list. -/
instance : RecordReader Unit where
  listRuns _ _ := .ok []
  listSweeps _ _ := .ok []
  summary _ sweepId := .ok (.none sweepId)

instance : RecordReader Ledger where
  listRuns := Ledger.listRuns
  listSweeps := Ledger.listSweeps
  summary := Ledger.summary

end MobilitySweep
