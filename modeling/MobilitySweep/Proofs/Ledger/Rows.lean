import Mathlib
import MobilitySweep.Ledger.Query

/-! # Rows of a sweep

A ledger that accepts the writes of a sweep keeps one row for each of its runs: a write about a run sets
the status of its row, or adds the row if there is none.
-/

namespace MobilitySweep

namespace Ledger

/-- The runs of a sweep with their statuses, in order of insertion. -/
def Tables.statuses (t : Tables) (sweepId : Bytes) : List (Bytes × Bytes) :=
  (t.runs.filter (·.sweepId = sweepId)).map fun row => (row.runId, row.status)

/-- Whether every write about runs of a sweep is accepted. -/
structure Accepts (l : Ledger) (sweepId : Bytes) : Prop where
  isOpen : l.isOpen = true
  writable : l.isReadOnly = false
  nonempty : sweepId ≠ []
  recorded : l.tables.hasSweep sweepId = true

/-- Whether a sweep is new to a ledger that accepts writes. -/
structure Awaits (l : Ledger) (sweepId : Bytes) : Prop where
  isOpen : l.isOpen = true
  writable : l.isReadOnly = false
  nonempty : sweepId ≠ []
  fresh : l.tables.hasSweep sweepId = false
  empty : ∀ row ∈ l.tables.runs, row.sweepId ≠ sweepId

/-- A status set in a list of runs with their statuses. -/
def posted (runId status : Bytes) (rows : List (Bytes × Bytes)) : List (Bytes × Bytes) :=
  if runId ∈ rows.map Prod.fst then rows.map fun row => if row.1 = runId then (runId, status) else row
  else rows ++ [(runId, status)]

/-- A write that gives a run of a sweep a status. -/
inductive Posts (sweepId runId : Bytes) : Bytes → Write → Prop where
  | start (run : RunRecord) (hsweep : run.sweepId = sweepId) (hrun : run.runId = runId) :
      Posts sweepId runId RunStatus.running (.start run)
  | finish (run : RunRecord) (hsweep : run.sweepId = sweepId) (hrun : run.runId = runId)
      (hstatus : run.status = RunStatus.succeeded ∨ run.status = RunStatus.failed) :
      Posts sweepId runId run.status (.finish run)
  | skip (run : RunRecord) (hsweep : run.sweepId = sweepId) (hrun : run.runId = runId) :
      Posts sweepId runId RunStatus.skipped (.skip run)

/-! ## Tables -/

theorem Tables.hasRun_iff (t : Tables) (sweepId runId : Bytes) :
    t.hasRun sweepId runId = true ↔ runId ∈ (t.statuses sweepId).map Prod.fst := by
  simp [hasRun, statuses, RunRow.isFor, List.any_eq_true, and_assoc]

theorem Tables.statuses_addRun (t : Tables) (row : RunRow) :
    (t.addRun row).statuses row.sweepId = t.statuses row.sweepId ++ [(row.runId, row.status)] := by
  simp [addRun, statuses]

theorem Tables.statuses_overwriteRun (t : Tables) (row : RunRow) :
    (t.overwriteRun row).statuses row.sweepId =
      (t.statuses row.sweepId).map fun old => if old.1 = row.runId then (row.runId, row.status) else old := by
  simp only [overwriteRun, statuses, List.filter_map, List.map_map]
  -- Overwriting keeps the sweep of a row, so the same rows are selected.
  have hsweep : ((fun old : RunRow => decide (old.sweepId = row.sweepId)) ∘
      fun old : RunRow => if old.isFor row.sweepId row.runId then old.overwrite row else old) =
      fun old => decide (old.sweepId = row.sweepId) := by
    funext old
    simp only [Function.comp]
    split <;> rfl
  rw [hsweep]
  refine List.map_congr_left fun old hold => ?_
  have hold : old.sweepId = row.sweepId := by simpa using (List.mem_filter.mp hold).2
  by_cases hrun : old.runId = row.runId
  · simp [RunRow.isFor, RunRow.overwrite, hold, hrun]
  · simp [RunRow.isFor, hrun]

/-! ## Writes -/

theorem filled_eq (l : Ledger) (t : Instant) : ∃ clock, (l.filled t).2 = { l with clock := clock } := by
  unfold filled
  split
  next => exact ⟨_, rfl⟩
  next => exact ⟨l.clock, rfl⟩

theorem Accepts.withClock {l : Ledger} {sweepId : Bytes} (h : l.Accepts sweepId) (clock : Clock) :
    { l with clock := clock }.Accepts sweepId :=
  ⟨h.isOpen, h.writable, h.nonempty, h.recorded⟩

theorem Accepts.unwritable? {l : Ledger} {sweepId : Bytes} (h : l.Accepts sweepId) (activity : Bytes) :
    l.unwritable? activity = none := by
  simp [Ledger.unwritable?, h.isOpen, h.writable]

/-- A run that is stored has its status in the row of the run, and nothing else changes in the rows. -/
theorem storeRun_spec {l : Ledger} (run : RunRecord) (h : l.Accepts run.sweepId) (hrun : run.runId ≠ []) :
    (l.storeRun run).1.Accepts run.sweepId ∧
      (l.storeRun run).1.tables.statuses run.sweepId =
        posted run.runId run.status (l.tables.statuses run.sweepId) := by
  obtain ⟨clock, hclock⟩ := l.filled_eq run.startedAt
  have hsweepId : run.sweepId.isEmpty = false := by simpa using h.nonempty
  have hrunId : run.runId.isEmpty = false := by simpa using hrun
  simp only [storeRun, hsweepId, hrunId, Bool.or_self, Bool.false_eq_true, if_false, hclock,
    (h.withClock clock).unwritable?]
  by_cases hhas : l.tables.hasRun run.sweepId run.runId = true
  · simp only [hhas, if_true, posted, if_pos ((l.tables.hasRun_iff _ _).mp hhas)]
    exact ⟨⟨h.isOpen, h.writable, h.nonempty, h.recorded⟩, Tables.statuses_overwriteRun _ _⟩
  · have hnot := fun hmem => hhas ((l.tables.hasRun_iff _ _).mpr hmem)
    simp only [hhas, h.recorded, Bool.or_true, if_true, Bool.false_eq_true, if_false, posted, if_neg hnot]
    exact ⟨⟨h.isOpen, h.writable, h.nonempty, h.recorded⟩, Tables.statuses_addRun _ _⟩

/-- A write about a run sets its status. -/
theorem apply_posts {l : Ledger} {sweepId runId status : Bytes} {write : Write}
    (h : l.Accepts sweepId) (hrun : runId ≠ []) (hwrite : Posts sweepId runId status write) :
    (l.apply write).1.Accepts sweepId ∧
      (l.apply write).1.tables.statuses sweepId = posted runId status (l.tables.statuses sweepId) := by
  cases hwrite with
  | start run hsweep hid =>
      subst hsweep hid
      exact storeRun_spec { run with status := RunStatus.running, finishedAt := .zero } h hrun
  | finish run hsweep hid hstatus =>
      subst hsweep hid
      obtain ⟨clock, hclock⟩ := l.filled_eq run.finishedAt
      have hend : (decide (run.status ≠ RunStatus.succeeded) && decide (run.status ≠ RunStatus.failed)) = false := by
        rcases hstatus with hstatus | hstatus <;> simp [hstatus]
      simp only [apply, finishRun, hend, Bool.false_eq_true, if_false, hclock]
      exact storeRun_spec { run with finishedAt := (l.filled run.finishedAt).1 } (h.withClock clock) hrun
  | skip run hsweep hid =>
      subst hsweep hid
      exact storeRun_spec { run with status := RunStatus.skipped, startedAt := _, finishedAt := _ }
        (h.withClock _) hrun

/-- A sweep that is new to a ledger is recorded, and then writes about its runs are accepted. -/
theorem Awaits.beginSweep {l : Ledger} (sweep : SweepRecord) (h : l.Awaits sweep.id) :
    (l.beginSweep sweep).1.Accepts sweep.id ∧ (l.beginSweep sweep).1.tables.statuses sweep.id = [] := by
  obtain ⟨clock, hclock⟩ := l.filled_eq sweep.startedAt
  have hempty : sweep.id.isEmpty = false := by simpa using h.nonempty
  have hwrite : ∀ activity, { l with clock := clock }.unwritable? activity = none := by
    simp [unwritable?, h.isOpen, h.writable]
  simp only [Ledger.beginSweep, hempty, Bool.false_eq_true, if_false, hclock, hwrite, h.fresh]
  refine ⟨⟨h.isOpen, h.writable, h.nonempty, by simp [Tables.addSweep, Tables.hasSweep]⟩, ?_⟩
  simpa [Tables.statuses, Tables.addSweep] using h.empty

/-- The end of a sweep leaves the rows of runs alone. -/
theorem endSweep_runs (l : Ledger) (id status : Bytes) (finishedAt : Instant) :
    (l.endSweep id status finishedAt).1.isOpen = l.isOpen ∧
      (l.endSweep id status finishedAt).1.tables.runs = l.tables.runs := by
  obtain ⟨clock, hclock⟩ := l.filled_eq finishedAt
  simp only [endSweep, hclock]
  split
  next => exact ⟨rfl, rfl⟩
  next => split <;> exact ⟨rfl, rfl⟩

/-! ## Counts -/

theorem Tables.countStatus_eq (t : Tables) (sweepId status : Bytes) :
    t.countStatus sweepId status = (t.statuses sweepId).countP (·.2 = status) := by
  simp only [countStatus, statuses, List.countP_map, List.countP_filter]
  refine List.countP_congr fun row _ => ?_
  simp [and_comm]

theorem Tables.total_eq (t : Tables) (sweepId : Bytes) :
    t.runs.countP (·.sweepId = sweepId) = (t.statuses sweepId).length := by
  rw [statuses, List.length_map, List.countP_eq_length_filter]

/-- The summary of a sweep counts the statuses of its runs. -/
theorem summary_eq {l : Ledger} (hopen : l.isOpen = true) (sweepId : Bytes) :
    l.summary sweepId = .ok ⟨sweepId, (l.tables.statuses sweepId).length,
      (l.tables.statuses sweepId).countP (·.2 = RunStatus.running),
      (l.tables.statuses sweepId).countP (·.2 = RunStatus.succeeded),
      (l.tables.statuses sweepId).countP (·.2 = RunStatus.failed),
      (l.tables.statuses sweepId).countP (·.2 = RunStatus.skipped)⟩ := by
  simp only [summary, hopen, if_true, Tables.counts, Tables.countStatus_eq, Tables.total_eq]

end Ledger

end MobilitySweep
