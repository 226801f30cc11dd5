import MobilitySweep.Ledger.Query
import MobilitySweep.Proofs.Ledger.Reopening
import MobilitySweep.Proofs.Ledger.Rows
import MobilitySweep.Proofs.Time.Calendar

/-! # The history of a ledger

What a ledger lists of a run is the records of it that were taken, summed up: the parameters are those of the first,
the paths of trace and configuration the last ones given, and all else is the latest one's. Writes that are refused
leave the tables alone, and so do closing and reopening.
-/

namespace MobilitySweep

namespace RunRecord

/-- Whether a record is about a run of a sweep. -/
def isFor (r : RunRecord) (sweepId runId : Bytes) : Bool := r.sweepId = sweepId && r.runId = runId

/-- Whether the times of a record are of years that are stored with four digits. -/
def IsStorable (r : RunRecord) : Prop := r.startedAt.IsStorable ∧ r.finishedAt.IsStorable

/-- The last of some texts that is not empty. -/
def lastGiven (texts : List Bytes) : Bytes := (texts.filter (!·.isEmpty)).getLastD []

/-- The sum of records of a run, of which the first and the latest are known: the parameters of the first, the last
paths of trace and configuration that are given, and all else of the latest. -/
def sum (first latest : RunRecord) (history : List RunRecord) : RunRecord :=
  { latest with
    nodeDistance := first.nodeDistance
    swapCouples := first.swapCouples
    shuffleDistance := first.shuffleDistance
    repetition := first.repetition
    tracePath := lastGiven (history.map (·.tracePath))
    configPath := lastGiven (history.map (·.configPath)) }

/-- The records of a run summed up, if there are any. -/
def summary? (history : List RunRecord) : Option RunRecord :=
  match history.head?, history.getLast? with
  | some first, some latest => some (sum first latest history)
  | _, _ => none

theorem lastGiven_append (texts : List Bytes) (text : Bytes) :
    lastGiven (texts ++ [text]) = Ledger.RunRow.latest (lastGiven texts) text := by
  unfold lastGiven Ledger.RunRow.latest
  cases htext : text.isEmpty <;> simp [htext, List.getLastD_eq_getLast?]

theorem summary?_eq_none {history : List RunRecord} : summary? history = none ↔ history = [] := by
  cases history with
  | nil => simp [summary?]
  | cons first rest => simp [summary?, List.getLast?_cons]

theorem summary?_eq_some {history : List RunRecord} {r : RunRecord} (h : summary? history = some r) :
    ∃ first latest, history.head? = some first ∧ history.getLast? = some latest ∧ r = sum first latest history := by
  unfold summary? at h
  split at h
  next first latest hfirst hlatest => exact ⟨first, latest, hfirst, hlatest, (Option.some.inj h).symm⟩
  next => cases h

theorem summary?_single (r : RunRecord) : summary? [r] = some r := by
  have hgiven : ∀ text, lastGiven [text] = text := by
    intro text
    cases text <;> simp [lastGiven]
  simp [summary?, sum, hgiven]

/-- One more record of a run goes over the sum of those before it as a later row goes over an earlier one. -/
theorem summary?_append {history : List RunRecord} {before : RunRecord} (h : summary? history = some before)
    {r : RunRecord} (hsweep : r.sweepId = before.sweepId) (hrun : r.runId = before.runId) :
    ∃ after, summary? (history ++ [r]) = some after ∧
      Ledger.RunRow.ofRecord after = (Ledger.RunRow.ofRecord before).overwrite (Ledger.RunRow.ofRecord r) := by
  obtain ⟨first, latest, hfirst, hlatest, rfl⟩ := summary?_eq_some h
  have hhead : (history ++ [r]).head? = some first := by simp [List.head?_append, hfirst]
  refine ⟨sum first r (history ++ [r]), by simp only [summary?, hhead, List.getLast?_concat], ?_⟩
  simp only [Ledger.RunRow.ofRecord, Ledger.RunRow.overwrite, sum, List.map_append, List.map_cons, List.map_nil,
    lastGiven_append, hsweep, hrun]

/-- What holds of all records of a history holds of the latest one. -/
theorem latest_of_summary? {history : List RunRecord} {r : RunRecord} (h : summary? history = some r) :
    ∃ latest ∈ history, r.sweepId = latest.sweepId ∧ r.runId = latest.runId ∧ r.startedAt = latest.startedAt ∧
      r.finishedAt = latest.finishedAt := by
  obtain ⟨first, latest, -, hlatest, rfl⟩ := summary?_eq_some h
  exact ⟨latest, List.mem_of_getLast? hlatest, rfl, rfl, rfl, rfl⟩

end RunRecord

namespace Ledger

/-! ## Rows and records -/

theorem instantOf_stamp {t : Instant} (h : t.IsStorable) : instantOf t.stamp = t := by
  rw [instantOf, Instant.ofStamp?_stamp h, Option.getD_some]

/-- Moments and their stored forms stand in one order: the forms are texts of one length, they are read back as the
moments that they are of, and one comes bytewise before another just if its moment does. -/
theorem stamps_are_isomorphic_to_instants {t u : Instant} (ht : t.IsStorable) (hu : u.IsStorable) :
    instantOf t.stamp = t ∧ t.stamp.length = 30 ∧ u.stamp.length = 30 ∧
      (Bytes.less t.stamp u.stamp = true ↔ t.nanos < u.nanos) :=
  ⟨instantOf_stamp ht, Instant.length_stamp ht, Instant.length_stamp hu, Instant.stamp_less_iff ht hu⟩

/-- The first and the last moment that are stored. -/
theorem first_and_last_stamps :
    Instant.stamp ⟨-31622400000000000⟩ = "0000-01-01T00:00:00.000000000Z" ∧
      Instant.stamp ⟨315537897599999999999⟩ = "9999-12-31T23:59:59.999999999Z" ∧
      instantOf "0000-01-01T00:00:00.000000000Z" = ⟨-31622400000000000⟩ ∧
      Bytes.less "0000-01-01T00:00:00.000000000Z" "9999-12-31T23:59:59.999999999Z" = true := by
  have hfirst : Instant.stamp ⟨-31622400000000000⟩ = "0000-01-01T00:00:00.000000000Z" := by decide +kernel
  have hlast : Instant.stamp ⟨315537897599999999999⟩ = "9999-12-31T23:59:59.999999999Z" := by decide +kernel
  obtain ⟨hread, -, -, hless⟩ := stamps_are_isomorphic_to_instants
    (t := ⟨-31622400000000000⟩) (u := ⟨315537897599999999999⟩)
    (Instant.isStorable_iff.mpr (by decide)) (Instant.isStorable_iff.mpr (by decide))
  rw [hfirst] at hread
  rw [hfirst, hlast] at hless
  exact ⟨hfirst, hlast, hread, hless.mpr (by decide)⟩

theorem instantOf_optionalStamp {t : Instant} (h : t.IsStorable) : instantOf (optionalStamp t) = t := by
  unfold optionalStamp
  split
  next hzero =>
    have hnanos : t.nanos = 0 := by simpa [Instant.isZero] using hzero
    obtain ⟨nanos⟩ := t
    obtain rfl : nanos = 0 := hnanos
    rfl
  next => exact instantOf_stamp h

/-- A record is read back from its row. -/
theorem toRecord_ofRecord {r : RunRecord} (h : r.IsStorable) : (RunRow.ofRecord r).toRecord = r := by
  simp only [RunRow.toRecord, RunRow.ofRecord, instantOf_stamp h.1, instantOf_optionalStamp h.2]

/-- Whether the rows of runs are the records of a history, summed up run by run. -/
def Sums (rows : List RunRow) (history : List RunRecord) : Prop :=
  ∀ sweepId runId, rows.filter (·.isFor sweepId runId) =
    ((RunRecord.summary? (history.filter (·.isFor sweepId runId))).map RunRow.ofRecord).toList

/-- Tables with a record stored in them: as a new row, or over the row that its run has. -/
def Tables.store (t : Tables) (r : RunRecord) : Tables :=
  if t.hasRun r.sweepId r.runId then t.overwriteRun (.ofRecord r) else t.addRun (.ofRecord r)

theorem Tables.hasRun_eq_false {t : Tables} {sweepId runId : Bytes} :
    t.hasRun sweepId runId = false ↔ t.runs.filter (·.isFor sweepId runId) = [] := by
  rw [hasRun, List.any_eq_false, List.filter_eq_nil_iff]

/-- Overwriting a row leaves it about the run that it was about. -/
theorem Tables.filter_overwriteRun (t : Tables) (row : RunRow) (sweepId runId : Bytes) :
    (t.overwriteRun row).runs.filter (·.isFor sweepId runId) = (t.runs.filter (·.isFor sweepId runId)).map fun old =>
      if old.isFor row.sweepId row.runId then old.overwrite row else old := by
  have hsame : ((fun old : RunRow => old.isFor sweepId runId) ∘
      fun old : RunRow => if old.isFor row.sweepId row.runId then old.overwrite row else old) =
      fun old => old.isFor sweepId runId := by
    funext old
    simp only [Function.comp]
    split <;> rfl
  rw [overwriteRun, List.filter_map, hsame]

/-- A record that is stored is the latest of its history. -/
theorem Sums.store {t : Tables} {history : List RunRecord} (h : Sums t.runs history) (r : RunRecord) :
    Sums (t.store r).runs (history ++ [r]) := by
  intro sweepId runId
  have hrows := h sweepId runId
  rw [List.filter_append]
  by_cases hfor : r.isFor sweepId runId = true
  · have hkey : r.sweepId = sweepId ∧ r.runId = runId := by simpa [RunRecord.isFor] using hfor
    obtain ⟨rfl, rfl⟩ := hkey
    have hlast : [r].filter (·.isFor r.sweepId r.runId) = [r] := List.filter_eq_self.mpr (by simpa using hfor)
    rw [hlast]
    cases hsum : RunRecord.summary? (history.filter (·.isFor r.sweepId r.runId)) with
    | none =>
        have hempty : t.runs.filter (·.isFor r.sweepId r.runId) = [] := by rw [hrows, hsum]; rfl
        rw [RunRecord.summary?_eq_none.mp hsum, List.nil_append, RunRecord.summary?_single, Tables.store,
          if_neg (by simp [Tables.hasRun_eq_false.mpr hempty]), Tables.addRun, List.filter_append, hempty]
        simp [RunRow.isFor, RunRow.ofRecord]
    | some before =>
        have hone : t.runs.filter (·.isFor r.sweepId r.runId) = [RunRow.ofRecord before] := by rw [hrows, hsum]; rfl
        obtain ⟨latest, hlatest, hsweep, hrun, -⟩ := RunRecord.latest_of_summary? hsum
        have hsame : latest.sweepId = r.sweepId ∧ latest.runId = r.runId := by
          simpa [RunRecord.isFor] using (List.mem_filter.mp hlatest).2
        have hsweep : r.sweepId = before.sweepId := (hsweep.trans hsame.1).symm
        have hrun : r.runId = before.runId := (hrun.trans hsame.2).symm
        obtain ⟨after, hafter, hover⟩ := RunRecord.summary?_append hsum hsweep hrun
        have hhas : t.hasRun r.sweepId r.runId = true := by
          by_contra hnot
          rw [Tables.hasRun_eq_false.mp (Bool.eq_false_iff.mpr hnot)] at hone
          cases hone
        have hrow : (RunRow.ofRecord before).isFor r.sweepId r.runId = true := by
          simp [RunRow.isFor, RunRow.ofRecord, hsweep, hrun]
        rw [hafter, Tables.store, if_pos hhas, Tables.filter_overwriteRun, hone]
        simp only [List.map_cons, List.map_nil, Option.map_some, Option.toList_some, hover]
        exact congrArg (fun row => [row]) (if_pos hrow)
  · have hlast : [r].filter (·.isFor sweepId runId) = [] := List.filter_eq_nil_iff.mpr (by simpa using hfor)
    rw [hlast, List.append_nil, ← hrows, Tables.store]
    split
    next =>
      rw [Tables.filter_overwriteRun]
      -- No row of another run is overwritten.
      refine (List.map_congr_left fun old hold => ?_).trans (List.map_id _)
      have hkey : old.sweepId = sweepId ∧ old.runId = runId := by
        simpa [RunRow.isFor] using (List.mem_filter.mp hold).2
      have hother : ¬old.isFor r.sweepId r.runId = true := by
        intro hover
        have hover : old.sweepId = r.sweepId ∧ old.runId = r.runId := by simpa [RunRow.isFor] using hover
        exact hfor (by simp [RunRecord.isFor, ← hover.1, ← hover.2, hkey])
      exact if_neg hother
    next =>
      have hother : (RunRow.ofRecord r).isFor sweepId runId = false := Bool.eq_false_iff.mpr hfor
      simp [Tables.addRun, List.filter_append, hother]

/-- Listing everything lists the sum of each history. -/
theorem Sums.listRuns {t : Tables} {history : List RunRecord} (h : Sums t.runs history)
    (hstorable : ∀ r ∈ history, r.IsStorable) (sweepId runId : Bytes) :
    (t.listRuns .everything).filter (·.isFor sweepId runId) =
      (RunRecord.summary? (history.filter (·.isFor sweepId runId))).toList := by
  have hall : t.runs.filter (Tables.passes .everything) = t.runs := List.filter_eq_self.mpr fun _ _ => rfl
  have hsame : ((fun r : RunRecord => r.isFor sweepId runId) ∘ RunRow.toRecord) =
      fun row => row.isFor sweepId runId := rfl
  have hlisted : t.listRuns .everything = (t.runs.mergeSort (Tables.runNotAfter t.encoding)).map (·.toRecord) := by
    rw [Tables.listRuns, hall]
    rfl
  -- Sorting permutes the rows, and at most one of them is about the run.
  have hperm := (List.mergeSort_perm t.runs (Tables.runNotAfter t.encoding)).filter (·.isFor sweepId runId)
  rw [h sweepId runId] at hperm
  rw [hlisted, List.filter_map, hsame]
  cases hsum : RunRecord.summary? (history.filter (·.isFor sweepId runId)) with
  | none =>
      rw [hsum] at hperm
      rw [List.perm_nil.mp hperm]
      rfl
  | some r =>
      rw [hsum] at hperm
      obtain ⟨latest, hlatest, -, -, hstarted, hfinished⟩ := RunRecord.latest_of_summary? hsum
      obtain ⟨hstart, hfinish⟩ := hstorable latest (List.mem_filter.mp hlatest).1
      have hr : r.IsStorable := ⟨hstarted ▸ hstart, hfinished ▸ hfinish⟩
      rw [List.perm_singleton.mp hperm, List.map_singleton, toRecord_ofRecord hr]
      rfl

/-! ## Writes -/

/-- The record of a run that a write stores, if it is about one: with its forced status, without the finish time that a
start has not, and with the clock's readings for the times that are missing. -/
def recorded? (l : Ledger) : Write → Option RunRecord
  | .start run =>
    some { run with status := RunStatus.running, startedAt := (l.filled run.startedAt).1, finishedAt := .zero }
  | .finish run =>
    let (finishedAt, l) := l.filled run.finishedAt
    some { run with startedAt := (l.filled run.startedAt).1, finishedAt := finishedAt }
  | .skip run =>
    let (now, clock) := l.clock.read
    let startedAt := if run.startedAt.isZero then now else run.startedAt
    some { run with
      status := RunStatus.skipped
      startedAt := ({ l with clock := clock }.filled startedAt).1
      finishedAt := if run.finishedAt.isZero then now else run.finishedAt }
  | .beginSweep _ => none
  | .endSweep _ _ _ => none

/-- Whether a ledger can be written to. -/
def IsWritable (l : Ledger) : Prop := l.isOpen = true ∧ l.isReadOnly = false

/-- Whether a ledger takes records of a run: both identifiers are given, and in a strict ledger the sweep is known
unless the run has a row already. -/
def TakesRun (l : Ledger) (run : RunRecord) : Prop :=
  l.IsWritable ∧ run.sweepId ≠ [] ∧ run.runId ≠ [] ∧
    (l.isStrict = true → l.tables.hasSweep run.sweepId = true ∨ l.tables.hasRun run.sweepId run.runId = true)

/-- Whether a ledger takes a write. -/
def Takes (l : Ledger) : Write → Prop
  | .beginSweep sweep => l.IsWritable ∧ sweep.id ≠ [] ∧ l.tables.hasSweep sweep.id = false
  | .endSweep id _ _ => l.IsWritable ∧ l.tables.hasSweep id = true
  | .start run => l.TakesRun run
  | .finish run => (run.status = RunStatus.succeeded ∨ run.status = RunStatus.failed) ∧ l.TakesRun run
  | .skip run => l.TakesRun run

/-- How a ledger answers a write: one that it takes gives it new tables, and one that it refuses leaves it as it is, but
for readings of the clock. -/
inductive Answers (l : Ledger) (takes : Prop) (tables : Tables) : Ledger × Option Refusal → Prop where
  | taken (clock : Clock) (h : takes) : Answers l takes tables ({ l with clock := clock, tables := tables }, none)
  | refused (clock : Clock) (refusal : Refusal) (h : ¬takes) :
      Answers l takes tables ({ l with clock := clock }, some refusal)

theorem not_isWritable {l : Ledger} {activity : Bytes} {refusal : Refusal} (h : l.unwritable? activity = some refusal) :
    ¬l.IsWritable := by
  rintro ⟨hopen, hwritable⟩
  simp [unwritable?, hopen, hwritable] at h

theorem isWritable {l : Ledger} {activity : Bytes} (h : l.unwritable? activity = none) : l.IsWritable := by
  unfold unwritable? at h
  unfold IsWritable
  cases hopen : l.isOpen <;> cases hreadOnly : l.isReadOnly <;> simp [hopen, hreadOnly] at h ⊢

/-- What cannot be written is refused. -/
theorem Answers.unwritable {l held : Ledger} {takes : Prop} {tables : Tables} {activity : Bytes} {refusal : Refusal}
    (clock : Clock) (h : held.unwritable? activity = some refusal) (htakes : takes → held.IsWritable) :
    Answers l takes tables ({ l with clock := clock }, some refusal) :=
  .refused clock refusal fun htaken => not_isWritable h (htakes htaken)

/-- A reading of the clock before a write does not change the answer. -/
theorem Answers.of_clock {l : Ledger} {clock : Clock} {takes : Prop} {tables : Tables}
    {answer : Ledger × Option Refusal} (h : Answers { l with clock := clock } takes tables answer) :
    Answers l takes tables answer := by
  cases h with
  | taken clock htakes => exact .taken clock htakes
  | refused clock refusal hrefused => exact .refused clock refusal hrefused

theorem Answers.of_iff {l : Ledger} {takes takes' : Prop} {tables : Tables} {answer : Ledger × Option Refusal}
    (h : Answers l takes tables answer) (hiff : takes ↔ takes') : Answers l takes' tables answer := propext hiff ▸ h

/-- A run is stored if the ledger takes it. -/
theorem storeRun_answers (l : Ledger) (run : RunRecord) :
    Answers l (l.TakesRun run) (l.tables.store { run with startedAt := (l.filled run.startedAt).1 })
      (l.storeRun run) := by
  obtain ⟨clock, hclock⟩ := l.filled_eq run.startedAt
  unfold storeRun
  split
  next hids =>
    refine .refused l.clock _ ?_
    rintro ⟨_, hsweep, hrun, _⟩
    simp [hsweep, hrun] at hids
  next hids =>
    have hgiven : run.sweepId ≠ [] ∧ run.runId ≠ [] := by simpa using hids
    simp only [hclock]
    split
    next refusal hwrite => exact .unwritable clock hwrite And.left
    next hwrite =>
      have hwritable : l.IsWritable := isWritable hwrite
      unfold Tables.store
      dsimp only
      split
      next hhas => exact .taken clock ⟨hwritable, hgiven.1, hgiven.2, fun _ => Or.inr hhas⟩
      next hhas =>
        split
        next hknown =>
          refine .taken clock ⟨hwritable, hgiven.1, hgiven.2, fun hstrict => Or.inl ?_⟩
          simpa [hstrict] using hknown
        next hunknown =>
          refine .refused clock _ ?_
          rintro ⟨_, _, _, hstrict⟩
          have hunknown : l.isStrict = true ∧ l.tables.hasSweep run.sweepId = false := by simpa using hunknown
          rcases hstrict hunknown.1 with hsweep | hrun
          · simp [hunknown.2] at hsweep
          · exact hhas hrun

/-- A sweep is added if the ledger takes it. -/
theorem beginSweep_answers (l : Ledger) (sweep : SweepRecord) :
    ∃ row, Answers l (l.Takes (.beginSweep sweep)) (l.tables.addSweep row) (l.beginSweep sweep) := by
  obtain ⟨clock, hclock⟩ := l.filled_eq sweep.startedAt
  let status := if sweep.status.isEmpty then SweepStatus.running else sweep.status
  refine ⟨⟨sweep.id, status, sweep.config, (l.filled sweep.startedAt).1.stamp, []⟩, ?_⟩
  unfold beginSweep
  split
  next hempty =>
    refine .refused l.clock _ ?_
    rintro ⟨_, hgiven, _⟩
    exact hgiven (by simpa using hempty)
  next hgiven =>
    simp only [hclock]
    split
    next refusal hwrite => exact .unwritable clock hwrite And.left
    next hwrite =>
      split
      next hknown =>
        refine .refused clock _ ?_
        rintro ⟨_, _, hnew⟩
        simp [hnew] at hknown
      next hnew => exact .taken clock ⟨isWritable hwrite, by simpa using hgiven, by simpa using hnew⟩

/-- A sweep ends if the ledger takes its end. -/
theorem endSweep_answers (l : Ledger) (id status : Bytes) (finishedAt : Instant) :
    Answers l (l.Takes (.endSweep id status finishedAt))
      (l.tables.finishSweep id status (l.filled finishedAt).1.stamp) (l.endSweep id status finishedAt) := by
  obtain ⟨clock, hclock⟩ := l.filled_eq finishedAt
  simp only [endSweep, hclock]
  split
  next refusal hwrite => exact .unwritable clock hwrite And.left
  next hwrite =>
    split
    next hknown => exact .taken clock ⟨isWritable hwrite, hknown⟩
    next hunknown =>
      refine .refused clock _ ?_
      rintro ⟨_, hknown⟩
      exact hunknown hknown

/-- The end of a run is stored if the ledger takes it. -/
theorem finishRun_answers (l : Ledger) (run : RunRecord) : ∃ r, l.recorded? (.finish run) = some r ∧
    Answers l (l.Takes (.finish run)) (l.tables.store r) (l.finishRun run) := by
  obtain ⟨clock, hclock⟩ := l.filled_eq run.finishedAt
  let ended : RunRecord := { run with finishedAt := (l.filled run.finishedAt).1 }
  refine ⟨{ ended with startedAt := ({ l with clock := clock }.filled run.startedAt).1 }, ?_, ?_⟩
  · simp only [recorded?, hclock, ended]
  · simp only [finishRun, hclock]
    split
    next hstatus =>
      refine .refused l.clock _ ?_
      rintro ⟨hended, _⟩
      rcases hended with h | h <;> simp [h] at hstatus
    next hstatus =>
      have hended : run.status = RunStatus.succeeded ∨ run.status = RunStatus.failed := by
        simpa [imp_iff_not_or] using hstatus
      have hstored := storeRun_answers { l with clock := clock } ended
      exact hstored.of_clock.of_iff ⟨fun htakes => ⟨hended, htakes⟩, And.right⟩

/-- What a write that is taken does: the record that it stores, if any, is stored, and otherwise the rows of runs stay,
and no sweep is forgotten. -/
def Rewrites (l : Ledger) (write : Write) (tables : Tables) : Prop :=
  match l.recorded? write with
  | some r => tables = l.tables.store r
  | none => tables.runs = l.tables.runs ∧ ∀ id, l.tables.hasSweep id = true → tables.hasSweep id = true

theorem Tables.hasSweep_addSweep {t : Tables} {id : Bytes} (h : t.hasSweep id = true) (row : SweepRow) :
    (t.addSweep row).hasSweep id = true := by
  simp only [hasSweep, addSweep, List.any_append, Bool.or_eq_true]
  exact Or.inl h

theorem Tables.hasSweep_finishSweep (t : Tables) (id ended status finishedAt : Bytes) :
    (t.finishSweep ended status finishedAt).hasSweep id = t.hasSweep id := by
  have hsame : ((fun row : SweepRow => decide (row.id = id)) ∘
      fun row : SweepRow => if row.id = ended then { row with status := status, finishedAt := finishedAt } else row) =
      fun row => decide (row.id = id) := by
    funext row
    simp only [Function.comp]
    split <;> rfl
  rw [hasSweep, finishSweep, List.any_map, hsame, hasSweep]

/-- A write is taken or refused, and what it does then. -/
theorem apply_answers (l : Ledger) (write : Write) :
    ∃ tables, l.Rewrites write tables ∧ Answers l (l.Takes write) tables (l.apply write) := by
  cases write with
  | beginSweep sweep =>
      obtain ⟨row, hrow⟩ := l.beginSweep_answers sweep
      exact ⟨l.tables.addSweep row, ⟨rfl, fun _ hknown => Tables.hasSweep_addSweep hknown row⟩, hrow⟩
  | endSweep id status finishedAt =>
      refine ⟨l.tables.finishSweep id status _, ⟨rfl, fun other hknown => ?_⟩, l.endSweep_answers id status finishedAt⟩
      rw [Tables.hasSweep_finishSweep, hknown]
  | start run => exact ⟨_, rfl, l.storeRun_answers { run with status := RunStatus.running, finishedAt := .zero }⟩
  | finish run =>
      obtain ⟨r, hrecorded, hstored⟩ := l.finishRun_answers run
      exact ⟨l.tables.store r, by simp only [Rewrites, hrecorded], hstored⟩
  | skip run =>
      have hstored := storeRun_answers { l with clock := l.clock.read.2 } { run with
        status := RunStatus.skipped
        startedAt := if run.startedAt.isZero then l.clock.read.1 else run.startedAt
        finishedAt := if run.finishedAt.isZero then l.clock.read.1 else run.finishedAt }
      exact ⟨_, rfl, hstored.of_clock⟩

/-! ## Sessions -/

/-- What is done with a ledger: a write, the passing of time, which sets the clock, closing, and opening anew. -/
inductive Operation where
  | write (write : Write)
  | wait (clock : Clock)
  | close
  | reopen (clock : Clock)

/-- A ledger in use: the tree with its file, the ledger, and the records of runs that it took since it had none. -/
structure Session where
  files : Files
  ledger : Ledger
  taken : List RunRecord
deriving DecidableEq

namespace Session

/-- The session after an operation. A ledger is opened anew with its tables put back; one that is kept in no file starts
without rows, and one that cannot be opened stays closed. -/
def perform (s : Session) : Operation → Session
  | .write write =>
    match s.ledger.apply write with
    | (l, none) => { s with ledger := l, taken := s.taken ++ (s.ledger.recorded? write).toList }
    | (l, some _) => { s with ledger := l }
  | .wait clock => { s with ledger := { s.ledger with clock := clock } }
  | .close => { s with ledger := s.ledger.close }
  | .reopen clock =>
    match openFile (s.ledger.save s.files) s.ledger.path clock with
    | (files, .ok l) => ⟨files, l, if (fileName? s.ledger.path).isSome then s.taken else []⟩
    | (files, .error _) => { s with files := files, ledger := s.ledger.close }

/-- The session after some operations. -/
def run (s : Session) (operations : List Operation) : Session := operations.foldl perform s

/-- The rows of a session with the ledger of a path are the records that were taken, summed up. The name of the ledger
leads to one file, and at a plain path the ledger is strict and not read only. -/
structure Sound (path : Bytes) (s : Session) : Prop where
  path_eq : s.ledger.path = path
  sums : Sums s.ledger.tables.runs s.taken
  kept : ∀ name, fileName? path = some name → ∃ place, Keeps s.files name place
  plain : IsPlain path → s.ledger.isStrict = true ∧ s.ledger.isReadOnly = false

section

variable {path : Bytes} {s : Session}

theorem sums_nil : Sums [] [] := fun _ _ => rfl

theorem Sound.write (h : s.Sound path) (write : Write) : (s.perform (.write write)).Sound path := by
  obtain ⟨tables, hrewrites, hanswers⟩ := s.ledger.apply_answers write
  generalize hanswer : s.ledger.apply write = answer at hanswers
  cases hanswers with
  | taken clock htakes =>
      simp only [perform, hanswer]
      refine ⟨h.path_eq, ?_, h.kept, h.plain⟩
      unfold Rewrites at hrewrites
      cases hrecorded : s.ledger.recorded? write with
      | none =>
          simp only [hrecorded] at hrewrites
          simp only [hrewrites.1, Option.toList_none, List.append_nil]
          exact h.sums
      | some r =>
          simp only [hrecorded] at hrewrites
          subst hrewrites
          exact h.sums.store r
  | refused clock refusal hrefused =>
      simp only [perform, hanswer]
      exact ⟨h.path_eq, h.sums, h.kept, h.plain⟩

theorem Sound.reopen (h : s.Sound path) (clock : Clock) : (s.perform (.reopen clock)).Sound path := by
  obtain ⟨hpath, hsums, hkept, hplain⟩ := h
  rcases hopen : openFile (s.ledger.save s.files) path clock with ⟨made, ⟨reason⟩ | ⟨opened⟩⟩
  all_goals simp only [Session.perform, hpath, hopen]
  · refine ⟨hpath, hsums, fun name hname => ?_, hplain⟩
    obtain ⟨place, hkeeps⟩ := hkept name hname
    exact ⟨place, (hkeeps.save (hpath ▸ hname)).1.unopened hname hopen⟩
  · refine ⟨openFile_path hopen, ?_, fun name hname => ?_, fun hplain => openFile_plain hplain hopen⟩
    · cases hname : fileName? path with
      | some name =>
          obtain ⟨place, hkeeps⟩ := hkept name hname
          have hruns := (checked_eq_ok (hkeeps.reopened (hpath ▸ hname) (hpath ▸ hopen)).2).2
          simp only [hruns, Option.isSome_some, if_true]
          exact hsums
      | none =>
          simp only [(openFile_unkept hname hopen).2, Option.isSome_none, Bool.false_eq_true, if_false]
          exact sums_nil
    · obtain ⟨place, hkeeps⟩ := hkept name hname
      exact ⟨place, (hkeeps.reopened (hpath ▸ hname) (hpath ▸ hopen)).1⟩

theorem Sound.perform (h : s.Sound path) (operation : Operation) : (s.perform operation).Sound path := by
  cases operation with
  | write write => exact h.write write
  | wait clock => exact ⟨h.path_eq, h.sums, h.kept, h.plain⟩
  | close => exact ⟨h.path_eq, h.sums, h.kept, h.plain⟩
  | reopen clock => exact h.reopen clock

theorem Sound.run (h : s.Sound path) (operations : List Operation) : (s.run operations).Sound path := by
  induction operations generalizing s with
  | nil => exact h
  | cons operation rest ih => exact ih (h.perform operation)

end

end Session

/-- A ledger without runs is opened and used. Whenever it is open, what it lists of a run is the records of that run it
took, summed up, and nothing if there are none. A write is refused where it is not to be taken, and then changes no row
of sweeps or runs. At a plain path only runs of recorded sweeps are taken, and nothing is refused as read only. -/
theorem listing_sums_history {files made : Files} {path : Bytes} {clock : Clock} {l : Ledger}
    (hfiles : files.WellFormed) (hopen : openFile files path clock = (made, .ok l)) (hfresh : l.tables.runs = [])
    (operations : List Operation) (htimes : ∀ r ∈ (Session.run ⟨made, l, []⟩ operations).taken, r.IsStorable) :
    let s := Session.run ⟨made, l, []⟩ operations
    (s.ledger.isOpen = true → ∃ listed, s.ledger.listRuns .everything = .ok listed ∧ ∀ sweepId runId,
        listed.filter (·.isFor sweepId runId) =
          (RunRecord.summary? (s.taken.filter (·.isFor sweepId runId))).toList) ∧
      (∀ write, ((s.ledger.apply write).2 = none ↔ s.ledger.Takes write) ∧
        ((s.ledger.apply write).2 ≠ none → (s.ledger.apply write).1.tables = s.ledger.tables)) ∧
      (IsPlain path → s.ledger.isStrict = true ∧ s.ledger.isReadOnly = false) := by
  intro s
  have hstart : Session.Sound path ⟨made, l, []⟩ :=
    ⟨openFile_path hopen, hfresh ▸ Session.sums_nil, fun _ hname => openFile_keeps hfiles hopen hname,
      fun hplain => openFile_plain hplain hopen⟩
  have hsound := hstart.run operations
  refine ⟨fun hisOpen => ⟨_, if_pos hisOpen, hsound.sums.listRuns htimes⟩, fun write => ?_, hsound.plain⟩
  obtain ⟨tables, -, hanswers⟩ := s.ledger.apply_answers write
  generalize s.ledger.apply write = answer at hanswers
  cases hanswers with
  | taken clock htakes => exact ⟨iff_of_true rfl htakes, fun h => absurd rfl h⟩
  | refused clock refusal hrefused => exact ⟨iff_of_false (by rintro ⟨⟩) hrefused, fun _ => rfl⟩

/-- A run that is recorded as started, and the same run with other parameters and paths as it ended. -/
def startedRun : RunRecord :=
  ⟨"sweep", "run", 8, 2, 1000, 1, 5, [], "trace.log", "run.csc", [], [], 0, 0, [], .zero, .zero⟩

def endedRun : RunRecord :=
  { startedRun with
    nodeDistance := 9
    seed := 7
    status := RunStatus.succeeded
    tracePath := "moved.log"
    configPath := [] }

/-- A clock that ticks once a second. -/
def tickingClock : Clock := ⟨⟨1000000000⟩, 1000000000⟩

/-- A tree with the file of a ledger in its root. -/
def ledgerTree (tables : Tables) : Files := (Files.fresh []).put [("ledger" : Bytes)] (.file (.ledger tables))

theorem wellFormed_freshRoot : (Files.fresh []).WellFormed :=
  by decide +kernel

theorem get?_freshRoot : (Files.fresh []).get? [("ledger" : Bytes)] = none := by decide +kernel

theorem stat_root (files : Files) : files.stat "/" = .ok .directory := by
  have hnames : Path.names "/" = [] := by decide +kernel
  have hfits : Files.Fits "/" := by
    unfold Files.Fits
    decide +kernel
  have hstart : files.start "/" = [] := if_pos (by decide +kernel)
  rw [Files.stat, Files.resolve_of_fits hfits, hnames, hstart]
  rfl

theorem place?_ledger {files : Files} (hplace : files.get? [("ledger" : Bytes)] = none ∨
    ∃ content, files.get? [("ledger" : Bytes)] = some (.file content)) :
    place? files "/ledger" = some [("ledger" : Bytes)] := by
  have hnames : Path.names "/ledger" = [("ledger" : Bytes)] := by decide +kernel
  have hstart : files.start "/ledger" = [] := if_pos (by decide +kernel)
  have hname : ("ledger" : Bytes) ≠ Path.here ∧ ("ledger" : Bytes) ≠ Path.above ∧
      ¬Files.nameLimit < ("ledger" : Bytes).length := by decide +kernel
  have hshort : ¬pathLimit < (Path.ofComponents true [("ledger" : Bytes)]).length := by decide +kernel
  have hroot : files.get? [] = some .directory := rfl
  have hsettle : settle files linkLimit [] [("ledger" : Bytes)] = some [("ledger" : Bytes)] := by
    rw [settle, if_neg hname.1, if_neg hname.2.1, if_neg hname.2.2, List.nil_append]
    rcases hplace with hnone | ⟨content, hfile⟩
    · simp only [hroot, hnone, settle]
    · simp only [hroot, hfile, settle]
  unfold place?
  rw [hstart, hnames, hsettle]
  rcases hplace with hnone | ⟨content, hfile⟩
  · simp [hshort, hroot, hnone]
  · simp [hshort, hroot, hfile]

theorem isPlain_ledger : IsPlain "/ledger" := ⟨by decide +kernel, by decide +kernel⟩

theorem fileName?_ledger : fileName? "/ledger" = some "/ledger" := by
  rw [fileName?_plain isPlain_ledger (by decide +kernel)]
  decide +kernel

/-- A ledger in the root of a tree is opened, and what is stored of it put back. -/
theorem openFile_ledger {files : Files} {tables : Tables}
    (hstored : files.get? [("ledger" : Bytes)] = none ∧ tables = .fresh .utf8 ∨
      ∃ kept, files.get? [("ledger" : Bytes)] = some (.file (.ledger kept)) ∧ checked kept = .ok tables)
    (clock : Clock) : openFile files "/ledger" clock = (files.write [("ledger" : Bytes)] (.ledger tables),
      .ok ⟨"/ledger", tables, true, true, false, clock⟩) := by
  have hname : plainName? "/ledger" = some "/ledger" := by decide +kernel
  have hdirectory : Path.directory "/ledger" = "/" := by decide +kernel
  refine openFile_succeeds isPlain_ledger hname (hdirectory ▸ stat_root files) (place?_ledger ?_) hstored clock
  rcases hstored with ⟨hnone, -⟩ | ⟨kept, hfile, -⟩
  · exact Or.inl hnone
  · exact Or.inr ⟨_, hfile⟩

theorem get?_ledgerTree (tables : Tables) :
    (ledgerTree tables).get? [("ledger" : Bytes)] = some (.file (.ledger tables)) := by
  rw [ledgerTree, Files.get?_put _ (by simp), Function.update_self]

theorem isSole_of_shares {files : Files} (h : files.shares = []) (place : Place) : files.IsSole place := by
  simp [Files.IsSole, h]

theorem write_freshRoot (tables : Tables) :
    (Files.fresh []).write [("ledger" : Bytes)] (.ledger tables) = ledgerTree tables :=
  Files.IsSole.write (isSole_of_shares rfl _) _

theorem write_ledgerTree (kept tables : Tables) :
    (ledgerTree kept).write [("ledger" : Bytes)] (.ledger tables) = ledgerTree tables :=
  (Files.IsSole.write (isSole_of_shares rfl _) _).trans (put_put _ _ _ _)

/-- The ledger of the tree is put back and opened again. -/
theorem reopen_ledgerTree {s : Session} {tables : Tables} (hfiles : s.files = ledgerTree tables)
    (hpath : s.ledger.path = "/ledger") (hchecked : checked s.ledger.tables = .ok s.ledger.tables) (clock : Clock) :
    s.perform (.reopen clock) =
      ⟨ledgerTree s.ledger.tables, ⟨"/ledger", s.ledger.tables, true, true, false, clock⟩, s.taken⟩ := by
  have hfile : fileName? s.ledger.path = some "/ledger" := by rw [hpath, fileName?_ledger]
  have hplace := place?_ledger (Or.inr ⟨_, get?_ledgerTree tables⟩)
  have hsave : s.ledger.save s.files = ledgerTree s.ledger.tables := by
    rw [hfiles, save_eq_write hfile hplace ⟨_, get?_ledgerTree tables⟩, write_ledgerTree]
  have hopen := openFile_ledger (Or.inr ⟨_, get?_ledgerTree s.ledger.tables, hchecked⟩) clock
  rw [Session.perform, hsave, hpath, hopen, write_ledgerTree, ← hpath, hfile]
  rfl

/-- The session with the ledger of a tree that had none. -/
def freshSession : Session :=
  ⟨ledgerTree (.fresh .utf8), ⟨"/ledger", .fresh .utf8, true, true, false, tickingClock⟩, []⟩

theorem openFile_freshRoot :
    openFile (Files.fresh []) "/ledger" tickingClock = (freshSession.files, .ok freshSession.ledger) :=
  openFile_ledger (Or.inl ⟨get?_freshRoot, rfl⟩) tickingClock

/-- A run is started, and ended after its ledger was closed and opened again; a start while it is closed is refused, and
so is an end without a status. -/
def twoSittings : List Operation :=
  [.write (.beginSweep ⟨"sweep", [], [], .zero, .zero⟩), .write (.start startedRun), .close, .write (.start endedRun)] ++
    .reopen tickingClock :: [.write (.finish startedRun), .write (.finish endedRun)]

theorem twoSittings_run : (freshSession.run twoSittings).ledger.isOpen = true ∧
    (freshSession.run twoSittings).taken =
      [{ startedRun with status := RunStatus.running, startedAt := ⟨2000000000⟩ },
        { endedRun with startedAt := ⟨2000000000⟩, finishedAt := ⟨1000000000⟩ }] := by
  let first := freshSession.run
    [.write (.beginSweep ⟨"sweep", [], [], .zero, .zero⟩), .write (.start startedRun), .close, .write (.start endedRun)]
  have hfiles : first.files = ledgerTree (.fresh .utf8) := by decide +kernel
  have hpath : first.ledger.path = "/ledger" := by decide +kernel
  have hchecked : checked first.ledger.tables = .ok first.ledger.tables := by decide +kernel
  have hrun : freshSession.run twoSittings =
      (first.perform (.reopen tickingClock)).run [.write (.finish startedRun), .write (.finish endedRun)] := by
    rw [twoSittings, Session.run, List.foldl_append, List.foldl_cons]
    rfl
  rw [hrun, reopen_ledgerTree hfiles hpath hchecked]
  decide +kernel

/-- The run has the parameters with which it was started, the paths that were last given, and all else as it ended. -/
theorem two_sittings_sum_up :
    openFile (Files.fresh []) "/ledger" tickingClock = (freshSession.files, .ok freshSession.ledger) ∧
      ∃ listed, (freshSession.run twoSittings).ledger.listRuns .everything = .ok listed ∧
        listed.filter (·.isFor "sweep" "run") = [{ startedRun with
          seed := 7
          status := RunStatus.succeeded
          tracePath := "moved.log"
          startedAt := ⟨2000000000⟩
          finishedAt := ⟨1000000000⟩ }] := by
  have hall := listing_sums_history wellFormed_freshRoot openFile_freshRoot rfl twoSittings
  have hstart : (⟨freshSession.files, freshSession.ledger, []⟩ : Session) = freshSession := rfl
  obtain ⟨hisOpen, htaken⟩ := twoSittings_run
  rw [hstart, htaken] at hall
  have htimes : ∀ r ∈ [{ startedRun with status := RunStatus.running, startedAt := ⟨2000000000⟩ },
      { endedRun with startedAt := ⟨2000000000⟩, finishedAt := ⟨1000000000⟩ }], r.IsStorable := by
    unfold RunRecord.IsStorable Instant.IsStorable
    decide +kernel
  obtain ⟨listed, hlisted, hsum⟩ := (hall htimes).1 hisOpen
  refine ⟨openFile_freshRoot, listed, hlisted, (hsum "sweep" "run").trans ?_⟩
  rw [htaken]
  decide +kernel

end Ledger

end MobilitySweep
