import MobilitySweep.Proofs.Ledger.History

/-! # Consistent ledgers

Whatever is done with a ledger, refused writes and reopenings included, it has one row for each of its runs, with a
status that fits its times, and the summary of a sweep counts what is listed of it. That a run belongs to a recorded
sweep is only certain as long as the path of the ledger has no question mark.
-/

namespace MobilitySweep

/-- Whether the readings of a clock that a write may take are times. -/
def Clock.IsSet (c : Clock) : Prop := c.next ≠ .zero ∧ c.read.2.next ≠ .zero

instance (c : Clock) : Decidable c.IsSet := inferInstanceAs (Decidable (_ ∧ _))

theorem Instant.isZero_iff {t : Instant} : t.isZero = true ↔ t = .zero := by
  obtain ⟨nanos⟩ := t
  simp [isZero, zero]

/-- Whether a record can stand for a run: it has one of the four statuses, it has a finish time unless the run is
running, and it has a start time. -/
structure RunRecord.IsEntry (r : RunRecord) : Prop where
  status : RunStatus.isStatus r.status = true
  finished : r.finishedAt = .zero ↔ r.status = RunStatus.running
  started : r.startedAt ≠ .zero

namespace Ledger

/-! ## Records that are taken -/

section

variable {l : Ledger}

theorem filled_ne_zero (h : l.clock.next ≠ .zero) (t : Instant) : (l.filled t).1 ≠ .zero := by
  unfold filled
  split
  next => exact h
  next hgiven => exact fun hzero => hgiven (Instant.isZero_iff.mpr hzero)

/-- After one reading, a clock that is set still has a time for the next. -/
theorem filled_next_ne_zero (h : l.clock.IsSet) (t : Instant) : (l.filled t).2.clock.next ≠ .zero := by
  unfold filled
  split
  next => exact h.2
  next => exact h.1

/-- The three writes about runs fill in times by different rules, and all of them come to an entry. -/
theorem recorded_isEntry (hclock : l.clock.IsSet) {write : Write} {r : RunRecord}
    (hrecorded : l.recorded? write = some r) (htakes : l.Takes write) : r.IsEntry := by
  cases write with
  | beginSweep | endSweep => cases hrecorded
  | start run =>
      obtain rfl := Option.some.inj hrecorded
      exact ⟨by dsimp only; decide +kernel, iff_of_true rfl rfl, filled_ne_zero hclock.1 _⟩
  | finish run =>
      obtain rfl := Option.some.inj hrecorded
      have hstatus : RunStatus.isStatus run.status = true ∧ run.status ≠ RunStatus.running := by
        rcases htakes.1 with hstatus | hstatus <;> rw [hstatus] <;> decide +kernel
      refine ⟨hstatus.1, iff_of_false (filled_ne_zero hclock.1 _) hstatus.2, ?_⟩
      exact filled_ne_zero (filled_next_ne_zero hclock _) _
  | skip run =>
      obtain rfl := Option.some.inj hrecorded
      have hstatus : RunStatus.isStatus RunStatus.skipped = true ∧ RunStatus.skipped ≠ RunStatus.running := by
        decide +kernel
      have hfilled : ∀ t : Instant, (if t.isZero then l.clock.read.1 else t) ≠ .zero := by
        intro t
        split
        next => exact hclock.1
        next hgiven => exact fun hzero => hgiven (Instant.isZero_iff.mpr hzero)
      exact ⟨hstatus.1, iff_of_false (hfilled _) hstatus.2, filled_ne_zero hclock.2 _⟩

end

namespace Session

/-- Whether the clock is set whenever something is written. -/
def IsTimed (s : Session) : List Operation → Prop
  | [] => True
  | .write write :: rest => s.ledger.clock.IsSet ∧ (s.perform (.write write)).IsTimed rest
  | operation :: rest => (s.perform operation).IsTimed rest

instance decidableIsTimed : ∀ (operations : List Operation) (s : Session), Decidable (s.IsTimed operations)
  | [], _ => isTrue trivial
  | .write _ :: rest, _ => have := decidableIsTimed rest; inferInstanceAs (Decidable (_ ∧ _))
  | .wait _ :: rest, _ => decidableIsTimed rest _
  | .close :: rest, _ => decidableIsTimed rest _
  | .reopen _ :: rest, _ => decidableIsTimed rest _

section

variable {s : Session}

theorem taken_write (hclock : s.ledger.clock.IsSet) (htaken : ∀ r ∈ s.taken, r.IsEntry) (write : Write) :
    ∀ r ∈ (s.perform (.write write)).taken, r.IsEntry := by
  obtain ⟨tables, -, hanswers⟩ := s.ledger.apply_answers write
  generalize hanswer : s.ledger.apply write = answer at hanswers
  cases hanswers with
  | taken clock htakes =>
      simp only [perform, hanswer]
      intro r hr
      rcases List.mem_append.mp hr with hr | hr
      · exact htaken r hr
      · exact recorded_isEntry hclock (Option.mem_toList.mp hr) htakes
  | refused clock refusal hrefused =>
      simp only [perform, hanswer]
      exact htaken

theorem taken_reopen (htaken : ∀ r ∈ s.taken, r.IsEntry) (clock : Clock) :
    ∀ r ∈ (s.perform (.reopen clock)).taken, r.IsEntry := by
  intro r hr
  simp only [perform] at hr
  split at hr
  next =>
    dsimp only at hr
    split at hr
    next => exact htaken r hr
    next => cases hr
  next => exact htaken r hr

theorem isTimed_reopen {clock : Clock} {rest : List Operation} :
    s.IsTimed (.reopen clock :: rest) ↔ (s.perform (.reopen clock)).IsTimed rest := Iff.rfl

theorem IsTimed.append {before after : List Operation} (h : s.IsTimed before) (hafter : (s.run before).IsTimed after) :
    s.IsTimed (before ++ after) := by
  induction before generalizing s with
  | nil => exact hafter
  | cons operation rest ih =>
      cases operation with
      | write write => exact ⟨h.1, ih h.2 hafter⟩
      | wait clock => exact ih h hafter
      | close => exact ih h hafter
      | reopen clock => exact ih h hafter

/-- Every record that a session has taken is an entry. -/
theorem taken_run (operations : List Operation) (htimed : s.IsTimed operations) (htaken : ∀ r ∈ s.taken, r.IsEntry) :
    ∀ r ∈ (s.run operations).taken, r.IsEntry := by
  induction operations generalizing s with
  | nil => exact htaken
  | cons operation rest ih =>
      cases operation with
      | write write => exact ih htimed.2 (taken_write htimed.1 htaken write)
      | wait clock => exact ih htimed htaken
      | close => exact ih htimed htaken
      | reopen clock => exact ih htimed (taken_reopen htaken clock)

end

end Session

/-! ## Rows -/

section

variable {rows : List RunRow} {history : List RunRecord}

/-- No two rows are about the same run. -/
theorem Sums.keys_nodup (h : Sums rows history) : (rows.map fun row => (row.sweepId, row.runId)).Nodup := by
  rw [List.nodup_iff_count_le_one]
  rintro ⟨sweepId, runId⟩
  have hcount : (rows.map fun row => (row.sweepId, row.runId)).count (sweepId, runId) =
      (rows.filter (·.isFor sweepId runId)).length := by
    rw [List.count, List.countP_map, ← List.countP_eq_length_filter]
    refine List.countP_congr fun row _ => ?_
    simp [RunRow.isFor]
  rw [hcount, h sweepId runId]
  cases RunRecord.summary? (history.filter (·.isFor sweepId runId)) <;> simp

/-- Every row is what a record became that has status and times of one that was taken. -/
theorem Sums.exists_record (h : Sums rows history) {row : RunRow} (hrow : row ∈ rows) :
    ∃ r, row = .ofRecord r ∧ ∃ latest ∈ history, r.status = latest.status ∧ r.startedAt = latest.startedAt ∧
      r.finishedAt = latest.finishedAt := by
  have hsummed : row ∈ rows.filter (·.isFor row.sweepId row.runId) :=
    List.mem_filter.mpr ⟨hrow, by simp [RunRow.isFor]⟩
  rw [h row.sweepId row.runId, Option.mem_toList, Option.map_eq_some_iff] at hsummed
  obtain ⟨r, hsum, hr⟩ := hsummed
  obtain ⟨first, latest, -, hlatest, rfl⟩ := RunRecord.summary?_eq_some hsum
  exact ⟨_, hr.symm, latest, (List.mem_filter.mp (List.mem_of_getLast? hlatest)).1, rfl, rfl, rfl⟩

/-- Every row is read back as an entry. -/
theorem Sums.isEntry (h : Sums rows history) (hstorable : ∀ r ∈ history, r.IsStorable)
    (hentries : ∀ r ∈ history, r.IsEntry) {row : RunRow} (hrow : row ∈ rows) : row.toRecord.IsEntry := by
  obtain ⟨r, rfl, latest, hlatest, hstatus, hstarted, hfinished⟩ := h.exists_record hrow
  obtain ⟨hstart, hfinish⟩ := hstorable latest hlatest
  have hr : r.IsStorable := ⟨hstarted ▸ hstart, hfinished ▸ hfinish⟩
  rw [toRecord_ofRecord hr]
  obtain ⟨hof, hends, hstarts⟩ := hentries latest hlatest
  exact ⟨hstatus ▸ hof, by rw [hfinished, hstatus, hends], hstarted ▸ hstarts⟩

end

namespace Tables

variable {t : Tables}

/-- Listing everything lists every row once, in some order. -/
theorem listRuns_perm (t : Tables) : (t.listRuns .everything).Perm (t.runs.map (·.toRecord)) := by
  have hall : t.runs.filter (passes .everything) = t.runs := List.filter_eq_self.mpr fun _ _ => rfl
  rw [listRuns, hall]
  exact (List.mergeSort_perm _ _).map _

/-- Without a limit, as many runs are listed of a sweep and a status as are counted. -/
theorem length_listRuns {sweepId status : Bytes} (hsweep : sweepId ≠ []) (hstatus : status ≠ []) {limit : Int64}
    (hlimit : ¬0 < limit) : (t.listRuns ⟨sweepId, status, limit⟩).length = t.countStatus sweepId status := by
  have hsweep : sweepId.isEmpty = false := by simpa using hsweep
  have hstatus : status.isEmpty = false := by simpa using hstatus
  rw [listRuns, List.length_map, limited, if_neg hlimit, (List.mergeSort_perm _ _).length_eq, countStatus,
    List.countP_eq_length_filter]
  refine congrArg List.length (List.filter_congr fun row _ => ?_)
  simp [passes, hsweep, hstatus]

/-- A status is exactly one of the four. -/
theorem one_of_isStatus {status : Bytes} (h : RunStatus.isStatus status = true) :
    (if status = RunStatus.running then 1 else 0) + (if status = RunStatus.succeeded then 1 else 0) +
      (if status = RunStatus.failed then 1 else 0) + (if status = RunStatus.skipped then 1 else 0) = 1 := by
  have hall : ∀ status ∈ RunStatus.all,
      (if status = RunStatus.running then 1 else 0) + (if status = RunStatus.succeeded then 1 else 0) +
        (if status = RunStatus.failed then 1 else 0) + (if status = RunStatus.skipped then 1 else 0) = 1 := by
    decide +kernel
  exact hall status (List.contains_iff_mem.mp h)

/-- The runs of a sweep are those of the four statuses together. -/
theorem total_eq_sum (h : ∀ row ∈ t.runs, RunStatus.isStatus row.status = true) (sweepId : Bytes) :
    t.runs.countP (·.sweepId = sweepId) = t.countStatus sweepId RunStatus.running +
      t.countStatus sweepId RunStatus.succeeded + t.countStatus sweepId RunStatus.failed +
        t.countStatus sweepId RunStatus.skipped := by
  simp only [countStatus]
  generalize t.runs = rows at h
  induction rows with
  | nil => rfl
  | cons row rest ih =>
      obtain ⟨hrow, hrest⟩ := List.forall_mem_cons.mp h
      have hone := one_of_isStatus hrow
      simp only [List.countP_cons, ih hrest]
      by_cases hsweep : row.sweepId = sweepId
      · simp only [hsweep, decide_true, Bool.true_and, if_true, decide_eq_true_eq]
        omega
      · simp [hsweep]

/-- Whether every run belongs to a recorded sweep. -/
def Housed (t : Tables) : Prop := ∀ row ∈ t.runs, t.hasSweep row.sweepId = true

theorem hasSweep_iff {id : Bytes} : t.hasSweep id = true ↔ ∃ row ∈ t.sweeps, row.id = id := by
  simp [hasSweep, List.any_eq_true]

/-- A record of a run that is stored belongs to a recorded sweep if the run has a row already, or else if its sweep
is known. -/
theorem Housed.store (h : t.Housed) {r : RunRecord}
    (hknown : t.hasSweep r.sweepId = true ∨ t.hasRun r.sweepId r.runId = true) : (t.store r).Housed := by
  have hsweeps : (t.store r).sweeps = t.sweeps := by
    unfold Tables.store
    split <;> rfl
  intro row hrow
  rw [hasSweep, hsweeps]
  unfold Tables.store at hrow
  split at hrow
  next =>
    -- Overwriting a row leaves it with its sweep.
    obtain ⟨old, hold, rfl⟩ := List.mem_map.mp hrow
    have hsame : (if old.isFor (RunRow.ofRecord r).sweepId (RunRow.ofRecord r).runId then
        old.overwrite (.ofRecord r) else old).sweepId = old.sweepId := by
      split <;> rfl
    rw [hsame]
    exact h old hold
  next hnew =>
    rcases List.mem_append.mp hrow with hrow | hrow
    · exact h row hrow
    · obtain rfl := List.mem_singleton.mp hrow
      exact hknown.resolve_right hnew

theorem Housed.of_runs {t' : Tables} (h : t.Housed) (hruns : t'.runs = t.runs)
    (hsweeps : ∀ id, t.hasSweep id = true → t'.hasSweep id = true) : t'.Housed := by
  intro row hrow
  rw [hruns] at hrow
  exact hsweeps _ (h row hrow)

end Tables

namespace Session

/-- The runs of a session that is strict belong to recorded sweeps. -/
structure Housed (s : Session) : Prop where
  strict : s.ledger.isStrict = true
  housed : s.ledger.tables.Housed

section

variable {path : Bytes} {s : Session}

theorem Housed.write (h : s.Housed) (write : Write) : (s.perform (.write write)).Housed := by
  obtain ⟨tables, hrewrites, hanswers⟩ := s.ledger.apply_answers write
  generalize hanswer : s.ledger.apply write = answer at hanswers
  cases hanswers with
  | taken clock htakes =>
      simp only [perform, hanswer]
      refine ⟨h.strict, ?_⟩
      unfold Rewrites at hrewrites
      cases write with
      | beginSweep | endSweep => exact h.housed.of_runs hrewrites.1 hrewrites.2
      | start run =>
          subst hrewrites
          exact h.housed.store (htakes.2.2.2 h.strict)
      | finish run =>
          subst hrewrites
          exact h.housed.store (htakes.2.2.2.2 h.strict)
      | skip run =>
          subst hrewrites
          exact h.housed.store (htakes.2.2.2 h.strict)
  | refused clock refusal hrefused =>
      simp only [perform, hanswer]
      exact ⟨h.strict, h.housed⟩

theorem Housed.reopen (hmark : ('?' : UInt8) ∉ path) (hsound : s.Sound path) (h : s.Housed) (clock : Clock) :
    (s.perform (.reopen clock)).Housed := by
  obtain ⟨hpath, -, hkept, -⟩ := hsound
  rcases hopen : openFile (s.ledger.save s.files) path clock with ⟨made, ⟨reason⟩ | ⟨opened⟩⟩
  all_goals simp only [Session.perform, hpath, hopen]
  · exact ⟨h.strict, h.housed⟩
  · refine ⟨(openFile_unmarked hmark hopen).1, ?_⟩
    cases hname : fileName? path with
    | some name =>
        obtain ⟨place, hkeeps⟩ := hkept name hname
        obtain ⟨hsweeps, hruns⟩ := checked_eq_ok (hkeeps.reopened (hpath ▸ hname) (hpath ▸ hopen)).2
        refine h.housed.of_runs hruns fun id hknown => ?_
        rwa [Tables.hasSweep, hsweeps]
    | none =>
        intro row hrow
        rw [(openFile_unkept hname hopen).2] at hrow
        cases hrow

theorem Housed.run (hmark : ('?' : UInt8) ∉ path) (hsound : s.Sound path) (h : s.Housed)
    (operations : List Operation) : (s.run operations).Housed := by
  induction operations generalizing s with
  | nil => exact h
  | cons operation rest ih =>
      refine ih (hsound.perform operation) ?_
      cases operation with
      | write write => exact h.write write
      | wait clock => exact ⟨h.strict, h.housed⟩
      | close => exact ⟨h.strict, h.housed⟩
      | reopen clock => exact h.reopen hmark hsound clock

end

end Session

/-! ## Consistency -/

/-- What holds of a ledger at all times: no two of its runs are the same, all of them are entries, and the summary of a
sweep counts what is listed of it by status. -/
structure Consistent (l : Ledger) : Prop where
  unique : ((l.tables.listRuns .everything).map fun r => (r.sweepId, r.runId)).Nodup
  entries : ∀ r ∈ l.tables.listRuns .everything, r.IsEntry
  counted : l.isOpen = true → ∀ sweepId ≠ [], ∀ limit : Int64, ¬0 < limit → ∃ running succeeded failed skipped,
    l.listRuns ⟨sweepId, RunStatus.running, limit⟩ = .ok running ∧
      l.listRuns ⟨sweepId, RunStatus.succeeded, limit⟩ = .ok succeeded ∧
      l.listRuns ⟨sweepId, RunStatus.failed, limit⟩ = .ok failed ∧
      l.listRuns ⟨sweepId, RunStatus.skipped, limit⟩ = .ok skipped ∧
      l.summary sweepId = .ok ⟨sweepId, running.length + succeeded.length + failed.length + skipped.length,
        running.length, succeeded.length, failed.length, skipped.length⟩

theorem Sums.consistent {l : Ledger} {history : List RunRecord} (h : Sums l.tables.runs history)
    (hstorable : ∀ r ∈ history, r.IsStorable) (hentries : ∀ r ∈ history, r.IsEntry) : l.Consistent := by
  have hperm := l.tables.listRuns_perm
  have hrows : ∀ row ∈ l.tables.runs, row.toRecord.IsEntry := fun _ => h.isEntry hstorable hentries
  refine ⟨?_, ?_, ?_⟩
  · rw [(hperm.map _).nodup_iff, List.map_map]
    exact h.keys_nodup
  · intro r hr
    obtain ⟨row, hrow, rfl⟩ := List.mem_map.mp (hperm.mem_iff.mp hr)
    exact hrows row hrow
  · intro hopen sweepId hsweep limit hlimit
    have hstatuses : RunStatus.running ≠ [] ∧ RunStatus.succeeded ≠ [] ∧ RunStatus.failed ≠ [] ∧
        RunStatus.skipped ≠ [] := by decide +kernel
    obtain ⟨hrunning, hsucceeded, hfailed, hskipped⟩ := hstatuses
    refine ⟨_, _, _, _, if_pos hopen, if_pos hopen, if_pos hopen, if_pos hopen, ?_⟩
    rw [Tables.length_listRuns hsweep hrunning hlimit, Tables.length_listRuns hsweep hsucceeded hlimit,
      Tables.length_listRuns hsweep hfailed hlimit, Tables.length_listRuns hsweep hskipped hlimit,
      ← Tables.total_eq_sum (fun row hrow => (hrows row hrow).status)]
    exact if_pos hopen

theorem Tables.Housed.listed {t : Tables} (h : t.Housed) :
    ∀ r ∈ t.listRuns .everything, ∃ sweep ∈ t.listSweeps 0, sweep.id = r.sweepId := by
  intro r hr
  obtain ⟨row, hrow, rfl⟩ := List.mem_map.mp (t.listRuns_perm.mem_iff.mp hr)
  obtain ⟨sweep, hsweep, hid⟩ := hasSweep_iff.mp (h row hrow)
  refine ⟨sweep.toRecord, List.mem_map_of_mem ?_, hid⟩
  rw [limited, if_neg (by decide)]
  exact (List.mergeSort_perm _ _).mem_iff.mpr hsweep

/-- A ledger without runs is opened and used: writes are taken or refused, it is closed and opened again. As long as its
clock is set and the times are of years with four digits, it is consistent at every moment. If its path has no question
mark, moreover, every run belongs to a recorded sweep. -/
theorem ledger_stays_consistent {files made : Files} {path : Bytes} {clock : Clock} {l : Ledger}
    (hfiles : files.WellFormed) (hopen : openFile files path clock = (made, .ok l)) (hfresh : l.tables.runs = [])
    (operations : List Operation) (htimed : Session.IsTimed ⟨made, l, []⟩ operations)
    (htimes : ∀ r ∈ (Session.run ⟨made, l, []⟩ operations).taken, r.IsStorable) :
    let s := Session.run ⟨made, l, []⟩ operations
    s.ledger.Consistent ∧ (('?' : UInt8) ∉ path →
      ∀ r ∈ s.ledger.tables.listRuns .everything, ∃ sweep ∈ s.ledger.tables.listSweeps 0, sweep.id = r.sweepId) := by
  intro s
  have hstart : Session.Sound path ⟨made, l, []⟩ :=
    ⟨openFile_path hopen, hfresh ▸ Session.sums_nil, fun _ hname => openFile_keeps hfiles hopen hname,
      fun hplain => openFile_plain hplain hopen⟩
  have hentries := Session.taken_run operations htimed (by simp)
  refine ⟨(hstart.run operations).sums.consistent htimes hentries, fun hmark => ?_⟩
  have hhoused : Session.Housed ⟨made, l, []⟩ := by
    refine ⟨(openFile_unmarked hmark hopen).1, fun row hrow => ?_⟩
    rw [hfresh] at hrow
    cases hrow
  exact (hhoused.run hmark hstart operations).housed.listed

/-- What is done in the first of two sittings, and in the second. -/
def firstSitting : List Operation :=
  [.write (.beginSweep ⟨"sweep", [], [], .zero, .zero⟩), .write (.start startedRun), .close, .write (.start endedRun)]

def secondSitting : List Operation := [.write (.finish startedRun), .write (.finish endedRun)]

theorem twoSittings_isTimed : freshSession.IsTimed twoSittings := by
  have hfiles : (freshSession.run firstSitting).files = ledgerTree (.fresh .utf8) := by decide +kernel
  have hpath : (freshSession.run firstSitting).ledger.path = "/ledger" := by decide +kernel
  have hchecked : checked (freshSession.run firstSitting).ledger.tables =
      .ok (freshSession.run firstSitting).ledger.tables := by decide +kernel
  have hfirst : freshSession.IsTimed firstSitting := by decide +kernel
  have hsecond : ((freshSession.run firstSitting).perform (.reopen tickingClock)).IsTimed secondSitting := by
    rw [reopen_ledgerTree hfiles hpath hchecked]
    decide +kernel
  have hsplit : twoSittings = firstSitting ++ .reopen tickingClock :: secondSitting := rfl
  rw [hsplit]
  refine Session.IsTimed.append hfirst ?_
  rw [Session.isTimed_reopen]
  exact hsecond

/-- The ledger of the two sittings, in a tree that had none, is consistent after them. -/
theorem two_sittings_stay_consistent :
    openFile (Files.fresh []) "/ledger" tickingClock = (freshSession.files, .ok freshSession.ledger) ∧
      (freshSession.run twoSittings).taken.length = 2 ∧ (freshSession.run twoSittings).ledger.Consistent ∧
        ∀ r ∈ (freshSession.run twoSittings).ledger.tables.listRuns .everything,
          ∃ sweep ∈ (freshSession.run twoSittings).ledger.tables.listSweeps 0, sweep.id = r.sweepId := by
  have hmark : ('?' : UInt8) ∉ ("/ledger" : Bytes) := by decide +kernel
  have hall := ledger_stays_consistent wellFormed_freshRoot openFile_freshRoot rfl twoSittings
  have hstart : (⟨freshSession.files, freshSession.ledger, []⟩ : Session) = freshSession := rfl
  rw [hstart] at hall
  obtain ⟨-, htaken⟩ := twoSittings_run
  have htimes : ∀ r ∈ (freshSession.run twoSittings).taken, r.IsStorable := by
    rw [htaken]
    unfold RunRecord.IsStorable Instant.IsStorable
    decide +kernel
  obtain ⟨hconsistent, hhoused⟩ := hall twoSittings_isTimed htimes
  refine ⟨openFile_freshRoot, ?_, hconsistent, hhoused hmark⟩
  rw [htaken]
  rfl

/-! ## A path with a question mark -/

/-- Behind a question mark of the path, the parameter that ties runs to sweeps becomes part of another one. -/
def markedAddress : Address where
  file := some ("/ledger" : Bytes)
  access := .create
  immutable := false
  model := none
  logged := true
  locks := false
  pragmas := [("busy_timeout(5000)" : Bytes), ("journal_mode(WAL)" : Bytes)]
  afterwards := none

/-- Parameters that ask for pragmas only leave the rest of the address as it is. -/
theorem ofPath_pragmas {parameters : Bytes} {entries : List (Bytes × Bytes)} {pragmas : List Bytes}
    (hparse : Query.parse (parameters ++ Address.ownParameters) = .ok entries)
    (hsystem : Address.systemOf entries = .ok none) (hlock : Query.first? "_txlock" entries = none)
    (hafter : Address.afterwards? entries = none)
    (hpragmas : Address.ordered (Query.values "_pragma" entries) = pragmas) :
    Address.ofPath (("/ledger" : Bytes) ++ ('?' : UInt8) :: parameters) = .ok { markedAddress with pragmas := pragmas } := by
  have hname : ('?' : UInt8) ∉ ("/ledger" : Bytes) ∧ ("/ledger" : Bytes).head? = some ('/' : UInt8) ∧
      ("/ledger" : Bytes).takeWhile (· ≠ 0) = "/ledger" := by decide +kernel
  have huri : ("file:" : Bytes).isPrefixOf "/ledger" = false := by decide +kernel
  have hkept : (("/ledger" : Bytes).isEmpty || ("/ledger" : Bytes) = Address.inMemory) = false := by decide +kernel
  have hsystems : Pragma.isAmong ["memdb", "unix-none", "unix-dotfile"] [] = false := by decide +kernel
  obtain ⟨hmark, hfirst, hname⟩ := hname
  have hsource : ("/ledger" : Bytes) ++ ('?' : UInt8) :: parameters ++ Address.ownParameters =
      ("/ledger" : Bytes) ++ ('?' : UInt8) :: (parameters ++ Address.ownParameters) := by simp
  have hmarked : ((("/ledger" : Bytes) ++ ('?' : UInt8) :: (parameters ++ Address.ownParameters)).head? =
      some ('?' : UInt8)) = False := by
    refine eq_false ?_
    rw [List.head?_append, hfirst, Option.some_or]
    decide +kernel
  unfold Address.ofPath
  simp only [hsource, hmarked, Address.cut_marked hmark, hparse, hsystem, hlock, hafter, huri, hpragmas, hname, hkept,
    Bool.false_eq_true, if_false, Except.mapError, bind, Except.bind, pure, Except.pure]
  simp [markedAddress, Query.values, hsystems]

theorem ofPath_marked : Address.ofPath "/ledger?x" = .ok markedAddress := by
  let entries : List (Bytes × Bytes) :=
    [("x?_pragma", "foreign_keys(1)"), ("_pragma", "journal_mode(WAL)"), ("_pragma", "busy_timeout(5000)")]
  have hpath : ("/ledger?x" : Bytes) = ("/ledger" : Bytes) ++ ('?' : UInt8) :: "x" := by decide +kernel
  have hparse : Query.parse (("x" : Bytes) ++ Address.ownParameters) = .ok entries := by decide +kernel
  have hvalues : Query.values "_pragma" entries =
      [("journal_mode(WAL)" : Bytes)] ++ [("busy_timeout(5000)" : Bytes)] := by decide +kernel
  have hgraphic : ∀ pragma ∈ [("journal_mode(WAL)" : Bytes)], ∀ b ∈ pragma, Bytes.IsGraphic b := by
    simp only [Bytes.forall_isGraphic_iff]
    decide +kernel
  have hkeys : [("journal_mode(WAL)" : Bytes)].map (·.map Bytes.lowerByte) = [("journal_mode(wal)" : Bytes)] := by
    decide +kernel
  rw [hpath, ofPath_pragmas hparse (by decide +kernel) (by decide +kernel) (by decide +kernel) rfl, hvalues,
    Address.ordered_waiting hgraphic hkeys (by decide +kernel) (by decide +kernel)]
  rfl

theorem connect_marked {scene : Setting.Scene} (haddress : scene.address = markedAddress)
    (hfound : scene.found = .nothing) : connect scene = .ok { Connection.fresh with known := true } := by
  have hjournal := run_journalMode (by rw [haddress]; rfl) (by simp [hfound]) (c := Connection.fresh) rfl
  refine Runs.connect ?_ (by rw [haddress]; rfl)
  rw [haddress]
  exact .cons (run_busyTimeout scene .fresh) (.cons hjournal (.nil _))

/-- A ledger is opened in the root of a tree that has none. -/
theorem openFile_root {path : Bytes} {address : Address} {l : Ledger} (hpath : path.isEmpty = false)
    (hdirectory : Path.directory path = "/") (haddress : Address.ofPath path = .ok address)
    (hfile : address.file = some ("/ledger" : Bytes)) (hmodel : address.model = none) (haccess : address.access = .create)
    {clock : Clock} (hstored : ∀ isThere, ofStored path clock ⟨address, .nothing, isThere⟩ = .ok l) :
    openFile (Files.fresh []) path clock = (ledgerTree l.tables, .ok l) := by
  have hroot : ("/" : Bytes) ≠ Path.here := by decide +kernel
  have hplace := place?_ledger (Or.inl get?_freshRoot)
  simp only [openFile, hpath, hdirectory, if_neg hroot, Files.mkdirAll_of_stat (stat_root _), haddress,
    Bool.false_eq_true, if_false]
  simp only [openAddress, hfile, hplace, get?_freshRoot, hmodel, haccess, Ledger.stored, hstored, Option.map_none,
    Option.getD_none, Bool.not_true, ne_eq, not_true, decide_false, Bool.and_false, Bool.false_eq_true, if_false,
    write_freshRoot]

/-- A ledger behind a question mark does not tie runs to sweeps. -/
theorem openFile_marked : openFile (Files.fresh []) "/ledger?x" tickingClock =
    (ledgerTree (.fresh .utf8), .ok ⟨"/ledger?x", .fresh .utf8, true, false, false, tickingClock⟩) := by
  have hstored : ∀ isThere, ofStored "/ledger?x" tickingClock ⟨markedAddress, .nothing, isThere⟩ =
      .ok ⟨"/ledger?x", .fresh .utf8, true, false, false, tickingClock⟩ := by
    intro isThere
    unfold ofStored
    rw [connect_marked rfl rfl]
    rfl
  exact openFile_root (by decide +kernel) (by decide +kernel) ofPath_marked rfl rfl rfl hstored

/-- A run is started of a sweep that was never begun. -/
theorem marked_path_admits_stray_run :
    let opened : Session :=
      ⟨ledgerTree (.fresh .utf8), ⟨"/ledger?x", .fresh .utf8, true, false, false, tickingClock⟩, []⟩
    let s := opened.run [.write (.start startedRun)]
    openFile (Files.fresh []) "/ledger?x" tickingClock = (opened.files, .ok opened.ledger) ∧
      opened.IsTimed [.write (.start startedRun)] ∧ (∀ r ∈ s.taken, r.IsStorable) ∧
        (s.ledger.tables.listRuns .everything).map (·.sweepId) = [("sweep" : Bytes)] ∧
          s.ledger.tables.listSweeps 0 = [] := by
  intro opened s
  have hruns : s.ledger.tables.runs.map (·.sweepId) = [("sweep" : Bytes)] := by decide +kernel
  have hsweeps : s.ledger.tables.sweeps = [] := by decide +kernel
  refine ⟨openFile_marked, by decide +kernel, ?_, ?_, ?_⟩
  · unfold RunRecord.IsStorable Instant.IsStorable
    decide +kernel
  · have hperm := s.ledger.tables.listRuns_perm.map (·.sweepId)
    rw [List.map_map] at hperm
    exact List.perm_singleton.mp (hruns ▸ hperm)
  · rw [Tables.listSweeps, hsweeps, List.mergeSort_nil]
    rfl

end Ledger

end MobilitySweep
