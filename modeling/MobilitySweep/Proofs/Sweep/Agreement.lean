import MobilitySweep.Proofs.Config.Acceptance
import MobilitySweep.Proofs.Sweep.Books
import MobilitySweep.Proofs.Sweep.Opening

/-! # Report, ledger and event log agree

Whatever the schedules, the simulator and the moment of an interruption, a sweep that gets past its opening
ends with a report, rows in the ledger and lines in the event log that tell the same about every run, and
it ends without a failure exactly when every planned run succeeded or was skipped.
-/

namespace MobilitySweep

namespace Sweep

/-! ## Combinations -/

section

variable {s : Setup} {heard : Option (EventLog × Event)} {accounts : Run → Account} {w : World Ledger}

/-- The combinations still to come: their runs have blank accounts, and all others are closed. -/
def Remaining (s : Setup) (rest : List Params) (accounts : Run → Account) : Prop :=
  ∀ r ∈ s.runs, if r.params ∈ rest then accounts r = .blank else ∃ outcome, accounts r = .closed outcome true

/-- The repetitions of a combination run side by side close their accounts and leave all others. -/
theorem runCombination_ensures (hnodup : s.runs.Nodup) (hlegible : HeardIn heard (2 * s.runs.length + 2))
    (hsimulator : ∀ simulator ∈ s.simulator, simulator.KeepsFailure) (template : Option Template)
    (schedule : List Nat) {p : Params} (hp : p ∈ Plan.combinations s.config.sweep)
    (h : Books s heard accounts w) (hfailure : w.bench.failure = none)
    (hblank : ∀ r ∈ Plan.repetitions p s.config.sweep.repetitions, accounts r = .blank) :
    Steps.Ensures (fun w w' => records w' = records w) (fun _ _ => True)
      (fun fault t => fault = t.bench.failure ∧ ∃ accounts', Books s heard accounts' t ∧
        (∀ r ∈ Plan.repetitions p s.config.sweep.repetitions, ∃ outcome, accounts' r = .closed outcome true) ∧
        ∀ r, r ∉ Plan.repetitions p s.config.sweep.repetitions → accounts' r = accounts r)
      (runCombination s template schedule p) w := by
  have hrefl : ∀ w : World Ledger, records w = records w := fun _ => rfl
  let tasks := (Plan.repetitions p s.config.sweep.repetitions).map fun r =>
    (r, (task s template r : Steps (World Ledger) (Option Fault)))
  have hruns : tasks.map Prod.fst = Plan.repetitions p s.config.sweep.repetitions := by
    simp [tasks, Function.comp_def]
  have hprograms : tasks.map Prod.snd =
      (Plan.repetitions p s.config.sweep.repetitions).map (task s template) := by
    simp [tasks, Function.comp_def]
  have hmem : ∀ task ∈ tasks, task.1 ∈ Plan.repetitions p s.config.sweep.repetitions := by
    intro task htask
    rw [← hruns]
    exact List.mem_map.mpr ⟨task, htask, rfl⟩
  -- No failure is noted when the group starts, so forgetting it changes nothing.
  have hreset : Steps.Ensures (fun w w' => records w' = records w) (fun _ _ => True)
      (fun _ t => records t = records w)
      (Steps.change fun (w : World Ledger) => { w with bench := { w.bench with failure := none } }) w := by
    refine Steps.ensures_change fun t hwt => ⟨trivial, fun u htu => ?_⟩
    simp only [records, Prod.mk.injEq] at hwt htu ⊢
    simp [htu, hwt, hfailure]
  refine hreset.bind hrefl ?_
  rintro _ t ht
  refine Steps.Ensures.bind hrefl (Steps.ensures_of_eq (by rw [← hprograms])
    (Group.interleaved_follows (books_invariant hnodup hlegible) _ schedule tasks ?_ ?_ (h.congr ht) ?_)) ?_
  · rw [hruns]
    exact Plan.repetitions_nodup p _
  · intro task htask
    have hr := hmem task htask
    exact Plan.mem_runs.mpr ⟨Plan.mem_repetitions hr ▸ hp, Plan.mem_repetitions hr ▸ hr⟩
  · intro task htask
    obtain ⟨r, hr, rfl⟩ := List.mem_map.mp htask
    rw [hblank r hr]
    exact task_follows s hsimulator template r
  rintro _ u ⟨accounts', hbooks, hclosed, hothers⟩
  refine Steps.ensures_look (fun _ => trivial) fun v huv x hvx => ⟨?_, accounts', ?_, ?_, ?_⟩
  · exact (congrArg (·.2.2.2) hvx).symm
  · exact hbooks.congr (hvx.trans huv)
  · intro r hr
    exact hclosed (r, task s template r) (List.mem_map.mpr ⟨r, hr, rfl⟩)
  · intro r hr
    exact hothers r (by rwa [hruns])

/-- The combinations that are left close the accounts of their runs up to the first failure, and there is
one exactly when not all runs ended well. -/
theorem runCombinations_ensures (hnodup : s.runs.Nodup)
    (hlegible : HeardIn heard (2 * s.runs.length + 2))
    (hsimulator : ∀ simulator ∈ s.simulator, simulator.KeepsFailure)
    (hrepetitions : ∀ p, Plan.repetitions p s.config.sweep.repetitions ≠ []) (template : Option Template)
    (schedules : List (List Nat)) (rest : List Params) (hrest : rest.Nodup)
    (hsub : ∀ p ∈ rest, p ∈ Plan.combinations s.config.sweep)
    (h : Books s heard accounts w) (hfailure : w.bench.failure = none)
    (hremaining : Remaining s rest accounts) :
    Steps.Ensures (fun w w' => records w' = records w) (fun _ _ => True)
      (fun fault t => ∃ accounts', Books s heard accounts' t ∧
        (∀ r ∈ s.runs, accounts' r = .blank ∨ ∃ outcome, accounts' r = .closed outcome true) ∧
        (fault = none ↔ ∀ r ∈ s.runs, (accounts' r).counted.isGood = true))
      (runCombinations s template schedules rest) w := by
  have hrefl : ∀ w : World Ledger, records w = records w := fun _ => rfl
  induction rest generalizing schedules accounts w with
  | nil =>
      intro t hwt
      have hclean := List.all_eq_true.mp (h.failure.mp hfailure)
      have hclosed : ∀ r ∈ s.runs, ∃ outcome, accounts r = .closed outcome true := by
        simpa [Remaining] using hremaining
      refine ⟨accounts, h.congr hwt, fun r hr => Or.inr (hclosed r hr), ?_⟩
      simp only [true_iff]
      intro r hr
      obtain ⟨outcome, hr'⟩ := hclosed r hr
      have hgood := hclean r hr
      rw [hr'] at hgood ⊢
      exact hgood
  | cons p rest ih =>
      obtain ⟨hfresh, hrest⟩ := List.nodup_cons.mp hrest
      have hp := hsub p List.mem_cons_self
      have hblank : ∀ r ∈ Plan.repetitions p s.config.sweep.repetitions, accounts r = .blank := by
        intro r hr
        have hparams := Plan.mem_repetitions hr
        have hmem : r ∈ s.runs := Plan.mem_runs.mpr ⟨hparams ▸ hp, hparams ▸ hr⟩
        simpa [Remaining, hparams] using hremaining r hmem
      have hsettled : ∀ r ∈ s.runs, accounts r = .blank ∨ ∃ outcome, accounts r = .closed outcome true := by
        intro r hr
        have := hremaining r hr
        split at this
        next => exact Or.inl this
        next => exact Or.inr this
      unfold runCombinations
      refine ((Steps.keeps_look _).ensures (fun _ _ => id) w).bind hrefl ?_
      intro interrupted t ht
      split
      next =>
        -- The next combination has a run, and that run is not taken up.
        refine Steps.ensures_pure fun u htu => ⟨accounts, h.congr (htu.trans ht), hsettled, ?_⟩
        obtain ⟨r, hr⟩ := List.exists_mem_of_ne_nil _ (hrepetitions p)
        have hparams := Plan.mem_repetitions hr
        have hmem : r ∈ s.runs := Plan.mem_runs.mpr ⟨hparams ▸ hp, hparams ▸ hr⟩
        simp only [reduceCtorEq, false_iff, not_forall]
        refine ⟨r, hmem, ?_⟩
        rw [hblank r hr]
        decide
      next =>
        have hfailure' : t.bench.failure = none := (congrArg (·.2.2.2) ht).trans hfailure
        refine (runCombination_ensures hnodup hlegible hsimulator template (schedules.headD []) hp
          (h.congr ht) hfailure' hblank).bind hrefl ?_
        rintro fault u ⟨hfault, accounts', hbooks, hclosed, hothers⟩
        cases fault with
        | some fault =>
            refine Steps.ensures_pure fun v huv => ⟨accounts', hbooks.congr huv, ?_, ?_⟩
            · intro r hr
              by_cases hin : r ∈ Plan.repetitions p s.config.sweep.repetitions
              · exact Or.inr (hclosed r hin)
              · rw [hothers r hin]
                exact hsettled r hr
            · have hdirty : ¬ (s.runs.all fun r => (accounts' r).isClean) = true := by
                rw [← hbooks.failure, ← hfault]
                simp
              simp only [List.all_eq_true, not_forall] at hdirty
              obtain ⟨r, hr, hdirty⟩ := hdirty
              simp only [reduceCtorEq, false_iff, not_forall]
              refine ⟨r, hr, fun hgood => hdirty ?_⟩
              simp [Account.isClean, hgood]
        | none =>
            refine ih schedules.tail hrest (fun q hq => hsub q (List.mem_cons_of_mem p hq)) hbooks
              hfault.symm ?_
            intro r hr
            have hmem := (Plan.mem_runs.mp hr).2
            by_cases hparams : r.params = p
            · rw [if_neg (hparams ▸ hfresh)]
              exact hclosed r (hparams ▸ hmem)
            · have hout : r ∉ Plan.repetitions p s.config.sweep.repetitions :=
                fun hin => hparams (Plan.mem_repetitions hin)
              rw [hothers r hout]
              simpa [hparams] using hremaining r hr

/-! ## The whole sweep -/

/-- The last event of a sweep, with its counts. -/
def Finishes (report : Report) (e : Event) : Prop :=
  e.kind = ("sweep_finished" : Bytes) ∧ ∃ (status : Bytes) (elapsed : Int), e.fields =
    [(("status" : Bytes), Json.text status), ("succeeded", .ofInt64 report.succeeded),
      ("skipped", .ofInt64 report.skipped), ("failed", .ofInt64 report.failed), ("elapsed_ms", .ofInt elapsed)]

/-- Whether a ledger counts as many runs of each kind as a report, and none that is under way. -/
structure Report.Matches (r : Report) (counts : SweepCounts) : Prop where
  succeeded : r.succeeded.toInt = counts.succeeded
  failed : r.failed.toInt = counts.failed
  skipped : r.skipped.toInt = counts.skipped
  running : counts.running = 0
  total : counts.total = counts.succeeded + counts.failed + counts.skipped

/-- What is on record of a finished sweep, given the outcome of every planned run: the report and the ledger count the
runs by their outcomes. -/
structure Accounted (s : Setup) (outcome : Run → Outcome) (w : World Ledger) (report : Report) (fault : Option Fault) :
    Prop where
  total : report.total = Int64.ofNat s.runs.length
  counts : (⟨report.succeeded, report.skipped, report.failed⟩ : Tally) = tallyOf s.runs outcome
  rows : (w.keeper.tables.statuses s.sweepId).Perm (rowsOf s.runs fun r => (outcome r).status?)
  summary :
    let count := fun o => s.runs.countP fun r => outcome r = o
    w.keeper.summary s.sweepId = .ok ⟨s.sweepId, count .succeeded + count .failed + count .skipped, 0,
      count .succeeded, count .failed, count .skipped⟩
  verdict : fault = none ↔ ∀ r ∈ s.runs, (outcome r).isGood = true

/-- What the event log was told of a finished sweep, compared with the log that the sweep started from: its beginning,
the runs by their outcomes, and its end. -/
structure Narrated (s : Setup) (log : EventLog) (outcome : Run → Outcome) (w : World Ledger) (report : Report) :
    Prop where
  events : ∃ log' first middle last, w.events = some log' ∧ EventLog.Told log log' (first :: middle ++ [last]) ∧
    first.kind = ("sweep_started" : Bytes) ∧ Finishes report last ∧
    (∀ e ∈ middle, ∃ r ∈ s.runs, e.runId = r.id) ∧
    ∀ r ∈ s.runs, (middle.filter (·.runId = r.id)).map (·.kind) = (outcome r).kinds

/-- What the three records of a finished sweep say to each other. -/
structure Agreement (s : Setup) (log : EventLog) (outcome : Run → Outcome) (w : World Ledger) (report : Report)
    (fault : Option Fault) : Prop extends Accounted s outcome w report fault, Narrated s log outcome w report where
  bounded : report.succeeded.toInt + report.skipped.toInt + report.failed.toInt ≤ report.total.toInt
  summarised : ∃ counts, w.keeper.summary s.sweepId = .ok counts ∧ report.Matches counts
  ended : fault = none ↔ report.failed.toInt = 0 ∧
    report.succeeded.toInt + report.skipped.toInt = report.total.toInt

/-- Statuses of outcomes counted over the rows are outcomes counted over the runs. -/
theorem countP_rowsOf (runs : List Run) (outcome : Run → Outcome) (o : Outcome) {status : Bytes}
    (hstatus : ∀ o', o'.status? = some status ↔ o' = o) :
    (rowsOf runs fun r => (outcome r).status?).countP (·.2 = status) = runs.countP (outcome · = o) := by
  induction runs with
  | nil => rfl
  | cons r runs ih =>
      simp only [rowsOf, List.filterMap_cons] at ih ⊢
      cases hrow : (outcome r).status? with
      | none =>
          have hne : outcome r ≠ o := fun h => by simpa [hrow] using (hstatus (outcome r)).mpr h
          simp [hne, ih]
      | some row =>
          have hiff : row = status ↔ outcome r = o := by rw [← hstatus, hrow, Option.some.injEq]
          simp [List.countP_cons, ih, hiff]

theorem Outcome.status?_ne_running (o : Outcome) : o.status? ≠ some RunStatus.running := by
  cases o <;> decide +kernel

theorem countP_running_rowsOf (runs : List Run) (outcome : Run → Outcome) :
    (rowsOf runs fun r => (outcome r).status?).countP (·.2 = RunStatus.running) = 0 := by
  rw [List.countP_eq_zero]
  rintro ⟨name, status⟩ hmem
  obtain ⟨r, -, -, hrow⟩ := mem_rowsOf.mp hmem
  have hne : status ≠ RunStatus.running := fun h => (outcome r).status?_ne_running (h ▸ hrow)
  simpa using hne

/-- Every run has one outcome. -/
theorem countP_outcomes (runs : List Run) (outcome : Run → Outcome) :
    runs.countP (outcome · = .succeeded) + runs.countP (outcome · = .skipped) +
      runs.countP (outcome · = .failed) + runs.countP (outcome · = .untouched) = runs.length := by
  induction runs with
  | nil => rfl
  | cons r runs ih =>
      cases h : outcome r <;> simp [h] <;> omega

theorem length_rowsOf (runs : List Run) (outcome : Run → Outcome) :
    (rowsOf runs fun r => (outcome r).status?).length =
      runs.countP (outcome · = .succeeded) + runs.countP (outcome · = .failed) +
        runs.countP (outcome · = .skipped) := by
  have hlength : (rowsOf runs fun r => (outcome r).status?).length =
      runs.countP (fun r => ¬ decide (outcome r = .untouched) = true) := by
    rw [rowsOf, List.length_filterMap_eq_countP]
    refine List.countP_congr fun r _ => ?_
    cases outcome r <;> simp [Outcome.status?]
  have hall := List.length_eq_countP_add_countP (fun r => decide (outcome r = .untouched)) (l := runs)
  have hsum := countP_outcomes runs outcome
  omega

/-- Every account is blank or closed. -/
def Settled (s : Setup) (accounts : Run → Account) : Prop :=
  ∀ r ∈ s.runs, ∃ outcome noted, accounts r = .closed outcome noted

theorem Settled.row {accounts : Run → Account} (h : Settled s accounts) {r : Run} (hr : r ∈ s.runs) :
    (accounts r).row = (accounts r).counted.status? := by
  obtain ⟨outcome, noted, hr⟩ := h r hr
  rw [hr]
  rfl

theorem Settled.told {accounts : Run → Account} (h : Settled s accounts) {r : Run} (hr : r ∈ s.runs) :
    (accounts r).told = (accounts r).counted.kinds := by
  obtain ⟨outcome, noted, hr⟩ := h r hr
  rw [hr]
  rfl

/-- In settled books the ledger has a row for every run that was taken up. -/
theorem Books.rows_settled (h : Books s heard accounts w) (hsettled : Settled s accounts) :
    (w.keeper.tables.statuses s.sweepId).Perm (rowsOf s.runs fun r => (accounts r).counted.status?) := by
  refine h.rows.trans (List.Perm.of_eq (List.filterMap_congr fun r hr => ?_))
  exact congrArg _ (hsettled.row hr)

/-- In settled books the ledger counts the runs by their outcomes. -/
theorem Books.summary_settled (h : Books s heard accounts w) (hsettled : Settled s accounts) :
    let count := fun outcome => s.runs.countP fun r => (accounts r).counted = outcome
    w.keeper.summary s.sweepId = .ok ⟨s.sweepId, count .succeeded + count .failed + count .skipped, 0,
      count .succeeded, count .failed, count .skipped⟩ := by
  have hrows := h.rows_settled hsettled
  rw [Ledger.summary_eq h.accepts.isOpen, hrows.length_eq, hrows.countP_eq, hrows.countP_eq, hrows.countP_eq,
    hrows.countP_eq, countP_running_rowsOf, length_rowsOf,
    countP_rowsOf s.runs _ .succeeded (by rintro (_ | _ | _ | _) <;> decide +kernel),
    countP_rowsOf s.runs _ .failed (by rintro (_ | _ | _ | _) <;> decide +kernel),
    countP_rowsOf s.runs _ .skipped (by rintro (_ | _ | _ | _) <;> decide +kernel)]

/-- No number of runs wraps around if the number of all of them does not. -/
theorem toInt_tallyOf {runs : List Run} (hfew : runs.length < 2 ^ 63) (outcome : Run → Outcome) :
    (tallyOf runs outcome).succeeded.toInt = runs.countP (outcome · = .succeeded) ∧
      (tallyOf runs outcome).skipped.toInt = runs.countP (outcome · = .skipped) ∧
      (tallyOf runs outcome).failed.toInt = runs.countP (outcome · = .failed) := by
  have hexact : ∀ o, (Int64.ofNat (runs.countP (outcome · = o))).toInt = runs.countP (outcome · = o) := fun o =>
    Int64.toInt_ofNat_of_lt (List.countP_le_length.trans_lt hfew)
  exact ⟨hexact .succeeded, hexact .skipped, hexact .failed⟩

/-- The records agree if the runs can be counted in a word. -/
theorem Accounted.agreement {log : EventLog} {outcome : Run → Outcome} {report : Report} {fault : Option Fault}
    (h : Accounted s outcome w report fault) (hevents : Narrated s log outcome w report)
    (hfew : s.runs.length < 2 ^ 63) : Agreement s log outcome w report fault := by
  obtain ⟨hsucceeded, hskipped, hfailed⟩ := toInt_tallyOf hfew outcome
  rw [← h.counts] at hsucceeded hskipped hfailed
  have htotal : report.total.toInt = s.runs.length := by rw [h.total, Int64.toInt_ofNat_of_lt hfew]
  have hsum := countP_outcomes s.runs outcome
  refine ⟨h, hevents, ?_, ⟨_, h.summary, hsucceeded, hfailed, hskipped, rfl, rfl⟩, ?_⟩
  · rw [hsucceeded, hskipped, hfailed, htotal]
    omega
  · have hgood : (∀ r ∈ s.runs, (outcome r).isGood = true) ↔
        s.runs.countP (outcome · = .failed) = 0 ∧ s.runs.countP (outcome · = .untouched) = 0 := by
      simp only [List.countP_eq_zero, decide_eq_true_eq, ← forall₂_and]
      refine forall₂_congr fun r _ => ?_
      cases outcome r <;> simp [Outcome.isGood]
    rw [h.verdict, hgood, hsucceeded, hskipped, hfailed, htotal]
    omega

/-! ## Opening and closing the books -/

/-- Others leave the records alone. -/
abbrev Undisturbed (w w' : World Ledger) : Prop := records w' = records w

theorem record_ensures (logger : Log.Logger) (write : Ledger.Write) (w : World Ledger) :
    Steps.Ensures Undisturbed (fun _ _ => True)
      (fun _ t => records t = ((w.keeper.apply write).1, w.events, w.tally, w.bench.failure))
      (World.record logger write) w := by
  intro t hwt
  refine ⟨trivial, ?_⟩
  have hrecords : records { t with keeper := (t.keeper.apply write).1 } =
      ((w.keeper.apply write).1, w.events, w.tally, w.bench.failure) := by
    simp only [Undisturbed, records, Prod.mk.injEq] at hwt ⊢
    simp [hwt]
  dsimp only
  cases (Recorder.record t.keeper write).2 with
  | some fault => exact ((keeps_note _ _ _ _).ensures (fun _ _ => id) _).weaken fun _ u hu => hu.trans hrecords
  | none => exact fun u hu => hu.trans hrecords

theorem event_ensures (kind runId : Bytes) (fields : List (Bytes × Json)) (w : World Ledger) :
    Steps.Ensures Undisturbed (fun _ _ => True)
      (fun _ t => records t =
        (w.keeper, w.events.map (·.told kind runId fields), w.tally, w.bench.failure))
      (World.event kind runId fields) w := by
  refine Steps.ensures_change fun t hwt => ⟨trivial, fun u htu => ?_⟩
  refine Eq.trans htu ((records_told t kind runId fields).trans ?_)
  simp only [Undisturbed, records, Prod.mk.injEq] at hwt
  obtain ⟨hkeeper, hevents, htally, hfailure⟩ := hwt
  rw [hkeeper, hevents, htally, hfailure]

/-- Whether the event log that is followed, if any, is the open one that a sweep starts with, and its clock gives times
that can be written down for so many events. -/
structure Follows (followed events : Option EventLog) (count : Nat) : Prop where
  same : ∀ log, followed = some log → events = some log
  isOpen : ∀ log, followed = some log → log.isOpen = true
  legible : ∀ log, followed = some log → log.clock.Legible count

/-- A sweep starts with blank accounts. -/
theorem announce_ensures (s : Setup) (startedAt : Instant) {ledger : Ledger} (hledger : ledger.Awaits s.sweepId)
    {followed events : Option EventLog} (hfollowed : Follows followed events (2 * s.runs.length + 2))
    (hw : records w = (ledger, events, ⟨0, 0, 0⟩, none)) :
    Steps.Ensures Undisturbed (fun _ _ => True)
      (fun _ t => t.bench.failure = none ∧ ∃ heard, heard.map Prod.fst = followed ∧
        (∀ log first, heard = some (log, first) → first.kind = ("sweep_started" : Bytes)) ∧
          Books s heard (fun _ => .blank) t)
      (announce s startedAt) w := by
  have hrefl : ∀ w : World Ledger, records w = records w := fun _ => rfl
  simp only [records, Prod.mk.injEq] at hw
  obtain ⟨hkeeper, hevents, htally, hfailure⟩ := hw
  unfold announce
  refine (record_ensures s.logger _ w).bind hrefl ?_
  intro _ t ht
  refine ((keeps_note _ _ _ _).ensures (fun _ _ => id) t).bind hrefl ?_
  intro _ u hu
  refine (event_ensures _ _ _ u).weaken ?_
  intro _ v hv
  replace hu := hu.trans ht
  simp only [records, Prod.mk.injEq] at hu hv
  obtain ⟨hkeeper', hevents', htally', hfailure'⟩ := hu
  obtain ⟨hkeeper'', hevents'', htally'', hfailure''⟩ := hv
  obtain ⟨haccepts, hstatuses⟩ := Ledger.Awaits.beginSweep
    ⟨s.sweepId, SweepStatus.running, _, startedAt, .zero⟩ hledger
  have hfields : Json.haveEncodable [("combinations", .ofNat (Plan.combinations s.config.sweep).length),
      ("runs", .ofInt64 (totalRuns s.config)), ("workers", .ofInt64 s.config.sweep.workers),
      ("seed", .ofInt64 s.base)] = true := by simp
  have hnofault : v.bench.failure = none := by rw [hfailure'', hfailure', hfailure]
  -- The beginning of the sweep is the first event of a log that is followed.
  have hheard : ∃ heard : Option (EventLog × Event), heard.map Prod.fst = followed ∧
      ∀ log first, heard = some (log, first) → first.kind = ("sweep_started" : Bytes) ∧
        ∃ log' events, v.events = some log' ∧ EventLog.Told log log' (first :: events) ∧
          Tells s.runs (fun _ => Account.blank.told) events := by
    cases followed with
    | none => exact ⟨none, rfl, by rintro _ _ ⟨⟩⟩
    | some log =>
        obtain ⟨first, hkind, htold⟩ : ∃ first : Event, first.kind = ("sweep_started" : Bytes) ∧
            EventLog.Told log (log.told "sweep_started" [] _) [first] := by
          obtain ⟨time, htold⟩ := (EventLog.told_nil (hfollowed.isOpen log rfl)).log (hfollowed.legible log rfl)
            (by simp) "sweep_started" [] hfields
          exact ⟨_, rfl, htold⟩
        refine ⟨some (log, first), rfl, ?_⟩
        rintro _ _ ⟨⟩
        refine ⟨hkind, _, [], ?_, htold, by simp, fun r _ => rfl, by simp [Account.blank],
          fun r _ => by simp [Account.blank]⟩
        rw [hevents'', hevents', hevents, hfollowed.same log rfl]
        rfl
  obtain ⟨heard, hfst, hheard⟩ := hheard
  refine ⟨hnofault, heard, hfst, fun log first h => (hheard log first h).1, ?_, ?_,
    fun log first h => (hheard log first h).2, ?_, ?_⟩
  · rw [hkeeper'', hkeeper', hkeeper]
    exact haccepts
  · rw [hkeeper'', hkeeper', hkeeper]
    have hempty : (rowsOf s.runs fun _ => Account.blank.row) = [] := by simp [rowsOf, Account.blank]
    rw [hempty]
    exact List.Perm.of_eq hstatuses
  · rw [htally'', htally', htally]
    simp [tallyOf, Account.blank]
  · simp [hnofault, Account.isClean, Account.blank]

theorem totalRuns_eq (s : Setup) (h : 0 ≤ s.config.sweep.repetitions.toInt) :
    totalRuns s.config = Int64.ofNat s.runs.length := by
  have hcount : Int64.ofNat s.config.sweep.repetitions.toInt.toNat = s.config.sweep.repetitions := by
    apply Int64.toInt_inj.mp
    have hbound := Int64.toInt_lt s.config.sweep.repetitions
    rw [Int64.toInt_ofNat_of_lt (by omega)]
    omega
  rw [totalRuns, Setup.runs, Plan.length_runs, Int64.ofNat_mul, hcount]

/-- The report, the summary of the ledger and the last event are drawn from the same tally. -/
theorem conclude_ensures (s : Setup) (startedAt : Instant) (fault : Option Fault)
    (hrepetitions : 0 ≤ s.config.sweep.repetitions.toInt)
    (hlegible : HeardIn heard (2 * s.runs.length + 2)) (h : Books s heard accounts w)
    (hfirst : ∀ log first, heard = some (log, first) → first.kind = ("sweep_started" : Bytes)) (hsettled : Settled s accounts)
    (hverdict : fault = none ↔ ∀ r ∈ s.runs, (accounts r).counted.isGood = true) :
    Steps.Ensures Undisturbed (fun _ _ => True)
      (fun report t => Accounted s (fun r => (accounts r).counted) t report fault ∧
        ∀ log first, heard = some (log, first) → Narrated s log (fun r => (accounts r).counted) t report)
      (conclude s startedAt fault) w := by
  have hrefl : ∀ w : World Ledger, records w = records w := fun _ => rfl
  unfold conclude
  have hlook : Steps.Ensures Undisturbed (fun _ _ => True)
      (fun tally t => tally = w.tally ∧ records t = records w)
      (Steps.look fun (world : World Ledger) => world.tally) w := by
    refine Steps.ensures_look (fun _ => trivial) fun t hwt u htu => ⟨?_, htu.trans hwt⟩
    exact congrArg (·.2.2.1) hwt
  refine hlook.bind hrefl ?_
  rintro _ t ⟨rfl, ht⟩
  refine (keeps_now.ensures (fun _ _ => id) t).bind hrefl ?_
  intro ended u hu
  refine ((Steps.keeps_look _).ensures (fun _ _ => id) u).bind hrefl ?_
  intro interrupted v hv
  refine (keeps_now.ensures (fun _ _ => id) v).bind hrefl ?_
  intro finishedAt x hx
  refine (record_ensures s.logger _ x).bind hrefl ?_
  intro _ y hy
  refine (event_ensures _ _ _ y).bind hrefl ?_
  intro _ z hz
  refine ((keeps_note _ _ _ _).ensures (fun _ _ => id) z).bind hrefl ?_
  intro _ z' hz'
  refine Steps.ensures_pure fun last hlast => ?_
  have hstart := hx.trans (hv.trans (hu.trans ht))
  have hend := hlast.trans (hz'.trans hz)
  simp only [records, Prod.mk.injEq] at hstart hy hend
  obtain ⟨hkeeper, hevents, -, -⟩ := hstart
  obtain ⟨hkeeper', hevents', -, -⟩ := hy
  obtain ⟨hkeeper'', hevents'', -, -⟩ := hend
  -- The end of the sweep leaves the rows of its runs as they are.
  obtain ⟨hopen, hruns⟩ := w.keeper.endSweep_runs s.sweepId
    (if fault.isNone then SweepStatus.complete else if interrupted then SweepStatus.cancelled
      else SweepStatus.failed) finishedAt
  have hledger : last.keeper.isOpen = w.keeper.isOpen ∧ last.keeper.tables.runs = w.keeper.tables.runs := by
    rw [hkeeper'', hkeeper', hkeeper]
    exact ⟨hopen, hruns⟩
  have hstatuses : last.keeper.tables.statuses s.sweepId = w.keeper.tables.statuses s.sweepId := by
    rw [Ledger.Tables.statuses, hledger.2, Ledger.Tables.statuses]
  have hsummary : last.keeper.summary s.sweepId = w.keeper.summary s.sweepId := by
    rw [Ledger.summary_eq (hledger.1.trans h.accepts.isOpen), Ledger.summary_eq h.accepts.isOpen, hstatuses]
  refine ⟨⟨totalRuns_eq s hrepetitions, h.tally, ?_, hsummary.trans (h.summary_settled hsettled), hverdict⟩, ?_⟩
  · rw [hstatuses]
    exact h.rows_settled hsettled
  intro log first hheard
  obtain ⟨log', middle, hlog, htold, htells⟩ := h.events log first hheard
  have hroom : (first :: middle).length < 2 * s.runs.length + 2 := by
    have := htells.length_le
    simp only [List.length_cons]
    omega
  have hfields : Json.haveEncodable [("status", .text (if fault.isNone then SweepStatus.complete
        else if interrupted then SweepStatus.cancelled else SweepStatus.failed)),
      ("succeeded", .ofInt64 w.tally.succeeded), ("skipped", .ofInt64 w.tally.skipped),
      ("failed", .ofInt64 w.tally.failed),
      ("elapsed_ms", .ofInt (ended.since startedAt).milliseconds)] = true := by simp
  obtain ⟨time, htold'⟩ := htold.log (hlegible log first hheard) hroom "sweep_finished" [] hfields
  refine ⟨_, first, middle, _, ?_, htold', hfirst log first hheard, ?_, htells.about, ?_⟩
  · rw [hevents'', hevents', hevents, hlog]
    rfl
  · exact ⟨rfl, _, _, rfl⟩
  · intro r hr
    rw [htells.kinds r hr]
    exact hsettled.told hr

end

/-- All is on record at the end of a sweep that gets past its opening, whatever happens to it on the way. -/
theorem run_ensures {s : Setup} (hvalid : s.config.validate = .ok ())
    (hdistances : (s.config.sweep.nodeDistances.getD []).Nodup)
    (hcouples : (s.config.sweep.swapCouples.getD []).Nodup)
    (hshuffles : (s.config.sweep.shuffleDistances.getD []).Nodup)
    (hsimulator : ∀ simulator ∈ s.simulator, simulator.KeepsFailure)
    (files : Files) {ledger : Ledger} (hledger : ledger.Awaits s.sweepId) {followed events : Option EventLog}
    (hfollowed : Follows followed events (2 * s.runs.length + 2)) (clock : Clock)
    (schedules : List (List Nat)) (hbegins : Begins s files) :
    Steps.Ensures World.Interruption (fun _ _ => True)
      (fun result t => ∃ outcome, Accounted s outcome t result.1 result.2 ∧
        ∀ log, followed = some log → Narrated s log outcome t result.1)
      (run s schedules) (World.start files ledger events clock) := by
  have hrepetitions := (Config.accepted hvalid).repetitions
  have hcombinations := Plan.combinations_nodup s.config.sweep hdistances hcouples hshuffles
  have hnodup : s.runs.Nodup := Plan.runs_nodup _ hcombinations
  have hsome : ∀ p, Plan.repetitions p s.config.sweep.repetitions ≠ [] := by
    intro p hempty
    have hlength := congrArg List.length hempty
    simp only [Plan.repetitions, List.length_map, List.length_range, List.length_nil] at hlength
    omega
  have hstage : ∀ w w' : World Ledger, World.Interruption w w' → Undisturbed w w' :=
    fun w w' h => congrArg Prod.fst h.stage
  have hrefl : ∀ w : World Ledger, World.Interruption w w := World.interruption_refl
  refine run_opens (fun hnot => absurd hbegins hnot) fun _ startedAt template t _ ht => ?_
  -- The opening touches neither ledger nor event log; the accounts start blank with the announcement.
  have hrecords : records t = (ledger, events, ⟨0, 0, 0⟩, none) := congrArg Prod.fst ht
  refine ((announce_ensures s startedAt hledger hfollowed hrecords).mono hstage (fun _ _ => id)
    (fun _ _ => id)).bind hrefl ?_
  rintro _ x ⟨hfailure, heard, hfst, hfirst, hbooks⟩
  have hlegible : HeardIn heard (2 * s.runs.length + 2) := fun log first h =>
    hfollowed.legible log (by rw [← hfst, h]; rfl)
  have hremaining : Remaining s (Plan.combinations s.config.sweep) fun _ => .blank := by
    intro r hr
    rw [if_pos (Plan.mem_runs.mp hr).1]
  refine ((runCombinations_ensures hnodup hlegible hsimulator hsome template schedules _ hcombinations
    (fun _ => id) hbooks hfailure hremaining).mono hstage (fun _ _ => id) (fun _ _ => id)).bind hrefl ?_
  rintro fault y ⟨accounts, hbooks, hends, hverdict⟩
  -- A run that no round has come to is untouched, with nothing told of it.
  have hsettled : Settled s accounts := by
    intro r hr
    rcases hends r hr with hblank | ⟨outcome, hclosed⟩
    · exact ⟨.untouched, false, hblank⟩
    · exact ⟨outcome, true, hclosed⟩
  refine ((conclude_ensures s startedAt fault (by omega) hlegible hbooks hfirst hsettled hverdict).mono hstage
    (fun _ _ => id) (fun _ _ => id)).bind_stable ?_
  intro report z hz
  refine Steps.ensures_pure fun z' hzz' => ⟨_, (hz z' hzz').1, fun log hlog => ?_⟩
  obtain ⟨⟨log, first⟩, hheard, rfl⟩ := Option.map_eq_some_iff.mp (hfst.trans hlog)
  exact (hz z' hzz').2 log first hheard

/-- A sweep without simulator and template, given its values of the first axis and its repetitions. -/
def plainSweep (distances : List Int64) (repetitions : Int64) : Setup where
  config := { Config.standard with
    sweep := ⟨some distances, some [0], some [1], repetitions, 2, some 1, false⟩
    generator := ⟨1, 0, 1⟩ }
  simulator := none
  logger := .ofName []
  sweepId := "sweep"
  base := 1

/-- A clock that ticks once a second. -/
def secondsClock : Clock := ⟨.zero, 1000000000⟩

/-- A ledger without any rows. -/
def freshLedger : Ledger := ⟨"ledger.db", Ledger.Tables.fresh .utf8, true, true, false, secondsClock⟩

/-- An event log without any lines. -/
def freshEvents : EventLog := ⟨"events/events.jsonl", "sweep", true, secondsClock, []⟩

end Sweep

end MobilitySweep
