import MobilitySweep.Proofs.Concurrency.Groups
import MobilitySweep.Proofs.Ledger.Rows
import MobilitySweep.Proofs.Log.Telling
import MobilitySweep.Proofs.Text.Readback
import MobilitySweep.Sweep.Execution
import MobilitySweep.Sweep.Simulator

/-! # Accounts of runs

A run shows in three records: the ledger has a row for it, the event log tells of it, and it is counted.
The account of a run says how far each of them is. A run opens its account, moves it entry by entry and
closes it with its outcome.
-/

namespace MobilitySweep

/-- A simulator leaves alone what a group of runs has noted of its failures. -/
def Simulator.KeepsFailure (simulator : Simulator) : Prop :=
  ∀ config log, (simulator config log).Keeps Bench.failure

theorem SimulatorCommand.simulator_keepsFailure (s : SimulatorCommand) : s.simulator.KeepsFailure :=
  fun _ _ _ => ⟨rfl, trivial⟩

theorem ScriptedSimulator.simulator_keepsFailure (s : ScriptedSimulator) : s.simulator.KeepsFailure := by
  intro config log bench
  refine ⟨?_, trivial⟩
  simp only [simulate, writeLog]
  repeat' split
  all_goals rfl

namespace Sweep

/-- How a run ended, if it was taken up at all. -/
inductive Outcome where
  | untouched
  | skipped
  | succeeded
  | failed
deriving DecidableEq, Repr

namespace Outcome

/-- The status in the ledger. -/
def status? : Outcome → Option Bytes
  | untouched => none
  | skipped => some RunStatus.skipped
  | succeeded => some RunStatus.succeeded
  | failed => some RunStatus.failed

/-- The kinds of the events in order. -/
def kinds : Outcome → List Bytes
  | untouched => []
  | skipped => ["run_skipped"]
  | succeeded => ["run_started", "run_finished"]
  | failed => ["run_started", "run_failed"]

/-- Whether the sweep may go on. -/
def isGood : Outcome → Bool
  | untouched | failed => false
  | skipped | succeeded => true

/-- One more run with an outcome. -/
def addTo : Outcome → Tally → Tally
  | untouched, tally => tally
  | skipped, tally => { tally with skipped := tally.skipped + 1 }
  | succeeded, tally => { tally with succeeded := tally.succeeded + 1 }
  | failed, tally => { tally with failed := tally.failed + 1 }

end Outcome

/-- What the records say about a run: the status of its row, the kinds of its events, as what it is
counted, and whether its group has noted the result. -/
structure Account where
  row : Option Bytes
  told : List Bytes
  counted : Outcome
  noted : Bool

/-- The account of a run before it is taken up. -/
def Account.blank : Account := ⟨none, [], .untouched, false⟩

/-- The account of a run with an outcome. -/
def Account.closed (outcome : Outcome) (noted : Bool) : Account :=
  ⟨outcome.status?, outcome.kinds, outcome, noted⟩

/-- Whether nothing noted about a run stops the sweep. -/
def Account.isClean (a : Account) : Bool := !a.noted || a.counted.isGood

variable {κ : Type}

/-- The part of the world that accounts are about. -/
def records (w : World κ) : κ × Option EventLog × Tally × Option Fault :=
  (w.keeper, w.events, w.tally, w.bench.failure)

/-- Of the records an event is for the event log only, and what becomes of that does not depend on the files. -/
theorem records_told (w : World κ) (kind runId : Bytes) (fields : List (Bytes × Json)) :
    records (w.told kind runId fields) =
      (w.keeper, w.events.map (·.told kind runId fields), w.tally, w.bench.failure) := by
  unfold World.told
  cases hevents : w.events with
  | none => simp [records, hevents]
  | some events => simp [records, EventLog.log_snd]

/-- A single change of the records that is about one run, or none at all. -/
inductive Move [Recorder κ] (sweepId runId : Bytes) : Account → Account → World κ → World κ → Prop where
  | quiet (a : Account) (w w' : World κ) (h : records w' = records w) : Move sweepId runId a a w w'
  | post (a : Account) (w : World κ) (status : Bytes) (write : Ledger.Write)
      (h : Ledger.Posts sweepId runId status write) :
      Move sweepId runId a { a with row := some status } w
        { w with keeper := (Recorder.record w.keeper write).1 }
  | tell (a : Account) (w : World κ) (kind : Bytes) (fields : List (Bytes × Json)) (h : a.told.length < 2)
      (hfields : Json.haveEncodable fields = true) :
      Move sweepId runId a { a with told := a.told ++ [kind] } w (w.told kind runId fields)
  | count (a : Account) (w : World κ) (outcome : Outcome) (hcounted : a.counted = .untouched)
      (hnoted : a.noted = false) :
      Move sweepId runId a { a with counted := outcome } w { w with tally := outcome.addTo w.tally }

/-- Which accounts go with a result: none without a failure, and one that does not let the sweep go on
with a failure. -/
def Ends (result : Option Fault) (a : Account) : Prop :=
  ∃ outcome : Outcome, a = .closed outcome false ∧ (outcome.isGood = true ↔ result = none)

/-! ## Parts of a run that leave the records alone -/

/-- All of the world but files, operational log and clock. -/
def dealings (w : World κ) : κ × Option EventLog × Tally × Option Fault × Bool × List (Bytes × Bytes) :=
  (w.keeper, w.events, w.tally, w.bench.failure, w.bench.interrupted, w.bench.calls)

theorem dealings_keeps_records {α : Type} {p : Steps (World κ) α} (h : p.Keeps dealings) : p.Keeps records :=
  h.comp fun d => (d.1, d.2.1, d.2.2.1, d.2.2.2.1)

theorem keeps_dealings_onFiles {α : Type} (p : Steps Files α) :
    (World.onFiles p : Steps (World κ) α).Keeps dealings := by
  induction p with
  | done value => exact trivial
  | step act next ih => exact fun w => ⟨rfl, ih _⟩

theorem keeps_dealings_note (logger : Log.Logger) (level : Log.Level) (message : Bytes)
    (attributes : List (Bytes × Log.Value)) :
    (World.note logger level message attributes : Steps (World κ) Unit).Keeps dealings := by
  refine Steps.keeps_change fun w => ?_
  split <;> rfl

theorem keeps_dealings_now : (World.now : Steps (World κ) Instant).Keeps dealings := fun _ => ⟨rfl, trivial⟩

theorem keeps_dealings_setAside (logger : Log.Logger) (path : Bytes) :
    (setAside logger path : Steps (World κ) Unit).Keeps dealings := by
  unfold setAside
  refine (keeps_dealings_onFiles _).bind fun found => ?_
  split
  next =>
    refine (keeps_dealings_onFiles _).bind fun fault => ?_
    cases fault with
    | some fault => exact keeps_dealings_note _ _ _ _
    | none => exact Steps.keeps_pure _
  next => exact Steps.keeps_pure _

theorem keeps_onFiles {α : Type} (p : Steps Files α) : (World.onFiles p : Steps (World κ) α).Keeps records :=
  dealings_keeps_records (keeps_dealings_onFiles p)

theorem keeps_onBench {α : Type} {p : Steps Bench α} (h : p.Keeps Bench.failure) :
    (World.onBench p : Steps (World κ) α).Keeps records := by
  refine Steps.Keeps.onPart ?_ h
  exact fun w bench h => by simp only [records, h]

theorem keeps_note (logger : Log.Logger) (level : Log.Level) (message : Bytes)
    (attributes : List (Bytes × Log.Value)) :
    (World.note logger level message attributes : Steps (World κ) Unit).Keeps records :=
  dealings_keeps_records (keeps_dealings_note logger level message attributes)

theorem keeps_now : (World.now : Steps (World κ) Instant).Keeps records := dealings_keeps_records keeps_dealings_now

theorem keeps_setAside (logger : Log.Logger) (path : Bytes) :
    (setAside logger path : Steps (World κ) Unit).Keeps records :=
  dealings_keeps_records (keeps_dealings_setAside logger path)

/-! ## Moves of a run -/

section

variable [Recorder κ] {sweepId runId : Bytes} {a : Account}

theorem follows_of_keeps {α : Type} {p : Steps (World κ) α} (h : p.Keeps records) :
    Group.Follows (Move sweepId runId) (fun _ a' => a' = a) p a := by
  induction p with
  | done value => exact rfl
  | step act next ih => exact fun w => ⟨a, .quiet a w _ (h w).1, ih _ (h w).2⟩

theorem follows_record (logger : Log.Logger) {status : Bytes} {write : Ledger.Write}
    (h : Ledger.Posts sweepId runId status write) :
    Group.Follows (Move sweepId runId) (fun _ a' => a' = { a with row := some status })
      (World.record logger write : Steps (World κ) Unit) a := by
  intro w
  refine ⟨_, .post a w status write h, ?_⟩
  -- A refused write is only reported, and the report is no record.
  dsimp only
  cases (Recorder.record w.keeper write).2 with
  | some fault => exact follows_of_keeps (keeps_note _ _ _ _)
  | none => exact rfl

theorem follows_event (kind : Bytes) {fields : List (Bytes × Json)} (hfields : Json.haveEncodable fields = true)
    (h : a.told.length < 2) :
    Group.Follows (Move sweepId runId) (fun _ a' => a' = { a with told := a.told ++ [kind] })
      (World.event kind runId fields : Steps (World κ) Unit) a :=
  fun w => ⟨_, .tell a w kind fields h hfields, rfl⟩

theorem follows_count {f : Tally → Tally} (outcome : Outcome) (hf : ∀ tally, f tally = outcome.addTo tally)
    (hcounted : a.counted = .untouched) (hnoted : a.noted = false) :
    Group.Follows (Move sweepId runId) (fun _ a' => a' = { a with counted := outcome })
      (World.count f : Steps (World κ) Unit) a := by
  intro w
  refine ⟨_, ?_, rfl⟩
  simp only [hf]
  exact .count a w outcome hcounted hnoted

end

/-- Nothing moved, and the record is still about the run. -/
def Carries (sweepId runId : Bytes) (a : Account) (result : RunRecord × Option Fault) (a' : Account) : Prop :=
  a' = a ∧ result.1.sweepId = sweepId ∧ result.1.runId = runId

section

variable [Recorder κ] {sweepId runId : Bytes} {a : Account}

theorem archiveLog_follows (path : Bytes) (record : RunRecord) (hsweep : record.sweepId = sweepId)
    (hrun : record.runId = runId) :
    Group.Follows (Move sweepId runId) (Carries sweepId runId a)
      (archiveLog path record : Steps (World κ) (RunRecord × Option Fault)) a := by
  unfold archiveLog
  refine (follows_of_keeps (keeps_onFiles _)).bind ?_
  rintro ⟨archive, fault⟩ _ rfl
  cases fault with
  | some fault => exact Group.follows_pure ⟨rfl, hsweep, hrun⟩
  | none =>
      refine (follows_of_keeps (keeps_onFiles _)).bind ?_
      rintro sum _ rfl
      cases sum <;> exact Group.follows_pure ⟨rfl, hsweep, hrun⟩

theorem simulate_follows (s : Setup) {simulator : Simulator} (h : simulator.KeepsFailure)
    (logger : Log.Logger) (run : Run) (record : RunRecord) (hsweep : record.sweepId = sweepId)
    (hrun : record.runId = runId) :
    Group.Follows (Move sweepId runId) (Carries sweepId runId a)
      (simulate s simulator logger run record : Steps (World κ) (RunRecord × Option Fault)) a := by
  unfold simulate
  refine (follows_of_keeps (keeps_onBench (h _ _))).bind ?_
  rintro fault _ rfl
  cases fault with
  | some fault =>
      refine (follows_of_keeps (keeps_setAside _ _)).bind ?_
      rintro _ _ rfl
      exact Group.follows_pure ⟨rfl, hsweep, hrun⟩
  | none =>
      dsimp only
      split
      next => exact archiveLog_follows _ _ hsweep hrun
      next => exact Group.follows_pure ⟨rfl, hsweep, hrun⟩

theorem renderAndSimulate_follows (s : Setup) (h : ∀ simulator ∈ s.simulator, simulator.KeepsFailure)
    (template : Template) (logger : Log.Logger) (run : Run) (record : RunRecord)
    (hsweep : record.sweepId = sweepId) (hrun : record.runId = runId) :
    Group.Follows (Move sweepId runId) (Carries sweepId runId a)
      (renderAndSimulate s template logger run record : Steps (World κ) (RunRecord × Option Fault)) a := by
  unfold renderAndSimulate
  refine (follows_of_keeps (keeps_onFiles _)).bind ?_
  rintro fault _ rfl
  cases fault with
  | some fault => exact Group.follows_pure ⟨rfl, hsweep, hrun⟩
  | none =>
      cases hsimulator : s.simulator with
      | none => exact Group.follows_pure ⟨rfl, hsweep, hrun⟩
      | some simulator => exact simulate_follows s (h simulator hsimulator) _ _ _ hsweep hrun

/-- The work of a run touches none of the records. -/
theorem perform_follows (s : Setup) (h : ∀ simulator ∈ s.simulator, simulator.KeepsFailure)
    (template : Option Template) (logger : Log.Logger) (run : Run) (record : RunRecord)
    (hsweep : record.sweepId = sweepId) (hrun : record.runId = runId) :
    Group.Follows (Move sweepId runId) (Carries sweepId runId a)
      (perform s template logger run record : Steps (World κ) (RunRecord × Option Fault)) a := by
  unfold perform
  refine (follows_of_keeps (keeps_onFiles _)).bind ?_
  rintro ⟨stats, fault⟩ _ rfl
  cases fault with
  | some fault => exact Group.follows_pure ⟨rfl, hsweep, hrun⟩
  | none =>
      refine (follows_of_keeps (keeps_note _ _ _ _)).bind ?_
      rintro _ _ rfl
      cases template with
      | none => exact Group.follows_pure ⟨rfl, hsweep, hrun⟩
      | some template => exact renderAndSimulate_follows s h template _ _ _ hsweep hrun

end

section

variable [Recorder κ]

theorem skip_follows (s : Setup) (logger : Log.Logger) (run : Run) (path : Bytes) (record : RunRecord)
    (hsweep : record.sweepId = s.sweepId) (hrun : record.runId = run.id) :
    Group.Follows (Move s.sweepId run.id) Ends
      (skip s logger run path record : Steps (World κ) (Option Fault)) .blank := by
  unfold skip
  refine (follows_of_keeps (keeps_note _ _ _ _)).bind ?_
  rintro _ _ rfl
  refine (follows_record s.logger (.skip _ ?_ ?_)).bind ?_
  · split <;> exact hsweep
  · split <;> exact hrun
  rintro _ _ rfl
  refine (follows_event _ (by simp) (by decide)).bind ?_
  rintro _ _ rfl
  refine (follows_count .skipped (fun _ => rfl) rfl rfl).bind ?_
  rintro _ _ rfl
  exact Group.follows_pure ⟨.skipped, rfl, by simp [Outcome.isGood]⟩

theorem launch_follows (s : Setup) (h : ∀ simulator ∈ s.simulator, simulator.KeepsFailure)
    (template : Option Template) (logger : Log.Logger) (run : Run) (record : RunRecord)
    (hsweep : record.sweepId = s.sweepId) (hrun : record.runId = run.id) :
    Group.Follows (Move s.sweepId run.id) Ends
      (launch s template logger run record : Steps (World κ) (Option Fault)) .blank := by
  unfold launch
  refine (follows_of_keeps (keeps_note _ _ _ _)).bind ?_
  rintro _ _ rfl
  refine (follows_record s.logger (.start record hsweep hrun)).bind ?_
  rintro _ _ rfl
  refine (follows_event _ (by simp) (by decide)).bind ?_
  rintro _ _ rfl
  refine (perform_follows s h template logger run record hsweep hrun).bind ?_
  rintro ⟨filled, fault⟩ _ ⟨rfl, hfilledSweep, hfilledRun⟩
  refine (follows_of_keeps keeps_now).bind ?_
  rintro finishedAt _ rfl
  -- The work of the run has made no entry; its outcome makes one in each book.
  cases fault with
  | some fault =>
      refine (follows_record s.logger (.finish _ ?_ ?_ (Or.inr ?_))).bind ?_
      · exact hfilledSweep
      · exact hfilledRun
      · rfl
      rintro _ _ rfl
      refine (follows_event _ (by simp) (by exact Nat.one_lt_two)).bind ?_
      rintro _ _ rfl
      refine (follows_of_keeps (keeps_note _ _ _ _)).bind ?_
      rintro _ _ rfl
      refine (follows_count .failed (fun _ => rfl) rfl rfl).bind ?_
      rintro _ _ rfl
      exact Group.follows_pure ⟨.failed, rfl, by simp [Outcome.isGood]⟩
  | none =>
      refine (follows_record s.logger (.finish _ ?_ ?_ (Or.inl ?_))).bind ?_
      · exact hfilledSweep
      · exact hfilledRun
      · rfl
      rintro _ _ rfl
      refine (follows_event _ (by simp) (by exact Nat.one_lt_two)).bind ?_
      rintro _ _ rfl
      refine (follows_of_keeps (keeps_note _ _ _ _)).bind ?_
      rintro _ _ rfl
      refine (follows_count .succeeded (fun _ => rfl) rfl rfl).bind ?_
      rintro _ _ rfl
      exact Group.follows_pure ⟨.succeeded, rfl, by simp [Outcome.isGood]⟩

/-- A run takes its account from blank to closed, whatever happens around it. -/
theorem task_follows (s : Setup) (h : ∀ simulator ∈ s.simulator, simulator.KeepsFailure)
    (template : Option Template) (run : Run) :
    Group.Follows (Move s.sweepId run.id) Ends
      (task s template run : Steps (World κ) (Option Fault)) .blank := by
  unfold task
  refine (follows_of_keeps (Steps.keeps_look _)).bind ?_
  rintro cancelled _ rfl
  cases cancelled with
  | true => exact Group.follows_pure ⟨.untouched, rfl, by simp [Outcome.isGood]⟩
  | false =>
      simp only [Bool.false_eq_true, if_false, execute]
      refine (follows_of_keeps keeps_now).bind ?_
      rintro startedAt _ rfl
      have hrest : ∀ done : Bool, Group.Follows (Move s.sweepId run.id) Ends
          (if done then
            skip s (s.logger.carrying "run_id" (.text run.id)) run (marker s template run) (recordOf s run startedAt)
          else launch s template (s.logger.carrying "run_id" (.text run.id)) run (recordOf s run startedAt) :
            Steps (World κ) (Option Fault)) .blank := by
        intro done
        split
        next => exact skip_follows s _ run _ _ rfl rfl
        next => exact launch_follows s h template _ run _ rfl rfl
      split
      next =>
        refine (follows_of_keeps (keeps_onFiles _)).bind ?_
        rintro done _ rfl
        exact hrest done
      next => exact hrest false

end

end Sweep

end MobilitySweep
