import MobilitySweep.Proofs.Sweep.Accounts

/-! # Phases of a run

A run asks its group whether it may go on, and is refused once the group is cancelled. If it is admitted it is
skipped, or started and brought to an end. Each phase leaves its entry in the ledger, and every entry of a run
describes it as the plan does.
-/

namespace MobilitySweep

/-- The steps of a simulator are moves of a given kind. The flags tell whether it has noted its call, before a step
and after it. -/
def Simulator.Moves (move : Bytes → Bytes → Bool → Bool → Bench → Bench → Prop) (simulator : Simulator) : Prop :=
  ∀ config log, Group.Follows (move config log) (fun _ _ => True) (simulator config log) false

namespace Sweep

/-- A record bears the names and numbers that the plan has for a run. -/
def Describes (s : Setup) (run : Run) (record : RunRecord) : Prop :=
  record.sweepId = s.sweepId ∧ record.runId = run.id ∧ record.nodeDistance = run.params.nodeDistance ∧
    record.swapCouples = run.params.swapCouples ∧ record.shuffleDistance = run.params.shuffleDistance ∧
    record.repetition = run.repetition ∧ record.seed = Seed.derive s.base run.id ∧
    record.tracePath = s.config.layout.tracePath run

theorem describes_recordOf (s : Setup) (run : Run) (startedAt : Instant) : Describes s run (recordOf s run startedAt) :=
  ⟨rfl, rfl, rfl, rfl, rfl, rfl, rfl, rfl⟩

/-- The counts of a record are those of the trace of its run. -/
def Measures (s : Setup) (run : Run) (record : RunRecord) : Prop :=
  ∃ start, Generator.create run.params (s.config.options record.seed) (Pcg.ofSeed record.seed) = .ok start ∧
    record.samples = (start.run .unlimited).2.1.stats.samples ∧
    record.reshuffles = (start.run .unlimited).2.1.stats.reshuffles

/-- How far a run is. The flags tell whether its simulator has noted the call, and whether its failure is counted. -/
inductive Phase where
  | waiting
  | refused
  | admitted
  | skipped (record : RunRecord)
  | started (first : RunRecord) (called : Bool)
  | succeeded (first last : RunRecord) (called : Bool)
  | failed (first last : RunRecord) (fault : Fault) (called counted : Bool)

/-- The entries that a run has left in the ledger. -/
def Phase.writes : Phase → List Ledger.Write
  | waiting | refused | admitted => []
  | skipped record => [.skip record]
  | started first _ => [.start first]
  | succeeded first last _ | failed first last _ _ _ => [.start first, .finish last]

namespace Phase

/-- Whether a run is on record as started and not as ended. -/
def isStarted : Phase → Bool
  | started _ _ => true
  | _ => false

/-- Whether a run has failed. -/
def isFailed : Phase → Bool
  | failed _ _ _ _ _ => true
  | _ => false

/-- Whether a failed run is counted. -/
def isCounted : Phase → Bool
  | failed _ _ _ _ counted => counted
  | _ => false

/-- Whether a run was skipped or has succeeded. -/
def isGood : Phase → Bool
  | skipped _ | succeeded _ _ _ => true
  | _ => false

/-- The call that the simulator of a run has noted, if it has. -/
def calls (l : Layout) (run : Run) : Phase → List (Bytes × Bytes)
  | started _ true | succeeded _ _ true | failed _ _ _ true _ => [(l.configRelative run, l.logRelative run)]
  | _ => []

/-- Whether a run may still fail, or has. -/
def isOpen : Phase → Bool
  | admitted | started _ _ | failed _ _ _ _ _ => true
  | waiting | refused | skipped _ | succeeded _ _ _ => false

/-- Whether a run has asked to go on and has not ended well. -/
def isLoose : Phase → Bool
  | waiting | skipped _ | succeeded _ _ _ => false
  | refused | admitted | started _ _ | failed _ _ _ _ _ => true

/-- The records of a run describe it and bear its outcome. -/
def Sound (s : Setup) (run : Run) : Phase → Prop
  | waiting | refused | admitted => True
  | skipped record => Describes s run record
  | started first _ => Describes s run first
  | succeeded first last _ => Describes s run first ∧ Describes s run last ∧ last.status = RunStatus.succeeded ∧
      Measures s run last
  | failed first last fault _ _ => Describes s run first ∧ Describes s run last ∧ last.status = RunStatus.failed ∧
      last.error = fault.message

theorem isOpen_of_isStarted {phase : Phase} (h : phase.isStarted = true) : phase.isOpen = true := by
  cases phase <;> first | rfl | cases h

theorem isOpen_of_isFailed {phase : Phase} (h : phase.isFailed = true) : phase.isOpen = true := by
  cases phase <;> first | rfl | cases h

theorem isLoose_of_isOpen {phase : Phase} (h : phase.isOpen = true) : phase.isLoose = true := by
  cases phase <;> first | rfl | cases h

end Phase

/-- Which phases go with a result. -/
inductive Phase.Ends (run : Run) : Option Fault → Phase → Prop where
  | refused : Ends run (some Fault.cancelled) .refused
  | skipped (record : RunRecord) : Ends run none (.skipped record)
  | succeeded (first last : RunRecord) (called : Bool) : Ends run none (.succeeded first last called)
  | failed (first last : RunRecord) (fault : Fault) (called : Bool) :
      Ends run (some (fault.within ("run " ++ run.id))) (.failed first last fault called true)

variable {κ : Type}

/-- The part of the world that phases are about. -/
def standing (w : World κ) : κ × Int64 × Option Fault × Bool × List (Bytes × Bytes) :=
  (w.keeper, w.tally.failed, w.bench.failure, w.bench.interrupted, w.bench.calls)

theorem dealings_keeps_standing {α : Type} {p : Steps (World κ) α} (h : p.Keeps dealings) : p.Keeps standing :=
  h.comp fun d => (d.1, d.2.2.1.failed, d.2.2.2.1, d.2.2.2.2.1, d.2.2.2.2.2)

theorem keeps_standing_event (kind runId : Bytes) (fields : List (Bytes × Json)) :
    (World.event kind runId fields : Steps (World κ) Unit).Keeps standing :=
  Steps.keeps_change fun w => by
    unfold World.told
    split <;> rfl

section

variable [Recorder κ]

/-- All that a step of a run can do to its phase and to the world. What a simulation does is left open. -/
inductive Advance (s : Setup) (simulation : Bool → Bool → Bench → Bench → Prop) (run : Run) :
    Phase → Phase → World κ → World κ → Prop where
  | quiet (phase : Phase) (w w' : World κ) (h : standing w' = standing w) : Advance s simulation run phase phase w w'
  | refuse (w : World κ) (h : w.bench.cancelled = true) : Advance s simulation run .waiting .refused w w
  | accept (w : World κ) (h : w.bench.cancelled = false) : Advance s simulation run .waiting .admitted w w
  | skip (record : RunRecord) (w : World κ) (h : Describes s run record) :
      Advance s simulation run .admitted (.skipped record) w
        { w with keeper := (Recorder.record w.keeper (.skip record)).1 }
  | start (record : RunRecord) (w : World κ) (h : Describes s run record) :
      Advance s simulation run .admitted (.started record false) w
        { w with keeper := (Recorder.record w.keeper (.start record)).1 }
  | simulate (first : RunRecord) (called called' : Bool) (w : World κ) (bench : Bench)
      (h : simulation called called' w.bench bench) :
      Advance s simulation run (.started first called) (.started first called') w { w with bench := bench }
  | succeed (first last : RunRecord) (called : Bool) (w : World κ) (h : Describes s run last)
      (hstatus : last.status = RunStatus.succeeded) (hmeasures : Measures s run last) :
      Advance s simulation run (.started first called) (.succeeded first last called) w
        { w with keeper := (Recorder.record w.keeper (.finish last)).1 }
  | fail (first last : RunRecord) (fault : Fault) (called : Bool) (w : World κ) (h : Describes s run last)
      (hstatus : last.status = RunStatus.failed) (herror : last.error = fault.message) :
      Advance s simulation run (.started first called) (.failed first last fault called false) w
        { w with keeper := (Recorder.record w.keeper (.finish last)).1 }
  | count (first last : RunRecord) (fault : Fault) (called : Bool) (w : World κ) :
      Advance s simulation run (.failed first last fault called false) (.failed first last fault called true) w
        { w with tally := { w.tally with failed := w.tally.failed + 1 } }

variable {s : Setup} {simulation : Bool → Bool → Bench → Bench → Prop} {run : Run} {phase phase' : Phase}

theorem advances_of_keeps {α : Type} {p : Steps (World κ) α} (h : p.Keeps standing) :
    Group.Follows (Advance s simulation run) (fun _ phase' => phase' = phase) p phase := by
  induction p with
  | done value => exact rfl
  | step act next ih => exact fun w => ⟨phase, .quiet phase w _ (h w).1, ih _ (h w).2⟩

theorem onFiles_yields_advances {α : Type} {condition : α → Prop} {p : Steps Files α} (h : p.Yields condition) :
    Group.Follows (Advance s simulation run) (fun value phase' => phase' = phase ∧ condition value)
      (World.onFiles p : Steps (World κ) α) phase := by
  induction p with
  | done value => exact ⟨rfl, h⟩
  | step act next ih => exact fun w => ⟨phase, .quiet phase w _ rfl, ih _ (h w.bench.files)⟩

theorem onFiles_advances {α : Type} (p : Steps Files α) :
    Group.Follows (Advance s simulation run) (fun _ phase' => phase' = phase)
      (World.onFiles p : Steps (World κ) α) phase :=
  advances_of_keeps (dealings_keeps_standing (keeps_dealings_onFiles p))

theorem note_advances (logger : Log.Logger) (level : Log.Level) (message : Bytes)
    (attributes : List (Bytes × Log.Value)) :
    Group.Follows (Advance s simulation run) (fun _ phase' => phase' = phase)
      (World.note logger level message attributes : Steps (World κ) Unit) phase :=
  advances_of_keeps (dealings_keeps_standing (keeps_dealings_note logger level message attributes))

theorem now_advances :
    Group.Follows (Advance s simulation run) (fun _ phase' => phase' = phase)
      (World.now : Steps (World κ) Instant) phase :=
  advances_of_keeps (dealings_keeps_standing keeps_dealings_now)

theorem event_advances (kind runId : Bytes) (fields : List (Bytes × Json)) :
    Group.Follows (Advance s simulation run) (fun _ phase' => phase' = phase)
      (World.event kind runId fields : Steps (World κ) Unit) phase :=
  advances_of_keeps (keeps_standing_event kind runId fields)

theorem count_advances {f : Tally → Tally} (hf : ∀ tally, (f tally).failed = tally.failed) :
    Group.Follows (Advance s simulation run) (fun _ phase' => phase' = phase)
      (World.count f : Steps (World κ) Unit) phase := by
  refine advances_of_keeps (Steps.keeps_change fun w => ?_)
  simp only [standing, hf]

theorem record_advances (logger : Log.Logger) {write : Ledger.Write}
    (h : ∀ w : World κ, Advance s simulation run phase phase' w
      { w with keeper := (Recorder.record w.keeper write).1 }) :
    Group.Follows (Advance s simulation run) (fun _ phase'' => phase'' = phase')
      (World.record logger write : Steps (World κ) Unit) phase := by
  intro w
  refine ⟨phase', h w, ?_⟩
  dsimp only
  cases (Recorder.record w.keeper write).2 with
  | some fault => exact note_advances _ _ _ _
  | none => exact rfl

theorem onBench_advances {α : Type} {p : Steps Bench α} {first : RunRecord} {called : Bool}
    (h : Group.Follows simulation (fun _ _ => True) p called) :
    Group.Follows (Advance s simulation run) (fun _ phase' => ∃ called', phase' = .started first called')
      (World.onBench p : Steps (World κ) α) (.started first called) := by
  induction p generalizing called with
  | done value => exact ⟨called, rfl⟩
  | step act next ih =>
      intro w
      obtain ⟨called', hmove, hnext⟩ := h w.bench
      exact ⟨.started first called', .simulate first called called' w _ hmove, ih _ hnext⟩

/-! ## What an advance amounts to -/

section

variable {w w' : World κ}

theorem Advance.sound (h : Advance s simulation run phase phase' w w') (hsound : phase.Sound s run) :
    phase'.Sound s run := by
  cases h with
  | quiet => exact hsound
  | refuse => trivial
  | accept => trivial
  | skip _ _ hdescribes => exact hdescribes
  | start _ _ hdescribes => exact hdescribes
  | simulate => exact hsound
  | succeed _ _ _ _ hdescribes hstatus hmeasures => exact ⟨hsound, hdescribes, hstatus, hmeasures⟩
  | fail _ _ _ _ _ hdescribes hstatus herror => exact ⟨hsound, hdescribes, hstatus, herror⟩
  | count => exact hsound

/-- A run is let in only while nothing stops its group. -/
theorem Advance.open (h : Advance s simulation run phase phase' w w') (hopen : phase'.isOpen = true) :
    phase.isOpen = true ∨ w.bench.cancelled = false := by
  cases h <;> simp_all [Phase.isOpen]

theorem Advance.refused (h : Advance s simulation run phase phase' w w') (hrefused : phase' = .refused) :
    phase = .refused ∨ w.bench.cancelled = true := by
  cases h <;> simp_all

/-- A run that has ended stays as it is. -/
theorem Advance.failed {first last : RunRecord} {fault : Fault} {called : Bool}
    (h : Advance s simulation run (.failed first last fault called true) phase' w w') :
    phase' = .failed first last fault called true := by
  cases h
  rfl

/-- The tally of failed runs goes with their phases. -/
theorem Advance.tally (h : Advance s simulation run phase phase' w w') :
    w'.tally.failed = w.tally.failed ∧ phase'.isCounted = phase.isCounted ∨
      w'.tally.failed = w.tally.failed + 1 ∧ phase.isCounted = false ∧ phase'.isCounted = true := by
  cases h with
  | quiet _ _ _ h => exact Or.inl ⟨congrArg (·.2.1) h, rfl⟩
  | count => exact Or.inr ⟨rfl, rfl, rfl⟩
  | _ => exact Or.inl ⟨rfl, rfl⟩

end

/-! ## The work of a run -/

/-- Whatever happens to the files meanwhile, a trace that gets published has been generated from the settings. -/
theorem produce_yields (path : Bytes) (p : Params) (o : Options) (source : Pcg) :
    (Trace.produce path p o source).Yields fun result => result.2 = none →
      ∃ start, Generator.create p o source = .ok start ∧ result.1 = (start.run .unlimited).2.1.stats := by
  unfold Trace.produce
  cases hcreate : Generator.create p o source with
  | error cause => exact Steps.yields_pure (by rintro ⟨⟩)
  | ok start =>
      refine Steps.yields_bind _ fun failure => ?_
      rcases failure with _ | ⟨fault⟩ | ⟨fault⟩
      · exact Steps.yields_pure fun _ => ⟨start, rfl, rfl⟩
      · exact Steps.yields_pure (by rintro ⟨⟩)
      · exact Steps.yields_pure (by rintro ⟨⟩)

/-- The run is still started, and its record still describes and measures it. -/
def Delivers (s : Setup) (run : Run) (first : RunRecord) (record : RunRecord) (phase : Phase) : Prop :=
  (∃ called, phase = .started first called) ∧ Describes s run record ∧ Measures s run record

theorem archiveLog_advances {first : RunRecord} {called : Bool} (path : Bytes) {record : RunRecord}
    (hdescribes : Describes s run record) (hmeasures : Measures s run record) :
    Group.Follows (Advance s simulation run) (fun result => Delivers s run first result.1)
      (archiveLog path record : Steps (World κ) (RunRecord × Option Fault)) (.started first called) := by
  unfold archiveLog
  refine (onFiles_advances _).bind ?_
  rintro ⟨archive, fault⟩ _ rfl
  cases fault with
  | some fault => exact Group.follows_pure ⟨⟨called, rfl⟩, hdescribes, hmeasures⟩
  | none =>
      refine (onFiles_advances _).bind ?_
      rintro sum _ rfl
      cases sum <;> exact Group.follows_pure ⟨⟨called, rfl⟩, hdescribes, hmeasures⟩

theorem simulate_advances {simulator : Simulator} {first : RunRecord}
    (h : Group.Follows simulation (fun _ _ => True)
      (simulator (s.config.layout.configRelative run) (s.config.layout.logRelative run)) false)
    (logger : Log.Logger) {record : RunRecord} (hdescribes : Describes s run record)
    (hmeasures : Measures s run record) :
    Group.Follows (Advance s simulation run) (fun result => Delivers s run first result.1)
      (simulate s simulator logger run record : Steps (World κ) (RunRecord × Option Fault)) (.started first false) := by
  unfold simulate
  refine (onBench_advances h).bind ?_
  rintro fault _ ⟨called, rfl⟩
  cases fault with
  | some fault =>
      refine (advances_of_keeps (dealings_keeps_standing (keeps_dealings_setAside _ _))).bind ?_
      rintro _ _ rfl
      exact Group.follows_pure ⟨⟨called, rfl⟩, hdescribes, hmeasures⟩
  | none =>
      dsimp only
      split
      next => exact archiveLog_advances _ hdescribes hmeasures
      next => exact Group.follows_pure ⟨⟨called, rfl⟩, hdescribes, hmeasures⟩

theorem renderAndSimulate_advances {first : RunRecord}
    (h : ∀ simulator ∈ s.simulator, Group.Follows simulation (fun _ _ => True)
      (simulator (s.config.layout.configRelative run) (s.config.layout.logRelative run)) false)
    (template : Template) (logger : Log.Logger) {record : RunRecord} (hdescribes : Describes s run record)
    (hmeasures : Measures s run record) :
    Group.Follows (Advance s simulation run) (fun result => Delivers s run first result.1)
      (renderAndSimulate s template logger run record : Steps (World κ) (RunRecord × Option Fault))
      (.started first false) := by
  unfold renderAndSimulate
  refine (onFiles_advances _).bind ?_
  rintro fault _ rfl
  cases fault with
  | some fault => exact Group.follows_pure ⟨⟨false, rfl⟩, hdescribes, hmeasures⟩
  | none =>
      cases hsimulator : s.simulator with
      | none => exact Group.follows_pure ⟨⟨false, rfl⟩, hdescribes, hmeasures⟩
      | some simulator => exact simulate_advances (h simulator hsimulator) _ hdescribes hmeasures

/-- The work of a run leaves its entries to the one who ordered it. -/
theorem perform_advances {first : RunRecord}
    (h : ∀ simulator ∈ s.simulator, Group.Follows simulation (fun _ _ => True)
      (simulator (s.config.layout.configRelative run) (s.config.layout.logRelative run)) false)
    (template : Option Template) (logger : Log.Logger) {record : RunRecord} (hdescribes : Describes s run record) :
    Group.Follows (Advance s simulation run)
      (fun result phase => (∃ called, phase = .started first called) ∧ Describes s run result.1 ∧
        (result.2 = none → Measures s run result.1))
      (perform s template logger run record : Steps (World κ) (RunRecord × Option Fault)) (.started first false) := by
  unfold perform
  refine (onFiles_yields_advances (produce_yields _ _ _ _)).bind ?_
  rintro ⟨stats, fault⟩ _ ⟨rfl, hstats⟩
  cases fault with
  | some fault => exact Group.follows_pure ⟨⟨false, rfl⟩, hdescribes, by rintro ⟨⟩⟩
  | none =>
      obtain ⟨start, hcreate, rfl⟩ := hstats rfl
      refine (note_advances _ _ _ _).bind ?_
      rintro _ _ rfl
      have hmeasures : Measures s run { record with
          samples := (start.run .unlimited).2.1.stats.samples
          reshuffles := (start.run .unlimited).2.1.stats.reshuffles } := ⟨start, hcreate, rfl, rfl⟩
      cases template with
      | none => exact Group.follows_pure ⟨⟨false, rfl⟩, hdescribes, fun _ => hmeasures⟩
      | some template =>
          refine (renderAndSimulate_advances h template _ (by exact hdescribes) hmeasures).weaken ?_
          rintro result phase ⟨hstarted, hdelivered, hmeasured⟩
          exact ⟨hstarted, hdelivered, fun _ => hmeasured⟩

/-! ## A run from start to end -/

theorem skip_advances (logger : Log.Logger) (path : Bytes) {record : RunRecord} (h : Describes s run record) :
    Group.Follows (Advance s simulation run) (Phase.Ends run)
      (skip s logger run path record : Steps (World κ) (Option Fault)) .admitted := by
  unfold skip
  refine (note_advances _ _ _ _).bind ?_
  rintro _ _ rfl
  refine (record_advances s.logger fun w => .skip _ w ?_).bind ?_
  · split <;> exact h
  rintro _ _ rfl
  refine (event_advances _ _ _).bind ?_
  rintro _ _ rfl
  refine (count_advances ?_).bind ?_
  · exact fun _ => rfl
  rintro _ _ rfl
  exact Group.follows_pure (.skipped _)

theorem launch_advances
    (h : ∀ simulator ∈ s.simulator, Group.Follows simulation (fun _ _ => True)
      (simulator (s.config.layout.configRelative run) (s.config.layout.logRelative run)) false)
    (template : Option Template) (logger : Log.Logger) {record : RunRecord} (hdescribes : Describes s run record) :
    Group.Follows (Advance s simulation run) (Phase.Ends run)
      (launch s template logger run record : Steps (World κ) (Option Fault)) .admitted := by
  unfold launch
  refine (note_advances _ _ _ _).bind ?_
  rintro _ _ rfl
  refine (record_advances s.logger fun w => .start record w hdescribes).bind ?_
  rintro _ _ rfl
  refine (event_advances _ _ _).bind ?_
  rintro _ _ rfl
  refine (perform_advances h template logger hdescribes).bind ?_
  rintro ⟨filled, fault⟩ _ ⟨⟨called, rfl⟩, hfilled, hmeasures⟩
  refine now_advances.bind ?_
  rintro finishedAt _ rfl
  -- The work of the run is behind it; what is left puts its outcome on record.
  cases fault with
  | some fault =>
      refine (record_advances s.logger fun w => .fail record _ fault called w ?_ ?_ ?_).bind ?_
      · exact hfilled
      · rfl
      · rfl
      rintro _ _ rfl
      refine (event_advances _ _ _).bind ?_
      rintro _ _ rfl
      refine (note_advances _ _ _ _).bind ?_
      rintro _ _ rfl
      exact fun w => ⟨_, .count _ _ _ _ w, .failed _ _ _ _⟩
  | none =>
      obtain ⟨start, hcreate, hsamples, hreshuffles⟩ := hmeasures rfl
      refine (record_advances s.logger fun w => .succeed record _ called w ?_ ?_ ?_).bind ?_
      · exact hfilled
      · rfl
      · exact ⟨start, hcreate, hsamples, hreshuffles⟩
      rintro _ _ rfl
      refine (event_advances _ _ _).bind ?_
      rintro _ _ rfl
      refine (note_advances _ _ _ _).bind ?_
      rintro _ _ rfl
      refine (count_advances ?_).bind ?_
      · exact fun _ => rfl
      rintro _ _ rfl
      exact Group.follows_pure (.succeeded _ _ _)

/-- A run goes through its phases, whatever happens around it. -/
theorem task_advances
    (h : ∀ simulator ∈ s.simulator, Group.Follows simulation (fun _ _ => True)
      (simulator (s.config.layout.configRelative run) (s.config.layout.logRelative run)) false)
    (template : Option Template) :
    Group.Follows (Advance s simulation run) (Phase.Ends run)
      (task s template run : Steps (World κ) (Option Fault)) .waiting := by
  unfold task
  intro w
  dsimp only
  cases hcancelled : w.bench.cancelled with
  | true => exact ⟨.refused, .refuse w hcancelled, .refused⟩
  | false =>
      refine ⟨.admitted, .accept w hcancelled, ?_⟩
      refine now_advances.bind ?_
      rintro startedAt _ rfl
      have hrest : ∀ done : Bool, Group.Follows (Advance s simulation run) (Phase.Ends run)
          (if done then
            skip s (s.logger.carrying "run_id" (.text run.id)) run (marker s template run) (recordOf s run startedAt)
          else launch s template (s.logger.carrying "run_id" (.text run.id)) run (recordOf s run startedAt) :
            Steps (World κ) (Option Fault)) .admitted := by
        intro done
        split
        next => exact skip_advances _ _ (describes_recordOf s run startedAt)
        next => exact launch_advances h template _ (describes_recordOf s run startedAt)
      split
      next =>
        refine (onFiles_advances _).bind ?_
        rintro done _ rfl
        exact hrest done
      next => exact hrest false

end

end Sweep

end MobilitySweep
