import MobilitySweep.Proofs.Concurrency.Ensures
import MobilitySweep.Proofs.Config.Acceptance
import MobilitySweep.Proofs.Mobility.Reforming
import MobilitySweep.Proofs.Sweep.Naming
import MobilitySweep.Sweep.Execution
import MobilitySweep.Sweep.Simulator

/-! # Refused parameters

Only the generator refuses parameters, and it refuses nothing that was accepted with the configuration. So once a
sweep has started no run of it fails for its parameters, whatever else it fails for.
-/

namespace MobilitySweep

/-- An outcome that acquits the parameters: it is no failure for them. -/
def Acquits (outcome : Option Fault) : Prop := ∀ fault ∈ outcome, fault.kind ≠ .invalidParams

theorem acquits_none : Acquits none := by rintro _ ⟨⟩

theorem acquits_some {fault : Fault} (h : fault.kind ≠ .invalidParams) : Acquits (some fault) := by
  intro other hother
  obtain rfl := Option.some.inj hother
  exact h

/-- The context of a failure makes no difference. -/
theorem Acquits.within {fault : Fault} (h : Acquits (some fault)) (context : Bytes) :
    Acquits (some (fault.within context)) :=
  acquits_some (h fault rfl)

/-- A simulator that does not complain about parameters. -/
def Simulator.AcquitsParams (simulator : Simulator) : Prop := ∀ config log, (simulator config log).Yields Acquits

/-! ## Failures of files -/

namespace Files

variable {files : Files}

theorem Cause.acquits_fault (operation : Bytes) (paths : List Bytes) (cause : Cause) :
    Acquits (some (cause.fault operation paths)) := by
  apply acquits_some
  cases cause <;> rintro ⟨⟩

theorem acquits_create (files : Files) (path : Bytes) : Acquits (files.create path).2 := by
  unfold create
  split
  next => exact acquits_none
  next => exact Cause.acquits_fault _ _ _

theorem acquits_rename (files : Files) (source target : Bytes) : Acquits (files.rename source target).2 := by
  unfold rename
  dsimp only
  repeat' split
  all_goals first | exact acquits_none | exact Cause.acquits_fault _ _ _

theorem acquits_remove (files : Files) (path : Bytes) : Acquits (files.remove path).2 := by
  unfold remove
  split
  next => exact Cause.acquits_fault _ _ _
  next => exact Cause.acquits_fault _ _ _
  next =>
    split
    next => exact Cause.acquits_fault _ _ _
    next =>
      split
      next => exact Cause.acquits_fault _ _ _
      next => exact acquits_none

theorem acquits_writeFile (files : Files) (path text : Bytes) : Acquits (files.writeFile path text).2 := by
  have hcreate := files.acquits_create path
  unfold writeFile
  split
  next => exact acquits_none
  next => exact hcreate

theorem acquits_openFile {path : Bytes} {fault : Fault} (h : files.openFile path = .error fault) :
    Acquits (some fault) := by
  unfold openFile at h
  cases hstat : files.stat path with
  | ok entry => simp [hstat, Except.mapError] at h
  | error cause =>
      simp only [hstat, Except.mapError, Except.error.injEq] at h
      exact h ▸ Cause.acquits_fault _ _ _

theorem acquits_readOpened {path : Bytes} {opened : Entry} {fault : Fault}
    (h : readOpened path opened = .error fault) : Acquits (some fault) := by
  unfold readOpened at h
  split at h
  next => cases h
  next => exact Except.error.inj h ▸ Cause.acquits_fault _ _ _

end Files

/-! ## Failures of publishing and archiving -/

theorem attempt_acquits {action : Files → Files × Option Fault} (h : ∀ files, Acquits (action files).2) :
    (Archive.attempt action).Yields Acquits :=
  Steps.yields_act h

theorem publish_acquits (path text : Bytes) :
    (publish path text).Yields fun failure =>
      ∀ atCreate atRename, Acquits (failure.map (·.fault atCreate atRename)) := by
  unfold publish
  refine (attempt_acquits fun files => files.acquits_create _).bind ?_
  intro created hcreated
  cases created with
  | some fault => exact Steps.yields_pure fun _ _ => hcreated.within _
  | none =>
      refine Steps.yields_bind _ fun _ => ?_
      refine (attempt_acquits fun files => files.acquits_rename _ _).bind ?_
      intro renamed hrenamed
      cases renamed with
      | some fault => exact Steps.yields_bind _ fun _ => Steps.yields_pure fun _ _ => hrenamed.within _
      | none => exact Steps.yields_pure fun _ _ => acquits_none

theorem Template.write_acquits (t : Template) (path traceName : Bytes) : (t.write path traceName).Yields Acquits := by
  unfold Template.write
  exact (publish_acquits _ _).bind fun failure hfailure => Steps.yields_pure (hfailure _ _)

/-- A trace that can be generated can only fail to be written. -/
theorem Trace.produce_acquits (path : Bytes) {p : Params} {o : Options} {source : Pcg}
    (h : ∃ start, Generator.create p o source = .ok start) :
    (Trace.produce path p o source).Yields fun result => Acquits result.2 := by
  obtain ⟨start, hstart⟩ := h
  unfold Trace.produce
  rw [hstart]
  refine (publish_acquits _ _).bind ?_
  intro failure hfailure
  rcases failure with _ | ⟨fault⟩ | ⟨fault⟩
  · exact Steps.yields_pure acquits_none
  · exact Steps.yields_pure (hfailure _ _)
  · exact Steps.yields_pure (hfailure _ _)

namespace Archive

theorem packed_acquits {path : Bytes} {opened : Entry} {time : Nat} {fault : Fault}
    (h : packed path opened time = .error fault) : Acquits (some fault) := by
  unfold packed at h
  cases hread : Files.readOpened path opened with
  | error cause =>
      simp only [hread, Except.mapError, bind, Except.bind, Except.error.injEq] at h
      exact h ▸ (Files.acquits_readOpened hread).within _
  | ok content =>
      simp only [hread, Except.mapError, bind, Except.bind] at h
      split at h
      next => cases h
      next => exact acquits_some (Except.error.inj h ▸ (by rintro ⟨⟩))

theorem compress_acquits (path : Bytes) : (compress path).Yields fun result => Acquits result.2 := by
  unfold compress
  have hopen : (Steps.look fun (files : Files) => (files.openFile path, files.timeOf path)).Yields fun found =>
      ∀ fault, found.1 = .error fault → Acquits (some fault) := fun files _ h => Files.acquits_openFile h
  refine hopen.bind ?_
  rintro ⟨found, written⟩ hfound
  cases found with
  | error fault => exact Steps.yields_pure ((hfound fault rfl).within _)
  | ok opened =>
      refine (attempt_acquits fun files => files.acquits_create _).bind ?_
      intro created hcreated
      cases created with
      | some fault => exact Steps.yields_pure (hcreated.within _)
      | none =>
          refine Steps.yields_bind _ fun ⟨left, time⟩ => ?_
          dsimp only
          cases hpacked : packed path left time with
          | error fault => exact Steps.yields_bind _ fun _ => Steps.yields_pure (packed_acquits hpacked)
          | ok bytes =>
              refine Steps.yields_bind _ fun _ => ?_
              refine (attempt_acquits fun files => files.acquits_rename _ _).bind ?_
              intro renamed hrenamed
              cases renamed with
              | some fault => exact Steps.yields_bind _ fun _ => Steps.yields_pure (hrenamed.within _)
              | none =>
                  refine (attempt_acquits fun files => files.acquits_remove _).bind ?_
                  intro removed hremoved
                  cases removed with
                  | some fault => exact Steps.yields_pure (hremoved.within _)
                  | none => exact Steps.yields_pure acquits_none

theorem checksum_acquits {files : Files} {path : Bytes} {fault : Fault} (h : checksum files path = .error fault) :
    Acquits (some fault) := by
  unfold checksum at h
  cases hopen : files.openFile path with
  | error cause =>
      simp only [hopen, Except.mapError, bind, Except.bind, Except.error.injEq] at h
      exact h ▸ (Files.acquits_openFile hopen).within _
  | ok opened =>
      cases hread : Files.readOpened path opened with
      | error cause =>
          simp only [hopen, hread, Except.mapError, bind, Except.bind, Except.error.injEq] at h
          exact h ▸ (Files.acquits_readOpened hread).within _
      | ok content => simp [hopen, hread, Except.mapError, bind, Except.bind, pure, Except.pure] at h

end Archive

namespace SimulatorCommand

theorem program?_acquits {files : Files} {s : SimulatorCommand} {args : List Bytes} {fault : Fault}
    (h : s.program? files args = .error fault) : Acquits (some fault) := by
  unfold program? at h
  simp only [bind, Except.bind, pure, Except.pure] at h
  repeat' split at h
  all_goals cases h
  all_goals first | exact Files.Cause.acquits_fault _ _ _ | exact acquits_some (by rintro ⟨⟩)

/-- A command that is not started, is stopped, takes too long or ends badly has nothing to do with parameters. -/
theorem simulator_acquitsParams (s : SimulatorCommand) : s.simulator.AcquitsParams := by
  intro config log
  refine Steps.yields_act fun bench => ?_
  dsimp only
  unfold simulate
  split
  next => exact acquits_some (by rintro ⟨⟩)
  next =>
    split
    next => exact acquits_some (by rintro ⟨⟩)
    next =>
      split
      next => exact acquits_some (by rintro ⟨⟩)
      next =>
        dsimp only
        split
        next fault hfault => exact acquits_some (program?_acquits hfault fault rfl)
        next =>
          split
          next => exact acquits_none
          next => exact acquits_some (by rintro ⟨⟩)
          next => exact acquits_some (by rintro ⟨⟩)

end SimulatorCommand

/-- A scripted simulation fails with a text of its script, is cancelled, or cannot write its log. -/
theorem ScriptedSimulator.simulator_acquitsParams (s : ScriptedSimulator) : s.simulator.AcquitsParams := by
  intro config log
  refine Steps.yields_act fun bench => ?_
  have hwrite : ∀ text (bench : Bench), Acquits (s.writeLog log text bench).2 :=
    fun text bench => bench.files.acquits_writeFile _ _
  unfold ScriptedSimulator.simulate
  dsimp only
  split
  next => exact acquits_some (by rintro ⟨⟩)
  next =>
    split
    next => exact acquits_some (by rintro ⟨⟩)
    next =>
      split
      next => exact acquits_some (by rintro ⟨⟩)
      next =>
        split
        next => exact acquits_none
        next => exact hwrite _ _

/-! ## Failures of runs -/

namespace Sweep

variable {κ : Type}

theorem onFiles_yields {α : Type} {condition : α → Prop} {p : Steps Files α} (h : p.Yields condition) :
    (World.onFiles p : Steps (World κ) α).Yields condition :=
  h.onPart.onPart

theorem archiveLog_acquits (path : Bytes) (record : RunRecord) :
    (archiveLog path record : Steps (World κ) (RunRecord × Option Fault)).Yields fun result => Acquits result.2 := by
  unfold archiveLog
  refine (onFiles_yields (Archive.compress_acquits path)).bind ?_
  rintro ⟨archive, fault⟩ hfault
  cases fault with
  | some fault => exact Steps.yields_pure (hfault.within _)
  | none =>
      have hsum : (Steps.look (σ := Files) (Archive.checksum · archive)).Yields fun sum =>
          ∀ fault, sum = .error fault → Acquits (some fault) := fun files _ h => Archive.checksum_acquits h
      refine (onFiles_yields hsum).bind ?_
      intro sum hsum
      cases sum with
      | error fault => exact Steps.yields_pure ((hsum fault rfl).within _)
      | ok sum => exact Steps.yields_pure acquits_none

theorem simulate_acquits (s : Setup) {simulator : Simulator} (h : simulator.AcquitsParams) (logger : Log.Logger)
    (run : Run) (record : RunRecord) :
    (simulate s simulator logger run record : Steps (World κ) (RunRecord × Option Fault)).Yields
      fun result => Acquits result.2 := by
  unfold simulate
  refine (h _ _).onPart.bind ?_
  intro outcome houtcome
  cases outcome with
  | some fault => exact Steps.yields_bind _ fun _ => Steps.yields_pure houtcome
  | none =>
      dsimp only
      split
      next => exact archiveLog_acquits _ _
      next => exact Steps.yields_pure acquits_none

theorem renderAndSimulate_acquits {s : Setup} (h : ∀ simulator ∈ s.simulator, simulator.AcquitsParams)
    (template : Template) (logger : Log.Logger) (run : Run) (record : RunRecord) :
    (renderAndSimulate s template logger run record : Steps (World κ) (RunRecord × Option Fault)).Yields
      fun result => Acquits result.2 := by
  unfold renderAndSimulate
  refine (onFiles_yields (template.write_acquits _ _)).bind ?_
  intro written hwritten
  cases written with
  | some fault => exact Steps.yields_pure hwritten
  | none =>
      dsimp only
      split
      next simulator hsimulator => exact simulate_acquits s (h simulator hsimulator) _ _ _
      next => exact Steps.yields_pure acquits_none

/-- The work of a run whose trace can be generated. -/
theorem perform_acquits {s : Setup} (h : ∀ simulator ∈ s.simulator, simulator.AcquitsParams)
    (template : Option Template) (logger : Log.Logger) {run : Run} {record : RunRecord}
    (hcreate : ∃ start, Generator.create run.params (s.config.options record.seed) (Pcg.ofSeed record.seed) = .ok start) :
    (perform s template logger run record : Steps (World κ) (RunRecord × Option Fault)).Yields
      fun result => Acquits result.2 := by
  unfold perform
  refine (onFiles_yields (Trace.produce_acquits _ hcreate)).bind ?_
  rintro ⟨stats, fault⟩ hfault
  cases fault with
  | some fault => exact Steps.yields_pure (hfault.within _)
  | none =>
      refine Steps.yields_bind _ fun _ => ?_
      cases template with
      | some template => exact renderAndSimulate_acquits h template _ _ _
      | none => exact Steps.yields_pure acquits_none

variable [Recorder κ]

theorem skip_acquits (s : Setup) (logger : Log.Logger) (run : Run) (path : Bytes) (record : RunRecord) :
    (skip s logger run path record : Steps (World κ) (Option Fault)).Yields Acquits := by
  unfold skip
  iterate 4 refine Steps.yields_bind _ fun _ => ?_
  exact Steps.yields_pure acquits_none

theorem launch_acquits {s : Setup} (h : ∀ simulator ∈ s.simulator, simulator.AcquitsParams)
    (template : Option Template) (logger : Log.Logger) {run : Run} {record : RunRecord}
    (hcreate : ∃ start, Generator.create run.params (s.config.options record.seed) (Pcg.ofSeed record.seed) = .ok start) :
    (launch s template logger run record : Steps (World κ) (Option Fault)).Yields Acquits := by
  unfold launch
  iterate 3 refine Steps.yields_bind _ fun _ => ?_
  refine (perform_acquits h template logger hcreate).bind ?_
  rintro ⟨last, fault⟩ hfault
  refine Steps.yields_bind _ fun _ => ?_
  cases fault with
  | some fault =>
      iterate 4 refine Steps.yields_bind _ fun _ => ?_
      exact Steps.yields_pure (hfault.within _)
  | none =>
      iterate 4 refine Steps.yields_bind _ fun _ => ?_
      exact Steps.yields_pure acquits_none

/-- A run that is turned away has been cancelled, one that is skipped has not failed, and one that is launched has a
trace that can be generated. -/
theorem task_acquits {s : Setup} (h : ∀ simulator ∈ s.simulator, simulator.AcquitsParams)
    (template : Option Template) {run : Run}
    (hcreate : ∀ seed, ∃ start, Generator.create run.params (s.config.options seed) (Pcg.ofSeed seed) = .ok start) :
    (task s template run : Steps (World κ) (Option Fault)).Yields Acquits := by
  unfold task
  refine Steps.yields_bind _ fun cancelled => ?_
  split
  next => exact Steps.yields_pure (acquits_some (by rintro ⟨⟩))
  next =>
    refine Steps.yields_bind _ fun startedAt => ?_
    have hrest : ∀ done : Bool, (if done then
        skip s (s.logger.carrying "run_id" (.text run.id)) run (marker s template run) (recordOf s run startedAt)
        else launch s template (s.logger.carrying "run_id" (.text run.id)) run (recordOf s run startedAt) :
          Steps (World κ) (Option Fault)).Yields Acquits := by
      intro done
      split
      next => exact skip_acquits s _ _ _ _
      next => exact launch_acquits h template _ (hcreate _)
    dsimp only
    split
    next => exact Steps.yields_bind _ hrest
    next => exact hrest false

end Sweep

/-! ## Parameters of accepted sweeps -/

/-- The generator accepts the parameters of every run of an accepted configuration. -/
theorem Config.Accepted.exists_create {c : Config} (h : c.Accepted) {run : Run}
    (hrun : run ∈ Plan.runs (Plan.combinations c.sweep) c.sweep.repetitions) (seed : Int64) {γ : Type} (source : γ) :
    ∃ start, Generator.create run.params (c.options seed) source = .ok start := by
  obtain ⟨hparams, -⟩ := Plan.mem_runs.mp hrun
  exact Generator.exists_create (h.combinations _ hparams) (h.options seed) source

namespace Sweep

/-- An accepted sweep never fails for its parameters. The generator accepts those of every run of an accepted
configuration, with any seed, and whatever happens beside a run, parameters are not what it fails for. Conversely, a
configuration with a combination that the generator refuses is itself refused. -/
theorem accepted_parameters_hold (c : Config) :
    (c.validate = .ok () → ∀ run ∈ Plan.runs (Plan.combinations c.sweep) c.sweep.repetitions,
      (∀ (seed : Int64) (γ : Type) (source : γ),
        ∃ start, Generator.create run.params (c.options seed) source = .ok start) ∧
      ∀ (κ : Type) [Recorder κ] (s : Setup), s.config = c → (∀ simulator ∈ s.simulator, simulator.AcquitsParams) →
        ∀ template, (task s template run : Steps (World κ) (Option Fault)).Yields Acquits) ∧
    ∀ p ∈ Plan.combinations c.sweep, ∀ (seed : Int64) (γ : Type) (source : γ) (cause : Generator.Invalid),
      Generator.create p (c.options seed) source = .error cause →
      ∃ refusal, c.validate = .error refusal ∧ refusal.fault.kind = .invalidConfig := by
  constructor
  · intro hvalid run hrun
    have haccepted := Config.accepted hvalid
    refine ⟨fun seed γ source => haccepted.exists_create hrun seed source, ?_⟩
    rintro κ _ s rfl hsimulator template
    exact task_acquits hsimulator template fun seed => haccepted.exists_create hrun seed _
  · intro p hp seed γ source cause hcause
    cases hvalid : c.validate with
    | error refusal => exact ⟨refusal, rfl, Config.kind_fault refusal⟩
    | ok =>
        have haccepted := Config.accepted hvalid
        obtain ⟨start, hstart⟩ := Generator.exists_create (haccepted.combinations p hp) (haccepted.options seed) source
        cases hcause.symm.trans hstart

/-- The full sweep with a combination among its axes that stays where it is. -/
def withStandstill : Config :=
  { Config.standard with sweep := { Config.standard.sweep with
      nodeDistances := some [8, 0], shuffleDistances := some [10, 0] } }

/-- The full sweep is accepted, so that none of its runs is refused; one that would never reshuffle is not. -/
theorem standstill_is_refused :
    (∀ run ∈ Plan.runs (Plan.combinations Config.standard.sweep) Config.standard.sweep.repetitions,
      ∃ start, Generator.create run.params (Config.standard.options 1) (Pcg.ofSeed 1) = .ok start) ∧
    Generator.create ⟨0, 5, 0⟩ (withStandstill.options 1) () = .error (.params (.periodNotPositive 0)) ∧
    ∃ refusal, withStandstill.validate = .error refusal ∧ refusal.fault.kind = .invalidConfig := by
  have hrefused : Generator.create ⟨0, 5, 0⟩ (withStandstill.options 1) () =
      .error (.params (.periodNotPositive 0)) := rfl
  refine ⟨fun run hrun => ?_, hrefused, ?_⟩
  · exact ((accepted_parameters_hold Config.standard).1 (by decide +kernel) run hrun).1 1 Pcg (Pcg.ofSeed 1)
  · exact (accepted_parameters_hold withStandstill).2 ⟨0, 5, 0⟩ (by decide +kernel) 1 Unit () _ hrefused

end Sweep

end MobilitySweep
