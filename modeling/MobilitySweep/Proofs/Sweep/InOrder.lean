import MobilitySweep.Cli.Sweeps
import MobilitySweep.Proofs.Mobility.Course
import MobilitySweep.Proofs.Sweep.Barrier

/-! # One run after another

With a single worker the runs of a sweep follow each other in the order of the plan, up to the first that fails or
before which the sweep is stopped. What is written about a run, and what its simulator is asked for, is what the plan
lists for it.
-/

namespace MobilitySweep

/-- A step of a simulator that was asked for one run: it may note the call, once, and leaves alone what its group has
noted. -/
def Bench.Noting (config log : Bytes) (called called' : Bool) (b b' : Bench) : Prop :=
  Bench.Heeding called called' b b' ∧
    (called' = called ∧ b'.calls = b.calls ∨ called = false ∧ called' = true ∧ b'.calls = (config, log) :: b.calls)

/-- A simulator that notes its calls. -/
def Simulator.NotesCalls (simulator : Simulator) : Prop := simulator.Moves Bench.Noting

theorem SimulatorCommand.simulator_notesCalls (s : SimulatorCommand) : s.simulator.NotesCalls :=
  fun _ _ _ => ⟨true, ⟨⟨rfl, id⟩, Or.inr ⟨rfl, rfl, rfl⟩⟩, trivial⟩

theorem ScriptedSimulator.simulator_notesCalls (s : ScriptedSimulator) : s.simulator.NotesCalls := by
  intro config log bench
  refine ⟨true, ⟨?_, Or.inr ⟨rfl, rfl, ?_⟩⟩, trivial⟩
  all_goals
    simp only [simulate, writeLog]
    repeat' split
  all_goals first | rfl | exact ⟨rfl, id⟩ | exact ⟨rfl, fun _ => rfl⟩

/-- What a sweep is set up to be. -/
theorem Setup.create_eq {c : Config} {simulator : Option Simulator} {logger : Log.Logger} {sweepId : Bytes}
    {drawn : Int64} {s : Setup} (h : Setup.create (some c) simulator logger sweepId drawn = .ok s) :
    s = ⟨c, simulator, logger, sweepId, c.sweep.seed.getD drawn⟩ := (Setup.create_eq_ok.mp h).2

/-- The run that a write is about, if it is about one. -/
def Ledger.Write.run? : Ledger.Write → Option RunRecord
  | .start run | .finish run | .skip run => some run
  | .beginSweep _ | .endSweep _ _ _ => none

/-- The value that an object has under a name. -/
def Json.field? (name : Bytes) : Json → Option Json
  | .object fields => (fields.find? fun field => field.1 = name).map Prod.snd
  | _ => none

namespace Sweep

/-! ## Runs in order -/

/-- Runs taken up in order, each in its last phase, and whether all of them have ended well. -/
inductive Series (s : Setup) : List Run → List (Run × Phase) → Bool → Prop where
  | complete : Series s [] [] true
  | stopped (runs : List Run) : Series s runs [] false
  | failed (r : Run) (phase : Phase) (rest : List Run) (hsound : phase.Sound s r) (hfailed : phase.isFailed = true) :
      Series s (r :: rest) [(r, phase)] false
  | next (r : Run) (phase : Phase) (rest : List Run) (executed : List (Run × Phase)) (finished : Bool)
      (hsound : phase.Sound s r) (hgood : phase.isGood = true) (hrest : Series s rest executed finished) :
      Series s (r :: rest) ((r, phase) :: executed) finished

section

variable {s : Setup} {runs rest : List Run} {executed more : List (Run × Phase)} {finished : Bool}

/-- A run is turned away, ends well or fails. -/
theorem Phase.Ends.cases {r : Run} {result : Option Fault} {phase : Phase} (h : Phase.Ends r result phase) :
    phase = .refused ∧ result ≠ none ∨ phase.isGood = true ∧ result = none ∨
      phase.isFailed = true ∧ result ≠ none := by
  cases h with
  | refused => exact Or.inl ⟨rfl, by rintro ⟨⟩⟩
  | skipped | succeeded => exact Or.inr (Or.inl ⟨rfl, rfl⟩)
  | failed => exact Or.inr (Or.inr ⟨rfl, by rintro ⟨⟩⟩)

theorem Phase.isFailed_of_isGood {phase : Phase} (h : phase.isGood = true) : phase.isFailed = false := by
  cases phase <;> first | rfl | cases h

/-- A series goes on where one ended that has taken up everything. -/
theorem Series.append (h : Series s runs executed true) (hrest : Series s rest more finished) :
    Series s (runs ++ rest) (executed ++ more) finished := by
  generalize htrue : true = flag at h
  induction h with
  | complete => exact hrest
  | stopped => cases htrue
  | failed => cases htrue
  | next r phase rest executed flag hsound hgood _ ih => exact .next r phase _ _ _ hsound hgood (ih htrue)

/-- A series that was cut short is one with any further runs. -/
theorem Series.before (h : Series s runs executed false) (rest : List Run) :
    Series s (runs ++ rest) executed false := by
  generalize hfalse : false = flag at h
  induction h with
  | complete => cases hfalse
  | stopped runs => exact .stopped _
  | failed r phase others hsound hfailed => exact .failed r phase _ hsound hfailed
  | next r phase others executed flag hsound hgood _ ih => exact .next r phase _ _ _ hsound hgood (ih hfalse)

theorem Series.sound (h : Series s runs executed finished) : ∀ e ∈ executed, e.2.Sound s e.1 := by
  induction h with
  | complete | stopped => simp
  | failed r phase rest hsound => simpa using hsound
  | next r phase rest executed finished hsound _ _ ih => simpa [hsound] using ih

theorem Series.planned (h : Series s runs executed finished) : executed.map Prod.fst <+: runs := by
  induction h with
  | complete | stopped => exact List.nil_prefix
  | failed r phase rest => exact ⟨rest, rfl⟩
  | next r phase rest executed finished _ _ _ ih => exact List.cons_prefix_cons.mpr ⟨rfl, ih⟩

theorem Series.ended (h : Series s runs executed finished) :
    ∀ e ∈ executed, e.2.isGood = true ∨ e.2.isFailed = true := by
  induction h with
  | complete | stopped => simp
  | failed r phase rest _ hfailed => simp [hfailed]
  | next r phase rest executed finished _ hgood _ ih => simpa [hgood] using ih

/-- Only the last run can have failed. -/
theorem Series.well (h : Series s runs executed finished) : ∀ e ∈ executed.dropLast, e.2.isGood = true := by
  induction h with
  | complete | stopped => simp
  | failed => simp
  | next r phase rest executed finished _ hgood _ ih =>
      intro e he
      cases executed with
      | nil => cases he
      | cons first others =>
          rcases List.mem_cons.mp he with rfl | he
          · exact hgood
          · exact ih e he

theorem Series.few (h : Series s runs executed finished) : executed.countP (fun e => e.2.isFailed) ≤ 1 := by
  induction h with
  | complete | stopped => simp
  | failed r phase rest => exact List.countP_le_length
  | next r phase rest executed finished _ hgood _ ih => simpa [Phase.isFailed_of_isGood hgood] using ih

theorem Series.whole (h : Series s runs executed finished) (hfinished : finished = true) :
    executed.map Prod.fst = runs ∧ ∀ e ∈ executed, e.2.isGood = true := by
  induction h with
  | complete => simp
  | stopped => cases hfinished
  | failed => cases hfinished
  | next r phase rest executed finished _ hgood _ ih =>
      obtain ⟨hplanned, hwell⟩ := ih hfinished
      exact ⟨congrArg (r :: ·) hplanned, List.forall_mem_cons.mpr ⟨hgood, hwell⟩⟩

end

section

variable {κ : Type}

/-- What some runs have added to the journal, the calls and the tally. -/
structure Adds (l : Layout) (executed : List (Run × Phase)) (w t : World (Journal κ)) : Prop where
  writes : t.keeper.writes = w.keeper.writes ++ executed.flatMap fun e => e.2.writes
  calls : t.bench.calls.reverse = w.bench.calls.reverse ++ executed.flatMap fun e => e.2.calls l e.1
  tally : t.tally.failed = w.tally.failed + Int64.ofNat (executed.countP fun e => e.2.isFailed)
  interrupted : w.bench.interrupted = true → t.bench.interrupted = true

variable {l : Layout} {executed more : List (Run × Phase)} {w t u : World (Journal κ)}

theorem Onward.adds (h : Onward w t) : Adds l [] w t :=
  ⟨by simp [h.writes], by simp [h.calls], by simp [h.tally], h.interrupted⟩

theorem Adds.trans (h : Adds l executed w t) (h' : Adds l more t u) : Adds l (executed ++ more) w u := by
  refine ⟨?_, ?_, ?_, fun hin => h'.interrupted (h.interrupted hin)⟩
  · rw [h'.writes, h.writes, List.flatMap_append, List.append_assoc]
  · rw [h'.calls, h.calls, List.flatMap_append, List.append_assoc]
  · rw [h'.tally, h.tally, List.countP_append, Int64.ofNat_add, Int64.add_assoc]

theorem Adds.outside (h : Adds l executed w t) (htu : Onward t u) : Adds l executed w u := by
  simpa using h.trans htu.adds

/-- Why a series was cut short. -/
def Halted (executed : List (Run × Phase)) (t : World (Journal κ)) : Prop :=
  t.bench.interrupted = true ∨ ∃ e ∈ executed, e.2.isFailed = true

theorem Halted.outside (h : Halted executed t) (htu : t.bench.interrupted = true → u.bench.interrupted = true) :
    Halted executed u := h.imp_left htu

/-- What a part of a sweep has come to that was to take up some runs. -/
structure Led (s : Setup) (runs : List Run) (w : World (Journal κ)) (fault : Option Fault)
    (executed : List (Run × Phase)) (t : World (Journal κ)) : Prop where
  series : Series s runs executed fault.isNone
  adds : Adds s.config.layout executed w t
  halted : fault ≠ none → Halted executed t

theorem Led.outside {s : Setup} {runs : List Run} {fault : Option Fault} (h : Led s runs w fault executed t)
    (htu : Onward t u) : Led s runs w fault executed u :=
  ⟨h.series, h.adds.outside htu, fun hfault => (h.halted hfault).outside htu.interrupted⟩

/-! ## One run -/

/-- A run alone on its way from a world. Once a failure is noted, the run is turned away. -/
structure InPhase (s : Setup) (r : Run) (w : World (Journal κ)) (phase : Phase) (t : World (Journal κ)) : Prop where
  writes : t.keeper.writes = w.keeper.writes ++ phase.writes
  calls : t.bench.calls = phase.calls s.config.layout r ++ w.bench.calls
  tally : t.tally.failed = w.tally.failed + Int64.ofNat phase.isCounted.toNat
  failure : t.bench.failure = w.bench.failure
  interrupted : w.bench.interrupted = true → t.bench.interrupted = true
  sound : phase.Sound s r
  barred : phase ≠ .waiting → phase ≠ .refused → w.bench.failure = none
  refused : phase = .refused → w.bench.failure ≠ none ∨ t.bench.interrupted = true

variable {s : Setup} {r : Run} {phase phase' : Phase}

theorem InPhase.outside (h : InPhase s r w phase t) (htu : Onward t u) : InPhase s r w phase u :=
  ⟨htu.writes.trans h.writes, htu.calls.trans h.calls, htu.tally.trans h.tally, htu.failure.trans h.failure,
    fun hin => htu.interrupted (h.interrupted hin), h.sound, h.barred,
    fun hrefused => (h.refused hrefused).imp_right htu.interrupted⟩

/-- What a run comes to whose result is noted. -/
theorem InPhase.adds {result : Option Fault} (h : InPhase s r w phase t) (hends : Phase.Ends r result phase) :
    Adds s.config.layout [(r, phase)] w (World.noteFailure result t) := by
  refine ⟨?_, ?_, ?_, h.interrupted⟩
  · simpa [World.noteFailure] using h.writes
  · have hcalls : (phase.calls s.config.layout r).reverse = phase.calls s.config.layout r := by
      cases hends with
      | refused | skipped => rfl
      | succeeded _ _ called => cases called <;> rfl
      | failed _ _ _ called => cases called <;> rfl
    simpa [World.noteFailure, Bench.noteFailure, hcalls] using congrArg List.reverse h.calls
  · have hcounted : phase.isCounted.toNat = [(r, phase)].countP fun e => e.2.isFailed := by
      cases hends <;> rfl
    exact h.tally.trans (congrArg (w.tally.failed + Int64.ofNat ·) hcounted)

variable [Recorder κ]

theorem InPhase.advance (h : InPhase s r w phase t)
    (hmove : Advance s (Bench.Noting (s.config.layout.configRelative r) (s.config.layout.logRelative r)) r
      phase phase' t u) : InPhase s r w phase' u := by
  have hsound := hmove.sound h.sound
  -- A case for each advance: what it writes, calls and counts is added to what the phase has so far.
  cases hmove with
  | quiet _ _ _ hsame =>
      simp only [standing, Prod.mk.injEq] at hsame
      obtain ⟨hkeeper, htally, hfailure, hinterrupted, hcalls⟩ := hsame
      exact h.outside ⟨congrArg Journal.writes hkeeper, htally, hfailure, hcalls, fun hin => hinterrupted.trans hin⟩
  | refuse _ hcancelled =>
      refine ⟨h.writes, h.calls, h.tally, h.failure, h.interrupted, hsound, fun _ hnot => absurd rfl hnot, fun _ => ?_⟩
      simp only [Bench.cancelled, Bool.or_eq_true, h.failure, Option.isSome_iff_ne_none] at hcancelled
      exact hcancelled.symm
  | accept _ hcancelled =>
      refine ⟨h.writes, h.calls, h.tally, h.failure, h.interrupted, hsound, fun _ _ => ?_, by rintro ⟨⟩⟩
      simp only [Bench.cancelled, Bool.or_eq_false_iff, Option.isSome_eq_false_iff, Option.isNone_iff_eq_none] at hcancelled
      exact h.failure.symm.trans hcancelled.2
  | skip record _ hdescribes =>
      refine ⟨?_, h.calls, h.tally, h.failure, h.interrupted, hsound,
        fun _ _ => h.barred (by rintro ⟨⟩) (by rintro ⟨⟩), by rintro ⟨⟩⟩
      exact congrArg (· ++ [Ledger.Write.skip record]) (by simpa [Phase.writes] using h.writes)
  | start record _ hdescribes =>
      refine ⟨?_, h.calls, h.tally, h.failure, h.interrupted, hsound,
        fun _ _ => h.barred (by rintro ⟨⟩) (by rintro ⟨⟩), by rintro ⟨⟩⟩
      exact congrArg (· ++ [Ledger.Write.start record]) (by simpa [Phase.writes] using h.writes)
  | simulate first called called' _ bench hnoting =>
      obtain ⟨⟨hfailure, hinterrupted⟩, hcalls⟩ := hnoting
      refine ⟨h.writes, ?_, h.tally, hfailure.trans h.failure, fun hin => hinterrupted (h.interrupted hin), hsound,
        fun _ _ => h.barred (by rintro ⟨⟩) (by rintro ⟨⟩), by rintro ⟨⟩⟩
      rcases hcalls with ⟨rfl, hcalls⟩ | ⟨rfl, rfl, hcalls⟩
      · exact hcalls.trans h.calls
      · exact hcalls.trans (congrArg (_ :: ·) h.calls)
  | succeed first last called _ _ _ _ =>
      refine ⟨?_, ?_, h.tally, h.failure, h.interrupted, hsound,
        fun _ _ => h.barred (by rintro ⟨⟩) (by rintro ⟨⟩), by rintro ⟨⟩⟩
      · exact (congrArg (· ++ [Ledger.Write.finish last]) h.writes).trans (List.append_assoc _ _ _)
      · cases called <;> exact h.calls
  | fail first last fault called _ _ _ _ =>
      refine ⟨?_, ?_, h.tally, h.failure, h.interrupted, hsound,
        fun _ _ => h.barred (by rintro ⟨⟩) (by rintro ⟨⟩), by rintro ⟨⟩⟩
      · exact (congrArg (· ++ [Ledger.Write.finish last]) h.writes).trans (List.append_assoc _ _ _)
      · cases called <;> exact h.calls
  | count first last fault called _ =>
      have hbefore : t.tally.failed = w.tally.failed := h.tally.trans (Int64.add_zero _)
      refine ⟨h.writes, ?_, congrArg (· + 1) hbefore, h.failure, h.interrupted, hsound,
        fun _ _ => h.barred (by rintro ⟨⟩) (by rintro ⟨⟩), by rintro ⟨⟩⟩
      cases called <;> exact h.calls

/-- A run alone, from its question whether it may go on to its result. -/
theorem task_alone (hsimulator : ∀ simulator ∈ s.simulator, simulator.NotesCalls) (template : Option Template)
    (r : Run) (w : World (Journal κ)) :
    Steps.Ensures Onward (fun _ _ => True)
      (fun result t => ∃ phase, Phase.Ends r result phase ∧ InPhase s r w phase t) (task s template r) w := by
  refine (task_advances (fun simulator hin => hsimulator simulator hin _ _) template).ensures ?_ ?_ ?_
  · exact fun phase t u h htu => h.outside htu
  · exact fun phase phase' t u h hmove => h.advance hmove
  · refine ⟨?_, rfl, (Int64.add_zero _).symm, rfl, id, trivial, fun h => absurd rfl h, by rintro ⟨⟩⟩
    simp [Phase.writes]

/-! ## Runs one after another -/

/-- Runs one after another. They are taken up in order until one fails or the sweep is stopped, and none of them once
a failure is noted. -/
theorem inTurn_led (hsimulator : ∀ simulator ∈ s.simulator, simulator.NotesCalls) (template : Option Template)
    (runs : List Run) (w : World (Journal κ)) :
    Steps.Ensures Onward (fun _ _ => True)
      (fun _ t => ∃ executed, Series s runs executed t.bench.failure.isNone ∧ Adds s.config.layout executed w t ∧
        (w.bench.failure ≠ none → executed = [] ∧ t.bench.failure ≠ none) ∧
        (t.bench.failure ≠ none → w.bench.failure ≠ none ∨ Halted executed t))
      (Group.inTurn World.noteFailure (runs.map (task s template))) w := by
  -- By induction on the runs: each is led from where the one before has left the sweep, with its result noted.
  induction runs generalizing w with
  | nil =>
      intro t hwt
      cases hfailure : t.bench.failure with
      | none =>
          refine ⟨[], .complete, hwt.adds, fun hnot => ?_, fun hnot => absurd rfl hnot⟩
          exact absurd (hwt.failure.symm.trans hfailure) hnot
      | some fault =>
          refine ⟨[], .stopped [], hwt.adds, fun _ => ⟨rfl, by rintro ⟨⟩⟩, fun _ => Or.inl ?_⟩
          rw [← hwt.failure, hfailure]
          rintro ⟨⟩
  | cons r rest ih =>
      refine (task_alone hsimulator template r w).bind onward_refl ?_
      rintro result t ⟨phase, hends, h⟩
      intro u htu
      have hphase := h.outside htu
      refine ⟨trivial, (ih (World.noteFailure result u)).weaken ?_⟩
      rintro _ v ⟨executed, hseries, hadds, hbarred, hhalted⟩
      have hall := (hphase.adds hends).trans hadds
      have hnoted : (World.noteFailure result u).bench.failure = w.bench.failure.or result :=
        congrArg (·.or result) hphase.failure
      rw [hnoted] at hbarred hhalted
      have hshort : v.bench.failure ≠ none → v.bench.failure.isNone = false := by
        simp [← Option.isSome_iff_ne_none]
      -- It was passed over, went well, or failed; only after the second do the others go on.
      rcases hends.cases with ⟨rfl, hresult⟩ | ⟨hgood, rfl⟩ | ⟨hlost, hresult⟩
      · obtain ⟨rfl, hfailed⟩ := hbarred fun hnot => hresult (Option.or_eq_none_iff.mp hnot).2
        have hnothing : Adds s.config.layout [] w v := ⟨hall.writes, hall.calls, hall.tally, hall.interrupted⟩
        refine ⟨[], ?_, hnothing, fun _ => ⟨rfl, hfailed⟩, fun _ => ?_⟩
        · rw [hshort hfailed]
          exact .stopped _
        · exact (hphase.refused rfl).imp_right fun hin => Or.inl (hadds.interrupted hin)
      · have hnone : w.bench.failure = none := by
          refine hphase.barred ?_ ?_ <;>
            rintro rfl <;> cases hgood
        rw [hnone, Option.or_none] at hhalted
        refine ⟨(r, phase) :: executed, .next _ _ _ _ _ hphase.sound hgood hseries, hall, fun hnot => absurd hnone hnot,
          fun hfailed => Or.inr (((hhalted hfailed).resolve_left fun hnot => hnot rfl).imp_right ?_)⟩
        rintro ⟨e, he, hfailed⟩
        exact ⟨e, List.mem_cons_of_mem _ he, hfailed⟩
      · have hnone : w.bench.failure = none := by
          refine hphase.barred ?_ ?_ <;>
            rintro rfl <;> cases hlost
        obtain ⟨rfl, hfailed⟩ := hbarred fun hnot => hresult (Option.or_eq_none_iff.mp hnot).2
        refine ⟨[(r, phase)], ?_, hall, fun hnot => absurd hnone hnot, fun _ => ?_⟩
        · rw [hshort hfailed]
          exact .failed _ _ _ hphase.sound hlost
        · exact Or.inr (Or.inr ⟨_, List.mem_cons_self, hlost⟩)

/-- The repetitions of a combination with a single worker. -/
theorem runCombination_led (hworkers : s.config.sweep.workers = 1)
    (hsimulator : ∀ simulator ∈ s.simulator, simulator.NotesCalls) (template : Option Template) (schedule : List Nat)
    (p : Params) (w : World (Journal κ)) :
    Steps.Ensures Onward (fun _ _ => True)
      (fun fault t => ∃ executed, Led s (Plan.repetitions p s.config.sweep.repetitions) w fault executed t)
      (runCombination s template schedule p) w := by
  unfold runCombination
  have hlimit : s.config.sweep.workers.toInt.toNat = 1 := by
    rw [hworkers]
    rfl
  have hreset : Steps.Ensures Onward (fun _ _ => True)
      (fun _ t => t.bench.failure = none ∧ Adds s.config.layout [] w t)
      (Steps.change fun (w : World (Journal κ)) => { w with bench := { w.bench with failure := none } }) w := by
    refine Steps.ensures_change fun t hwt => ⟨trivial, fun u htu => ⟨htu.failure, ?_⟩⟩
    have hstill : Adds s.config.layout [] w t := hwt.adds
    have hcleared : Adds s.config.layout [] w { t with bench := { t.bench with failure := none } } :=
      ⟨hstill.writes, hstill.calls, hstill.tally, hstill.interrupted⟩
    exact hcleared.outside htu
  refine hreset.bind onward_refl ?_
  rintro _ t ⟨hclear, hadds⟩
  rw [hlimit, Group.interleaved_one _ _ _ _ (by simp), List.nil_append]
  refine (inTurn_led hsimulator template _ t).bind onward_refl ?_
  rintro _ u ⟨executed, hseries, hmore, -, hhalted⟩
  refine Steps.ensures_look (fun _ => trivial) fun v huv x hvx => ⟨executed, ?_⟩
  have hled : Led s (Plan.repetitions p s.config.sweep.repetitions) w u.bench.failure executed u :=
    ⟨hseries, hadds.trans hmore, fun hfailed => (hhalted hfailed).resolve_left fun hnot => hnot hclear⟩
  rw [huv.failure]
  exact (hled.outside huv).outside hvx

/-- The combinations that are left, with a single worker. -/
theorem runCombinations_led (hworkers : s.config.sweep.workers = 1)
    (hsimulator : ∀ simulator ∈ s.simulator, simulator.NotesCalls) (template : Option Template)
    (schedules : List (List Nat)) (combinations : List Params) (w : World (Journal κ)) :
    Steps.Ensures Onward (fun _ _ => True)
      (fun fault t => ∃ executed, Led s (Plan.runs combinations s.config.sweep.repetitions) w fault executed t)
      (runCombinations s template schedules combinations) w := by
  induction combinations generalizing schedules w with
  | nil => exact fun t hwt => ⟨[], .complete, hwt.adds, fun hnot => absurd rfl hnot⟩
  | cons p rest ih =>
      unfold runCombinations
      refine (look_interrupted_onward w).bind onward_refl ?_
      rintro interrupted t ⟨hwt, hinterrupted⟩
      split
      next hin =>
        refine Steps.ensures_pure fun u htu => ⟨[], .stopped _, (hwt.trans htu).adds, fun _ => Or.inl ?_⟩
        exact htu.interrupted (hinterrupted hin)
      next =>
        refine (runCombination_led hworkers hsimulator template (schedules.headD []) p t).bind onward_refl ?_
        rintro fault u ⟨executed, hled⟩
        have hadds := hwt.adds.trans hled.adds
        cases fault with
        | some fault =>
            refine Steps.ensures_pure fun v huv => ⟨executed, hled.series.before _, hadds.outside huv, fun hfault => ?_⟩
            exact (hled.halted hfault).outside huv.interrupted
        | none =>
            refine (ih schedules.tail u).weaken ?_
            rintro fault v ⟨more, hmore⟩
            refine ⟨executed ++ more, hled.series.append hmore.series, hadds.trans hmore.adds, fun hfault => ?_⟩
            refine (hmore.halted hfault).imp_right ?_
            rintro ⟨e, he, hfailed⟩
            exact ⟨e, List.mem_append_right executed he, hfailed⟩

end

/-! ## What the plan lists -/

/-- An entry of a plan lists the names, numbers and the seed of a record. -/
structure Lists (entry : Json) (record : RunRecord) : Prop where
  id : entry.field? "id" = some (.text record.runId)
  nodeDistance : entry.field? "node_distance" = some (.ofInt64 record.nodeDistance)
  swapCouples : entry.field? "swap_couples" = some (.ofInt64 record.swapCouples)
  shuffleDistance : entry.field? "shuffle_distance" = some (.ofInt64 record.shuffleDistance)
  repetition : entry.field? "repetition" = some (.ofInt64 record.repetition)
  seed : entry.field? "seed" = some (.ofInt64 record.seed)
  trace : entry.field? "trace" = some (.text record.tracePath)

/-- An entry of a plan lists the files that a simulator was called with. -/
structure ListsCall (entry : Json) (call : Bytes × Bytes) : Prop where
  config : entry.field? "config" = some (.text call.1)
  log : entry.field? "log" = some (.text call.2)

/-- The counts of a record are those that its settings give, if they are numbers of 64 bits. -/
def Reckons (c : Config) (p : Params) (record : RunRecord) : Prop :=
  let ticks := p.ticks c.generator.duration
  let samples := c.generator.nodes.toInt * ((ticks - 1) / c.generator.sampleInterval.toInt + 1)
  ticks < 2 ^ 63 → samples < 2 ^ 63 → record.samples.toInt = samples ∧
    record.reshuffles.toInt = (ticks - 1) / (p.shuffleDistance.toInt + 4 * p.nodeDistance.toInt)

section

variable {s listing : Setup} {r : Run} {record : RunRecord}

theorem Describes.lists (h : Describes s r record) (hconfig : listing.config = s.config) (hbase : listing.base = s.base) :
    Lists (Cli.planEntry listing r) record := by
  obtain ⟨-, hid, hdistance, hcouples, hshuffle, hrepetition, hseed, htrace⟩ := h
  rw [← hconfig] at htrace
  rw [← hbase] at hseed
  constructor
  · rw [hid]; rfl
  · rw [hdistance]; rfl
  · rw [hcouples]; rfl
  · rw [hshuffle]; rfl
  · rw [hrepetition]; rfl
  · rw [hseed]; rfl
  · rw [htrace]; rfl

theorem Phase.calls_listed (hconfig : listing.config = s.config) {phase : Phase} {call : Bytes × Bytes}
    (h : call ∈ phase.calls s.config.layout r) : ListsCall (Cli.planEntry listing r) call := by
  have hcall : call = (s.config.layout.configRelative r, s.config.layout.logRelative r) := by
    unfold Phase.calls at h
    split at h
    all_goals first | exact List.mem_singleton.mp h | cases h
  rw [hcall, ← hconfig]
  exact ⟨rfl, rfl⟩

theorem Phase.length_calls_le (l : Layout) (phase : Phase) : (phase.calls l r).length ≤ 1 := by
  unfold Phase.calls
  split <;> simp

theorem Phase.Sound.describes {phase : Phase} (h : phase.Sound s r) {write : Ledger.Write}
    (hwrite : write ∈ phase.writes) : ∃ record, write.run? = some record ∧ Describes s r record := by
  cases phase with
  | waiting | refused | admitted => cases hwrite
  | skipped record =>
      rw [List.mem_singleton.mp hwrite]
      exact ⟨record, rfl, h⟩
  | started first called =>
      rw [List.mem_singleton.mp hwrite]
      exact ⟨first, rfl, h⟩
  | succeeded first last called =>
      rcases List.mem_pair.mp hwrite with rfl | rfl
      · exact ⟨first, rfl, h.1⟩
      · exact ⟨last, rfl, h.2.1⟩
  | failed first last fault called counted =>
      rcases List.mem_pair.mp hwrite with rfl | rfl
      · exact ⟨first, rfl, h.1⟩
      · exact ⟨last, rfl, h.2.1⟩

theorem Measures.reckons (h : Measures s r record) : Reckons s.config r.params record := by
  obtain ⟨start, hcreate, hsamples, hreshuffles⟩ := h
  obtain ⟨hparams, hoptions, -⟩ := Generator.create_eq hcreate
  obtain ⟨-, -, hduration, -⟩ := Options.of_validate_ok hoptions
  intro hticks hfew
  obtain ⟨-, hsome, hperiod⟩ := Params.totalTicks_toInt hparams hduration hticks
  obtain ⟨ticks, hwhole⟩ : ∃ ticks : Nat, r.params.ticks s.config.generator.duration = ticks := Int.eq_ofNat_of_zero_le hsome.le
  rw [hwhole] at hticks hfew
  have hcounts := Generator.finished_counts hcreate hwhole (by omega)
  rw [hsamples, hreshuffles, (Generator.run_unlimited start).2, ← hperiod, hwhole]
  exact ⟨hcounts.exact hfew, hcounts.reshuffles⟩

theorem Phase.Sound.reckons {phase : Phase} (h : phase.Sound s r) (hwrite : .finish record ∈ phase.writes)
    (hstatus : record.status = RunStatus.succeeded) : Reckons s.config r.params record := by
  cases phase with
  | waiting | refused | admitted => cases hwrite
  | skipped first => cases List.mem_singleton.mp hwrite
  | started first called => cases List.mem_singleton.mp hwrite
  | succeeded first last called =>
      rcases List.mem_pair.mp hwrite with hfirst | hlast
      · cases hfirst
      · cases hlast
        exact h.2.2.2.reckons
  | failed first last fault called counted =>
      rcases List.mem_pair.mp hwrite with hfirst | hlast
      · cases hfirst
      · cases hlast
        exact absurd (hstatus.symm.trans h.2.2.1) succeeded_ne_failed

end

/-! ## The whole sweep -/

/-- How a sweep with a single worker has gone by, with the runs that it has executed, each in its last phase. -/
structure InOrder {κ : Type} (s listing : Setup) (files : Files) (before : List Ledger.Write) (report : Report)
    (fault : Option Fault) (w : World (Journal κ)) (executed : List (Run × Phase)) : Prop where
  planned : executed.map Prod.fst <+: listing.runs
  well : ∀ e ∈ executed.dropLast, e.2.isGood = true
  ended : ∀ e ∈ executed, e.2.isGood = true ∨ e.2.isFailed = true
  reported : report.failed.toInt = executed.countP fun e => e.2.isFailed
  few : report.failed.toInt ≤ 1
  whole : fault = none → executed.map Prod.fst = listing.runs ∧ report.failed.toInt = 0
  halted : Begins s files → fault ≠ none → w.bench.interrupted = false → report.failed.toInt = 1
  calls : w.bench.calls.reverse = executed.flatMap fun e => e.2.calls s.config.layout e.1
  called : ∀ e ∈ executed, (e.2.calls s.config.layout e.1).length ≤ 1 ∧
    ∀ call ∈ e.2.calls s.config.layout e.1, ListsCall (Cli.planEntry listing e.1) call
  begun : Begins s files → ∃ sweep status finishedAt, w.keeper.writes =
    before ++ .beginSweep sweep :: (executed.flatMap (fun e => e.2.writes) ++ [.endSweep s.sweepId status finishedAt])
  unbegun : ¬ Begins s files → w.keeper.writes = before ∧ executed = []
  listed : ∀ e ∈ executed, ∀ write ∈ e.2.writes, ∃ record, write.run? = some record ∧
    Lists (Cli.planEntry listing e.1) record
  reckoned : ∀ e ∈ executed, ∀ record, .finish record ∈ e.2.writes → record.status = RunStatus.succeeded →
    Reckons s.config e.1.params record

theorem inOrder_of_framed {κ : Type} [Recorder κ] {s listing : Setup} {start t : World (Journal κ)}
    {result : Report × Option Fault} (hconfig : listing.config = s.config) (hbase : listing.base = s.base)
    (hcalls : start.bench.calls = []) (htally : start.tally.failed = 0)
    (h : Framed s start (fun u fault v => ∃ executed, Led s s.runs u fault executed v) result t) :
    ∃ executed, InOrder s listing start.bench.files start.keeper.writes result.1 result.2 t executed := by
  have hruns : listing.runs = s.runs := by rw [Setup.runs, Setup.runs, hconfig]
  cases h with
  | unbegun report fault t hbegins hreport hquiet =>
      refine ⟨[], ?_⟩
      constructor
      case planned => exact List.nil_prefix
      case reported => exact congrArg Int64.toInt hreport
      case few => simp [hreport]
      case whole => rintro ⟨⟩
      case halted => exact fun h => absurd h hbegins
      case calls => simp [hquiet.calls, hcalls]
      case begun => exact fun h => absurd h hbegins
      case unbegun => exact fun _ => ⟨hquiet.writes, rfl⟩
      all_goals simp
  | begun sweep u fault v report status finishedAt t hbegins hpinned hopened hinside hreport hclosed hstatus =>
      obtain ⟨executed, hled⟩ := hinside
      have hcount : report.failed.toInt = executed.countP fun e => e.2.isFailed := by
        have hfew := hled.series.few
        rw [hreport, hled.adds.tally, hopened.tally, posted_tally, htally, Int64.zero_add,
          Int64.toInt_ofNat_of_lt (by omega)]
      refine ⟨executed, ?_⟩
      constructor
      case planned => exact hruns ▸ hled.series.planned
      case well => exact hled.series.well
      case ended => exact hled.series.ended
      case reported => exact hcount
      case few =>
        rw [hcount]
        exact_mod_cast hled.series.few
      case whole =>
        rintro rfl
        obtain ⟨hplanned, hwell⟩ := hled.series.whole rfl
        refine ⟨hruns ▸ hplanned, ?_⟩
        rw [hcount, Nat.cast_eq_zero, List.countP_eq_zero]
        exact fun e he => by simp [Phase.isFailed_of_isGood (hwell e he)]
      case halted =>
        intro _ hfault hcalm
        rw [hcount, Nat.cast_eq_one]
        refine le_antisymm hled.series.few ?_
        rcases hled.halted hfault with hinterrupted | ⟨e, he, hfailed⟩
        · have hlate := hclosed.interrupted hinterrupted
          simp [hcalm] at hlate
        · exact List.countP_pos_iff.mpr ⟨e, he, hfailed⟩
      case calls =>
        rw [hclosed.calls, posted_bench, hled.adds.calls, hopened.calls, posted_bench, hcalls]
        rfl
      case called =>
        exact fun e _ => ⟨Phase.length_calls_le _ _, fun call hcall => Phase.calls_listed hconfig hcall⟩
      case begun =>
        refine fun _ => ⟨sweep, status, finishedAt, ?_⟩
        rw [hclosed.writes, posted_writes, hled.adds.writes, hopened.writes, posted_writes]
        simp
      case unbegun => exact fun h => absurd hbegins h
      case listed =>
        intro e he write hwrite
        obtain ⟨record, hrecord, hdescribes⟩ := (hled.series.sound e he).describes hwrite
        exact ⟨record, hrecord, hdescribes.lists hconfig hbase⟩
      case reckoned => exact fun e he record hwrite hstatus => (hled.series.sound e he).reckons hwrite hstatus

/-- With a single worker a sweep executes its plan, in order, up to the first failure. A sweep is run under any
schedules with any simulator that notes its calls, and interrupted at any moment, if at all; its plan is listed from
the same configuration with the same seed. The executed runs are the first ones of the plan; all but the last have
succeeded or were skipped. The simulator was called at most once for each of them, in order and with the files that
the plan lists; and what is written about them has the names, seeds and trace paths that the plan lists, and for those
that have succeeded the counts that follow from the settings. -/
theorem single_worker_follows_plan {κ : Type} [Recorder κ] (c : Config) (hworkers : c.sweep.workers = 1)
    (simulator : Option Simulator) (hsimulator : ∀ sim ∈ simulator, sim.NotesCalls)
    (logger logger' : Log.Logger) (sweepId identity : Bytes) (drawn : Int64) (s listing : Setup)
    (hsetup : Setup.create (some c) simulator logger sweepId drawn = .ok s)
    (hlisting : Setup.create (some c) none logger' identity drawn = .ok listing)
    (files : Files) (journal : Journal κ) (events : Option EventLog) (clock : Clock) (schedules : List (List Nat))
    (moment : Nat) :
    let result := (run s schedules).runStruck World.interrupt moment (World.start files journal events clock)
    ∃ executed, InOrder s listing files journal.writes result.1.1 result.1.2 result.2 executed := by
  have hs := Setup.create_eq hsetup
  have hconfig : s.config = c := by rw [hs]
  have hlisted := Setup.create_eq hlisting
  have hinside : ∀ template sweep (u : World (Journal κ)),
      Onward (posted (World.start files journal events clock) (.beginSweep sweep)) u →
      Steps.Ensures Onward (fun _ _ => True) (fun fault t => ∃ executed, Led s s.runs u fault executed t)
        (runCombinations s template schedules (Plan.combinations s.config.sweep)) u := by
    refine fun template _ u _ => runCombinations_led (hconfig ▸ hworkers) ?_ template schedules _ u
    rw [hs]
    exact hsimulator
  have hframed := (run_framed (World.start files journal events clock) schedules hinside).runStruck
    World.interruption_refl World.interruption_interrupt moment
  exact inOrder_of_framed (by rw [hs, hlisted]) (by rw [hs, hlisted]) rfl rfl hframed

/-- The configuration of a sweep of two combinations with two repetitions each, one after another. -/
def oneByOne : Config := { twoByTwo with sweep := { twoByTwo.sweep with workers := 1 } }

/-- The second of four runs fails, and the sweep ends with it. -/
theorem failed_second_run_ends_plan :
    let p := scriptedPass blankJournal [("1_0_1_1", "boom")]
    let s := p.setup oneByOne
    let listing := { p with simulator := none, sweepId := "plan" }.setup oneByOne
    let result := (run s []).runStruck World.interrupt 1000 (World.start site blankJournal none secondsClock)
    (∃ executed, InOrder s listing site blankJournal.writes result.1.1 result.1.2 result.2 executed) ∧
      listing.runs.length = 4 ∧ result.1.2 = some (.plain "run 1_0_1_1: boom") ∧ result.1.1.failed = 1 ∧
      result.2.bench.calls.length = 2 ∧ Begins s site := by
  have hvalid : oneByOne.validate = .ok () := by decide +kernel
  have hsetup := Pass.create_eq_setup (scriptedPass blankJournal [("1_0_1_1", "boom")]) hvalid
  have hlisting := Pass.create_eq_setup
    { scriptedPass blankJournal [("1_0_1_1", "boom")] with simulator := none, sweepId := "plan" } hvalid
  have hsimulator : ∀ sim ∈ (scriptedPass blankJournal [("1_0_1_1", "boom")]).simulator, sim.NotesCalls := by
    intro simulator hin
    obtain rfl := Option.some.inj hin
    exact ScriptedSimulator.simulator_notesCalls _
  refine ⟨single_worker_follows_plan oneByOne rfl _ hsimulator _ _ _ _ _ _ _ hsetup hlisting site blankJournal none
    secondsClock [] 1000, ?_⟩
  decide +kernel

end Sweep

end MobilitySweep
