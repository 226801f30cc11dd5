import MobilitySweep.Proofs.Config.Readback
import MobilitySweep.Proofs.Sweep.Framing

/-! # Sweeps repeated from their snapshots

A sweep that gets past its opening puts its configuration on record once, with the seed that it uses. Read from a file,
this snapshot is the configuration again, so that a sweep set up from it has the same runs with the same seeds.
-/

namespace MobilitySweep

/-- The configuration with which a write puts the beginning of a sweep on record. -/
def Ledger.Write.snapshot? : Ledger.Write → Option Bytes
  | .beginSweep sweep => some sweep.config
  | .endSweep _ _ _ | .start _ | .finish _ | .skip _ => none

namespace Sweep

variable {κ : Type}

/-- The configurations on record, in order. -/
def snapshots (w : World (Journal κ)) : List Bytes := w.keeper.writes.filterMap Ledger.Write.snapshot?

/-! ## Parts of a run that leave the records to others -/

theorem keeps_keeper_onBench {α : Type} (p : Steps Bench α) : (World.onBench p : Steps (World κ) α).Keeps World.keeper := by
  induction p with
  | done value => exact trivial
  | step act next ih => exact fun w => ⟨rfl, ih _⟩

theorem dealings_keeps_keeper {α : Type} {p : Steps (World κ) α} (h : p.Keeps dealings) : p.Keeps World.keeper :=
  h.comp Prod.fst

theorem archiveLog_keeps_keeper (path : Bytes) (record : RunRecord) :
    (archiveLog path record : Steps (World κ) (RunRecord × Option Fault)).Keeps World.keeper := by
  unfold archiveLog
  refine (keeps_keeper_onBench _).bind ?_
  rintro ⟨archive, fault⟩
  cases fault with
  | some fault => exact Steps.keeps_pure _
  | none =>
      refine (keeps_keeper_onBench _).bind fun sum => ?_
      cases sum <;> exact Steps.keeps_pure _

theorem simulate_keeps_keeper (s : Setup) (simulator : Simulator) (logger : Log.Logger) (run : Run) (record : RunRecord) :
    (simulate s simulator logger run record : Steps (World κ) (RunRecord × Option Fault)).Keeps World.keeper := by
  unfold simulate
  refine (keeps_keeper_onBench _).bind fun fault => ?_
  cases fault with
  | some fault => exact (dealings_keeps_keeper (keeps_dealings_setAside _ _)).bind fun _ => Steps.keeps_pure _
  | none =>
      dsimp only
      split
      next => exact archiveLog_keeps_keeper _ _
      next => exact Steps.keeps_pure _

theorem renderAndSimulate_keeps_keeper (s : Setup) (template : Template) (logger : Log.Logger) (run : Run)
    (record : RunRecord) :
    (renderAndSimulate s template logger run record : Steps (World κ) (RunRecord × Option Fault)).Keeps World.keeper := by
  unfold renderAndSimulate
  refine (keeps_keeper_onBench _).bind fun fault => ?_
  cases fault with
  | some fault => exact Steps.keeps_pure _
  | none =>
      dsimp only
      split
      next simulator _ => exact simulate_keeps_keeper s simulator _ _ _
      next => exact Steps.keeps_pure _

/-- The work of a run puts nothing on record. -/
theorem perform_keeps_keeper (s : Setup) (template : Option Template) (logger : Log.Logger) (run : Run)
    (record : RunRecord) :
    (perform s template logger run record : Steps (World κ) (RunRecord × Option Fault)).Keeps World.keeper := by
  unfold perform
  refine (keeps_keeper_onBench _).bind ?_
  rintro ⟨stats, fault⟩
  cases fault with
  | some fault => exact Steps.keeps_pure _
  | none =>
      refine (dealings_keeps_keeper (keeps_dealings_note _ _ _ _)).bind fun _ => ?_
      cases template with
      | some template => exact renderAndSimulate_keeps_keeper s template _ _ _
      | none => exact Steps.keeps_pure _

/-! ## Snapshots on record -/

theorem keeper_keeps_snapshots {α : Type} {p : Steps (World (Journal κ)) α} (h : p.Keeps World.keeper) :
    p.Keeps snapshots :=
  h.comp fun keeper => keeper.writes.filterMap Ledger.Write.snapshot?

theorem note_keeps_snapshots (logger : Log.Logger) (level : Log.Level) (message : Bytes)
    (attributes : List (Bytes × Log.Value)) :
    (World.note logger level message attributes : Steps (World (Journal κ)) Unit).Keeps snapshots :=
  keeper_keeps_snapshots (dealings_keeps_keeper (keeps_dealings_note _ _ _ _))

theorem event_keeps_snapshots (kind runId : Bytes) (fields : List (Bytes × Json)) :
    (World.event kind runId fields : Steps (World (Journal κ)) Unit).Keeps snapshots :=
  Steps.keeps_change fun w => by
    unfold World.told
    split <;> rfl

theorem count_keeps_snapshots (f : Tally → Tally) : (World.count f : Steps (World (Journal κ)) Unit).Keeps snapshots :=
  Steps.keeps_change fun _ => rfl

section

variable [Recorder κ]

theorem record_keeps_snapshots (logger : Log.Logger) {write : Ledger.Write} (h : write.snapshot? = none) :
    (World.record logger write : Steps (World (Journal κ)) Unit).Keeps snapshots := by
  refine Steps.Keeps.bind (fun w => ⟨?_, trivial⟩) fun refusal => ?_
  · show (w.keeper.writes ++ [write]).filterMap Ledger.Write.snapshot? = snapshots w
    rw [List.filterMap_append, List.filterMap_cons_none h, List.filterMap_nil, List.append_nil]
    rfl
  · cases refusal with
    | some fault => exact note_keeps_snapshots _ _ _ _
    | none => exact Steps.keeps_pure _

theorem skip_keeps_snapshots (s : Setup) (logger : Log.Logger) (run : Run) (path : Bytes) (record : RunRecord) :
    (skip s logger run path record : Steps (World (Journal κ)) (Option Fault)).Keeps snapshots := by
  unfold skip
  refine (note_keeps_snapshots _ _ _ _).bind fun _ => ?_
  refine (record_keeps_snapshots _ rfl).bind fun _ => ?_
  refine (event_keeps_snapshots _ _ _).bind fun _ => ?_
  exact (count_keeps_snapshots _).bind fun _ => Steps.keeps_pure _

theorem launch_keeps_snapshots (s : Setup) (template : Option Template) (logger : Log.Logger) (run : Run)
    (record : RunRecord) :
    (launch s template logger run record : Steps (World (Journal κ)) (Option Fault)).Keeps snapshots := by
  unfold launch
  refine (note_keeps_snapshots _ _ _ _).bind fun _ => ?_
  refine (record_keeps_snapshots _ rfl).bind fun _ => ?_
  refine (event_keeps_snapshots _ _ _).bind fun _ => ?_
  refine (keeper_keeps_snapshots (perform_keeps_keeper s template logger run record)).bind ?_
  rintro ⟨last, fault⟩
  refine (keeper_keeps_snapshots (dealings_keeps_keeper keeps_dealings_now)).bind fun _ => ?_
  cases fault with
  | some fault =>
      refine (record_keeps_snapshots _ rfl).bind fun _ => ?_
      refine (event_keeps_snapshots _ _ _).bind fun _ => ?_
      refine (note_keeps_snapshots _ _ _ _).bind fun _ => ?_
      exact (count_keeps_snapshots _).bind fun _ => Steps.keeps_pure _
  | none =>
      refine (record_keeps_snapshots _ rfl).bind fun _ => ?_
      refine (event_keeps_snapshots _ _ _).bind fun _ => ?_
      refine (note_keeps_snapshots _ _ _ _).bind fun _ => ?_
      exact (count_keeps_snapshots _).bind fun _ => Steps.keeps_pure _

theorem execute_keeps_snapshots (s : Setup) (template : Option Template) (run : Run) :
    (execute s template run : Steps (World (Journal κ)) (Option Fault)).Keeps snapshots := by
  unfold execute
  refine (keeper_keeps_snapshots (dealings_keeps_keeper keeps_dealings_now)).bind fun startedAt => ?_
  have hrest : ∀ done : Bool, (if done then
      skip s (s.logger.carrying "run_id" (.text run.id)) run (marker s template run) (recordOf s run startedAt)
      else launch s template (s.logger.carrying "run_id" (.text run.id)) run (recordOf s run startedAt) :
        Steps (World (Journal κ)) (Option Fault)).Keeps snapshots := by
    intro done
    cases done with
    | true => exact skip_keeps_snapshots s _ run _ _
    | false => exact launch_keeps_snapshots s template _ run _
  dsimp only
  split
  next => exact (keeper_keeps_snapshots (keeps_keeper_onBench _)).bind hrest
  next => exact hrest false

theorem task_keeps_snapshots (s : Setup) (template : Option Template) (run : Run) :
    (task s template run : Steps (World (Journal κ)) (Option Fault)).Keeps snapshots := by
  unfold task
  refine (Steps.keeps_look _).bind fun cancelled => ?_
  split
  next => exact Steps.keeps_pure _
  next => exact execute_keeps_snapshots s template run

theorem runCombination_keeps_snapshots (s : Setup) (template : Option Template) (schedule : List Nat) (p : Params) :
    (runCombination s template schedule p : Steps (World (Journal κ)) (Option Fault)).Keeps snapshots := by
  unfold runCombination
  refine Steps.Keeps.bind (Steps.keeps_change fun _ => rfl) fun _ => ?_
  have htasks : ∀ program ∈ (Plan.repetitions p s.config.sweep.repetitions).map (task s template),
      (program : Steps (World (Journal κ)) (Option Fault)).Keeps snapshots := by
    intro program hprogram
    obtain ⟨r, -, rfl⟩ := List.mem_map.mp hprogram
    exact task_keeps_snapshots s template r
  have hnote : ∀ (result : Option Fault) (w : World (Journal κ)), snapshots (World.noteFailure result w) = snapshots w :=
    fun _ _ => rfl
  refine (Group.interleaved_keeps hnote _ schedule (List.forall_mem_nil _) htasks).bind fun _ => ?_
  exact Steps.keeps_look _

theorem runCombinations_keeps_snapshots (s : Setup) (template : Option Template) (schedules : List (List Nat))
    (combinations : List Params) :
    (runCombinations s template schedules combinations : Steps (World (Journal κ)) (Option Fault)).Keeps snapshots := by
  induction combinations generalizing schedules with
  | nil => exact trivial
  | cons p rest ih =>
      unfold runCombinations
      refine (Steps.keeps_look _).bind fun interrupted => ?_
      split
      next => exact Steps.keeps_pure _
      next =>
        refine (runCombination_keeps_snapshots s template _ p).bind fun fault => ?_
        cases fault with
        | some fault => exact Steps.keeps_pure _
        | none => exact ih schedules.tail

theorem snapshots_of_framed {s : Setup} {start t : World (Journal κ)} {result : Report × Option Fault}
    (h : Framed s start (fun u _ v => snapshots v = snapshots u) result t) :
    (Begins s start.bench.files → snapshots t = snapshots start ++ [s.pinned.toYaml]) ∧
      (¬ Begins s start.bench.files → snapshots t = snapshots start) := by
  cases h with
  | unbegun report fault t hbegins hreport hquiet =>
      exact ⟨fun h => absurd h hbegins, fun _ => by rw [snapshots, hquiet.writes, snapshots]⟩
  | begun sweep u fault v report status finishedAt t hbegins hpinned hopened hinside hreport hclosed hstatus =>
      refine ⟨fun _ => ?_, fun h => absurd hbegins h⟩
      have hlast : snapshots t = snapshots v := by
        rw [snapshots, hclosed.writes, posted_writes, List.filterMap_append, snapshots]
        exact List.append_nil _
      have hfirst : snapshots u = snapshots start ++ [sweep.config] := by
        rw [snapshots, hopened.writes, posted_writes, List.filterMap_append, snapshots]
        rfl
      rw [hlast, hinside, hfirst, hpinned]

/-- Whatever happens on its way, a sweep that gets past its opening puts one snapshot on record, and any other none. -/
theorem run_snapshots (s : Setup) (schedules : List (List Nat)) (moment : Nat) (files : Files) (journal : Journal κ)
    (events : Option EventLog) (clock : Clock) :
    let start := World.start files journal events clock
    let result := (run s schedules).runStruck World.interrupt moment start
    (Begins s files → snapshots result.2 = snapshots start ++ [s.pinned.toYaml]) ∧
      (¬ Begins s files → snapshots result.2 = snapshots start) := by
  have hrely : ∀ u v : World (Journal κ), Onward u v → snapshots v = snapshots u := by
    intro u v h
    rw [snapshots, h.writes, snapshots]
  have hinside : ∀ template sweep (u : World (Journal κ)),
      Onward (posted (World.start files journal events clock) (.beginSweep sweep)) u →
      Steps.Ensures Onward (fun _ _ => True) (fun _ v => snapshots v = snapshots u)
        (runCombinations s template schedules (Plan.combinations s.config.sweep)) u :=
    fun template _ u _ => (runCombinations_keeps_snapshots s template schedules _).ensures hrely u
  have hframed := (run_framed (World.start files journal events clock) schedules hinside).runStruck
    World.interruption_refl World.interruption_interrupt moment
  have hsnapshots := snapshots_of_framed hframed
  exact hsnapshots

end

end Sweep

/-! ## Setups from snapshots -/

/-- A sweep that repeats another one: its base seed and its runs are the same, and so is the seed of each of them. -/
structure Setup.Repeats (s s' : Setup) : Prop where
  base : s'.base = s.base
  runs : s'.runs = s.runs
  seeds : ∀ run startedAt, (Sweep.recordOf s' run startedAt).seed = (Sweep.recordOf s run startedAt).seed

/-- What a snapshot of a valid configuration is read as is valid too, and a sweep that is set up from it repeats the one
that the snapshot is of. -/
theorem Setup.repeats_of_pinned {s : Setup} (hvalid : s.config.validate = .ok ()) (simulator : Option Simulator)
    (logger : Log.Logger) (sweepId : Bytes) (drawn : Int64) :
    ∃ s', Setup.create (some s.pinned.listed) simulator logger sweepId drawn = .ok s' ∧ s.Repeats s' := by
  have hlisted : s.pinned.listed.validate = .ok () := hvalid
  exact ⟨_, Setup.create_eq_ok.mpr ⟨hlisted, rfl⟩, rfl, rfl, fun _ _ => rfl⟩

theorem Setup.pinned_oneLine {s : Setup} (h : s.config.OneLine) : s.pinned.OneLine :=
  ⟨h.root, h.positions, h.configs, h.results, h.template, h.placeholder, h.command, h.args, h.ledgerPath, h.logLevel⟩

theorem Setup.pinned_noVariables {s : Setup} (h : s.config.NoVariables) : s.pinned.NoVariables :=
  ⟨h.command, h.template, h.args⟩

namespace Sweep

open Yaml

/-- A sweep can be repeated from its snapshot. It is set up from a configuration, with its seed or with a drawn one,
whose texts are lines and which mentions no variables where they would be expanded. Printed to a file, the
configuration is read as it is, but for unset lists, which are empty. Run under any schedules, and interrupted at any
moment, if at all, the sweep puts the configuration with its base seed on record, once, if it gets past its opening. A
file with this snapshot is read as that configuration, and any sweep set up from it has the same base seed and the
same runs with the same seeds. -/
theorem snapshot_repeats_sweep {κ : Type} [Recorder κ] (c : Config) (hlines : c.OneLine) (hvariables : c.NoVariables)
    (simulator : Option Simulator) (logger : Log.Logger) (sweepId : Bytes) (drawn : Int64) (s : Setup)
    (hsetup : Setup.create (some c) simulator logger sweepId drawn = .ok s) :
    let used : Config := { c with sweep := { c.sweep with seed := some s.base } }
    (∀ stored path, stored.contentAt path = .ok (.bytes c.toYaml) →
      ∀ env, Config.contentAt stored env path = .ok c.listed) ∧
    (∀ files (journal : Journal κ) events clock schedules moment,
      let start := World.start files journal events clock
      let result := (run s schedules).runStruck World.interrupt moment start
      (Begins s files → snapshots result.2 = snapshots start ++ [used.toYaml]) ∧
        (¬ Begins s files → snapshots result.2 = snapshots start)) ∧
    (∀ stored path, stored.contentAt path = .ok (.bytes used.toYaml) →
      ∀ env, Config.contentAt stored env path = .ok used.listed) ∧
    ∀ simulator' logger' sweepId' drawn', ∃ s',
      Setup.create (some used.listed) simulator' logger' sweepId' drawn' = .ok s' ∧ s.Repeats s' := by
  obtain ⟨hvalid, hs⟩ := Setup.create_eq_ok.mp hsetup
  have hconfig : s.config = c := by rw [hs]
  have hused : s.pinned = { c with sweep := { c.sweep with seed := some s.base } } := by rw [Setup.pinned, hconfig]
  have hpinnedLines := s.pinned_oneLine (hconfig ▸ hlines)
  have hpinnedVariables := s.pinned_noVariables (hconfig ▸ hvariables)
  intro used
  rw [show used = s.pinned from hused.symm]
  refine ⟨fun _ _ hstored env => Config.contentAt_toYaml hlines hvariables hstored env, ?_,
    fun _ _ hstored env => Config.contentAt_toYaml hpinnedLines hpinnedVariables hstored env,
    Setup.repeats_of_pinned (hconfig ▸ hvalid)⟩
  intro files journal events clock schedules moment
  exact run_snapshots s schedules moment files journal events clock

/-- A configuration without a seed whose texts could be mistaken for other things. -/
def treacherous : Config where
  sweep := ⟨some [2, 1], some [0], some [1], 2, 3, none, true⟩
  generator := ⟨4, 20, 10⟩
  layout := ⟨"~", "null", "0x1F", "- results"⟩
  simulator := ⟨false, "no # such: template", "<<", "1_0", some ["", "yes", " 2001-01-01 ", "&a *b", "\"µ\" \\"],
    ⟨1500000000⟩, false⟩
  ledgerPath := "[runs, db]"
  logLevel := "debug"

theorem treacherous_oneLine : treacherous.OneLine := by
  have hline (text : String) (h : ∀ x ∈ text.toList, isBreak x = false) : IsLine (text : Bytes) := isLine_encode h
  constructor
  case args =>
    intro text htext
    simp only [treacherous, Option.getD_some, List.mem_cons, List.not_mem_nil, or_false] at htext
    rcases htext with rfl | rfl | rfl | rfl | rfl <;> exact hline _ (by simp [isBreak])
  all_goals exact hline _ (by simp [isBreak])

/-- The drawn seed 7 goes on record with the rest, and from a file with the snapshot the sweep is set up again, whatever
would be drawn for it this time. -/
theorem treacherous_sweep_repeats :
    let s : Setup := ⟨treacherous, none, .ofName [], "sweep", 7⟩
    let used : Config := { treacherous with sweep := { treacherous.sweep with seed := some 7 } }
    let start := World.start site blankJournal none ⟨.zero, 1000000000⟩
    let stored := (site.writeFile "snapshot.yaml" used.toYaml).1
    Begins s site ∧ snapshots ((run s [[0, 1, 0]]).runStruck World.interrupt 5 start).2 = [used.toYaml] ∧
      Config.contentAt stored [] "snapshot.yaml" = .ok used.listed ∧
      ∃ s', Setup.create (some used.listed) none (.ofName []) "again" 8 = .ok s' ∧ s.Repeats s' := by
  have hvalid : treacherous.validate = .ok () := by decide +kernel
  have hvariables : treacherous.NoVariables := ⟨by decide +kernel, by decide +kernel, by decide +kernel⟩
  intro s used start stored
  have hsetup : Setup.create (some treacherous) none (.ofName []) "sweep" 7 = .ok s := Setup.create_eq_ok.mpr ⟨hvalid, rfl⟩
  have hbegins : Begins s site := by decide +kernel
  have hstored : stored.contentAt "snapshot.yaml" = .ok (.bytes used.toYaml) := by decide +kernel
  obtain ⟨-, hsnapshots, hread, hrepeats⟩ := snapshot_repeats_sweep (κ := Unit) treacherous treacherous_oneLine hvariables none
    (.ofName []) "sweep" 7 s hsetup
  exact ⟨hbegins, (hsnapshots site blankJournal none _ _ _).1 hbegins, hread _ _ hstored [],
    hrepeats none (.ofName []) "again" 8⟩

end Sweep

end MobilitySweep
