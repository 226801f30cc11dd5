import MobilitySweep.Proofs.Concurrency.Groups
import MobilitySweep.Proofs.Files.Reprovisioning
import MobilitySweep.Proofs.Sweep.Agreement
import MobilitySweep.Proofs.Sweep.Bookkeeping
import MobilitySweep.Proofs.Sweep.Failures
import MobilitySweep.Proofs.Sweep.Scheduling

/-! # Resuming a finished sweep

Once a pass has ended without a failure, a pass that resumes finds the mark of every run. It skips all of them, asks for
no simulation and leaves the files as they are.
-/

namespace MobilitySweep

namespace Sweep

variable {κ : Type}

/-! ## A sweep that has nothing left to do -/

/-- Whether whatever is told to event logs with some paths comes into hidden places. -/
structure Hides (hidden : List Place) (paths : List Bytes) (files : Files) : Prop where
  wellFormed : files.WellFormed
  lodged : ∀ path ∈ paths, Files.Lodged files path (files.homeOf path)
  hidden : ∀ path ∈ paths, ∀ place ∈ files.homeOf path, place ∈ hidden

/-- A sweep that has told its event log nothing yet and counted nothing. -/
structure Fresh (files : Files) (paths : List Bytes) (w : World κ) : Prop where
  bench : w.bench = .ofFiles files
  tally : w.tally = ⟨0, 0, 0⟩
  eventPaths : w.eventPaths = paths

/-- A sweep that has counted nothing but skipped runs, with the bench as it was when nothing had begun, but for what the
event log has been told. -/
structure Idle (files : Files) (hidden : List Place) (w : World κ) : Prop where
  bench : w.bench = .ofFiles w.bench.files
  files : w.bench.files.veiled hidden = files.veiled hidden
  hides : Hides hidden w.eventPaths w.bench.files
  succeeded : w.tally.succeeded = 0
  failed : w.tally.failed = 0

/-- Programs that have nothing to do but to count skipped runs as long as a condition holds. -/
abbrev Passes {α : Type} (still : World κ → Prop) (good : α → Prop) (number : Nat) (p : Steps (World κ) α) : Prop :=
  p.Raises still (·.tally.skipped) good number

/-- Whether a condition depends on nothing but bench, counts and the paths of the event log. -/
def IsPlain (still : World κ → Prop) : Prop :=
  ∀ w t, t.bench = w.bench → t.tally = w.tally → t.eventPaths = w.eventPaths → still w → still t

section

variable {files : Files} {hidden : List Place} {paths : List Bytes} {s : Setup} {template : Option Template} {r : Run}
  {still : World κ → Prop}

theorem fresh_isPlain : IsPlain (Fresh files paths : World κ → Prop) := fun _ _ hbench htally hpaths h =>
  ⟨hbench.trans h.bench, htally.trans h.tally, hpaths.trans h.eventPaths⟩

theorem idle_isPlain : IsPlain (Idle files hidden : World κ → Prop) := by
  intro w t hbench htally hpaths h
  exact ⟨hbench ▸ h.bench, hbench ▸ h.files, hpaths ▸ hbench ▸ h.hides, htally ▸ h.succeeded, htally ▸ h.failed⟩

/-- A sweep that has not begun is idle if what it will tell comes into hidden places. -/
theorem Fresh.idle {w : World κ} (h : Fresh files paths w) (hhides : Hides hidden paths files) :
    Idle files hidden w := by
  obtain ⟨hbench, htally, hpaths⟩ := h
  have hfiles : w.bench.files = files := by rw [hbench]; rfl
  exact ⟨by rw [hfiles]; exact hbench, by rw [hfiles], by rw [hpaths, hfiles]; exact hhides, by rw [htally],
    by rw [htally]⟩

/-- What shows on neither bench nor tally counts nothing. -/
theorem passes_of_keeps {α : Type} (hplain : IsPlain still) {p : Steps (World κ) α}
    (h : p.Keeps fun w => (w.bench, w.tally, w.eventPaths)) : Passes still (fun _ => True) 0 p := by
  refine h.raises (fun w t hsame hidle => ?_) fun w t hsame => ?_
  · simp only [Prod.mk.injEq] at hsame
    obtain ⟨hbench, htally, hpaths⟩ := hsame
    exact hplain w t hbench htally hpaths hidle
  · simp only [Prod.mk.injEq] at hsame
    rw [hsame.2.1]

theorem passes_of_shown {α : Type} (hplain : IsPlain still) {p : Steps (World κ) α} (h : p.Keeps World.shown) :
    Passes still (fun _ => True) 0 p :=
  passes_of_keeps hplain (h.comp fun shown => (shown.1, shown.2.2))

theorem passes_now (hplain : IsPlain still) : Passes still (fun _ => True) 0 (World.now : Steps (World κ) Instant) :=
  passes_of_keeps hplain fun _ => ⟨rfl, trivial⟩

/-- A look at the files before anything is told. -/
theorem passes_look {α : Type} (view : Files → α) :
    Passes (Fresh files paths) (· = view files) 0 (World.onFiles (Steps.look view) : Steps (World κ) α) := by
  refine Steps.raises_act fun w hfresh => ⟨⟨?_, hfresh.tally, hfresh.eventPaths⟩, (Steps.add_ofNat_zero _).symm, ?_⟩
  · exact hfresh.bench
  · dsimp only
    rw [hfresh.bench]
    rfl

/-- Whether there is something at a path does not depend on what was told. -/
theorem passes_exists (path : Bytes) :
    Passes (Idle files hidden) (· = files.exists? path) 0
      (World.onFiles (Steps.look (·.exists? path)) : Steps (World κ) Bool) := by
  refine Steps.raises_act fun w hidle => ⟨?_, (Steps.add_ofNat_zero _).symm, ?_⟩
  · exact ⟨hidle.bench, hidle.files, hidle.hides, hidle.succeeded, hidle.failed⟩
  · change w.bench.files.exists? path = files.exists? path
    have hshown : (w.bench.files.veiled hidden).exists? path = w.bench.files.exists? path := Files.exists?_veiled path
    rw [← hshown, hidle.files, Files.exists?_veiled]

theorem Hides.append {path : Bytes} (h : Hides hidden paths files) (hpath : path ∈ paths) (line : Bytes) :
    Hides hidden paths (files.append path line) := by
  have halike := (h.lodged path hpath).append_alike h.wellFormed line
  have hlodged : ∀ other ∈ paths, Files.Lodged (files.append path line) other (files.homeOf other) :=
    fun other hother => (h.lodged other hother).alike halike
  refine ⟨halike.wellFormed.mp h.wellFormed, fun other hother => ?_, fun other hother => ?_⟩
  · exact (hlodged other hother).homeOf_eq.symm ▸ hlodged other hother
  · exact (hlodged other hother).homeOf_eq.symm ▸ h.hidden other hother

/-- An event comes into a hidden place. -/
theorem passes_event (kind runId : Bytes) (fields : List (Bytes × Json)) :
    Passes (Idle files hidden) (fun _ => True) 0 (World.event kind runId fields : Steps (World κ) Unit) := by
  refine Steps.raises_change fun w hidle => ?_
  obtain ⟨hbench, -, htally⟩ := World.told_bench w kind runId fields
  have htold : (w.told kind runId fields).bench.files.veiled hidden = files.veiled hidden ∧
      Hides hidden (w.told kind runId fields).eventPaths (w.told kind runId fields).bench.files := by
    rw [World.told_eventPaths]
    rcases World.told_files w kind runId fields with hsame | ⟨path, hpath, line, hsame⟩
    · rw [hsame]
      exact ⟨hidle.files, hidle.hides⟩
    · have hlodged := hidle.hides.lodged path hpath
      rw [hsame, hlodged.append_hidden (hidle.hides.hidden path hpath)]
      exact ⟨hidle.files, hidle.hides.append hpath line⟩
  refine ⟨⟨?_, htold.1, htold.2, htally ▸ hidle.succeeded, htally ▸ hidle.failed⟩, ?_⟩
  · rw [hbench, hidle.bench]
    rfl
  · rw [htally]
    exact (Steps.add_ofNat_zero _).symm

variable [Recorder κ]

/-- A run that is skipped is counted as skipped. -/
theorem skip_passes (logger : Log.Logger) (path : Bytes) (record : RunRecord) :
    Passes (Idle files hidden) (· = none) 1 (skip s logger r path record : Steps (World κ) (Option Fault)) := by
  unfold skip
  refine (passes_of_shown idle_isPlain (World.note_keeps_shown _ _ _ _)).then fun _ _ => ?_
  refine (passes_of_shown idle_isPlain (World.record_keeps_shown _ _)).then fun _ _ => ?_
  refine (passes_event _ _ _).then fun _ _ => ?_
  have hcount : Passes (Idle files hidden) (fun _ => True) 1
      (World.count fun tally => { tally with skipped := tally.skipped + 1 } : Steps (World κ) Unit) :=
    Steps.raises_change fun w hidle =>
      ⟨⟨hidle.bench, hidle.files, hidle.hides, hidle.succeeded, hidle.failed⟩, rfl⟩
  exact hcount.bind fun _ _ => Steps.raises_pure rfl

/-- A run whose mark is there is skipped when its turn comes. -/
theorem task_passes (hresume : s.config.sweep.resume = true)
    (hmark : files.exists? (marker s template r) = true) :
    Passes (Idle files hidden) (· = none) 1 (task s template r : Steps (World κ) (Option Fault)) := by
  unfold task
  have hgoing : Passes (Idle files hidden) (· = false) 0 (Steps.look fun (w : World κ) => w.bench.cancelled) := by
    refine Steps.raises_look fun w hidle => ?_
    rw [hidle.bench]
    rfl
  refine hgoing.then ?_
  rintro _ rfl
  unfold execute
  refine (passes_now idle_isPlain).then fun startedAt _ => ?_
  dsimp only
  rw [if_pos hresume]
  refine (passes_exists _).then ?_
  rintro done rfl
  rw [if_pos hmark]
  exact skip_passes _ _ _

/-- A combination whose runs all bear their marks. -/
theorem runCombination_passes (hresume : s.config.sweep.resume = true) (schedule : List Nat) {p : Params}
    (hmarks : ∀ r ∈ Plan.repetitions p s.config.sweep.repetitions, files.exists? (marker s template r) = true)
    {w : World κ} (hidle : Idle files hidden w) :
    Steps.Ensures Steps.Undisturbed (fun _ _ => True)
      (fun fault t => fault = none ∧ Idle files hidden t ∧
        t.tally.skipped = w.tally.skipped + Int64.ofNat (Plan.repetitions p s.config.sweep.repetitions).length)
      (runCombination s template schedule p) w := by
  have hreset : Passes (Idle files hidden) (fun _ => True) 0
      (Steps.change fun (w : World κ) => { w with bench := { w.bench with failure := none } }) := by
    refine Steps.raises_change fun w hidle =>
      ⟨⟨?_, hidle.files, hidle.hides, hidle.succeeded, hidle.failed⟩, (Steps.add_ofNat_zero _).symm⟩
    rw [hidle.bench]
    rfl
  have hlook : Passes (Idle files hidden) (· = none) 0 (Steps.look fun (w : World κ) => w.bench.failure) := by
    refine Steps.raises_look fun w hidle => ?_
    rw [hidle.bench]
    rfl
  have htasks : ∀ program ∈ (Plan.repetitions p s.config.sweep.repetitions).map (task s template),
      Passes (Idle files hidden) (· = none) 1 (program : Steps (World κ) (Option Fault)) := by
    intro program hprogram
    obtain ⟨r, hr, rfl⟩ := List.mem_map.mp hprogram
    exact task_passes hresume (hmarks r hr)
  unfold runCombination
  refine (hreset.ensures hidle).bind Steps.undisturbed_refl ?_
  rintro _ t ⟨-, ht, hcount⟩
  refine (Group.interleaved_counts ?_ _ _ htasks ht).bind Steps.undisturbed_refl ?_
  · rintro _ w rfl hidle
    refine ⟨⟨?_, hidle.files, hidle.hides, hidle.succeeded, hidle.failed⟩, rfl⟩
    rw [World.noteFailure, hidle.bench]
    rfl
  rintro _ u ⟨hu, hmore⟩
  refine (hlook.ensures hu).weaken ?_
  rintro fault v ⟨hfault, hv, hlast⟩
  refine ⟨hfault, hv, ?_⟩
  rw [List.length_map] at hmore
  rw [hlast, hmore, hcount, Steps.add_ofNat_zero, Steps.add_ofNat_zero]

/-- Combinations whose runs all bear their marks. -/
theorem runCombinations_passes (hresume : s.config.sweep.resume = true) (schedules : List (List Nat))
    (combinations : List Params)
    (hmarks : ∀ r ∈ Plan.runs combinations s.config.sweep.repetitions, files.exists? (marker s template r) = true)
    {w : World κ} (hidle : Idle files hidden w) :
    Steps.Ensures Steps.Undisturbed (fun _ _ => True)
      (fun fault t => fault = none ∧ Idle files hidden t ∧
        t.tally.skipped = w.tally.skipped + Int64.ofNat (Plan.runs combinations s.config.sweep.repetitions).length)
      (runCombinations s template schedules combinations) w := by
  induction combinations generalizing schedules w with
  | nil =>
      rintro t rfl
      exact ⟨rfl, hidle, (Steps.add_ofNat_zero _).symm⟩
  | cons p rest ih =>
      have hlook : Passes (Idle files hidden) (· = false) 0 (Steps.look fun (w : World κ) => w.bench.interrupted) := by
        refine Steps.raises_look fun w hidle => ?_
        rw [hidle.bench]
        rfl
      unfold runCombinations
      refine (hlook.ensures hidle).bind Steps.undisturbed_refl ?_
      rintro _ t ⟨rfl, ht, hcount⟩
      have hfirst : ∀ r ∈ Plan.repetitions p s.config.sweep.repetitions, files.exists? (marker s template r) = true :=
        fun r hr => hmarks r (List.mem_append_left _ hr)
      refine (runCombination_passes hresume (schedules.headD []) hfirst ht).bind Steps.undisturbed_refl ?_
      rintro _ u ⟨rfl, hu, hmore⟩
      refine (ih schedules.tail (fun r hr => hmarks r (List.mem_append_right _ hr)) hu).weaken ?_
      rintro fault v ⟨hfault, hv, hlast⟩
      refine ⟨hfault, hv, ?_⟩
      rw [Plan.runs, List.flatMap_cons, List.length_append, Int64.ofNat_add, ← Int64.add_assoc]
      simp only [Plan.runs] at hlast
      rw [hlast, hmore, hcount, Steps.add_ofNat_zero]

omit [Recorder κ] in
theorem loadTemplate_passes (s : Setup) (files : Files) (paths : List Bytes) :
    Passes (Fresh files paths) (· = templateOf s files) 0 (loadTemplate s : Steps (World κ) (Except Fault (Option Template))) := by
  unfold loadTemplate
  refine (passes_look _).then ?_
  rintro found rfl
  by_cases hmissing : (s.simulator.isNone && !files.exists? (templatePath s)) = true
  · rw [templateOf, if_pos hmissing]
    refine Steps.raises_of_eq (if_pos hmissing) ?_
    exact (passes_of_shown fresh_isPlain (World.note_keeps_shown _ _ _ _)).then fun _ _ => Steps.raises_pure rfl
  · rw [templateOf, if_neg hmissing]
    refine Steps.raises_of_eq (if_neg hmissing) ?_
    refine (passes_look _).then ?_
    rintro loaded rfl
    exact Steps.raises_pure rfl

theorem announce_passes (startedAt : Instant) :
    Passes (Idle files hidden) (fun _ => True) 0 (announce s startedAt : Steps (World κ) Unit) := by
  unfold announce
  refine (passes_of_shown idle_isPlain (World.record_keeps_shown _ _)).then fun _ _ => ?_
  refine (passes_of_shown idle_isPlain (World.note_keeps_shown _ _ _ _)).then fun _ _ => ?_
  exact passes_event _ _ _

/-- The report of a sweep that has counted nothing but skipped runs. -/
theorem conclude_passes {w : World κ} (hidle : Idle files hidden w) (startedAt : Instant) (fault : Option Fault) :
    Steps.Ensures Steps.Undisturbed (fun _ _ => True)
      (fun report t => Idle files hidden t ∧ report.total = totalRuns s.config ∧ report.succeeded = 0 ∧
        report.skipped = w.tally.skipped ∧ report.failed = 0)
      (conclude s startedAt fault) w := by
  have hrefl : ∀ w : World κ, Steps.Undisturbed w w := Steps.undisturbed_refl
  have hlook : Steps.Ensures Steps.Undisturbed (fun _ _ => True)
      (fun tally t => tally = w.tally ∧ Idle files hidden t) (Steps.look fun (w : World κ) => w.tally) w := by
    rintro t rfl
    refine ⟨trivial, ?_⟩
    rintro u rfl
    exact ⟨rfl, hidle⟩
  have hquiet : ∀ {α : Type} {good : α → Prop} {p : Steps (World κ) α}, Passes (Idle files hidden) good 0 p →
      ∀ {t : World κ}, Idle files hidden t →
        Steps.Ensures Steps.Undisturbed (fun _ _ => True) (fun _ u => Idle files hidden u) p t :=
    fun h _ ht => (h.ensures ht).weaken fun _ _ hu => hu.2.1
  unfold conclude
  refine hlook.bind hrefl ?_
  rintro _ t ⟨rfl, ht⟩
  refine (hquiet (passes_now idle_isPlain) ht).bind hrefl fun now u hu => ?_
  refine (hquiet (passes_of_keeps idle_isPlain (Steps.keeps_look _)) hu).bind hrefl fun interrupted v hv => ?_
  refine (hquiet (passes_now idle_isPlain) hv).bind hrefl fun last x hx => ?_
  refine (hquiet (passes_of_shown idle_isPlain (World.record_keeps_shown _ _)) hx).bind hrefl fun _ y hy => ?_
  refine (hquiet (passes_event _ _ _) hy).bind hrefl fun _ z hz => ?_
  refine (hquiet (passes_of_shown idle_isPlain (World.note_keeps_shown _ _ _ _)) hz).bind hrefl fun _ after hafter => ?_
  refine Steps.ensures_pure ?_
  rintro _ rfl
  exact ⟨hafter, rfl, hidle.succeeded, rfl, hidle.failed⟩

/-- A sweep that resumes where all its directories are there, its template can be loaded and every
run bears its mark. -/
theorem run_passes (hprovided : s.config.layout.provision files = (files, none))
    (htemplate : templateOf s files = .ok template) (hresume : s.config.sweep.resume = true)
    (hmarks : ∀ r ∈ s.runs, files.exists? (marker s template r) = true) (schedules : List (List Nat)) (keeper : κ)
    (events : Option EventLog) (hhides : Hides hidden (EventLog.openPaths events) files) (clock : Clock) :
    Steps.Ensures Steps.Undisturbed (fun _ _ => True)
      (fun result t => result.2 = none ∧ Idle files hidden t ∧ result.1.total = totalRuns s.config ∧
        result.1.succeeded = 0 ∧ result.1.skipped = Int64.ofNat s.runs.length ∧ result.1.failed = 0)
      (run s schedules) (World.start files keeper events clock) := by
  have hrefl : ∀ w : World κ, Steps.Undisturbed w w := Steps.undisturbed_refl
  have hfresh : Fresh files (EventLog.openPaths events) (World.start files keeper events clock) := ⟨rfl, rfl, rfl⟩
  have hprovision : Passes (Fresh files (EventLog.openPaths events)) (· = none) 0
      (World.onFiles (Archive.attempt s.config.layout.provision) : Steps (World κ) (Option Fault)) := by
    refine Steps.raises_act fun w hw => ⟨⟨?_, hw.tally, hw.eventPaths⟩, (Steps.add_ofNat_zero _).symm, ?_⟩
    · dsimp only
      rw [hw.bench, Bench.ofFiles, hprovided]
    · dsimp only
      rw [hw.bench, Bench.ofFiles, hprovided]
  unfold run
  refine ((passes_now fresh_isPlain).ensures hfresh).bind hrefl ?_
  rintro startedAt t ⟨-, ht, -⟩
  refine (hprovision.ensures ht).bind hrefl ?_
  rintro _ u ⟨rfl, hu, -⟩
  refine ((loadTemplate_passes s files _).ensures hu).bind hrefl ?_
  rintro _ v ⟨rfl, hv, -⟩
  rw [htemplate]
  -- From the first event on the files are as they were behind the veil only.
  refine ((announce_passes startedAt).ensures (hv.idle hhides)).bind hrefl ?_
  rintro _ x ⟨-, hx, hxtold⟩
  refine (runCombinations_passes hresume schedules (Plan.combinations s.config.sweep) hmarks hx).bind hrefl ?_
  rintro _ y ⟨rfl, hy, hskipped⟩
  refine (conclude_passes hy startedAt none).bind hrefl ?_
  rintro report z ⟨hz, htotal, hsucceeded, hreport, hfailed⟩
  refine Steps.ensures_pure ?_
  rintro _ rfl
  refine ⟨rfl, hz, htotal, hsucceeded, ?_, hfailed⟩
  rw [hreport, hskipped, hxtold, hv.tally]
  simp only [Steps.add_ofNat_zero, Int64.zero_add]
  rfl

end

end Sweep

namespace Sweep

variable {κ κ' : Type} [Recorder κ] [Recorder κ'] {c : Config} {base files : Files}

/-- What a pass over some files comes to if nobody interrupts it. -/
def Pass.through (p : Pass κ) (c : Config) (files : Files) : (Report × Option Fault) × World κ :=
  (Sweep.run (p.setup c) p.schedules).run (World.start files p.keeper p.events p.clock)

/-- Whether what came of a pass is that of one that skipped all runs of a configuration, without any simulation, and
left the files as they were but for what is in event logs with some paths. -/
structure SkipsAll (c : Config) (paths : List Bytes) (files : Files) (ended : (Report × Option Fault) × World κ) :
    Prop where
  fault : ended.1.2 = none
  total : ended.1.1.total = Int64.ofNat c.runs.length
  succeeded : ended.1.1.succeeded = 0
  skipped : ended.1.1.skipped = Int64.ofNat c.runs.length
  failed : ended.1.1.failed = 0
  calls : ended.2.bench.calls = []
  files : ended.2.bench.files.veiled (eventPlaces files paths) = files.veiled (eventPlaces files paths)

omit [Recorder κ] in
/-- An accepted configuration plans a run. -/
theorem exists_run (h : c.validate = .ok ()) : ∃ r, r ∈ c.runs := by
  have haccepted := Config.accepted h
  obtain ⟨distance, hdistance⟩ := List.exists_mem_of_ne_nil _ haccepted.distances
  obtain ⟨couples, hcouples⟩ := List.exists_mem_of_ne_nil _ haccepted.couples
  obtain ⟨shuffle, hshuffle⟩ := List.exists_mem_of_ne_nil _ haccepted.shuffles
  have hcombination : ⟨distance, couples, shuffle⟩ ∈ Plan.combinations c.sweep :=
    List.mem_flatMap.mpr ⟨distance, hdistance, List.mem_flatMap.mpr ⟨couples, hcouples,
      List.mem_map.mpr ⟨shuffle, hshuffle, rfl⟩⟩⟩
  have hrepetitions := haccepted.repetitions
  have hfirst : ⟨⟨distance, couples, shuffle⟩, Int64.ofNat 0⟩ ∈
      Plan.repetitions ⟨distance, couples, shuffle⟩ c.sweep.repetitions :=
    List.mem_map.mpr ⟨0, List.mem_range.mpr (by omega), rfl⟩
  exact ⟨_, List.mem_flatMap.mpr ⟨_, hcombination, hfirst⟩⟩

/-- A pass without a failure leaves the mark of every planned run. -/
theorem Pass.marks (p : Pass κ) {template : Option Template} (hbase : (c.layout.provision files).1 = base)
    (hunlinked : Unlinked base c.layout c.runs) (hfiled : FiledAt base p.eventPaths)
    (hdirectory : ∀ r ∈ c.runs, base.linkStat (Artifact.log.path c.layout r) = .ok .directory →
      FindsDone (p.setup c) base r)
    (hsimulator : ∀ simulator ∈ p.simulator, simulator.KeepsTo base c.layout c.runs
      fun _ _ entry => ∃ content, entry = some (.file content))
    (htemplate : templateOf (p.setup c) base = .ok template) (hend : (p.run c files).1.2 = none) :
    Files.Alike (MayChange (p.setup c) base p.eventPaths) base (p.run c files).2.bench.files ∧
      ∀ r ∈ c.runs, (p.run c files).2.bench.files.exists? (marker (p.setup c) template r) = true := by
  obtain ⟨hleft, hconcluded⟩ := p.settles hbase hunlinked hfiled hdirectory hsimulator htemplate hend
  refine ⟨hleft, fun r hr => ?_⟩
  rw [marker_eq]
  refine (hunlinked.exists?_iff hr hleft.since _).mpr ?_
  by_cases hmarked : Marked (p.setup c) template base r
  · have hkept := (hconcluded r hr).kept hmarked (markerOf (p.setup c) template)
    exact hkept ▸ hmarked.2
  · refine ((hconcluded r hr).finished hmarked).complete.marked ?_ (isSome_of_templateOf htemplate)
    rintro text entry ⟨content, rfl⟩
    exact Option.some_ne_none _

/-- A pass that ends without a failure has nothing left to do for one that resumes on what it leaves: that one skips
every run, asks for no simulation and leaves the files as they are, but for what its event log is told. No link may be
at the name of a file of a run or of an event log and no directory at that of a log that is still to be written, the
template may not be a file of a run nor the first event log, the directories of the layout have to stay within its
root once they are there, and the simulator has to keep to its logs. -/
theorem resumed_pass_skips_all (p : Pass κ) (q : Pass κ') (hvalid : c.validate = .ok ())
    (hmode : q.simulator.isSome = p.simulator.isSome) (hfiles : files.WellFormed)
    (hbase : (c.layout.provision files).1 = base) (hworking : base.Speakable)
    (hagain : (c.layout.provision base).2 = none) (hunlinked : Unlinked base c.layout c.runs)
    (hfiled : FiledAt base (p.eventPaths ++ q.eventPaths))
    (hdirectory : ∀ r ∈ c.runs, base.linkStat (Artifact.log.path c.layout r) = .ok .directory →
      FindsDone (p.setup c) base r)
    (htemplate : ∀ spot, base.resolve true (templatePath (p.setup c)) = .ok spot →
      ¬ MayChange (p.setup c) base p.eventPaths spot.place)
    (hsimulator : ∀ simulator ∈ p.simulator, simulator.KeepsTo base c.layout c.runs
      fun _ _ entry => ∃ content, entry = some (.file content))
    (hend : (p.run c files).1.2 = none) :
    let left := (p.run c files).2.bench.files
    SkipsAll c q.eventPaths left (q.through c.resuming left) := by
  intro left
  subst hbase
  set base := (c.layout.provision files).1
  have hfirst : FiledAt base p.eventPaths := fun path hpath => hfiled path (List.mem_append_left _ hpath)
  obtain ⟨r, hr⟩ := exists_run hvalid
  obtain ⟨hprovision, template, hloaded⟩ :=
    p.opened hunlinked.wellFormed (List.Subset.refl _) hfirst (Files.Alike.refl _ base) hend hr
  obtain ⟨hleft, hmarks⟩ := p.marks rfl hunlinked hfirst hdirectory hsimulator hloaded hend
  have hprovided := (c.layout.provision_isProvided hfiles hprovision).2
  have hsame : c.resuming.layout.provision left = (left, none) :=
    c.layout.provision_again hunlinked.wellFormed hworking hprovided hagain hleft
  have hread : templateOf (q.setup c.resuming) left = .ok template := by
    have hmode' : templateOf (q.setup c.resuming) left = templateOf (p.setup c) left :=
      templateOf_congr hmode (by rfl) (by rfl) left
    rw [hmode', ← templateOf_alike hleft htemplate]
    exact hloaded
  -- The second pass looks for the marks that the first one has left.
  have hmarks' : ∀ r ∈ (q.setup c.resuming).runs, left.exists? (marker (q.setup c.resuming) template r) = true := by
    intro r hr
    have hmarker : markerOf (q.setup c.resuming) template = markerOf (p.setup c) template :=
      markerOf_congr hmode (by rfl) template
    rw [marker_eq, hmarker]
    exact marker_eq (p.setup c) template r ▸ hmarks r hr
  have hlodged : ∀ path ∈ q.eventPaths, Files.Lodged left path (left.homeOf path) := by
    intro path hpath
    have hthere := ((hfiled path (List.mem_append_right _ hpath)).lodged hunlinked.wellFormed).alike hleft
    exact hthere.homeOf_eq.symm ▸ hthere
  have hhides : Hides (eventPlaces left q.eventPaths) q.eventPaths left :=
    ⟨hleft.wellFormed.mp hunlinked.wellFormed, hlodged, fun path hpath place hplace =>
      mem_eventPlaces.mpr ⟨path, hpath, hplace⟩⟩
  have hskips : ∀ ended, ended = q.through c.resuming left → ended.1.2 = none ∧
      Idle left (eventPlaces left q.eventPaths) ended.2 ∧ ended.1.1.total = totalRuns c ∧ ended.1.1.succeeded = 0 ∧
      ended.1.1.skipped = Int64.ofNat c.runs.length ∧ ended.1.1.failed = 0 := by
    rintro _ rfl
    exact (run_passes hsame hread rfl hmarks' q.schedules q.keeper q.events hhides q.clock).run Steps.undisturbed_refl
  obtain ⟨hfault, hidle, htotal, hsucceeded, hskipped, hfailed⟩ := hskips _ rfl
  have hrepetitions : 0 ≤ c.sweep.repetitions.toInt := zero_le_one.trans (Config.accepted hvalid).repetitions
  refine ⟨hfault, htotal.trans (totalRuns_eq (p.setup c) hrepetitions), hsucceeded, hskipped, hfailed, ?_, hidle.files⟩
  rw [hidle.bench]
  rfl

/-- A pass that simulates and compresses the log, and one that finds its archive. -/
theorem finished_run_is_skipped :
    let p := scriptedPass () []
    let left := (p.run (oneRun false true) site).2.bench.files
    SkipsAll (oneRun false true) [] left (p.through (oneRun false true).resuming left) := by
  intro p left
  have hground := ground_site p false true
  have hworking : ((oneRun false true).layout.provision site).1.Speakable := by
    unfold Files.Speakable
    decide +kernel
  have hsimulator : ∀ simulator ∈ p.simulator, simulator.KeepsTo ((oneRun false true).layout.provision site).1
      (oneRun false true).layout (oneRun false true).runs fun _ _ entry => ∃ content, entry = some (.file content) := by
    intro simulator hin
    obtain rfl := Option.some.inj hin
    refine (ScriptedSimulator.keepsTo hground.clear rfl rfl).mono ?_
    rintro r text entry rfl
    exact ⟨_, rfl⟩
  exact resumed_pass_skips_all p p (by decide +kernel) rfl site_wellFormed rfl hworking (by decide +kernel)
    hground.clear.toUnlinked (List.forall_mem_nil _) (fun r hr hentry => absurd hentry (hground.clear.noDirectory r hr))
    hground.template hsimulator (by decide +kernel)

/-- A working directory with a link at the name under which the trace of the run is written, to the trace itself. -/
def loopedSite : Files where
  entries := [(["site"], .directory), (["site", "positions"], .directory),
    (["site", "positions", "pos_1_0_1_0.txt.tmp"], .link "pos_1_0_1_0.txt")]
  workingDirectory := ["site"]

/-- The site with another name for the template, the one under which the trace of the run is written. -/
def sharedTemplateSite : Files :=
  (Config.standard.layout.provision site).1.share ["site", "sim.csc.template"]
    ["site", "positions", "pos_1_0_1_0.txt.tmp"]

/-- A trace that is written through a link to its own place and then takes that place leaves a link to itself, which
marks nothing as done. One that is written to the file of the template leaves no template. -/
theorem looped_trace_is_written_again :
    let c := oneRun false true
    let p := { scriptedPass () [] with simulator := none }
    (loopedSite.WellFormed ∧ sharedTemplateSite.WellFormed) ∧ c.validate = .ok () ∧
      (∀ r ∈ c.runs, ∀ a : Artifact, templatePath (p.setup c) ≠ a.path c.layout r) ∧
      ∀ files ∈ [loopedSite, sharedTemplateSite],
        let left := (p.run c files).2.bench.files
        (p.run c files).1.2 = none ∧ ¬ SkipsAll c [] left (p.through c.resuming left) := by
  intro c p
  have hagain : ∀ files ∈ [loopedSite, sharedTemplateSite],
      let left := (p.run c files).2.bench.files
      (p.run c files).1.2 = none ∧ (p.through c.resuming left).1.1.skipped ≠ Int64.ofNat c.runs.length := by
    decide +kernel
  refine ⟨⟨by decide +kernel, by decide +kernel⟩,
    by decide +kernel, by decide +kernel, fun files hfiles => ?_⟩
  obtain ⟨hend, hskipped⟩ := hagain files hfiles
  exact ⟨hend, fun h => hskipped h.skipped⟩

end Sweep

end MobilitySweep
