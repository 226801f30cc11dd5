import MobilitySweep.Proofs.Files.Likeness
import MobilitySweep.Proofs.Sweep.Accounts

/-! # Interruptions and the opening of a sweep

A sweep can be interrupted at any moment. An interruption is only seen by runs: what a sweep does before
its first run depends on the files alone.
-/

namespace MobilitySweep

namespace World

variable {κ : Type}

/-- The world with its sweep interrupted. -/
def interrupt (w : World κ) : World κ := { w with bench := { w.bench with interrupted := true } }

/-- Nothing happened but an interruption, if anything. -/
def Interruption (w w' : World κ) : Prop := w' = w ∨ w' = w.interrupt

theorem interruption_refl (w : World κ) : Interruption w w := Or.inl rfl

theorem interruption_interrupt (w : World κ) : Interruption w w.interrupt := Or.inr rfl

/-- Records and files, all that the opening of a sweep is about. -/
def stage (w : World κ) : (κ × Option EventLog × Tally × Option Fault) × Files :=
  (Sweep.records w, w.bench.files)

theorem Interruption.stage {w w' : World κ} (h : Interruption w w') : w'.stage = w.stage := by
  rcases h with rfl | rfl <;> rfl

end World

namespace Sweep

variable {κ : Type}

/-- The path of the template of a sweep. -/
def templatePath (s : Setup) : Bytes :=
  if Path.isAbsolute s.config.simulator.template then s.config.simulator.template
  else s.config.layout.path s.config.simulator.template

/-- The template of a sweep on given files. -/
def templateOf (s : Setup) (files : Files) : Except Fault (Option Template) :=
  if s.simulator.isNone && !files.exists? (templatePath s) then .ok none
  else (Template.load files (templatePath s) s.config.simulator.placeholder).map some

/-- Whether a sweep gets past its opening on given files. -/
def Begins (s : Setup) (files : Files) : Prop :=
  (s.config.layout.provision files).2 = none ∧ ∃ template, templateOf s (s.config.layout.provision files).1 = .ok template

theorem begins_iff (s : Setup) (files : Files) : Begins s files ↔
    (s.config.layout.provision files).2 = none ∧ (templateOf s (s.config.layout.provision files).1).isOk = true := by
  rw [Begins]
  cases templateOf s (s.config.layout.provision files).1 <;> simp [Except.isOk, Except.toBool]

instance (s : Setup) (files : Files) : Decidable (Begins s files) := decidable_of_iff _ (begins_iff s files).symm

theorem templateOf_congr {s s' : Setup} (hmode : s'.simulator.isSome = s.simulator.isSome)
    (hsettings : s'.config.simulator = s.config.simulator) (hlayout : s'.config.layout = s.config.layout)
    (files : Files) : templateOf s' files = templateOf s files := by
  have hpath : templatePath s' = templatePath s := by rw [templatePath, templatePath, hsettings, hlayout]
  rw [templateOf, templateOf, hpath, hsettings, ← Option.not_isSome, ← Option.not_isSome, hmode]

theorem keeps_stage_note (logger : Log.Logger) (level : Log.Level) (message : Bytes)
    (attributes : List (Bytes × Log.Value)) :
    (World.note logger level message attributes : Steps (World κ) Unit).Keeps World.stage := by
  refine Steps.keeps_change fun w => ?_
  split <;> rfl

theorem ensures_look_files {α : Type} (view : Files → α) (w : World κ) :
    Steps.Ensures World.Interruption (fun _ _ => True) (fun value t => value = view w.bench.files ∧ t.stage = w.stage)
      (World.onFiles (Steps.look view)) w := by
  intro t hwt
  refine ⟨trivial, fun u htu => ⟨?_, htu.stage.trans hwt.stage⟩⟩
  exact congrArg view (congrArg Prod.snd hwt.stage)

theorem ensures_attempt (action : Files → Files × Option Fault) (w : World κ) :
    Steps.Ensures World.Interruption (fun _ _ => True)
      (fun fault t => fault = (action w.bench.files).2 ∧ t.stage = (records w, (action w.bench.files).1))
      (World.onFiles (Archive.attempt action)) w := by
  intro t hwt
  have hrecords : records t = records w := congrArg Prod.fst hwt.stage
  have hfiles : t.bench.files = w.bench.files := congrArg Prod.snd hwt.stage
  refine ⟨trivial, fun u htu => ⟨?_, htu.stage.trans ?_⟩⟩
  · exact congrArg (fun files => (action files).2) hfiles
  · rw [← hfiles, ← hrecords]
    rfl

/-- The template is the one of the files, and loading it changes nothing. -/
theorem loadTemplate_ensures (s : Setup) (w : World κ) :
    Steps.Ensures World.Interruption (fun _ _ => True)
      (fun loaded t => loaded = templateOf s w.bench.files ∧ t.stage = w.stage) (loadTemplate s) w := by
  refine (ensures_look_files (·.exists? (templatePath s)) w).bind World.interruption_refl ?_
  rintro found t ⟨rfl, ht⟩
  have hfiles : t.bench.files = w.bench.files := congrArg Prod.snd ht
  by_cases hmissing : (s.simulator.isNone && !w.bench.files.exists? (templatePath s)) = true
  · refine Steps.ensures_of_eq (if_pos hmissing) ?_
    refine ((keeps_stage_note _ _ _ _).ensures (fun _ _ h => h.stage) t).bind World.interruption_refl ?_
    rintro _ u hu
    exact Steps.ensures_pure fun v huv => ⟨(if_pos hmissing).symm, huv.stage.trans (hu.trans ht)⟩
  · refine Steps.ensures_of_eq (if_neg hmissing) ?_
    refine (ensures_look_files _ t).bind World.interruption_refl ?_
    rintro loaded u ⟨rfl, hu⟩
    refine Steps.ensures_pure fun v huv => ⟨?_, huv.stage.trans (hu.trans ht)⟩
    rw [templateOf, if_neg hmissing, hfiles]
    rfl

/-- Run alone, a sweep loads the template of its files. -/
theorem loadTemplate_run (s : Setup) (w : World κ) : ((loadTemplate s).run w).1 = templateOf s w.bench.files :=
  ((loadTemplate_ensures s w).run World.interruption_refl).1

/-- What a sweep does once it has got past its opening. -/
def proceed [Recorder κ] (s : Setup) (schedules : List (List Nat)) (startedAt : Instant) (template : Option Template) :
    Steps (World κ) (Report × Option Fault) := do
  announce s startedAt
  let fault ← runCombinations s template schedules (Plan.combinations s.config.sweep)
  let report ← conclude s startedAt fault
  return (report, fault)

/-- The opening of a sweep: it provisions the layout, loads the template and leaves all records as they were. What a
sweep comes to, it comes to there, with a failure, or from there on. -/
theorem run_opens [Recorder κ] {s : Setup} {schedules : List (List Nat)} {start : World κ}
    {post : Report × Option Fault → World κ → Prop}
    (hstopped : ¬ Begins s start.bench.files → ∀ report fault t,
      t.stage = (records start, (s.config.layout.provision start.bench.files).1) → post (report, some fault) t)
    (hopened : (s.config.layout.provision start.bench.files).2 = none → ∀ startedAt template t,
      templateOf s (s.config.layout.provision start.bench.files).1 = .ok template →
      t.stage = (records start, (s.config.layout.provision start.bench.files).1) →
      Steps.Ensures World.Interruption (fun _ _ => True) post (proceed s schedules startedAt template) t) :
    Steps.Ensures World.Interruption (fun _ _ => True) post (run s schedules) start := by
  have hrefl : ∀ w : World κ, World.Interruption w w := World.interruption_refl
  have hnow : (World.now : Steps (World κ) Instant).Keeps World.stage := fun _ => ⟨rfl, trivial⟩
  unfold run
  refine (hnow.ensures (fun _ _ h => h.stage) _).bind hrefl ?_
  intro startedAt t ht
  have hfiles : t.bench.files = start.bench.files := congrArg Prod.snd ht
  have hrecords : records t = records start := congrArg Prod.fst ht
  refine (ensures_attempt s.config.layout.provision t).bind hrefl ?_
  rintro fault u ⟨hfault, hu⟩
  rw [hfiles] at hfault hu
  rw [hrecords] at hu
  cases fault with
  | some fault =>
      refine Steps.ensures_pure fun v huv => hstopped ?_ _ fault v (huv.stage.trans hu)
      rintro ⟨hnone, -⟩
      exact Option.some_ne_none fault (hfault.trans hnone)
  | none =>
      have hprovisioned : u.bench.files = (s.config.layout.provision start.bench.files).1 := congrArg Prod.snd hu
      refine (loadTemplate_ensures s u).bind hrefl ?_
      rintro loaded v ⟨hloaded, hv⟩
      rw [hprovisioned] at hloaded
      cases loaded with
      | error fault =>
          refine Steps.ensures_pure fun x hvx => hstopped ?_ _ fault x (hvx.stage.trans (hv.trans hu))
          rintro ⟨-, template, htemplate⟩
          cases hloaded.trans htemplate
      | ok template => exact hopened hfault.symm startedAt template v hloaded.symm (hv.trans hu)

/-- A sweep that does not get past its opening ends with a failure. -/
theorem run_unbegun [Recorder κ] {s : Setup} {files : Files} (h : ¬ Begins s files) (keeper : κ)
    (events : Option EventLog) (clock : Clock) (schedules : List (List Nat)) :
    Steps.Ensures World.Interruption (fun _ _ => True) (fun result _ => result.2 ≠ none) (run s schedules)
      (World.start files keeper events clock) := by
  refine run_opens (fun _ _ fault _ _ => Option.some_ne_none fault) ?_
  intro hprovision _ template _ htemplate _
  exact absurd ⟨hprovision, template, htemplate⟩ h

theorem exists?_iff_stat (files : Files) (path : Bytes) :
    files.exists? path = true ↔ ∃ entry, files.stat path = .ok entry := by
  unfold Files.exists?
  cases files.stat path <;> simp

theorem load_eq_ok {files : Files} {path placeholder : Bytes} {t : Template} :
    Template.load files path placeholder = .ok t ↔ ∃ content, files.stat path = .ok (.file content) ∧
      Template.create content.toBytes placeholder = .ok t := by
  unfold Template.load Files.contentAt Files.openFile
  cases files.stat path with
  | error cause => simp [Except.mapError, bind, Except.bind]
  | ok entry =>
      cases entry with
      | directory => simp [Except.mapError, bind, Except.bind, Files.readOpened]
      | link target => simp [Except.mapError, bind, Except.bind, Files.readOpened]
      | file content =>
          simp only [Except.mapError, bind, Except.bind, Files.readOpened, Except.ok.injEq, Entry.file.injEq]
          cases hcreate : Template.create content.toBytes placeholder <;> simp [hcreate]

/-- Trees that are alike have the same template, if its place may not change. -/
theorem templateOf_alike {changing : Place → Prop} {files other : Files} (h : Files.Alike changing files other)
    {s : Setup} (hfixed : ∀ spot, files.resolve true (templatePath s) = .ok spot → ¬ changing spot.place)
    (template : Option Template) : templateOf s files = .ok template ↔ templateOf s other = .ok template := by
  have hstat := Files.stat_alike h hfixed
  have hexists : files.exists? (templatePath s) = other.exists? (templatePath s) := by
    rw [Bool.eq_iff_iff, exists?_iff_stat, exists?_iff_stat]
    exact exists_congr hstat
  have hload : ∀ t, Template.load files (templatePath s) s.config.simulator.placeholder = .ok t ↔
      Template.load other (templatePath s) s.config.simulator.placeholder = .ok t := by
    intro t
    rw [load_eq_ok, load_eq_ok]
    exact exists_congr fun content => and_congr_left fun _ => hstat _
  unfold templateOf
  rw [hexists]
  split
  next => exact Iff.rfl
  next =>
    cases hfiles : Template.load files (templatePath s) s.config.simulator.placeholder with
    | ok t => rw [(hload t).mp hfiles]
    | error fault =>
        cases hother : Template.load other (templatePath s) s.config.simulator.placeholder with
        | ok t =>
            rw [(hload t).mpr hother] at hfiles
            cases hfiles
        | error fault' => simp [Except.map]

end Sweep

end MobilitySweep
