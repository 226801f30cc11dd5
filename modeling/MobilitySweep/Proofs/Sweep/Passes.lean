import MobilitySweep.Proofs.Sweep.Turns
import MobilitySweep.Sweep.Simulator

/-! # Passes of a sweep

A condition on the own files and records of a run that each of its turns keeps is kept by a whole pass: by every
schedule of every combination, whatever the others do. A pass without a failure has given every planned run a
turn that ended well.
-/

namespace MobilitySweep

namespace Sweep

open Artifact (Owned)

variable {κ : Type}

/-- A condition that can be told from a run's own files and records. -/
def IsOwn (memory : κ → List Ledger.Write) (base : Files) (l : Layout) (condition : Run → World κ → Prop) : Prop :=
  ∀ r w t, Stays memory base l r [] w t → condition r w → condition r t

/-- Conditions that the turns of runs keep: one that holds all along, one that holds as long as no run fails, and one
that holds once a turn has ended well. -/
structure Course [Recorder κ] (s : Setup) (template : Option Template) (base : Files) (paths : List Bytes)
    (memory : κ → List Ledger.Write) (steady sound done : Run → World κ → Prop) : Prop where
  steadyOwn : IsOwn memory base s.config.layout steady
  soundOwn : IsOwn memory base s.config.layout sound
  doneOwn : IsOwn memory base s.config.layout done
  turn : ∀ r ∈ s.runs, ∀ w, Later base paths w → steady r w →
    Steps.Ensures (Bears memory base s.config.layout r) (Acts memory base s.config.layout r)
      (fun result t => steady r t ∧ (result = none → sound r w → sound r t ∧ done r t)) (task s template r) w

/-- What is left of the conditions of a course when some runs have had their turns and the worst of them came to a
result. -/
structure Sustained (s : Setup) (steady sound done : Run → World κ → Prop) (turned : Run → Prop)
    (result : Option Fault) (w t : World κ) : Prop where
  kept : ∀ r ∈ s.runs, steady r t
  ended : result = none → ∀ r ∈ s.runs, sound r w → sound r t ∧ (done r w ∨ turned r → done r t)

/-- Whether a place is the home of a file of some planned run. -/
def Planned (s : Setup) (base : Files) (place : Place) : Prop := ∃ r ∈ s.runs, Owned base s.config.layout r place

/-- Whether a place is that of a file of some planned run or of an event log with one of some paths. -/
def MayChange (s : Setup) (base : Files) (paths : List Bytes) (place : Place) : Prop :=
  Planned s base place ∨ EventHome base paths place

/-- A tree with the places for a sweep told to event logs with some paths: no links are in the way of the runs or of the
logs, nor is a directory in the way of the log of a run, the template is not at the place of one of their files, and
plain logs can be set aside. -/
structure Ground (s : Setup) (base : Files) (paths : List Bytes) : Prop where
  clear : Clear base s.config.layout s.runs
  filed : FiledAt base paths
  template : ∀ spot, base.resolve true (templatePath s) = .ok spot → ¬ MayChange s base paths spot.place
  aside : LeavesPlainLogs s → ∀ r ∈ s.runs, Free base s.config.layout r .failedLog

/-- Nothing has changed but files of planned runs and that of the event log. -/
structure KeepsToPlan (s : Setup) (base : Files) (w w' : World κ) : Prop where
  files : Files.Alike (MayChange s base w.eventPaths) w.bench.files w'.bench.files
  eventPaths : w'.eventPaths = w.eventPaths

section

variable {memory : κ → List Ledger.Write} {base : Files} {l : Layout} {r : Run} {w t : World κ}

theorem EventHome.mono {place : Place} {paths more : List Bytes} (h : EventHome base paths place)
    (hsub : paths ⊆ more) : EventHome base more place := by
  obtain ⟨path, hpath, hplace⟩ := h
  exact ⟨path, hsub hpath, hplace⟩

theorem MayChange.mono {s : Setup} {place : Place} {paths more : List Bytes} (h : MayChange s base paths place)
    (hsub : paths ⊆ more) : MayChange s base more place := h.imp_right fun hhome => hhome.mono hsub

theorem KeepsToPlan.of_same {s : Setup} (hfiles : t.bench.files = w.bench.files)
    (hpaths : t.eventPaths = w.eventPaths) : KeepsToPlan s base w t :=
  ⟨hfiles ▸ Files.Alike.refl _ _, hpaths⟩

theorem KeepsToPlan.trans {s : Setup} {u : World κ} (h : KeepsToPlan s base w t) (h' : KeepsToPlan s base t u) :
    KeepsToPlan s base w u :=
  ⟨h.files.trans (h.eventPaths ▸ h'.files), h'.eventPaths.trans h.eventPaths⟩

theorem Stays.of_same (hkeeper : t.keeper = w.keeper) (hfiles : t.bench.files = w.bench.files)
    (hpaths : t.eventPaths = w.eventPaths) : Stays memory base l r [] w t :=
  ⟨hfiles ▸ Files.Alike.refl _ _, hpaths, by rw [writesAbout, hkeeper, writesAbout]⟩

theorem Bears.of_interruption (h : World.Interruption w t) : Bears memory base l r w t := by
  rcases h with rfl | rfl
  · exact Bears.refl memory base l r _
  · exact ⟨Files.Alike.refl _ _, rfl, id, rfl⟩

/-- Planned runs leave each other alone. -/
theorem compatible (s : Setup) (memory : κ → List Ledger.Write) (hbase : base.WellFormed) :
    Group.Compatible World.Interruption (KeepsToPlan s base)
      (fun r w w' => r ∈ s.runs ∧ Acts memory base s.config.layout r w w') (Bears memory base s.config.layout) where
  refl r w := Bears.refl memory base _ r w
  trans _ _ _ _ := Bears.trans
  outside _ _ _ := Bears.of_interruption
  inside i j w w' hij h := by
    refine ⟨h.2.files.mono fun place hi hj => ?_, h.2.eventPaths, h.2.failure, h.2.memory j hij.symm⟩
    exact hi.elim (fun hown => hij (hown.unique hbase hj)) fun hevents => hevents.2 j hj
  visible i _ _ h := ⟨h.2.files.mono fun _ => Or.imp (fun hplace => ⟨i, h.1, hplace⟩) And.left, h.2.eventPaths⟩

end

section

variable {s : Setup} {steady sound done : Run → World κ → Prop} {turned turned' : Run → Prop} {result : Option Fault}
  {w t u : World κ}

theorem Sustained.of_fault (h : ∀ r ∈ s.runs, steady r t) (fault : Fault) :
    Sustained s steady sound done turned (some fault) w t :=
  ⟨h, by rintro ⟨⟩⟩

theorem Sustained.trans (h : Sustained s steady sound done turned none w t)
    (h' : Sustained s steady sound done turned' result t u) :
    Sustained s steady sound done (fun r => turned r ∨ turned' r) result w u := by
  refine ⟨h'.kept, fun hresult r hr hsound => ?_⟩
  obtain ⟨hsound', hdone⟩ := h.ended rfl r hr hsound
  obtain ⟨hsound'', hdone'⟩ := h'.ended hresult r hr hsound'
  refine ⟨hsound'', fun hturned => ?_⟩
  rcases hturned with hbefore | hturned | hturned
  · exact hdone' (Or.inl (hdone (Or.inl hbefore)))
  · exact hdone' (Or.inl (hdone (Or.inr hturned)))
  · exact hdone' (Or.inr hturned)

theorem Sustained.mono (h : Sustained s steady sound done turned result w t) (hless : ∀ r, turned' r → turned r) :
    Sustained s steady sound done turned' result w t :=
  ⟨h.kept, fun hresult r hr hsound => (h.ended hresult r hr hsound).imp_right fun hdone hturned =>
    hdone (hturned.imp_right (hless r))⟩

variable [Recorder κ] {memory : κ → List Ledger.Write} {base : Files} {paths : List Bytes} {template : Option Template}

/-- Conditions that every kind of turn keeps, if the tree is clear for the runs that are worked through. -/
theorem Course.of_turns {attentive : Bool} {good : Run → Bytes → Option Entry → Prop}
    (hmemory : Remembers memory attentive) (hunlinked : Unlinked base s.config.layout s.runs)
    (hfiled : FiledAt base paths)
    (hsimulator : ∀ simulator ∈ s.simulator, simulator.KeepsTo base s.config.layout s.runs good)
    (hsteadyOwn : IsOwn memory base s.config.layout steady) (hsoundOwn : IsOwn memory base s.config.layout sound)
    (hdoneOwn : IsOwn memory base s.config.layout done)
    (hlog : ∀ r ∈ s.runs, ∀ w, steady r w →
      (s.config.sweep.resume = true → (markerOf s template).entry base s.config.layout r w.bench.files = none) →
      base.linkStat (Artifact.log.path s.config.layout r) ≠ .ok .directory)
    (hturn : ∀ r ∈ s.runs, ∀ w t result, steady r w → Turn s template base good memory attentive r w t result →
      steady r t ∧ (result = none → sound r w → sound r t ∧ done r t)) :
    Course s template base paths memory steady sound done := by
  refine ⟨hsteadyOwn, hsoundOwn, hdoneOwn, fun r hr w hlater hsteady => ?_⟩
  refine (task_turns hmemory (hunlinked.singleton hr) hfiled (fun hlaunched => ?_) (List.mem_singleton_self r) ?_
    hlater).weaken fun result t => hturn r hr w t result hsteady
  · refine (hunlinked.singleton hr).clear fun x hx => ?_
    obtain rfl := List.mem_singleton.mp hx
    exact hlog x hr w hsteady hlaunched
  · exact fun simulator hin x hx => hsimulator simulator hin x (List.mem_singleton.mp hx ▸ hr)

/-- What happens elsewhere makes no difference. -/
theorem Course.sustained (h : Course s template base paths memory steady sound done)
    (hstays : ∀ r, Stays memory base s.config.layout r [] w t) (hsteady : ∀ r ∈ s.runs, steady r w)
    (result : Option Fault) : Sustained s steady sound done (fun _ => False) result w t := by
  refine ⟨fun r hr => h.steadyOwn r w t (hstays r) (hsteady r hr), fun _ r _ hsound => ?_⟩
  exact ⟨h.soundOwn r w t (hstays r) hsound, fun hbefore => h.doneOwn r w t (hstays r) (hbefore.resolve_right id)⟩

end

section

variable [Recorder κ] {memory : κ → List Ledger.Write} {attentive : Bool} {base : Files} {paths : List Bytes} {s : Setup}
  {template : Option Template} {steady sound done : Run → World κ → Prop} {w : World κ}

/-- A run keeps the conditions of a course in its group. -/
theorem task_promises (hcourse : Course s template base paths memory steady sound done) {r : Run} (hr : r ∈ s.runs)
    (hlater : Later base paths w) (hsteady : steady r w) :
    Group.Promises World.noteFailure (fun r w w' => r ∈ s.runs ∧ Acts memory base s.config.layout r w w')
      (Bears memory base s.config.layout)
      (fun r t => steady r t ∧ (t.bench.failure = none → sound r w → sound r t ∧ done r t)) (r, task s template r)
      w := by
  refine (hcourse.turn r hr w hlater hsteady).mono (fun _ _ => id) (fun _ _ h => ⟨hr, h⟩) ?_
  rintro result t ⟨hsteady', hended⟩
  have hnoted : Acts memory base s.config.layout r t (World.noteFailure result t) := by
    refine ⟨Files.Alike.refl _ _, rfl, fun hfailure => ?_, fun _ _ => rfl⟩
    simp [World.noteFailure, Bench.noteFailure, hfailure]
  refine ⟨⟨hr, hnoted⟩, fun u hu => ?_⟩
  have hstays : Stays memory base s.config.layout r [] t u :=
    (Stays.of_same rfl rfl rfl : Stays memory base s.config.layout r [] t (World.noteFailure result t)).trans hu.stays
  refine ⟨hcourse.steadyOwn r t u hstays hsteady', fun hfailure hsound => ?_⟩
  have hresult : result = none := by
    by_contra hresult
    refine hu.failure ?_ hfailure
    simp [World.noteFailure, Bench.noteFailure, hresult]
  obtain ⟨hsound', hdone⟩ := hended hresult hsound
  exact ⟨hcourse.soundOwn r t u hstays hsound', hcourse.doneOwn r t u hstays hdone⟩

/-- The repetitions of a combination keep the conditions of a course. -/
theorem runCombination_keeps (hbase : base.WellFormed)
    (hcourse : Course s template base paths memory steady sound done)
    (schedule : List Nat) {p : Params} (hp : p ∈ Plan.combinations s.config.sweep)
    (hlater : Later base paths w) (hsteady : ∀ r ∈ s.runs, steady r w) :
    Steps.Ensures World.Interruption (KeepsToPlan s base)
      (fun fault t => Sustained s steady sound done (· ∈ Plan.repetitions p s.config.sweep.repetitions) fault w t)
      (runCombination s template schedule p) w := by
  have hrefl : ∀ w : World κ, World.Interruption w w := World.interruption_refl
  have hplanned : ∀ r ∈ Plan.repetitions p s.config.sweep.repetitions, r ∈ s.runs := by
    intro r hr
    have hparams := Plan.mem_repetitions hr
    exact Plan.mem_runs.mpr ⟨hparams ▸ hp, hparams ▸ hr⟩
  let tasks := (Plan.repetitions p s.config.sweep.repetitions).map fun r =>
    (r, (task s template r : Steps (World κ) (Option Fault)))
  have hruns : tasks.map Prod.fst = Plan.repetitions p s.config.sweep.repetitions := by
    simp [tasks, Function.comp_def]
  have hprograms : tasks.map Prod.snd = (Plan.repetitions p s.config.sweep.repetitions).map (task s template) := by
    simp [tasks, Function.comp_def]
  have hreset : Steps.Ensures World.Interruption (KeepsToPlan s base)
      (fun _ t => ∀ r, Stays memory base s.config.layout r [] w t)
      (Steps.change fun (w : World κ) => { w with bench := { w.bench with failure := none } }) w := by
    refine Steps.ensures_change fun t ht => ⟨.of_same rfl rfl, fun u hu r => ?_⟩
    have hchanged : Stays memory base s.config.layout r [] t { t with bench := { t.bench with failure := none } } :=
      .of_same rfl rfl rfl
    exact (Bears.of_interruption ht).stays.trans (hchanged.trans (Bears.of_interruption hu).stays)
  refine hreset.bind hrefl ?_
  intro _ t ht
  have hstart := (hcourse.sustained ht hsteady none).kept
  have hpromises : ∀ pair ∈ tasks, Group.Promises World.noteFailure
      (fun r w w' => r ∈ s.runs ∧ Acts memory base s.config.layout r w w') (Bears memory base s.config.layout)
      (fun r u => steady r u ∧ (u.bench.failure = none → sound r t → sound r u ∧ done r u)) pair t := by
    intro pair hpair
    obtain ⟨r, hr, rfl⟩ := List.mem_map.mp hpair
    exact task_promises hcourse (hplanned r hr) ((ht r).later hlater) (hstart r (hplanned r hr))
  have hgroup := Group.interleaved_ensures (compatible s memory hbase)
    s.config.sweep.workers.toInt.toNat schedule tasks (hruns ▸ Plan.repetitions_nodup p _) hpromises
  rw [hprograms] at hgroup
  refine hgroup.bind hrefl ?_
  rintro _ u ⟨hposts, hothers⟩
  -- A run of the combination has had its turn, and any other has been left alone.
  have hturned : Sustained s steady sound done (· ∈ Plan.repetitions p s.config.sweep.repetitions) u.bench.failure
      t u := by
    have hturn : ∀ r ∈ Plan.repetitions p s.config.sweep.repetitions,
        steady r u ∧ (u.bench.failure = none → sound r t → sound r u ∧ done r u) :=
      fun r hin => hposts (r, task s template r) (List.mem_map.mpr ⟨r, hin, rfl⟩)
    have hother : ∀ r, r ∉ Plan.repetitions p s.config.sweep.repetitions →
        Stays memory base s.config.layout r [] t u := fun r hnot => (hothers r (by rwa [hruns])).stays
    refine ⟨fun r hr => ?_, fun hfailure r hr hsound => ?_⟩
    · by_cases hin : r ∈ Plan.repetitions p s.config.sweep.repetitions
      · exact (hturn r hin).1
      · exact hcourse.steadyOwn r t u (hother r hin) (hstart r hr)
    · by_cases hin : r ∈ Plan.repetitions p s.config.sweep.repetitions
      · exact ((hturn r hin).2 hfailure hsound).imp_right fun hdone _ => hdone
      · exact ⟨hcourse.soundOwn r t u (hother r hin) hsound, fun hbefore =>
          hcourse.doneOwn r t u (hother r hin) (hbefore.resolve_right hin)⟩
  refine Steps.ensures_look (fun _ => .of_same rfl rfl) fun v hv x hx => ?_
  have hlast : ∀ r, Stays memory base s.config.layout r [] u x := fun r =>
    (Bears.of_interruption hv).stays.trans (Bears.of_interruption hx).stays
  have hfailure : v.bench.failure = u.bench.failure := by rcases hv with rfl | rfl <;> rfl
  cases hfault : v.bench.failure with
  | some fault => exact Sustained.of_fault (hcourse.sustained hlast hturned.kept none).kept fault
  | none =>
      rw [← hfailure, hfault] at hturned
      refine (((hcourse.sustained ht hsteady none).trans hturned).trans
        (hcourse.sustained hlast hturned.kept none)).mono ?_
      exact fun r hr => Or.inl (Or.inr hr)

/-- What has become of a tree in a pass that is told to an event log: files of planned runs and of some event logs have
changed, the one of the pass among them. -/
structure InPass (s : Setup) (base : Files) (all paths : List Bytes) (w : World κ) : Prop where
  files : Files.Alike (MayChange s base all) base w.bench.files
  eventPaths : w.eventPaths = paths

omit [Recorder κ] in
theorem InPass.later {all : List Bytes} (h : InPass s base all paths w) : Later base paths w :=
  ⟨h.files.since, h.eventPaths⟩

omit [Recorder κ] in
theorem InPass.keeps {all : List Bytes} {t : World κ} (h : InPass s base all paths w) (hsub : paths ⊆ all)
    (ht : KeepsToPlan s base w t) : InPass s base all paths t :=
  ⟨h.files.trans (ht.files.mono fun _ hplace => hplace.mono (h.eventPaths ▸ hsub)), ht.eventPaths.trans h.eventPaths⟩

/-- The combinations of a pass keep the conditions of a course, up to the first failure. -/
theorem runCombinations_keeps (hwell : base.WellFormed) {all : List Bytes} (hsub : paths ⊆ all)
    (hcourse : Course s template base paths memory steady sound done)
    (schedules : List (List Nat)) (rest : List Params) (hrest : ∀ p ∈ rest, p ∈ Plan.combinations s.config.sweep)
    (hbase : InPass s base all paths w) (hsteady : ∀ r ∈ s.runs, steady r w) :
    Steps.Ensures World.Interruption (fun _ _ => True)
      (fun fault t => InPass s base all paths t ∧ Sustained s steady sound done
        (fun r => ∃ p ∈ rest, r ∈ Plan.repetitions p s.config.sweep.repetitions) fault w t)
      (runCombinations s template schedules rest) w := by
  have hrefl : ∀ w : World κ, World.Interruption w w := World.interruption_refl
  have hkept : ∀ {w t : World κ}, World.Interruption w t → KeepsToPlan s base w t := by
    rintro w _ (rfl | rfl) <;> exact .of_same rfl rfl
  have hsame : ∀ {w t : World κ}, World.Interruption w t → ∀ r, Stays memory base s.config.layout r [] w t :=
    fun h r => (Bears.of_interruption h).stays
  -- By induction on the combinations that are left: what one of them sustains, the next ones do too.
  induction rest generalizing schedules w with
  | nil =>
      intro t ht
      exact ⟨hbase.keeps hsub (hkept ht), (hcourse.sustained (hsame ht) hsteady none).mono (by simp)⟩
  | cons p rest ih =>
      have hp := hrest p List.mem_cons_self
      unfold runCombinations
      refine ((Steps.keeps_look _).ensures (fun _ _ h => h.stage) w).bind hrefl ?_
      intro interrupted t ht
      have hpaths : t.eventPaths = w.eventPaths := congrArg (fun stage : (κ × Option EventLog × Tally × Option Fault) × Files =>
        EventLog.openPaths stage.1.2.1) ht
      have hstays : ∀ r, Stays memory base s.config.layout r [] w t := fun r =>
        .of_same (congrArg (·.1.1) ht) (congrArg Prod.snd ht) hpaths
      have hbase' : InPass s base all paths t := hbase.keeps hsub (.of_same (congrArg Prod.snd ht) hpaths)
      have hlooked := hcourse.sustained hstays hsteady none
      split
      next =>
        refine Steps.ensures_pure fun u hu => ⟨hbase'.keeps hsub (hkept hu), Sustained.of_fault ?_ _⟩
        exact (hcourse.sustained (hsame hu) hlooked.kept none).kept
      next =>
        have hcombination : Steps.Ensures World.Interruption (KeepsToPlan s base)
            (fun fault u => Sustained s steady sound done (· ∈ Plan.repetitions p s.config.sweep.repetitions) fault t u ∧
              KeepsToPlan s base t u)
            (runCombination s template (schedules.headD []) p) t := by
          refine Steps.Ensures.track ?_ ?_ ?_ (runCombination_keeps hwell hcourse _ hp hbase'.later hlooked.kept)
          · exact fun _ _ _ => KeepsToPlan.trans
          · exact fun _ _ => hkept
          · exact fun _ _ => id
        refine (hcombination.mono (fun _ _ => id) (fun _ _ _ => trivial) (fun _ _ => id)).bind hrefl ?_
        rintro fault u ⟨hturned, hu⟩
        cases fault with
        | some fault =>
            refine Steps.ensures_pure fun v hv => ⟨(hbase'.keeps hsub hu).keeps hsub (hkept hv), Sustained.of_fault ?_ _⟩
            exact (hcourse.sustained (hsame hv) hturned.kept none).kept
        | none =>
            refine (ih schedules.tail (fun q hq => hrest q (List.mem_cons_of_mem p hq)) (hbase'.keeps hsub hu)
              hturned.kept).weaken ?_
            rintro fault v ⟨hv, hrest⟩
            refine ⟨hv, ((hlooked.trans hturned).trans hrest).mono ?_⟩
            rintro r ⟨q, hq, hr⟩
            rcases List.mem_cons.mp hq with rfl | hq
            · exact Or.inl (Or.inr hr)
            · exact Or.inr ⟨q, hq, hr⟩

/-! ## The whole pass -/

/-- The files, the place of the event log, and what is remembered about every run. -/
def visible (memory : κ → List Ledger.Write) (w : World κ) : Files × List Bytes × (Run → List Ledger.Write) :=
  (w.bench.files, w.eventPaths, fun r => writesAbout memory r w)

/-- What leaves the files and the records of all runs alone: nothing changes but the file of the event log. -/
structure Aside (s : Setup) (base : Files) (memory : κ → List Ledger.Write) (w t : World κ) : Prop where
  stays : ∀ r, Stays memory base s.config.layout r [] w t
  kept : KeepsToPlan s base w t

section

omit [Recorder κ]

variable {t u : World κ}

theorem Aside.trans (h : Aside s base memory w t) (h' : Aside s base memory t u) : Aside s base memory w u :=
  ⟨fun r => (h.stays r).trans (h'.stays r), h.kept.trans h'.kept⟩

theorem Aside.later (h : Aside s base memory w t) (hw : Later base paths w) : Later base paths t :=
  ⟨hw.files.trans h.kept.files.since, h.kept.eventPaths.trans hw.eventPaths⟩

theorem visible_of_common (h : t.common = w.common) : visible memory t = visible memory w := by
  simp only [World.common, Prod.mk.injEq] at h
  simp only [visible, writesAbout, h.1, h.2.2.1, h.2.2.2]

theorem visible_of_interruption (h : World.Interruption w t) : visible memory t = visible memory w := by
  rcases h with rfl | rfl <;> rfl

theorem aside_of_visible (h : visible memory t = visible memory w) : Aside s base memory w t := by
  obtain ⟨hfiles, hpaths, hmemory⟩ : t.bench.files = w.bench.files ∧ t.eventPaths = w.eventPaths ∧
      (fun r => writesAbout memory r t) = fun r => writesAbout memory r w := by simpa [visible] using h
  exact ⟨fun r => ⟨hfiles ▸ Files.Alike.refl _ _, hpaths, congrFun hmemory r⟩, .of_same hfiles hpaths⟩

theorem aside_of_interruption (h : World.Interruption w t) : Aside s base memory w t :=
  aside_of_visible (visible_of_interruption h)

theorem Hears.aside (h : Hears base w t) (hbase : base.WellFormed) (hfiled : FiledAt base w.eventPaths) :
    Aside s base memory w t :=
  ⟨fun _ => h.stays hbase hfiled, h.files.mono fun _ => Or.inr, h.eventPaths⟩

theorem keeps_visible {α : Type} {p : Steps (World κ) α} (h : p.Keeps World.common) : p.Keeps (visible memory) := by
  induction p with
  | done value => exact trivial
  | step act next ih => exact fun w => ⟨visible_of_common (h w).1, ih _ (h w).2⟩

/-- A program of which nothing shows. -/
theorem ensures_unseen (s : Setup) (base : Files) {α : Type} {p : Steps (World κ) α} (h : p.Keeps (visible memory)) :
    Steps.Ensures World.Interruption (fun _ _ => True) (fun _ t => Aside s base memory w t) p w :=
  (h.ensures (fun _ _ hwt => visible_of_interruption hwt) w).weaken fun _ _ ht => aside_of_visible ht

/-- A program that acts on none of what runs share. -/
theorem ensures_common (s : Setup) (base : Files) (memory : κ → List Ledger.Write) {α : Type} {p : Steps (World κ) α}
    (h : p.Keeps World.common) :
    Steps.Ensures World.Interruption (fun _ _ => True) (fun _ t => Aside s base memory w t) p w :=
  ensures_unseen s base (keeps_visible h)

/-- An event that is about no run in particular. -/
theorem event_aside (s : Setup) (memory : κ → List Ledger.Write) (hbase : base.WellFormed)
    (hfiled : FiledAt base paths) (hlater : Later base paths w) (kind runId : Bytes) (fields : List (Bytes × Json)) :
    Steps.Ensures World.Interruption (fun _ _ => True) (fun _ t => Aside s base memory w t)
      (World.event kind runId fields) w := by
  refine Steps.ensures_change fun t ht => ⟨trivial, fun u hu => ?_⟩
  have hbefore : Aside s base memory w t := aside_of_interruption ht
  have hthere := hbefore.later hlater
  have hhears := hthere.hears hbase hfiled kind runId fields
  rw [← hthere.eventPaths] at hfiled
  exact (hbefore.trans (hhears.aside hbase hfiled)).trans (aside_of_interruption hu)

end

/-- A write about no run does not show. -/
theorem keeps_visible_record (hmemory : Remembers memory attentive) (logger : Log.Logger) {write : Ledger.Write}
    (hwrite : write.runId? = none) :
    (World.record logger write : Steps (World κ) Unit).Keeps (visible memory) := by
  intro w
  refine ⟨?_, ?_⟩
  · have hnone : ∀ r : Run, writesAbout memory r { w with keeper := (Recorder.record w.keeper write).1 } =
        writesAbout memory r w := by
      intro r
      rw [writesAbout_record hmemory]
      simp [hwrite]
    simp only [visible, hnone, World.eventPaths]
  · dsimp only
    cases (Recorder.record w.keeper write).2 with
    | some fault => exact keeps_visible (keeps_common_note _ _ _ _)
    | none => exact Steps.keeps_pure _

theorem announce_aside (hmemory : Remembers memory attentive) (hbase : base.WellFormed) (hfiled : FiledAt base paths)
    (hlater : Later base paths w) (startedAt : Instant) :
    Steps.Ensures World.Interruption (fun _ _ => True) (fun _ t => Aside s base memory w t) (announce s startedAt)
      w := by
  have hrefl : ∀ w : World κ, World.Interruption w w := World.interruption_refl
  unfold announce
  refine (ensures_unseen s base (keeps_visible_record hmemory _ rfl)).bind hrefl fun _ t ht => ?_
  refine (ensures_common s base memory (keeps_common_note _ _ _ _)).bind hrefl fun _ u hu => ?_
  have hbefore := ht.trans hu
  exact (event_aside s memory hbase hfiled (hbefore.later hlater) _ _ _).weaken fun _ _ => hbefore.trans

theorem conclude_aside (hmemory : Remembers memory attentive) (hbase : base.WellFormed) (hfiled : FiledAt base paths)
    (hlater : Later base paths w) (startedAt : Instant) (fault : Option Fault) :
    Steps.Ensures World.Interruption (fun _ _ => True) (fun _ t => Aside s base memory w t)
      (conclude s startedAt fault) w := by
  have hrefl : ∀ w : World κ, World.Interruption w w := World.interruption_refl
  unfold conclude
  refine (ensures_common s base memory (Steps.keeps_look _)).bind hrefl fun tally t ht => ?_
  refine (ensures_common s base memory keeps_common_now).bind hrefl fun ended u hu => ?_
  refine (ensures_common s base memory (Steps.keeps_look _)).bind hrefl fun interrupted v hv => ?_
  refine (ensures_common s base memory keeps_common_now).bind hrefl fun last x hx => ?_
  refine (ensures_unseen s base (keeps_visible_record hmemory _ rfl)).bind hrefl fun _ y hy => ?_
  have hbefore := (((ht.trans hu).trans hv).trans hx).trans hy
  refine (event_aside s memory hbase hfiled (hbefore.later hlater) _ _ _).bind hrefl fun _ z hz => ?_
  refine (ensures_common s base memory (keeps_common_note _ _ _ _)).bind hrefl fun _ z' hz' => ?_
  exact Steps.ensures_pure fun after hafter => ((hbefore.trans hz).trans hz').trans (aside_of_interruption hafter)

/-- A pass over a tree keeps the conditions of a course, if its template gives one, and a pass without a failure
leaves every planned run done. -/
theorem run_keeps (hmemory : Remembers memory attentive) (hwell : base.WellFormed)
    (hsteadyOwn : IsOwn memory base s.config.layout steady) {files : Files} {all : List Bytes}
    (hbase : Files.Alike (MayChange s base all) base (s.config.layout.provision files).1) (keeper : κ)
    (events : Option EventLog) (hsub : EventLog.openPaths events ⊆ all) (hfiled : FiledAt base all)
    (hcourse : (s.config.layout.provision files).2 = none →
      ∀ template, templateOf s (s.config.layout.provision files).1 = .ok template →
        Course s template base (EventLog.openPaths events) memory steady sound done)
    (clock : Clock) (schedules : List (List Nat))
    (hsteady : ∀ r ∈ s.runs, steady r (World.start (s.config.layout.provision files).1 keeper events clock))
    (hsound : ∀ r ∈ s.runs, sound r (World.start (s.config.layout.provision files).1 keeper events clock)) :
    Steps.Ensures World.Interruption (fun _ _ => True)
      (fun result t => Files.Alike (MayChange s base all) base t.bench.files ∧ (∀ r ∈ s.runs, steady r t) ∧
        (result.2 = none → ∀ r ∈ s.runs, done r t))
      (run s schedules) (World.start files keeper events clock) := by
  have hrefl : ∀ w : World κ, World.Interruption w w := World.interruption_refl
  have hfiled' : FiledAt base (EventLog.openPaths events) := fun path hpath => hfiled path (hsub hpath)
  set start := World.start (s.config.layout.provision files).1 keeper events clock
  have hstart : InPass s base all (EventLog.openPaths events) start := ⟨hbase, rfl⟩
  -- What leaves all runs alone since the tree was provisioned keeps the conditions.
  have hkept : ∀ t : World κ, Aside s base memory start t →
      InPass s base all (EventLog.openPaths events) t ∧ ∀ r ∈ s.runs, steady r t :=
    fun t ht => ⟨hstart.keeps hsub ht.kept, fun r hr => hsteadyOwn r _ t (ht.stays r) (hsteady r hr)⟩
  have hvisible : ∀ t : World κ, t.stage = start.stage → Aside s base memory start t := by
    intro t ht
    have hrecords : records t = records start := congrArg Prod.fst ht
    have hplace : t.bench.files = start.bench.files := congrArg Prod.snd ht
    simp only [records, Prod.mk.injEq] at hrecords
    refine aside_of_visible ?_
    simp only [visible, writesAbout, World.eventPaths, hrecords.1, hrecords.2.1, hplace]
  refine run_opens (fun _ report fault t ht => ?_) fun hprovision startedAt template t htemplate ht => ?_
  · obtain ⟨halike, hsteady'⟩ := hkept t (hvisible t ht)
    exact ⟨halike.files, hsteady', by rintro ⟨⟩⟩
  · have hthis := hcourse hprovision template htemplate
    have hlater := (hkept t (hvisible t ht)).1.later
    refine (announce_aside hmemory hwell hfiled' hlater startedAt).bind hrefl ?_
    intro _ u hu
    have hopened := (hvisible t ht).trans hu
    obtain ⟨halike, hsteady'⟩ := hkept u hopened
    refine (runCombinations_keeps hwell hsub hthis schedules _ (fun _ => id) halike hsteady').bind hrefl ?_
    rintro fault v ⟨halike', hsustained⟩
    refine (conclude_aside hmemory hwell hfiled' halike'.later startedAt fault).bind hrefl ?_
    intro report x hx
    refine Steps.ensures_pure fun last hlast => ?_
    have hend : Aside s base memory v last := hx.trans (aside_of_interruption hlast)
    refine ⟨(halike'.keeps hsub hend.kept).files, fun r hr => ?_, fun hfault r hr => ?_⟩
    · exact hsteadyOwn r v last (hend.stays r) (hsustained.kept r hr)
    · have hsound' := hthis.soundOwn r _ u (hopened.stays r) (hsound r hr)
      exact hthis.doneOwn r v last (hend.stays r) ((hsustained.ended hfault r hr hsound').2
        (Or.inr ⟨r.params, Plan.mem_runs.mp hr⟩))

end

end Sweep

/-- The runs of a configuration in order. -/
def Config.runs (c : Config) : List Run := Plan.runs (Plan.combinations c.sweep) c.sweep.repetitions

namespace Sweep

variable {κ : Type}

/-- One pass of a sweep: who simulates, what is kept of it, and all that is left to chance. -/
structure Pass (κ : Type) where
  simulator : Option Simulator
  logger : Log.Logger
  sweepId : Bytes
  drawn : Int64
  keeper : κ
  events : Option EventLog
  clock : Clock
  schedules : List (List Nat)
  moment : Nat

namespace Pass

/-- The path of the open event log of a pass, if it has one. -/
def eventPaths (p : Pass κ) : List Bytes := EventLog.openPaths p.events

/-- The sweep of a pass. -/
def setup (p : Pass κ) (c : Config) : Setup := ⟨c, p.simulator, p.logger, p.sweepId, c.sweep.seed.getD p.drawn⟩

/-- The sweep of a pass is the one that is set up for its configuration. -/
theorem create_eq_setup (p : Pass κ) {c : Config} (h : c.validate = .ok ()) :
    Setup.create (some c) p.simulator p.logger p.sweepId p.drawn = .ok (p.setup c) := by
  simp only [Setup.create, h]
  rfl

/-- What a pass over some files comes to, interrupted at its moment if it takes that long. -/
def run [Recorder κ] (p : Pass κ) (c : Config) (files : Files) : (Report × Option Fault) × World κ :=
  (Sweep.run (p.setup c) p.schedules).runStruck World.interrupt p.moment
    (World.start files p.keeper p.events p.clock)

variable [Recorder κ] {memory : κ → List Ledger.Write} {attentive : Bool} {base files : Files} {all : List Bytes}
  {c : Config}

/-- A pass keeps conditions on every planned run, and leaves every run done if it ends without a failure. -/
theorem keeps (p : Pass κ) (steady sound done : Run → World κ → Prop) (hmemory : Remembers memory attentive)
    (hwell : base.WellFormed) (hown : IsOwn memory base c.layout steady) (hsub : p.eventPaths ⊆ all)
    (hfiled : FiledAt base all) (hbase : Files.Alike (MayChange (p.setup c) base all) base (c.layout.provision files).1)
    (hcourse : (c.layout.provision files).2 = none →
      ∀ template, templateOf (p.setup c) (c.layout.provision files).1 = .ok template →
        Course (p.setup c) template base p.eventPaths memory steady sound done)
    (hsteady : ∀ r ∈ c.runs, steady r (World.start (c.layout.provision files).1 p.keeper p.events p.clock))
    (hsound : ∀ r ∈ c.runs, sound r (World.start (c.layout.provision files).1 p.keeper p.events p.clock)) :
    Files.Alike (MayChange (p.setup c) base all) base (p.run c files).2.bench.files ∧
      (∀ r ∈ c.runs, steady r (p.run c files).2) ∧
      ((p.run c files).1.2 = none → ∀ r ∈ c.runs, done r (p.run c files).2) :=
  (run_keeps hmemory hwell hown hbase p.keeper p.events hsub hfiled hcourse p.clock p.schedules hsteady hsound).runStruck
    World.interruption_refl World.interruption_interrupt p.moment

end Pass

end Sweep

/-! ## Scripted simulators

A simulator that follows a script acts on the logs that it is asked for and on nothing else, whatever the script
makes it do.
-/

open Artifact (Owned Among)

theorem Simulator.KeepsTo.mono {simulator : Simulator} {base : Files} {l : Layout} {runs : List Run}
    {good good' : Run → Bytes → Option Entry → Prop} (h : simulator.KeepsTo base l runs good)
    (hgood : ∀ r text entry, good r text entry → good' r text entry) : simulator.KeepsTo base l runs good' := by
  intro r hr bench hsince text hconfig
  exact (h r hr bench hsince text hconfig).weaken fun fault b hdone hnone => hgood r text _ (hdone hnone)

namespace ScriptedSimulator

/-- The log that a script has for a simulation that succeeds. -/
def logText (s : ScriptedSimulator) (config log : Bytes) : Bytes :=
  (outcomeFor s.logs (runOf log)).getD ("log for " ++ config ++ "\n")

variable {s : ScriptedSimulator} {base : Files} {l : Layout} {runs : List Run} {r : Run}

/-- What a simulation by a script comes to: it has acted on the log only, and left the given one if it succeeded. -/
structure Simulated (base : Files) (l : Layout) (r : Run) (text : Bytes) (before after : Bench)
    (fault : Option Fault) : Prop where
  files : Files.Alike (Among base l r [.log]) before.files after.files
  failure : after.failure = before.failure
  log : fault = none → Artifact.log.entry base l r after.files = some (.file (.bytes text))

theorem writeLog_simulated (hclear : Sweep.Clear base l runs) (hroot : s.root = l.root) (hr : r ∈ runs)
    {bench : Bench} (hsince : Files.Since base bench.files) (text : Bytes) :
    Simulated base l r text bench (s.writeLog (l.logRelative r) text bench).1
      (s.writeLog (l.logRelative r) text bench).2 := by
  obtain ⟨halike, hwritten⟩ :=
    (hclear.lodged hr hsince .log).writeFile (hsince.wellFormed.mp hclear.wellFormed) text
  have hpath : Path.join [s.root, l.logRelative r] = Artifact.log.path l r := by rw [hroot]; rfl
  rw [writeLog, hpath]
  exact ⟨halike.mono fun place hplace => ⟨.log, by simp, hplace⟩, rfl, fun hnone =>
    Artifact.entry_eq_some.mpr (hwritten hnone)⟩

theorem simulate_simulated (hclear : Sweep.Clear base l runs) (hroot : s.root = l.root) (hsilent : s.silent = [])
    (hr : r ∈ runs) (config : Bytes) {bench : Bench} (hsince : Files.Since base bench.files) :
    Simulated base l r (s.logText config (l.logRelative r)) bench (s.simulate config (l.logRelative r) bench).2
      (s.simulate config (l.logRelative r) bench).1 := by
  have hrefl := Files.Alike.refl (Among base l r [.log]) bench.files
  let called : Bench := { bench with calls := (config, l.logRelative r) :: bench.calls }
  have hwrite : ∀ text, Simulated base l r text called (s.writeLog (l.logRelative r) text called).1
      (s.writeLog (l.logRelative r) text called).2 := writeLog_simulated hclear hroot hr hsince
  unfold simulate
  dsimp only
  split
  next => exact ⟨hrefl, rfl, by rintro ⟨⟩⟩
  next =>
    split
    next => exact ⟨(hwrite "partial\n").files, (hwrite "partial\n").failure, by rintro ⟨⟩⟩
    next =>
      split
      next => exact ⟨hrefl, rfl, by rintro ⟨⟩⟩
      next =>
        split
        next hin => simp [hsilent] at hin
        next =>
          have hwritten := hwrite (s.logText config (l.logRelative r))
          exact ⟨hwritten.files, hwritten.failure, hwritten.log⟩

/-- A script in which no simulation succeeds without a log keeps to the logs, and they are those it has. -/
theorem keepsTo (hclear : Sweep.Clear base l runs) (hroot : s.root = l.root) (hsilent : s.silent = []) :
    s.simulator.KeepsTo base l runs fun r _ entry =>
      entry = some (.file (.bytes (s.logText (l.configRelative r) (l.logRelative r)))) := by
  intro r hr bench hsince text _
  refine Steps.ensures_act fun b hb => ?_
  have hdone := simulate_simulated hclear hroot hsilent hr (l.configRelative r) (hsince.trans hb.since)
  refine ⟨⟨hdone.files, hdone.failure⟩, fun u hu hnone => ?_⟩
  rw [Artifact.entry_congr fun _ hplace => hu.get? ⟨.log, hplace⟩]
  exact hdone.log hnone

end ScriptedSimulator

namespace Sweep

/-! ### A sweep of one run -/

/-- The configuration of a sweep of one run. -/
def oneRun (resume compress : Bool) : Config where
  sweep := ⟨some [1], some [0], some [1], 1, 1, some 1, resume⟩
  generator := ⟨1, 0, 1⟩
  layout := Config.standard.layout
  simulator := { Config.standard.simulator with compress := compress }
  ledgerPath := Config.standard.ledgerPath
  logLevel := Config.standard.logLevel

/-- The run of it. -/
def theRun : Run := ⟨⟨1, 0, 1⟩, 0⟩

/-- A pass with a simulator that follows a script with the given failures. -/
def scriptedPass {κ : Type} (keeper : κ) (failures : List (Bytes × Bytes)) : Pass κ where
  simulator := some (ScriptedSimulator.simulator ⟨".", [], failures, [], [], []⟩)
  logger := .ofName []
  sweepId := "sweep"
  drawn := 1
  keeper := keeper
  events := none
  clock := ⟨.zero, 1000000000⟩
  schedules := []
  moment := 1000

/-- A working directory with nothing but a template. -/
def site : Files := ((Files.fresh [("site" : Bytes)]).writeFile "sim.csc.template" "trace xxPOSITION_FILExx").1

theorem mem_runs_oneRun (resume compress : Bool) : theRun ∈ (oneRun resume compress).runs := List.mem_singleton.mpr rfl

theorem site_wellFormed : site.WellFormed := by decide +kernel

/-- The site has the places for the run. -/
theorem ground_site {κ : Type} (p : Pass κ) (resume compress : Bool) :
    Ground (p.setup (oneRun resume compress)) ((oneRun resume compress).layout.provision site).1 [] := by
  have hwell : (Config.standard.layout.provision site).1.WellFormed := by decide +kernel
  have hbare : Bare (Config.standard.layout.provision site).1 Config.standard.layout [theRun] := by decide +kernel
  refine ⟨hbare.clear hwell, List.forall_mem_nil _, ?_, ?_⟩
  · intro spot hspot
    have hfound : (Config.standard.layout.provision site).1.resolve true "sim.csc.template" =
        .ok (.taken ["site", "sim.csc.template"] (.file (.bytes "trace xxPOSITION_FILExx"))) := by decide +kernel
    obtain rfl := Except.ok.inj (hfound.symm.trans hspot)
    rintro (⟨r, hr, a, ha⟩ | ⟨path, hpath, -⟩)
    swap
    · cases hpath
    have hnothing := hbare.get? hwell hr ha
    revert hnothing
    decide +kernel
  · intro _ r hr
    have hfree : Free (Config.standard.layout.provision site).1 Config.standard.layout theRun .failedLog :=
      ⟨["site", "results", "log1_0_1_0.txt.failed"], by decide +kernel,
        (Files.isLoose_iff _ _).mpr (Or.inl (by decide +kernel)), by decide +kernel⟩
    exact List.mem_singleton.mp hr ▸ hfree

end Sweep

end MobilitySweep
