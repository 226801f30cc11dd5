import MobilitySweep.Proofs.Sweep.Resumption

/-! # Schedules leave no mark

How many runs are at work at a time, and which of them takes the next step, makes no difference to what a sweep
leaves in the files of its runs. A run that was marked as done keeps the files it had, and any other has its own,
which are determined by its settings.
-/

namespace MobilitySweep

/-- The configuration with another number of workers. -/
def Config.withWorkers (c : Config) (workers : Int64) : Config :=
  { c with sweep := { c.sweep with workers := workers } }

/-- The text of an entry, if it is a file. -/
def Entry.text? : Entry → Option Bytes
  | .file content => some content.toBytes
  | .directory | .link _ => none

/-- The text that can be read at a path. -/
def Files.textAt (files : Files) (path : Bytes) : Option Bytes := (files.contentAt path).toOption.map Content.toBytes

namespace Sweep

/-- The text of the trace of a run, made from the seed of its sweep, its own numbers and the settings of the
generator. -/
def traceOf (seed : Int64) (settings : GeneratorSettings) (r : Run) : Option Bytes :=
  let derived := Seed.derive seed r.id
  match Generator.create r.params ⟨settings.nodes, settings.duration, settings.sampleInterval, derived⟩
    (Pcg.ofSeed derived) with
  | .ok generator => some (generator.run .unlimited).1.toBytes
  | .error _ => none

theorem traceText_eq (s : Setup) (r : Run) : traceText s r = traceOf s.base s.config.generator r := rfl

/-- Whether a sweep that begins on a tree finds a run done, so that it skips the run. -/
def FindsDone (s : Setup) (base : Files) (r : Run) : Prop :=
  s.config.sweep.resume = true ∧
    ∀ template, templateOf s base = .ok template → base.exists? (marker s template r) = true

/-- Two trees in which the files of a run read the same, the archive once it is unpacked. -/
structure ReadsAlike (l : Layout) (r : Run) (files other : Files) : Prop where
  plain : ∀ a ∈ [Artifact.trace, .config, .log], files.textAt (a.path l r) = other.textAt (a.path l r)
  archive : (Archive.decompress files (Artifact.archive.path l r)).1 =
      (Archive.decompress other (Artifact.archive.path l r)).1 ∧
    (Archive.decompress files (Artifact.archive.path l r)).2.isSome =
      (Archive.decompress other (Artifact.archive.path l r)).2.isSome

/-! ## Reading the files of runs -/

section

variable {base files other : Files} {l : Layout} {runs : List Run} {r : Run}

/-- What can be read of a file of a run is at its home. -/
theorem Unlinked.textAt_eq (h : Unlinked base l runs) (hr : r ∈ runs) (hsince : Files.Since base files) (a : Artifact) :
    files.textAt (a.path l r) = (a.entry base l r files).bind Entry.text? := by
  have hlodged := h.lodged hr hsince a
  unfold Files.textAt Files.contentAt Files.openFile Artifact.entry
  cases hhome : a.home base l r with
  | none =>
      obtain ⟨cause, hcause⟩ := hlodged.homeless hhome true
      simp [Files.stat, hcause, Except.mapError, bind, Except.bind, Except.toOption]
  | some place =>
      rw [(hlodged.homed place hhome).stat]
      cases hentry : files.get? place with
      | none => simp [hentry, Except.mapError, bind, Except.bind, Except.toOption]
      | some entry =>
          cases entry <;>
            simp [hentry, Except.mapError, bind, Except.bind, Except.toOption, Files.readOpened, Entry.text?]

/-- Archives that read the same are unpacked to the same text. -/
theorem decompress_of_textAt {path : Bytes} (h : files.textAt path = other.textAt path) :
    (Archive.decompress files path).1 = (Archive.decompress other path).1 ∧
      (Archive.decompress files path).2.isSome = (Archive.decompress other path).2.isSome := by
  have hunpacked : ∀ tree : Files,
      (∀ text, tree.textAt path = some text →
        (∀ reason, Archive.readHeader text = .error reason →
          Archive.decompress tree path = ([], some (.plain ("creating gzip reader: " ++ reason.message)))) ∧
        ∀ head, Archive.readHeader text = .ok head →
          Archive.decompress tree path = Archive.delivered (Archive.unpack head.2).1
            ((Archive.unpack head.2).2.map fun reason => .plain ("decompressing archive: " ++ reason.message))) ∧
      (tree.textAt path = none → (Archive.decompress tree path).1 = [] ∧
        (Archive.decompress tree path).2.isSome = true) := by
    intro tree
    unfold Files.textAt Files.contentAt Archive.decompress
    cases tree.openFile path with
    | error fault => simp [bind, Except.bind, Except.toOption]
    | ok opened =>
        cases hread : Files.readOpened path opened with
        | error fault => simp [hread, bind, Except.bind, Except.toOption]
        | ok content =>
            refine ⟨?_, by simp [hread, bind, Except.bind, Except.toOption]⟩
            rintro text htext
            obtain rfl : content.toBytes = text := by simpa [hread, bind, Except.bind, Except.toOption] using htext
            cases hheader : Archive.readHeader content.toBytes <;> simp [hread, hheader]
  cases htext : files.textAt path with
  | none =>
      obtain ⟨hempty, hsome⟩ := (hunpacked files).2 htext
      obtain ⟨hempty', hsome'⟩ := (hunpacked other).2 (h ▸ htext)
      exact ⟨hempty.trans hempty'.symm, hsome.trans hsome'.symm⟩
  | some text =>
      obtain ⟨hrefused, hread⟩ := (hunpacked files).1 text htext
      obtain ⟨hrefused', hread'⟩ := (hunpacked other).1 text (h ▸ htext)
      cases hheader : Archive.readHeader text with
      | error reason =>
          rw [hrefused reason hheader, hrefused' reason hheader]
          exact ⟨rfl, rfl⟩
      | ok head =>
          rw [hread head hheader, hread' head hheader]
          exact ⟨rfl, rfl⟩

end

/-! ## What a pass leaves -/

/-- Whether a run is marked as done when a sweep that resumes begins. -/
def Marked (s : Setup) (template : Option Template) (base : Files) (r : Run) : Prop :=
  s.config.sweep.resume = true ∧ (markerOf s template).entry base s.config.layout r base ≠ none

/-- A run that is done, with the files that its sweep does not act on as they were. -/
structure Finished (s : Setup) (template : Option Template) (base : Files) (good : Run → Bytes → Option Entry → Prop)
    (r : Run) (files : Files) : Prop where
  complete : Complete s template base good r files
  kept : ∀ a ∉ reach s template, a.entry base s.config.layout r files = a.entry base s.config.layout r base

/-- The files of a run at the end of a sweep: as they were if the run was marked as done, and its own if not. -/
structure Concluded (s : Setup) (template : Option Template) (base : Files) (good : Run → Bytes → Option Entry → Prop)
    (r : Run) (files : Files) : Prop where
  kept : Marked s template base r →
    ∀ a : Artifact, a.entry base s.config.layout r files = a.entry base s.config.layout r base
  finished : ¬ Marked s template base r → Finished s template base good r files

section

variable {s s' : Setup} {template : Option Template} {base files other : Files}
  {good : Run → Bytes → Option Entry → Prop} {r : Run}

theorem Finished.congr (h : Finished s template base good r files)
    (hsame : ∀ a : Artifact, a.entry base s.config.layout r other = a.entry base s.config.layout r files) :
    Finished s template base good r other :=
  ⟨h.complete.congr hsame, fun a ha => (hsame a).trans (h.kept a ha)⟩

theorem FindsDone.transfer (h : FindsDone s base r) (hmatch : Matches s s')
    (hresume : s'.config.sweep.resume = s.config.sweep.resume) : FindsDone s' base r := by
  refine ⟨hresume.trans h.1, fun template htemplate => ?_⟩
  rw [templateOf_congr hmatch.mode hmatch.simulation hmatch.layout] at htemplate
  rw [marker_eq, markerOf_congr hmatch.mode hmatch.simulation, hmatch.layout, ← marker_eq]
  exact h.2 template htemplate

theorem Concluded.transfer (h : Concluded s template base good r files) (hmatch : Matches s s')
    (hresume : s'.config.sweep.resume = s.config.sweep.resume) : Concluded s' template base good r files := by
  have hmarked : Marked s' template base r ↔ Marked s template base r := by
    rw [Marked, Marked, hresume, hmatch.layout, markerOf_congr hmatch.mode hmatch.simulation]
  have hreach : reach s' template = reach s template := by
    rw [reach, reach, simulated, simulated, hmatch.mode, hmatch.simulation]
  refine ⟨fun hthere => ?_, fun hnot => ⟨(h.finished (hmarked.not.mp hnot)).complete.transfer hmatch, ?_⟩⟩
  · rw [hmatch.layout]
    exact h.kept (hmarked.mp hthere)
  · rw [hmatch.layout, hreach]
    exact (h.finished (hmarked.not.mp hnot)).kept

/-- A run whose log is determined by its configuration finishes with the same texts. -/
theorem Finished.same_texts {logOf : Bytes → Bytes → Bytes}
    (h : Finished s template base (Determined logOf s.config.layout) r files)
    (h' : Finished s template base (Determined logOf s.config.layout) r other) :
    ∀ a ∈ [Artifact.trace, .config, .log], (a.entry base s.config.layout r files).bind Entry.text? =
      (a.entry base s.config.layout r other).bind Entry.text? := by
  have hkept : ∀ a ∉ reach s template, (a.entry base s.config.layout r files).bind Entry.text? =
      (a.entry base s.config.layout r other).bind Entry.text? :=
    fun a ha => by rw [h.kept a ha, h'.kept a ha]
  simp only [List.forall_mem_cons, List.not_mem_nil, false_implies, implies_true, and_true]
  refine ⟨?_, ?_⟩
  · obtain ⟨text, htext, htrace⟩ := h.complete.trace
    obtain ⟨text', htext', htrace'⟩ := h'.complete.trace
    rw [htrace, htrace', Option.mem_unique htext htext']
  cases template with
  | none => exact ⟨hkept _ (by simp [reach]), hkept _ (by simp [reach])⟩
  | some t =>
      refine ⟨by rw [h.complete.config t rfl, h'.complete.config t rfl], ?_⟩
      by_cases hsimulator : s.simulator.isSome = true
      · have hlog := h.complete.log t rfl hsimulator
        have hlog' := h'.complete.log t rfl hsimulator
        by_cases hcompress : s.config.simulator.compress = true
        · -- Both logs are in their archives only.
          simp only [Logged, hcompress, if_true] at hlog hlog'
          obtain ⟨-, -, -, -, -, -, hgone⟩ := hlog
          obtain ⟨-, -, -, -, -, -, hgone'⟩ := hlog'
          rw [hgone, hgone']
        · obtain ⟨content, hentry, htext⟩ := hlog.plain (Bool.eq_false_iff.mpr hcompress)
          obtain ⟨content', hentry', htext'⟩ := hlog'.plain (Bool.eq_false_iff.mpr hcompress)
          rw [hentry, hentry', Option.bind_some, Option.bind_some, Entry.text?, Entry.text?, htext, htext']
      · exact hkept _ (by simp [reach, simulated, hsimulator])

/-- A run whose log is determined by its configuration finishes with an archive of the same text, or the archive is as
it was. -/
theorem Finished.archives {logOf : Bytes → Bytes → Bytes}
    (h : Finished s template base (Determined logOf s.config.layout) r files)
    (h' : Finished s template base (Determined logOf s.config.layout) r other) :
    (∃ text, ∀ tree ∈ [files, other], ∃ time bytes,
        Archive.pack? (Path.base (Artifact.log.path s.config.layout r)) time text = some bytes ∧
          Artifact.archive.entry base s.config.layout r tree = some (.file (.bytes bytes))) ∨
      Artifact.archive.entry base s.config.layout r files = Artifact.archive.entry base s.config.layout r other := by
  by_cases hreach : Artifact.archive ∈ reach s template
  · obtain ⟨t, rfl, hsimulator, hcompress⟩ : ∃ t, template = some t ∧ s.simulator.isSome = true ∧
        s.config.simulator.compress = true := by
      cases template with
      | none => simp [reach] at hreach
      | some t =>
          refine ⟨t, rfl, ?_⟩
          cases hsimulator : s.simulator <;> cases hcompress : s.config.simulator.compress <;>
            simp [reach, simulated, hsimulator, hcompress] at hreach ⊢
    refine Or.inl ⟨logOf (s.config.layout.configRelative r) (t.render r.traceName), fun tree htree => ?_⟩
    rcases List.mem_pair.mp htree with rfl | rfl
    · exact (h.complete.log t rfl hsimulator).packed hcompress
    · exact (h'.complete.log t rfl hsimulator).packed hcompress
  · exact Or.inr ((h.kept _ hreach).trans (h'.kept _ hreach).symm)

/-- What is settled for a run reads the same in two trees. -/
theorem Concluded.readsAlike {logOf : Bytes → Bytes → Bytes} {runs : List Run}
    (hunlinked : Unlinked base s.config.layout runs) (hr : r ∈ runs) (hfiles : Files.Since base files)
    (hother : Files.Since base other) (h : Concluded s template base (Determined logOf s.config.layout) r files)
    (h' : Concluded s template base (Determined logOf s.config.layout) r other) :
    ReadsAlike s.config.layout r files other := by
  have hsame : ∀ a : Artifact, a.entry base s.config.layout r files = a.entry base s.config.layout r other →
      files.textAt (a.path s.config.layout r) = other.textAt (a.path s.config.layout r) := by
    intro a hentry
    rw [hunlinked.textAt_eq hr hfiles, hunlinked.textAt_eq hr hother, hentry]
  by_cases hmarked : Marked s template base r
  · have hkept : ∀ a : Artifact, a.entry base s.config.layout r files = a.entry base s.config.layout r other :=
      fun a => (h.kept hmarked a).trans (h'.kept hmarked a).symm
    exact ⟨fun a _ => hsame a (hkept a), decompress_of_textAt (hsame _ (hkept _))⟩
  · refine ⟨fun a ha => ?_, ?_⟩
    · rw [hunlinked.textAt_eq hr hfiles, hunlinked.textAt_eq hr hother]
      exact (h.finished hmarked).same_texts (h'.finished hmarked) a ha
    · rcases (h.finished hmarked).archives (h'.finished hmarked) with ⟨text, hpacked⟩ | hentry
      · -- The bytes of the archives may differ, but both hold the text.
        obtain ⟨time, bytes, hpack, harchive⟩ := hpacked files (by simp)
        obtain ⟨time', bytes', hpack', harchive'⟩ := hpacked other (by simp)
        rw [hunlinked.decompress hr hfiles hpack harchive, hunlinked.decompress hr hother hpack' harchive']
        exact ⟨rfl, rfl⟩
      · exact decompress_of_textAt (hsame _ hentry)

end

section

variable {κ : Type} [Recorder κ] {c : Config} {base files : Files} {template : Option Template}
  {good : Run → Bytes → Option Entry → Prop}

/-- A pass without a failure settles the files of every planned run, and changes no others but its event log. -/
theorem Pass.settles (p : Pass κ) (hbase : (c.layout.provision files).1 = base)
    (hunlinked : Unlinked base c.layout c.runs) (hfiled : FiledAt base p.eventPaths)
    (hdirectory : ∀ r ∈ c.runs, base.linkStat (Artifact.log.path c.layout r) = .ok .directory →
      FindsDone (p.setup c) base r)
    (hsimulator : ∀ simulator ∈ p.simulator, simulator.KeepsTo base c.layout c.runs good)
    (htemplate : templateOf (p.setup c) base = .ok template) (hend : (p.run c files).1.2 = none) :
    Files.Alike (MayChange (p.setup c) base p.eventPaths) base (p.run c files).2.bench.files ∧
      ∀ r ∈ c.runs, Concluded (p.setup c) template base good r (p.run c files).2.bench.files := by
  subst hbase
  set base := (c.layout.provision files).1
  have hmemory : Remembers (fun _ : κ => []) false := fun _ _ => rfl
  have hrefl : Files.Alike (MayChange (p.setup c) base p.eventPaths) base base := Files.Alike.refl _ _
  have hwell := hunlinked.wellFormed
  -- As long as no run fails, a run is untouched or finished. One that is marked stays untouched in any case.
  let steady : Run → World κ → Prop := fun r w => Marked (p.setup c) template base r →
    ∀ a : Artifact, a.entry base c.layout r w.bench.files = a.entry base c.layout r base
  let sound : Run → World κ → Prop := fun r w =>
    (∀ a : Artifact, a.entry base c.layout r w.bench.files = a.entry base c.layout r base) ∨
      Finished (p.setup c) template base good r w.bench.files
  let done : Run → World κ → Prop := fun r w => Marked (p.setup c) template base r ∨
    Finished (p.setup c) template base good r w.bench.files
  have hsame : ∀ {r : Run} {w t : World κ}, Stays (fun _ : κ => []) base c.layout r [] w t →
      ∀ a : Artifact, a.entry base c.layout r t.bench.files = a.entry base c.layout r w.bench.files :=
    fun h a => h.entry hwell (by simp)
  have hsteadyOwn : IsOwn (fun _ : κ => []) base c.layout steady :=
    fun r w t hstays h hmarked a => (hsame hstays a).trans (h hmarked a)
  have hsoundOwn : IsOwn (fun _ : κ => []) base c.layout sound := fun r w t hstays h =>
    h.imp (fun huntouched a => (hsame hstays a).trans (huntouched a)) fun hfinished => hfinished.congr (hsame hstays)
  have hdoneOwn : IsOwn (fun _ : κ => []) base c.layout done := fun r w t hstays h =>
    h.imp_right fun hfinished => hfinished.congr (hsame hstays)
  -- A run that is worked through was not marked.
  have hunmarked : ∀ {r : Run} {w : World κ}, steady r w → (c.sweep.resume = true →
      (markerOf (p.setup c) template).entry base c.layout r w.bench.files = none) →
      ¬ Marked (p.setup c) template base r := by
    intro r w hsteady hnone hmarked
    exact hmarked.2 ((hsteady hmarked _).symm.trans (hnone hmarked.1))
  have hcourse : Course (p.setup c) template base p.eventPaths (fun _ : κ => []) steady sound done := by
    refine .of_turns hmemory hunlinked hfiled hsimulator hsteadyOwn hsoundOwn hdoneOwn ?_ ?_
    · intro r hr w hsteady hnone hentry
      obtain ⟨hresume, hexists⟩ := hdirectory r hr hentry
      refine hunmarked hsteady hnone ⟨hresume, (hunlinked.exists?_iff hr hrefl.since _).mp ?_⟩
      exact marker_eq (p.setup c) template r ▸ hexists _ htemplate
    · intro r _ w t result hsteady hturn
      cases hturn with
      | cancelled fault hstays => exact ⟨hsteadyOwn r w t hstays hsteady, by rintro ⟨⟩⟩
      | skipped record hresume hmark hfiles hmemory =>
          refine ⟨fun hmarked a => (hfiles a).trans (hsteady hmarked a), fun _ hsound => ?_⟩
          rcases hsound with huntouched | hfinished
          · exact ⟨Or.inl fun a => (hfiles a).trans (huntouched a), Or.inl ⟨hresume, huntouched _ ▸ hmark⟩⟩
          · exact ⟨Or.inr (hfinished.congr hfiles), Or.inr (hfinished.congr hfiles)⟩
      | succeeded first last hstatus hmark hcomplete hkept hmemory =>
          refine ⟨fun hmarked => absurd hmarked (hunmarked hsteady hmark), fun _ hsound => ?_⟩
          have hfinished : Finished (p.setup c) template base good r t.bench.files := by
            refine ⟨hcomplete, fun a ha => (hkept a ha).trans ?_⟩
            exact hsound.elim (fun huntouched => huntouched a) fun hfinished => hfinished.kept a ha
          exact ⟨Or.inr hfinished, Or.inr hfinished⟩
      | failed first last fault hstatus hmark hunmarked' hmemory =>
          exact ⟨fun hmarked => absurd hmarked (hunmarked hsteady hmark), by rintro ⟨⟩⟩
  obtain ⟨halike, hsteady, hdone⟩ := p.keeps steady sound done hmemory hwell hsteadyOwn (List.Subset.refl _) hfiled
    hrefl (fun _ t ht => Except.ok.inj (htemplate.symm.trans ht) ▸ hcourse) (fun _ _ _ _ => rfl)
    fun _ _ => Or.inl fun _ => rfl
  exact ⟨halike, fun r hr => ⟨hsteady r hr, fun hnot => (hdone hend r hr).resolve_left hnot⟩⟩

/-- A pass without a failure settles the files of every planned run. -/
theorem Pass.concludes (p : Pass κ) (hbase : (c.layout.provision files).1 = base)
    (hunlinked : Unlinked base c.layout c.runs) (hfiled : FiledAt base p.eventPaths)
    (hdirectory : ∀ r ∈ c.runs, base.linkStat (Artifact.log.path c.layout r) = .ok .directory →
      FindsDone (p.setup c) base r)
    (hsimulator : ∀ simulator ∈ p.simulator, simulator.KeepsTo base c.layout c.runs good)
    (htemplate : templateOf (p.setup c) base = .ok template) (hend : (p.run c files).1.2 = none) :
    Files.Since base (p.run c files).2.bench.files ∧
      ∀ r ∈ c.runs, Concluded (p.setup c) template base good r (p.run c files).2.bench.files := by
  obtain ⟨halike, hconcluded⟩ := p.settles hbase hunlinked hfiled hdirectory hsimulator htemplate hend
  exact ⟨halike.since, hconcluded⟩

/-- Two sweeps of one configuration with a fixed seed that end without a failure leave files of their runs that read
the same, whatever the numbers of workers and however these take turns, if no link is at the name of a file of a run
or of an event log, and if simulations keep to logs that their configurations determine. The trace of a run that was
not done before is made from the seed, the numbers of the run and the settings of the generator. -/
theorem files_ignore_scheduling {κ κ' : Type} [Recorder κ] [Recorder κ'] {c : Config} {seed : Int64}
    (hseed : c.sweep.seed = some seed) (p : Pass κ) (q : Pass κ') (workers workers' : Int64)
    (hmode : q.simulator.isSome = p.simulator.isSome) {files base : Files}
    (hbase : (c.layout.provision files).1 = base) (hunlinked : Unlinked base c.layout c.runs)
    (hfiled : FiledAt base p.eventPaths) (hfiled' : FiledAt base q.eventPaths)
    (hdirectory : ∀ r ∈ c.runs, base.linkStat (Artifact.log.path c.layout r) = .ok .directory →
      FindsDone (p.setup c) base r)
    (logOf : Bytes → Bytes → Bytes)
    (hsimulator : ∀ simulator ∈ p.simulator, simulator.KeepsTo base c.layout c.runs (Determined logOf c.layout))
    (hsimulator' : ∀ simulator ∈ q.simulator, simulator.KeepsTo base c.layout c.runs (Determined logOf c.layout))
    (hend : (p.run (c.withWorkers workers) files).1.2 = none)
    (hend' : (q.run (c.withWorkers workers') files).1.2 = none) {r : Run} (hr : r ∈ c.runs) :
    ReadsAlike c.layout r (p.run (c.withWorkers workers) files).2.bench.files
        (q.run (c.withWorkers workers') files).2.bench.files ∧
      (FindsDone (p.setup c) base r ∨ ∃ text ∈ traceOf seed c.generator r,
        (p.run (c.withWorkers workers) files).2.bench.files.textAt (c.layout.tracePath r) = some text) := by
  subst hbase
  set base := (c.layout.provision files).1
  have hmatch : Matches (p.setup c) (p.setup (c.withWorkers workers)) := ⟨rfl, rfl, rfl, rfl, rfl⟩
  have hmatch' : Matches (p.setup c) (q.setup (c.withWorkers workers')) :=
    ⟨rfl, rfl, rfl, by simp [Pass.setup, Config.withWorkers, hseed], hmode⟩
  obtain ⟨-, template, htemplate⟩ := p.opened (c := c.withWorkers workers) hunlinked.wellFormed
    (List.Subset.refl _) hfiled (Files.Alike.refl _ base) hend hr
  have hopened : templateOf (p.setup c) base = .ok template := htemplate
  obtain ⟨hleft, hconcluded⟩ := p.concludes (c := c.withWorkers workers) rfl hunlinked hfiled
    (fun x hx hentry => (hdirectory x hx hentry).transfer hmatch rfl) hsimulator htemplate hend
  obtain ⟨hright, hconcluded'⟩ := q.concludes (c := c.withWorkers workers') rfl hunlinked hfiled'
    (fun x hx hentry => (hdirectory x hx hentry).transfer hmatch' rfl) hsimulator'
    ((templateOf_congr hmatch'.mode hmatch'.simulation hmatch'.layout base).trans hopened) hend'
  have hthis := (hconcluded r hr).transfer hmatch.symm rfl
  have hthat := (hconcluded' r hr).transfer hmatch'.symm rfl
  refine ⟨hthis.readsAlike hunlinked hr hleft hright hthat, ?_⟩
  by_cases hmarked : Marked (p.setup c) template base r
  · refine Or.inl ⟨hmarked.1, fun t ht => ?_⟩
    obtain rfl := Except.ok.inj (hopened.symm.trans ht)
    exact marker_eq (p.setup c) template r ▸ (hunlinked.exists?_iff hr (Files.Alike.refl _ _) _).mpr hmarked.2
  · obtain ⟨text, htext, htrace⟩ := (hthis.finished hmarked).complete.trace
    refine Or.inr ⟨text, ?_, (hunlinked.textAt_eq hr hleft .trace).trans (congrArg (·.bind Entry.text?) htrace)⟩
    have hpinned : (p.setup c).base = seed := by simp [Pass.setup, hseed]
    rwa [traceText_eq, hpinned] at htext

end

/-- The configuration of a sweep of two repetitions. -/
def twoRuns : Config :=
  { oneRun false true with
    sweep := ⟨some [1], some [1], some [1], 2, 1, some 1, false⟩
    generator := ⟨4, 2, 1⟩ }

/-- The choices by which the second of two runs is through before the first begins. -/
def secondFirst : List (List Nat) := [0 :: List.replicate 80 1]

/-- Two runs one after the other, and side by side with the second ahead. -/
theorem side_by_side_runs_read_alike :
    let p := scriptedPass () []
    let q := { p with schedules := secondFirst }
    let left := (p.run (twoRuns.withWorkers 1) site).2.bench.files
    let right := (q.run (twoRuns.withWorkers 2) site).2.bench.files
    ∀ r ∈ twoRuns.runs, ReadsAlike twoRuns.layout r left right ∧
      (FindsDone (p.setup twoRuns) (twoRuns.layout.provision site).1 r ∨
        ∃ text ∈ traceOf 1 twoRuns.generator r, left.textAt (twoRuns.layout.tracePath r) = some text) := by
  intro p q left right r hr
  have hwell : (twoRuns.layout.provision site).1.WellFormed := by decide +kernel
  have hbare : Bare (twoRuns.layout.provision site).1 twoRuns.layout twoRuns.runs := by decide +kernel
  have hsimulator := scriptedPass_determined () [] (hbare.clear hwell) rfl
  have hends : (p.run (twoRuns.withWorkers 1) site).1.2 = none ∧ (q.run (twoRuns.withWorkers 2) site).1.2 = none := by
    decide +kernel
  exact files_ignore_scheduling rfl p q 1 2 rfl rfl (hbare.clear hwell).toUnlinked (List.forall_mem_nil _)
    (List.forall_mem_nil _) (fun r hr hentry => absurd hentry (hbare.linkStat_ne hr .log _)) _ hsimulator hsimulator
    hends.1 hends.2 hr

/-- The site with a link at the name under which the trace of the second run is written, to the trace of the first. -/
def linkedSite : Files where
  entries := [(["site"], .directory), (["site", "positions"], .directory),
    (["site", "positions", "pos_1_1_1_1.txt.tmp"], .link "pos_1_1_1_0.txt")]
  workingDirectory := ["site"]

/-- The site with one file under both names under which the traces are written. -/
def sharedSite : Files where
  entries := [(["site"], .directory), (["site", "positions"], .directory),
    (["site", "positions", "pos_1_1_1_0.txt.tmp"], .file (.bytes [])),
    (["site", "positions", "pos_1_1_1_1.txt.tmp"], .file (.bytes []))]
  workingDirectory := ["site"]
  shares := [(["site", "positions", "pos_1_1_1_0.txt.tmp"], 0), (["site", "positions", "pos_1_1_1_1.txt.tmp"], 0)]

/-- Through a link at a name that a run writes to, symbolic or not, the last run to get there leaves its trace in place
of another's. -/
theorem linked_trace_tells_order :
    let p := { scriptedPass () [] with simulator := none }
    let q := { p with schedules := secondFirst }
    let trace : Bytes := "positions/pos_1_1_1_0.txt"
    (linkedSite.WellFormed ∧ sharedSite.WellFormed) ∧ twoRuns.validate = .ok () ∧ ∀ files ∈ [linkedSite, sharedSite],
      let left := p.run (twoRuns.withWorkers 1) files
      let right := q.run (twoRuns.withWorkers 2) files
      left.1.2 = none ∧ right.1.2 = none ∧
        left.2.bench.files.textAt trace ≠ right.2.bench.files.textAt trace ∧
        left.2.bench.files.textAt trace ≠ traceOf 1 twoRuns.generator ⟨⟨1, 1, 1⟩, 0⟩ := by
  decide +kernel

end Sweep

end MobilitySweep
