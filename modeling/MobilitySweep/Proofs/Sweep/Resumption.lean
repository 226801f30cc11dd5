import MobilitySweep.Proofs.Archive.Readback
import MobilitySweep.Proofs.Files.Neighbours
import MobilitySweep.Proofs.Files.Provisioning
import MobilitySweep.Proofs.Sweep.Passes

/-! # Resuming a sweep

However often a sweep fails or is interrupted, passes that resume bring it to the same files in the end. What
carries this from pass to pass is that a run which is marked as done has all its files.
-/

namespace MobilitySweep

namespace Sweep

/-- A log that is determined by the configuration it was made from. -/
def Determined (logOf : Bytes → Bytes → Bytes) (l : Layout) (r : Run) (text : Bytes) (entry : Option Entry) : Prop :=
  ∃ content, entry = some (.file content) ∧ content.toBytes = logOf (l.configRelative r) text

/-- Two sweeps whose runs are to leave the same files. -/
structure Matches (s s' : Setup) : Prop where
  layout : s'.config.layout = s.config.layout
  generator : s'.config.generator = s.config.generator
  simulation : s'.config.simulator = s.config.simulator
  seed : s'.base = s.base
  mode : s'.simulator.isSome = s.simulator.isSome

theorem Matches.symm {s s' : Setup} (h : Matches s s') : Matches s' s :=
  ⟨h.layout.symm, h.generator.symm, h.simulation.symm, h.seed.symm, h.mode.symm⟩

/-- A run that is marked as done is done. -/
def Sound (s : Setup) (template : Option Template) (base : Files) (good : Run → Bytes → Option Entry → Prop)
    (r : Run) (files : Files) : Prop :=
  (markerOf s template).entry base s.config.layout r files ≠ none → Complete s template base good r files

section

variable {s s' : Setup} {template : Option Template} {base files other : Files}
  {good : Run → Bytes → Option Entry → Prop} {r : Run}

theorem Sound.congr (h : Sound s template base good r files)
    (hsame : ∀ a : Artifact, a.entry base s.config.layout r other = a.entry base s.config.layout r files) :
    Sound s template base good r other := by
  intro hmark
  rw [hsame] at hmark
  exact (h hmark).congr hsame

/-- Whether a run is done does not depend on who simulates, nor on how many runs are at work. -/
theorem Complete.transfer (h : Complete s template base good r files) (hmatch : Matches s s') :
    Complete s' template base good r files := by
  have htrace : traceText s' r = traceText s r := by
    rw [traceText, traceText, Config.options, Config.options, hmatch.generator, hmatch.seed]
  refine ⟨?_, ?_, ?_⟩
  · rw [htrace, hmatch.layout]
    exact h.trace
  · rw [hmatch.layout]
    exact h.config
  · rw [hmatch.mode]
    simpa only [Logged, hmatch.layout, hmatch.simulation] using h.log

theorem isSome_of_templateOf (h : templateOf s files = .ok template) (hsimulator : s.simulator.isSome = true) :
    template.isSome = true := by
  unfold templateOf at h
  cases hload : Template.load files (templatePath s) s.config.simulator.placeholder with
  | error fault => simp [hload, Option.isNone_eq_false_iff.mpr hsimulator, Except.map] at h
  | ok t =>
      simp only [hload, Option.isNone_eq_false_iff.mpr hsimulator, Bool.false_and, Bool.false_eq_true, if_false,
        Except.map, Except.ok.injEq] at h
      rw [← h, Option.isSome_some]

/-- A run that is done is marked as done. -/
theorem Complete.marked (h : Complete s template base good r files)
    (hgood : ∀ text entry, good r text entry → entry ≠ none)
    (htemplate : s.simulator.isSome = true → template.isSome = true) :
    (markerOf s template).entry base s.config.layout r files ≠ none := by
  obtain ⟨text, -, htrace⟩ := h.trace
  unfold markerOf
  cases hsimulator : s.simulator with
  | none =>
      cases template with
      | none => exact htrace ▸ Option.some_ne_none _
      | some t => exact h.config t rfl ▸ Option.some_ne_none _
  | some simulator =>
      obtain ⟨t, ht⟩ := Option.isSome_iff_exists.mp (htemplate (by rw [hsimulator, Option.isSome_some]))
      have hlog := h.log t ht (by rw [hsimulator, Option.isSome_some])
      unfold Logged at hlog
      dsimp only
      split
      next hcompress =>
        rw [if_pos hcompress] at hlog
        obtain ⟨content, time, bytes, -, -, harchive, -⟩ := hlog
        exact harchive ▸ Option.some_ne_none _
      next hplain =>
        rw [if_neg hplain] at hlog
        exact hgood _ _ hlog

end

/-! ## From pass to pass -/

/-- A pass of the same sweep as another one: with its seed, and simulating as it does by a simulator that keeps to the
logs. -/
structure Resembles {κ : Type} (p q : Pass κ) (c : Config) (base : Files)
    (good : Run → Bytes → Option Entry → Prop) : Prop where
  seed : (q.setup c).base = (p.setup c).base
  mode : (q.setup c).simulator.isSome = (p.setup c).simulator.isSome
  simulator : ∀ simulator ∈ p.simulator, simulator.KeepsTo base c.layout c.runs good

section

variable {κ : Type} {c : Config} {base files : Files} {template : Option Template}
  {good : Run → Bytes → Option Entry → Prop} {p q : Pass κ} {paths : List Bytes}

theorem sound_isOwn (hbase : base.WellFormed) :
    IsOwn (fun _ : κ => []) base c.layout fun r w => Sound (q.setup c) template base good r w.bench.files :=
  fun _ _ _ hstays h => h.congr fun _ => hstays.entry hbase (by simp)

theorem complete_isOwn (hbase : base.WellFormed) :
    IsOwn (fun _ : κ => []) base c.layout fun r w => Complete (q.setup c) template base good r w.bench.files :=
  fun _ _ _ hstays h => h.congr fun _ => hstays.entry hbase (by simp)

/-- Every turn of a run in a pass that resumes leaves the run sound, and done if it ends well. -/
theorem Sound.turn {r : Run} {w t : World κ} {result : Option Fault} (hbase : base.WellFormed)
    (hlike : Resembles p q c base good) (hresume : c.sweep.resume = true)
    (hmarked : ∀ files, Complete (q.setup c) template base good r files →
      (markerOf (q.setup c) template).entry base c.layout r files ≠ none)
    (hfailed : Retractable (p.setup c) template base r) (h : Sound (q.setup c) template base good r w.bench.files)
    (hturn : Turn (p.setup c) template base good (fun _ => []) false r w t result) :
    Sound (q.setup c) template base good r t.bench.files ∧
      (result = none ∨ Complete (q.setup c) template base good r w.bench.files →
        Complete (q.setup c) template base good r t.bench.files) := by
  have hmarker : markerOf (q.setup c) template = markerOf (p.setup c) template := markerOf_congr hlike.mode rfl template
  cases hturn with
  | cancelled fault hstays =>
      refine ⟨sound_isOwn hbase r w t hstays h, fun hdone => complete_isOwn hbase r w t hstays ?_⟩
      exact hdone.resolve_left (by simp)
  | skipped record hresume hmark hfiles hmemory =>
      have hdone := (h (hmarker ▸ hmark)).congr hfiles
      exact ⟨fun _ => hdone, fun _ => hdone⟩
  | succeeded first last hstatus hmark hcomplete hkept hmemory =>
      have hdone : Complete (q.setup c) template base good r t.bench.files :=
        hcomplete.transfer ⟨rfl, rfl, rfl, hlike.seed, hlike.mode⟩
      exact ⟨fun _ => hdone, fun _ => hdone⟩
  | failed first last fault hstatus hmark hunmarked hmemory =>
      have hnone := hmark hresume
      refine ⟨fun hthere => absurd hnone ((hunmarked hfailed).mark (hmarker ▸ hthere)), fun hdone => ?_⟩
      exact absurd (hmarker ▸ hnone) (hmarked _ (hdone.resolve_left (by simp)))

variable [Recorder κ]

/-- A pass that resumes leaves every run sound, and every run done if it ends without a failure. -/
theorem Resembles.resumes (hlike : Resembles p q c base good) (hground : Ground (q.setup c) base paths)
    (hpaths : p.eventPaths ⊆ paths) (hremovable : ∀ r ∈ c.runs, Removable base c.layout r) (hresume : c.sweep.resume = true)
    (hmarked : ∀ r files, Complete (q.setup c) template base good r files →
      (markerOf (q.setup c) template).entry base c.layout r files ≠ none)
    (hbase : Files.Alike (MayChange (q.setup c) base paths) base (c.layout.provision files).1)
    (htemplate : templateOf (q.setup c) base = .ok template)
    (hsound : ∀ r ∈ c.runs, Sound (q.setup c) template base good r (c.layout.provision files).1) :
    Files.Alike (MayChange (q.setup c) base paths) base (p.run c files).2.bench.files ∧
      (∀ r ∈ c.runs, Sound (q.setup c) template base good r (p.run c files).2.bench.files) ∧
      ((p.run c files).1.2 = none →
        ∀ r ∈ c.runs, Complete (q.setup c) template base good r (p.run c files).2.bench.files) := by
  have hclear : Clear base c.layout c.runs := hground.clear
  -- What is put on record makes no difference.
  have hmemory : Remembers (fun _ : κ => []) false := fun _ _ => rfl
  refine p.keeps (fun r w => Sound (q.setup c) template base good r w.bench.files) (fun _ _ => True)
    (fun r w => Complete (q.setup c) template base good r w.bench.files) hmemory hclear.wellFormed
    (sound_isOwn hclear.wellFormed) hpaths hground.filed hbase ?_ hsound fun _ _ => trivial
  intro hprovision t ht
  have hread : templateOf (p.setup c) (c.layout.provision files).1 =
      templateOf (q.setup c) (c.layout.provision files).1 := templateOf_congr hlike.mode.symm (by rfl) (by rfl) _
  rw [hread, ← templateOf_alike hbase hground.template, htemplate] at ht
  obtain rfl := Except.ok.inj ht
  have hfiled : FiledAt base p.eventPaths := fun path hpath => hground.filed path (hpaths hpath)
  refine .of_turns hmemory hclear.toUnlinked hfiled hlike.simulator (sound_isOwn hclear.wellFormed) (fun _ _ _ _ => id)
    (complete_isOwn hclear.wellFormed) (fun r hr _ _ _ => hclear.noDirectory r hr) ?_
  intro r hr w t result hsteady hturn
  have hfailed : Retractable (p.setup c) template base r := by
    refine ⟨fun _ => hremovable r hr, fun hplain => ?_⟩
    have hplain' : LeavesPlainLogs (q.setup c) := by
      rw [← markerOf_eq_log, markerOf_congr hlike.mode (by rfl)]
      exact hplain
    exact hground.aside hplain' r hr
  obtain ⟨hsteady', hdone⟩ := hsteady.turn hclear.wellFormed hlike hresume (hmarked r) hfailed hturn
  exact ⟨hsteady', fun hresult _ => ⟨trivial, hdone (Or.inl hresult)⟩⟩

/-- What passes one after the other leave of some files. -/
def leftBy (c : Config) (passes : List (Pass κ)) (files : Files) : Files :=
  passes.foldl (fun files p => (p.run c files).2.bench.files) files

/-- Passes that resume leave every run sound, however they end. -/
theorem leftBy_sound (passes : List (Pass κ)) (hground : Ground (q.setup c) base paths)
    (hpaths : ∀ p ∈ passes, p.eventPaths ⊆ paths)
    (hremovable : ∀ r ∈ c.runs, Removable base c.layout r) (hprovided : c.layout.IsProvided base)
    (hlike : ∀ p ∈ passes, Resembles p q c base good) (hresume : c.sweep.resume = true)
    (hmarked : ∀ r files, Complete (q.setup c) template base good r files →
      (markerOf (q.setup c) template).entry base c.layout r files ≠ none)
    (hbase : Files.Alike (MayChange (q.setup c) base paths) base (c.layout.provision files).1)
    (htemplate : templateOf (q.setup c) base = .ok template)
    (hsound : ∀ r ∈ c.runs, Sound (q.setup c) template base good r (c.layout.provision files).1) :
    Files.Alike (MayChange (q.setup c) base paths) base (c.layout.provision (leftBy c passes files)).1 ∧
      ∀ r ∈ c.runs, Sound (q.setup c) template base good r (c.layout.provision (leftBy c passes files)).1 := by
  induction passes generalizing files with
  | nil => exact ⟨hbase, hsound⟩
  | cons p rest ih =>
      obtain ⟨hp, hrest⟩ := List.forall_mem_cons.mp hlike
      obtain ⟨hsub, hpaths⟩ := List.forall_mem_cons.mp hpaths
      obtain ⟨hleft, hkept, -⟩ := hp.resumes hground hsub hremovable hresume hmarked hbase htemplate hsound
      have hsame := c.layout.provision_of_isProvided (hprovided.alike hleft)
      refine ih hpaths hrest ?_ ?_
      · rw [hsame]
        exact hleft
      · rw [hsame]
        exact hkept

/-- A pass that ends without a failure has found its directories and its template, if there is a run at all. -/
theorem Pass.opened (p : Pass κ) (hwell : base.WellFormed) (hpaths : p.eventPaths ⊆ paths)
    (hfiled : FiledAt base paths)
    (hbase : Files.Alike (MayChange (p.setup c) base paths) base (c.layout.provision files).1)
    (hend : (p.run c files).1.2 = none) {r : Run} (hr : r ∈ c.runs) :
    (c.layout.provision files).2 = none ∧ ∃ t, templateOf (p.setup c) (c.layout.provision files).1 = .ok t := by
  have hmemory : Remembers (fun _ : κ => []) false := fun _ _ => rfl
  by_contra hnot
  refine (p.keeps (fun _ _ => True) (fun _ _ => True) (fun _ _ => False) hmemory hwell (fun _ _ _ _ => id) hpaths
    hfiled hbase ?_ (fun _ _ => trivial) fun _ _ => trivial).2.2 hend r hr
  exact fun hprovision t ht => absurd ⟨hprovision, t, ht⟩ hnot

end

/-! ## The products of a run -/

/-- Two trees in which the products of a run have the same contents: the trace, the configuration if there is a
template, and the log or the text of its archive. Archives of one text may differ in the times that they bear. -/
structure Reproduces (s : Setup) (template : Option Template) (r : Run) (files other : Files) : Prop where
  trace : ∃ content, files.contentAt (s.config.layout.tracePath r) = .ok content ∧
    other.contentAt (s.config.layout.tracePath r) = .ok content
  config : template.isSome = true →
    ∃ content, files.contentAt (s.config.layout.path (s.config.layout.configRelative r)) = .ok content ∧
      other.contentAt (s.config.layout.path (s.config.layout.configRelative r)) = .ok content
  log : LeavesPlainLogs s →
    ∃ content content', files.contentAt (s.config.layout.path (s.config.layout.logRelative r)) = .ok content ∧
      other.contentAt (s.config.layout.path (s.config.layout.logRelative r)) = .ok content' ∧
      content.toBytes = content'.toBytes
  archive : s.simulator.isSome = true → s.config.simulator.compress = true →
    let path := Archive.pathFor (s.config.layout.path (s.config.layout.logRelative r))
    ∃ text, ∀ tree ∈ [files, other],
      (∃ time bytes, Archive.pack? (Path.base (s.config.layout.path (s.config.layout.logRelative r))) time text =
          some bytes ∧ tree.contentAt path = .ok (.bytes bytes)) ∧
        Archive.decompress tree path = Archive.delivered text none

section

variable {s : Setup} {template : Option Template} {base files other : Files} {runs : List Run} {r : Run}
  {logOf : Bytes → Bytes → Bytes}

/-- A file at the home of a file of a run can be read. -/
theorem Unlinked.reads {l : Layout} (h : Unlinked base l runs) (hr : r ∈ runs) (hsince : Files.Since base files)
    {a : Artifact} {content : Content} (hentry : a.entry base l r files = some (.file content)) :
    files.contentAt (a.path l r) = .ok content ∧ files.openFile (a.path l r) = .ok (.file content) := by
  obtain ⟨place, hplace, hfile⟩ := Artifact.entry_eq_some.mp hentry
  have hhomed := (h.lodged hr hsince a).homed place hplace
  exact ⟨hhomed.contentAt hfile, hhomed.openFile hfile⟩

/-- The archive of a run gives back what was packed into it. -/
theorem Unlinked.decompress {l : Layout} (h : Unlinked base l runs) (hr : r ∈ runs) (hsince : Files.Since base files)
    {text bytes : Bytes} {time : Nat} (hpack : Archive.pack? (Path.base (Artifact.log.path l r)) time text = some bytes)
    (hentry : Artifact.archive.entry base l r files = some (.file (.bytes bytes))) :
    Archive.decompress files (Artifact.archive.path l r) = Archive.delivered text none := by
  refine Archive.decompress_of_pack (h.reads hr hsince hentry).1 hpack ?_
  rw [(Artifact.log.endsIn_path l r).base (Artifact.log.plain_name r)]
  exact (Artifact.log.length_name_le r).trans_lt (by decide)

/-- A log that its configuration determines is in the archive with that text. -/
theorem Logged.packed {text : Bytes} (h : Logged s base (Determined logOf s.config.layout) r text files)
    (hcompress : s.config.simulator.compress = true) :
    ∃ time bytes, Archive.pack? (Path.base (Artifact.log.path s.config.layout r)) time
        (logOf (s.config.layout.configRelative r) text) = some bytes ∧
      Artifact.archive.entry base s.config.layout r files = some (.file (.bytes bytes)) := by
  simp only [Logged, hcompress, if_true] at h
  obtain ⟨content, time, bytes, ⟨found, hfound, htext⟩, hpack, harchive, -⟩ := h
  obtain rfl := Entry.file.inj (Option.some.inj hfound)
  exact ⟨time, bytes, htext ▸ hpack, harchive⟩

/-- A log that its configuration determines has that text as long as it is plain. -/
theorem Logged.plain {text : Bytes} (h : Logged s base (Determined logOf s.config.layout) r text files)
    (hcompress : s.config.simulator.compress = false) :
    ∃ content, Artifact.log.entry base s.config.layout r files = some (.file content) ∧
      content.toBytes = logOf (s.config.layout.configRelative r) text := by
  simp only [Logged, hcompress, Bool.false_eq_true, if_false] at h
  exact h

/-- A run that is done in two trees has the same products in both, if its log is determined by its configuration. -/
theorem Complete.reproduces (hunlinked : Unlinked base s.config.layout runs) (hr : r ∈ runs)
    (hfiles : Files.Since base files) (hother : Files.Since base other)
    (htemplate : s.simulator.isSome = true → template.isSome = true)
    (h : Complete s template base (Determined logOf s.config.layout) r files)
    (h' : Complete s template base (Determined logOf s.config.layout) r other) :
    Reproduces s template r files other := by
  have hlogged : s.simulator.isSome = true → ∃ t : Template,
      Logged s base (Determined logOf s.config.layout) r (t.render r.traceName) files ∧
        Logged s base (Determined logOf s.config.layout) r (t.render r.traceName) other := by
    intro hsimulator
    obtain ⟨t, ht⟩ := Option.isSome_iff_exists.mp (htemplate hsimulator)
    exact ⟨t, h.log t ht hsimulator, h'.log t ht hsimulator⟩
  refine ⟨?_, fun hsome => ?_, fun hplain => ?_, fun hsimulator hcompress => ?_⟩
  · obtain ⟨text, htext, htrace⟩ := h.trace
    obtain ⟨text', htext', htrace'⟩ := h'.trace
    obtain rfl := Option.mem_unique htext htext'
    exact ⟨_, (hunlinked.reads hr hfiles htrace).1, (hunlinked.reads hr hother htrace').1⟩
  · obtain ⟨t, ht⟩ := Option.isSome_iff_exists.mp hsome
    exact ⟨_, (hunlinked.reads hr hfiles (h.config t ht)).1, (hunlinked.reads hr hother (h'.config t ht)).1⟩
  · obtain ⟨t, hlog, hlog'⟩ := hlogged hplain.1
    obtain ⟨content, hentry, htext⟩ := hlog.plain hplain.2
    obtain ⟨content', hentry', htext'⟩ := hlog'.plain hplain.2
    exact ⟨content, content', (hunlinked.reads hr hfiles hentry).1, (hunlinked.reads hr hother hentry').1,
      htext.trans htext'.symm⟩
  · obtain ⟨t, hlog, hlog'⟩ := hlogged hsimulator
    refine ⟨logOf (s.config.layout.configRelative r) (t.render r.traceName), fun tree htree => ?_⟩
    rcases List.mem_pair.mp htree with rfl | rfl
    · obtain ⟨time, bytes, hpack, harchive⟩ := hlog.packed hcompress
      exact ⟨⟨time, bytes, hpack, (hunlinked.reads hr hfiles harchive).1⟩,
        hunlinked.decompress hr hfiles hpack harchive⟩
    · obtain ⟨time, bytes, hpack, harchive⟩ := hlog'.packed hcompress
      exact ⟨⟨time, bytes, hpack, (hunlinked.reads hr hother harchive).1⟩,
        hunlinked.decompress hr hother hpack harchive⟩

end

/-- However often a sweep has failed or been interrupted, a pass that resumes and ends without a failure leaves the same
products of every run as a single pass that ends without a failure. -/
theorem resumed_sweep_reproduces {κ : Type} [Recorder κ] {c : Config} {seed : Int64} (hseed : c.sweep.seed = some seed)
    (hresume : c.sweep.resume = true) (passes : List (Pass κ)) (last reference : Pass κ)
    (hmode : ∀ p ∈ last :: passes, p.simulator.isSome = reference.simulator.isSome) {files base : Files}
    (hfiles : files.WellFormed) (hbase : (c.layout.provision files).1 = base)
    (hground : Ground (reference.setup c) base ((reference :: last :: passes).flatMap Pass.eventPaths))
    (hfresh : ∀ r ∈ c.runs, ∀ a ∈ [Artifact.trace, .config, .log, .archive],
      base.exists? (a.path c.layout r) = false)
    (logOf : Bytes → Bytes → Bytes)
    (hsimulator : ∀ p ∈ reference :: last :: passes, ∀ simulator ∈ p.simulator,
      simulator.KeepsTo base c.layout c.runs (Determined logOf c.layout))
    (hlast : (last.run c (leftBy c passes files)).1.2 = none) (hreference : (reference.run c files).1.2 = none)
    {r : Run} (hr : r ∈ c.runs) :
    ∃ template, templateOf (reference.setup c) base = .ok template ∧
      Reproduces (reference.setup c) template r (last.run c (leftBy c passes files)).2.bench.files
        (reference.run c files).2.bench.files := by
  subst hbase
  set base := (c.layout.provision files).1
  set paths := (reference :: last :: passes).flatMap Pass.eventPaths
  have hpaths : ∀ p ∈ reference :: last :: passes, p.eventPaths ⊆ paths :=
    fun p hp path hpath => List.mem_flatMap.mpr ⟨p, hp, hpath⟩
  have hclear : Clear base c.layout c.runs := hground.clear
  have hrefl : Files.Alike (MayChange (reference.setup c) base paths) base base := Files.Alike.refl _ _
  obtain ⟨hprovision, template, htemplate⟩ :=
    reference.opened hground.clear.wellFormed (hpaths reference (by simp)) hground.filed hrefl hreference hr
  refine ⟨template, htemplate, ?_⟩
  have hlike : ∀ p ∈ reference :: last :: passes, Resembles p reference c base (Determined logOf c.layout) := by
    intro p hp
    refine ⟨?_, ?_, hsimulator p hp⟩
    · simp [Pass.setup, hseed]
    · rcases List.mem_cons.mp hp with rfl | hp
      · rfl
      · exact (hmode p hp).symm
  have hmarked : ∀ r files, Complete (reference.setup c) template base (Determined logOf c.layout) r files →
      (markerOf (reference.setup c) template).entry base c.layout r files ≠ none := by
    intro r files hdone
    refine hdone.marked ?_ (isSome_of_templateOf htemplate)
    rintro text entry ⟨content, rfl, -⟩
    exact Option.some_ne_none _
  -- Nothing is marked as done in the beginning.
  have hsound : ∀ r ∈ c.runs, Sound (reference.setup c) template base (Determined logOf c.layout) r base := by
    intro r hr hmark
    have hthere := (hclear.exists?_iff hr hrefl.since (markerOf (reference.setup c) template)).mpr hmark
    rw [hfresh r hr] at hthere
    · cases hthere
    · rcases markerOf_cases (reference.setup c) template with ⟨h, -⟩ | ⟨h, -⟩ | h | h <;> simp [h]
  -- No log is there that nobody might take away.
  have hremovable : ∀ r ∈ c.runs, Removable base c.layout r := by
    intro r hr place hplace hpinned
    have hthere := hclear.wellFormed.pinned place hpinned
    rw [← Artifact.entry_of_home hplace base, Option.isSome_iff_ne_none, ← hclear.exists?_iff hr hrefl.since,
      hfresh r hr .log (by simp)] at hthere
    cases hthere
  have hprovided := (c.layout.provision_isProvided hfiles hprovision).2
  have hlater : ∀ p ∈ passes, p ∈ reference :: last :: passes :=
    fun p hp => List.mem_cons_of_mem _ (List.mem_cons_of_mem _ hp)
  obtain ⟨hbefore, hkept⟩ := leftBy_sound passes hground (fun p hp => hpaths p (hlater p hp)) hremovable hprovided
    (fun p hp => hlike p (hlater p hp)) hresume hmarked hrefl htemplate hsound
  obtain ⟨hend, -, hdone⟩ := (hlike last (by simp)).resumes hground (hpaths last (by simp)) hremovable hresume hmarked
    hbefore htemplate hkept
  obtain ⟨hend', -, hdone'⟩ := (hlike reference (by simp)).resumes hground (hpaths reference (by simp)) hremovable
    hresume hmarked hrefl htemplate hsound
  exact Complete.reproduces hground.clear.toUnlinked hr hend.since hend'.since (isSome_of_templateOf htemplate)
    (hdone hlast r hr) (hdone' hreference r hr)

/-- The log that a script has for a configuration. -/
def scriptedLog (config _text : Bytes) : Bytes := "log for " ++ config ++ "\n"

theorem scriptedPass_determined {κ : Type} (keeper : κ) (failures : List (Bytes × Bytes)) {base : Files} {l : Layout}
    {runs : List Run} (hclear : Clear base l runs) (hroot : l.root = ".") :
    ∀ simulator ∈ (scriptedPass keeper failures).simulator, simulator.KeepsTo base l runs (Determined scriptedLog l) := by
  intro simulator hin
  obtain rfl := Option.some.inj hin
  refine (ScriptedSimulator.keepsTo hclear hroot.symm rfl).mono ?_
  rintro r text entry rfl
  exact ⟨_, rfl, rfl⟩

/-- A sweep of one run whose simulation fails at first with part of a log. -/
theorem failed_then_resumed_reproduces :
    let c := oneRun true false
    let left := leftBy c [scriptedPass () [(theRun.id, "boom")]] site
    ∃ template, templateOf ((scriptedPass () []).setup c) (c.layout.provision site).1 = .ok template ∧
      Reproduces ((scriptedPass () []).setup c) template theRun ((scriptedPass () []).run c left).2.bench.files
        ((scriptedPass () []).run c site).2.bench.files := by
  have hground := ground_site (scriptedPass () []) true false
  have hsimulator := fun failures => scriptedPass_determined () failures hground.clear rfl
  refine resumed_sweep_reproduces rfl rfl [scriptedPass () [(theRun.id, "boom")]] (scriptedPass () [])
    (scriptedPass () []) ?_ site_wellFormed rfl hground ?_ scriptedLog ?_
    (by decide +kernel) (by decide +kernel) (mem_runs_oneRun true false)
  · simp [scriptedPass]
  · decide +kernel
  · simp only [List.forall_mem_cons]
    exact ⟨hsimulator _, hsimulator _, hsimulator _, by rintro _ ⟨⟩⟩

/-- A sweep of one run whose traces go to a directory with the name for the log of a failed simulation. -/
def blockedRun : Config :=
  { oneRun true false with layout := { Config.standard.layout with positions := "results/log1_0_1_0.txt.failed" } }

/-- A log that cannot be set aside is taken for that of a run that is done. -/
theorem blocked_log_is_taken_for_done :
    let last := (scriptedPass () []).run blockedRun (leftBy blockedRun [scriptedPass () [(theRun.id, "boom")]] site)
    let reference := (scriptedPass () []).run blockedRun site
    blockedRun.validate = .ok () ∧ Bare site blockedRun.layout blockedRun.runs ∧ last.1.2 = none ∧
      reference.1.2 = none ∧ last.2.bench.files.contentAt "results/log1_0_1_0.txt" = .ok (.bytes "partial\n") ∧
      reference.2.bench.files.contentAt "results/log1_0_1_0.txt" =
        .ok (.bytes "log for csc/sim_1_0_1_0.csc\n") := by
  decide +kernel

end Sweep

end MobilitySweep
