import MobilitySweep.Proofs.Sweep.Territory

/-! # The work of a run

A run that works through all its stages leaves its files complete. One that fails at some stage does not leave
the file that would mark it as done, unless that was there before.
-/

namespace MobilitySweep

open Artifact (Owned Among)

/-- A simulator that keeps to the logs of some runs: given the configuration of a run it acts on the log of the run
and on no other file, and when it succeeds the log is good for the text of the configuration. -/
def Simulator.KeepsTo (simulator : Simulator) (base : Files) (l : Layout) (runs : List Run)
    (good : Run → Bytes → Option Entry → Prop) : Prop :=
  ∀ r ∈ runs, ∀ bench : Bench, Files.Since base bench.files → ∀ text,
    Artifact.config.entry base l r bench.files = some (.file (.bytes text)) →
    Steps.Ensures (fun b b' : Bench => Files.Spares (Owned base l r) b.files b'.files)
      (fun b b' => Files.Alike (Among base l r [.log]) b.files b'.files ∧ b'.failure = b.failure)
      (fun fault b => fault = none → good r text (Artifact.log.entry base l r b.files))
      (simulator (l.configRelative r) (l.logRelative r)) bench

namespace Sweep

variable {κ : Type}

/-- The text of the trace of a run, if it can be generated. -/
def traceText (s : Setup) (r : Run) : Option Bytes :=
  let seed := Seed.derive s.base r.id
  match Generator.create r.params (s.config.options seed) (Pcg.ofSeed seed) with
  | .ok generator => some (generator.run .unlimited).1.toBytes
  | .error _ => none

theorem mem_traceText {s : Setup} {r : Run} {text : Bytes} :
    text ∈ traceText s r ↔ ∃ generator, Generator.create r.params (s.config.options (Seed.derive s.base r.id))
      (Pcg.ofSeed (Seed.derive s.base r.id)) = .ok generator ∧ (generator.run .unlimited).1.toBytes = text := by
  unfold traceText
  dsimp only
  split
  next generator hgenerator => simp [hgenerator]
  next cause hcause => simp [hcause]

/-- Whether a sweep simulates and keeps the logs as they are. -/
def LeavesPlainLogs (s : Setup) : Prop := s.simulator.isSome = true ∧ s.config.simulator.compress = false

/-- Which file marks a run as done. -/
def markerOf (s : Setup) (template : Option Template) : Artifact :=
  match s.simulator, template with
  | none, none => .trace
  | none, some _ => .config
  | some _, _ => if s.config.simulator.compress then .archive else .log

theorem marker_eq (s : Setup) (template : Option Template) (r : Run) :
    marker s template r = (markerOf s template).path s.config.layout r := by
  unfold marker markerOf
  cases s.simulator with
  | none => cases template <;> rfl
  | some simulator =>
      dsimp only
      split <;> rfl

theorem markerOf_congr {s s' : Setup} (hmode : s'.simulator.isSome = s.simulator.isSome)
    (hsettings : s'.config.simulator = s.config.simulator) (template : Option Template) :
    markerOf s' template = markerOf s template := by
  unfold markerOf
  rw [hsettings]
  cases hs : s.simulator <;> cases hs' : s'.simulator <;> simp_all

theorem markerOf_eq_log {s : Setup} {template : Option Template} :
    markerOf s template = .log ↔ LeavesPlainLogs s := by
  unfold markerOf LeavesPlainLogs
  cases s.simulator with
  | none => cases template <;> simp
  | some simulator => cases s.config.simulator.compress <;> simp

theorem markerOf_cases (s : Setup) (template : Option Template) :
    markerOf s template = .trace ∧ template = none ∨ markerOf s template = .config ∧ s.simulator = none ∨
      markerOf s template = .archive ∨ markerOf s template = .log := by
  unfold markerOf
  cases s.simulator with
  | none => cases template <;> simp
  | some simulator => cases s.config.simulator.compress <;> simp

/-- Whether a file can be put at the home of a file of a run. -/
def Free (base : Files) (l : Layout) (r : Run) (a : Artifact) : Prop := ∃ place ∈ a.home base l r, base.IsOpen place

/-- Whether the log of a run may be taken away. -/
def Removable (base : Files) (l : Layout) (r : Run) : Prop := ∀ place ∈ Artifact.log.home base l r, place ∉ base.pinned

/-- The log of a run is there, plain or in the archive only, and good for a configuration. -/
def Logged (s : Setup) (base : Files) (good : Run → Bytes → Option Entry → Prop) (r : Run) (text : Bytes)
    (files : Files) : Prop :=
  if s.config.simulator.compress then
    ∃ content time bytes, good r text (some (.file content)) ∧
      Archive.pack? (Path.base (Artifact.log.path s.config.layout r)) time content.toBytes = some bytes ∧
      Artifact.archive.entry base s.config.layout r files = some (.file (.bytes bytes)) ∧
      Artifact.log.entry base s.config.layout r files = none
  else good r text (Artifact.log.entry base s.config.layout r files)

/-- The files of a run that its simulation acts on. -/
def simulated (s : Setup) : List Artifact :=
  if s.simulator.isSome then [.log, .failedLog] ++ if s.config.simulator.compress then [.archive, .archiveDraft] else []
  else []

theorem notMem_simulated (s : Setup) {a : Artifact} (h : a ∉ [Artifact.log, .failedLog, .archive, .archiveDraft]) :
    a ∉ simulated s := by
  simp only [List.mem_cons, List.not_mem_nil, or_false, not_or] at h
  simp only [simulated]
  split_ifs <;> simp [h]

/-- The files of a run that a sweep acts on. -/
def reach (s : Setup) (template : Option Template) : List Artifact :=
  [.trace, .traceDraft] ++ if template.isSome then [.config, .configDraft] ++ simulated s else []

/-- The files of a run that is done. -/
structure Complete (s : Setup) (template : Option Template) (base : Files) (good : Run → Bytes → Option Entry → Prop)
    (r : Run) (files : Files) : Prop where
  trace : ∃ text ∈ traceText s r, Artifact.trace.entry base s.config.layout r files = some (.file (.bytes text))
  config : ∀ t ∈ template,
    Artifact.config.entry base s.config.layout r files = some (.file (.bytes (t.render r.traceName)))
  log : ∀ t ∈ template, s.simulator.isSome = true → Logged s base good r (t.render r.traceName) files

/-- Whether a run is done can be told from its own files. -/
theorem Complete.congr {s : Setup} {template : Option Template} {base : Files}
    {good : Run → Bytes → Option Entry → Prop} {r : Run} {files other : Files}
    (h : Complete s template base good r files)
    (hsame : ∀ a : Artifact, a.entry base s.config.layout r other = a.entry base s.config.layout r files) :
    Complete s template base good r other := by
  refine ⟨?_, ?_, ?_⟩
  · simpa only [hsame] using h.trace
  · simpa only [hsame] using h.config
  · simpa only [Logged, hsame] using h.log

/-- Whether nothing is in the way of the trace and the configuration of a run. -/
def Unblocked (s : Setup) (base : Files) (r : Run) : Prop :=
  (traceText s r).isSome = true ∧
    ∀ a ∈ [Artifact.trace, .traceDraft, .config, .configDraft], Free base s.config.layout r a

/-- Whether a run that fails can be kept from looking done: its log may be taken away, and can be set aside where it
would be the mark. -/
structure Retractable (s : Setup) (template : Option Template) (base : Files) (r : Run) : Prop where
  removable : s.simulator.isSome = true → Removable base s.config.layout r
  aside : markerOf s template = .log → Free base s.config.layout r .failedLog

/-- What a failed run leaves of its mark: none that was not there before, and no plain log once it has come to its
simulation. -/
structure Unmarked (s : Setup) (template : Option Template) (base : Files) (r : Run) (before after : Files) :
    Prop where
  mark : (markerOf s template).entry base s.config.layout r after ≠ none →
    (markerOf s template).entry base s.config.layout r before ≠ none
  log : markerOf s template = .log → Unblocked s base r →
    (markerOf s template).entry base s.config.layout r after = none

section

variable {base files : Files} {l : Layout} {runs : List Run} {r : Run}

/-! ## Stages on files -/

/-- A text published as a file of a run. -/
theorem publish_works (hclear : Clear base l runs) (hr : r ∈ runs) (hsince : Files.Since base files)
    {a draft : Artifact} (hdraft : draft.path l r = a.path l r ++ Archive.temporaryEnding) (hne : draft ≠ a)
    (text : Bytes) :
    Steps.Ensures (Files.Spares (Owned base l r)) (Files.Alike (Among base l r [a, draft]))
      (fun failure t => (failure = none → a.entry base l r t = some (.file (.bytes text))) ∧
        (failure ≠ none → a.entry base l r t = a.entry base l r files ∧
          (Free base l r draft → ¬ Free base l r a)))
      (publish (a.path l r) text) files := by
  have hfiles := hsince.wellFormed.mp hclear.wellFormed
  have hlodged := hclear.lodged hr hsince draft
  rw [hdraft] at hlodged
  refine (Files.publish_ensures hfiles hlodged (hclear.lodged hr hsince a)
    (Artifact.home_ne hclear.wellFormed hne) (fun place hplace => ⟨draft, hplace⟩)
    (fun place hplace => ⟨a, hplace⟩)).mono (fun _ _ => id) ?_ ?_
  · refine fun _ _ halike => halike.mono ?_
    rintro place (hplace | hplace)
    · exact ⟨draft, by simp, hplace⟩
    · exact ⟨a, by simp, hplace⟩
  · rintro failure t ⟨hpublished, hkept⟩
    refine ⟨fun hnone => Artifact.entry_eq_some.mpr (hpublished hnone), fun hsome => ?_⟩
    obtain ⟨hsame, hblocked⟩ := hkept hsome
    refine ⟨Artifact.entry_congr hsame, ?_⟩
    rintro ⟨place, hplace, hopen⟩ ⟨place', hplace', hopen'⟩
    exact hblocked ⟨place, hplace, hsince.isOpen.mpr hopen⟩ place' hplace' (hsince.isOpen.mpr hopen')

/-- The trace of a run. -/
theorem produce_works (hclear : Clear base l runs) (hr : r ∈ runs) (hsince : Files.Since base files)
    (p : Params) (o : Options) (source : Pcg) :
    Steps.Ensures (Files.Spares (Owned base l r)) (Files.Alike (Among base l r [.trace, .traceDraft]))
      (fun result t =>
        (result.2 = none → ∃ generator, Generator.create p o source = .ok generator ∧
          Artifact.trace.entry base l r t = some (.file (.bytes (generator.run .unlimited).1.toBytes))) ∧
        (result.2 ≠ none → Artifact.trace.entry base l r t = Artifact.trace.entry base l r files ∧
          ((∃ generator, Generator.create p o source = .ok generator) → Free base l r .traceDraft →
            ¬ Free base l r .trace)))
      (Trace.produce (Artifact.trace.path l r) p o source) files := by
  unfold Trace.produce
  cases hcreate : Generator.create p o source with
  | error cause =>
      refine Steps.ensures_pure fun t ht => ⟨by rintro ⟨⟩, fun _ => ⟨Artifact.entry_congr ?_, ?_⟩⟩
      · exact fun place hplace => ht.get? ⟨.trace, hplace⟩
      · rintro ⟨generator, hcreated⟩
        cases hcreated
  | ok generator =>
      dsimp only
      refine (publish_works hclear hr hsince rfl (by decide) _).bind_stable ?_
      intro failure t hpost
      cases failure with
      | none =>
          refine Steps.ensures_pure fun u hu => ⟨fun _ => ⟨generator, rfl, (hpost u hu).1 rfl⟩, fun h => absurd rfl h⟩
      | some failure =>
          have hkept : ∀ u, Files.Spares (Owned base l r) t u →
              Artifact.trace.entry base l r u = Artifact.trace.entry base l r files ∧
                (Free base l r .traceDraft → ¬ Free base l r .trace) :=
            fun u hu => (hpost u hu).2 (by simp)
          -- Both failures leave the same behind; only their texts differ.
          cases failure
          all_goals
            refine Steps.ensures_pure fun u hu => ⟨by rintro ⟨⟩, fun _ => ?_⟩
            obtain ⟨hsame, hblocked⟩ := hkept u hu
            exact ⟨hsame, fun _ => hblocked⟩

/-- The configuration of a run. -/
theorem write_works (hclear : Clear base l runs) (hr : r ∈ runs) (hsince : Files.Since base files)
    (template : Template) :
    Steps.Ensures (Files.Spares (Owned base l r)) (Files.Alike (Among base l r [.config, .configDraft]))
      (fun fault t =>
        (fault = none →
          Artifact.config.entry base l r t = some (.file (.bytes (template.render r.traceName)))) ∧
        (fault ≠ none → Artifact.config.entry base l r t = Artifact.config.entry base l r files ∧
          (Free base l r .configDraft → ¬ Free base l r .config)))
      (template.write (Artifact.config.path l r) r.traceName) files := by
  unfold Template.write
  refine (publish_works hclear hr hsince rfl (by decide) _).bind_stable ?_
  intro failure t hpost
  refine Steps.ensures_pure fun u hu => ⟨fun hnone => (hpost u hu).1 ?_, fun hsome => (hpost u hu).2 ?_⟩
  · simpa using hnone
  · simpa using hsome

/-- Whether a file of a run is there. -/
theorem exists_works {a : Artifact} (hlodged : Files.Lodged base (a.path l r) (a.home base l r))
    (hsince : Files.Since base files) :
    Steps.Ensures (Files.Spares (Owned base l r)) (Files.Alike (Among base l r []))
      (fun found _ => found = true ↔ a.entry base l r files ≠ none) (Steps.look (·.exists? (a.path l r))) files := by
  refine Steps.ensures_look (fun t => Files.Alike.refl _ t) fun t ht _ _ => ?_
  rw [(hlodged.alike (hsince.trans ht.since)).exists?_iff, ← Artifact.entry_ne_none,
    Artifact.entry_congr fun _ hplace => ht.get? ⟨a, hplace⟩]

/-- The log of a run moved out of the way, if it can be. -/
theorem moveLog_works (hclear : Clear base l runs) (hr : r ∈ runs) (hsince : Files.Since base files)
    (hlog : Artifact.log.entry base l r files ≠ none) :
    Steps.Ensures (Files.Spares (Owned base l r)) (Files.Alike (Among base l r [.log, .failedLog]))
      (fun _ t => Removable base l r → Free base l r .failedLog → Artifact.log.entry base l r t = none)
      (Archive.attempt (·.rename (Artifact.log.path l r) (Artifact.log.path l r ++ failedEnding))) files := by
  obtain ⟨old, hold, hthere⟩ := Artifact.entry_ne_none.mp hlog
  have hfile : ∃ content, files.get? old = some (.file content) :=
    ((Files.isLoose_iff files old).mp (hclear.log_isLoose hr hsince hold)).resolve_left hthere
  obtain ⟨content, hfile⟩ := hfile
  refine (Files.rename_ensures (hsince.wellFormed.mp hclear.wellFormed) ((hclear.lodged hr hsince .log).homed old hold)
    (hclear.lodged hr hsince .failedLog) ⟨.log, hold⟩ (fun place hplace => ⟨.failedLog, hplace⟩)
    (Artifact.home_ne hclear.wellFormed (by decide) old hold) hfile).mono (fun _ _ => id) ?_ ?_
  · refine fun _ _ halike => halike.mono ?_
    rintro place (rfl | hplace)
    · exact ⟨.log, by simp, hold⟩
    · exact ⟨.failedLog, by simp, hplace⟩
  · rintro fault t ⟨hmoved, hkept⟩ hremovable ⟨new, hnew, hopen⟩
    cases fault with
    | none => rw [Artifact.entry_of_home hold, (hmoved rfl).1]
    | some fault =>
        obtain ⟨-, hpinned | hblocked, -⟩ := hkept (by simp)
        · exact absurd (hsince.pinned ▸ hpinned) (hremovable old hold)
        · exact absurd (hsince.isOpen.mpr hopen) (hblocked new hnew)

end

/-! ## Stages of a run among others -/

section

variable {memory : κ → List Ledger.Write} {base : Files} {runs : List Run} {r : Run} {w : World κ}

/-- The log of a failed simulation is set aside, if it can be. -/
theorem setAside_works {l : Layout} (hclear : Clear base l runs) (hr : r ∈ runs)
    (hsince : Files.Since base w.bench.files) (logger : Log.Logger) :
    Steps.Ensures (Bears memory base l r) (Acts memory base l r)
      (fun _ t =>
        (Removable base l r → Free base l r .failedLog → Artifact.log.entry base l r t.bench.files = none) ∧
          Stays memory base l r [.log, .failedLog] w t)
      (setAside logger (Artifact.log.path l r)) w := by
  have hrefl := Bears.refl memory base l r
  unfold setAside
  refine (ensures_onFiles (exists_works (hclear.lodged hr (Files.Alike.refl _ _) .log) hsince)).bind hrefl ?_
  rintro found t ⟨hfound, ht⟩
  have hsame : Artifact.log.entry base l r t.bench.files = Artifact.log.entry base l r w.bench.files :=
    ht.entry hclear.wellFormed (by simp)
  have hsince' := hsince.trans ht.files.since
  have hmore : Stays memory base l r [.log, .failedLog] w t := ht.mono (by simp)
  split
  next hthere =>
    refine (ensures_onFiles (moveLog_works hclear hr hsince' (hsame ▸ hfound.mp hthere))).bind hrefl ?_
    rintro fault u ⟨hmoved, hu⟩
    have hquiet : ∀ p : Steps (World κ) Unit, p.Keeps World.common →
        Steps.Ensures (Bears memory base l r) (Acts memory base l r)
          (fun _ t =>
            (Removable base l r → Free base l r .failedLog → Artifact.log.entry base l r t.bench.files = none) ∧
              Stays memory base l r [.log, .failedLog] w t) p u := by
      refine fun p hp => (ensures_aside hp).weaken fun _ v hv => ⟨fun hremovable hfree => ?_, ?_⟩
      · rw [hv.entry hclear.wellFormed (by simp), hmoved hremovable hfree]
      · exact hmore.trans (hu.trans (hv.mono (by simp)))
    cases fault with
    | some fault => exact hquiet _ (keeps_common_note _ _ _ _)
    | none => exact hquiet _ (Steps.keeps_pure _)
  next hnot =>
    refine Steps.ensures_pure fun u hu => ⟨fun _ _ => ?_, hmore.trans hu.stays⟩
    rw [hu.entry, hsame]
    simpa using fun hne => hnot (hfound.mpr hne)

/-- A log is replaced by its archive and gone then, or the archive is as it was, unless the log may
not be taken away. -/
theorem archiveLog_works {l : Layout} (hclear : Clear base l runs) (hr : r ∈ runs)
    (hsince : Files.Since base w.bench.files) (record : RunRecord) :
    Steps.Ensures (Bears memory base l r) (Acts memory base l r)
      (fun result t => result.1.runId = record.runId ∧
        (result.2 = none → ∃ content time bytes, Artifact.log.entry base l r w.bench.files = some (.file content) ∧
          Archive.pack? (Path.base (Artifact.log.path l r)) time content.toBytes = some bytes ∧
          Artifact.archive.entry base l r t.bench.files = some (.file (.bytes bytes)) ∧
          Artifact.log.entry base l r t.bench.files = none) ∧
        (result.2 ≠ none → Removable base l r →
          Artifact.archive.entry base l r t.bench.files = Artifact.archive.entry base l r w.bench.files) ∧
        Stays memory base l r [.log, .archive, .archiveDraft] w t)
      (archiveLog (Artifact.log.path l r) record) w := by
  have hrefl := Bears.refl memory base l r
  have hbase := hclear.wellFormed
  -- What `Archive.compress` says about homes, read as the files of the run.
  have hcompress : Steps.Ensures (Files.Spares (Owned base l r))
      (Files.Alike (Among base l r [.log, .archive, .archiveDraft]))
      (fun result t => (result.2 = none → result.1 = Artifact.archive.path l r ∧ ∃ content time bytes,
          Artifact.log.entry base l r w.bench.files = some (.file content) ∧
          Archive.pack? (Path.base (Artifact.log.path l r)) time content.toBytes = some bytes ∧
          Artifact.archive.entry base l r t = some (.file (.bytes bytes)) ∧ Artifact.log.entry base l r t = none) ∧
        (result.2 ≠ none → Removable base l r → Artifact.archive.entry base l r t = Artifact.archive.entry base l r w.bench.files))
      (Archive.compress (Artifact.log.path l r)) w.bench.files := by
    refine (Files.compress_ensures (hsince.wellFormed.mp hbase) (hclear.lodged hr hsince .log)
      (hclear.lodged hr hsince .archive) (hclear.lodged hr hsince .archiveDraft)
      (Artifact.home_ne hbase (by decide)) (Artifact.home_ne hbase (by decide)) (Artifact.home_ne hbase (by decide))
      (fun place hplace => ⟨.log, hplace⟩) (fun place hplace => ⟨.archive, hplace⟩)
      (fun place hplace => ⟨.archiveDraft, hplace⟩)).mono (fun _ _ => id) ?_ ?_
    · refine fun _ _ halike => halike.mono ?_
      rintro place (hplace | hplace | hplace)
      · exact ⟨.log, by simp, hplace⟩
      · exact ⟨.archive, by simp, hplace⟩
      · exact ⟨.archiveDraft, by simp, hplace⟩
    · rintro result t ⟨hpacked, hkept⟩
      refine ⟨fun hnone => ?_, fun hsome hremovable => Artifact.entry_congr (hkept hsome fun place hplace =>
        hsince.pinned ▸ hremovable place hplace)⟩
      obtain ⟨hgone, hpath, source, hsource, content, time, bytes, hlog, hbytes, harchive⟩ := hpacked hnone
      refine ⟨hpath, content, time, bytes, Artifact.entry_eq_some.mpr ⟨source, hsource, hlog⟩, hbytes,
        Artifact.entry_eq_some.mpr harchive, ?_⟩
      rw [Artifact.entry_of_home hsource, hgone source hsource]
  unfold archiveLog
  refine (ensures_onFiles hcompress).bind hrefl ?_
  rintro ⟨archive, fault⟩ t ⟨⟨hpacked, hkept⟩, ht⟩
  cases fault with
  | some fault =>
      refine Steps.ensures_pure fun u hu => ⟨rfl, by rintro ⟨⟩, fun _ hremovable => ?_, ht.trans hu.stays⟩
      rw [hu.entry, hkept (by simp) hremovable]
  | none =>
      obtain ⟨rfl, content, time, bytes, hlog, hbytes, harchive, hgone⟩ := hpacked rfl
      -- The archive is a file of the run, so nothing keeps it from being read again.
      have hsum : Steps.Ensures (Files.Spares (Owned base l r)) (Files.Alike (Among base l r []))
          (fun sum _ => ∃ digest, sum = .ok digest)
          (Steps.look (Archive.checksum · (Artifact.archive.path l r))) t.bench.files := by
        obtain ⟨place, hplace, hfile⟩ := Artifact.entry_eq_some.mp harchive
        refine Steps.ensures_look (fun u => Files.Alike.refl _ u) fun u hu _ _ => ?_
        have hhomed := (hclear.lodged hr (hsince.trans (ht.files.since.trans hu.since)) .archive).homed place hplace
        exact ⟨_, hhomed.checksum ((hu.get? ⟨.archive, hplace⟩).trans hfile)⟩
      refine (ensures_onFiles hsum).bind hrefl ?_
      rintro sum u ⟨⟨digest, rfl⟩, hu⟩
      refine Steps.ensures_pure fun v hv => ⟨rfl, fun _ => ⟨content, time, bytes, hlog, hbytes, ?_, ?_⟩,
        fun h => absurd rfl h, ht.trans ((hu.mono (by simp)).trans hv.stays)⟩
      · rw [hv.entry, hu.entry hbase (by simp), harchive]
      · rw [hv.entry, hu.entry hbase (by simp), hgone]

variable {s : Setup} {good : Run → Bytes → Option Entry → Prop}

/-- A stage that leaves its own file as it was leaves the mark of the run as it was: its draft marks nothing. -/
theorem Stays.markerOf_entry {l : Layout} (hbase : base.WellFormed) {a draft : Artifact} {t : World κ}
    (h : Stays memory base l r [a, draft] w t) (hdraft : draft ∉ [Artifact.trace, .config, .archive, .log])
    (hsame : a.entry base l r t.bench.files = a.entry base l r w.bench.files) (template : Option Template) :
    (markerOf s template).entry base l r t.bench.files = (markerOf s template).entry base l r w.bench.files := by
  have hmarker : markerOf s template ∈ [Artifact.trace, .config, .archive, .log] := by
    rcases markerOf_cases s template with ⟨h, -⟩ | ⟨h, -⟩ | h | h <;> simp [h]
  by_cases ha : markerOf s template = a
  · rw [ha, hsame]
  · exact h.entry hbase (by simpa [ha] using fun heq : _ = draft => hdraft (heq ▸ hmarker))

/-- A rendered configuration is simulated and its log kept, or the mark of the run is not set. -/
theorem simulate_works (hclear : Clear base s.config.layout runs) (hr : r ∈ runs) {simulator : Simulator}
    (hsimulates : s.simulator = some simulator) (hsimulator : simulator.KeepsTo base s.config.layout runs good)
    (hsince : Files.Since base w.bench.files)
    {text : Bytes} (hconfig : Artifact.config.entry base s.config.layout r w.bench.files = some (.file (.bytes text)))
    (logger : Log.Logger) (record : RunRecord) :
    Steps.Ensures (Bears memory base s.config.layout r) (Acts memory base s.config.layout r)
      (fun result t => result.1.runId = record.runId ∧
        (result.2 = none → Logged s base good r text t.bench.files) ∧
        (result.2 ≠ none → Removable base s.config.layout r →
          (s.config.simulator.compress = true → Artifact.archive.entry base s.config.layout r t.bench.files =
            Artifact.archive.entry base s.config.layout r w.bench.files) ∧
          (s.config.simulator.compress = false → Free base s.config.layout r .failedLog →
            Artifact.log.entry base s.config.layout r t.bench.files = none)) ∧
        Stays memory base s.config.layout r (simulated s) w t)
      (simulate s simulator logger r record) w := by
  have hrefl := Bears.refl memory base s.config.layout r
  have hbase := hclear.wellFormed
  unfold simulate
  refine (ensures_onBench (hsimulator r hr w.bench hsince text hconfig)).bind hrefl ?_
  rintro fault t ⟨hgood, ht⟩
  have hsince' := hsince.trans ht.files.since
  have harchive : Artifact.archive.entry base s.config.layout r t.bench.files =
      Artifact.archive.entry base s.config.layout r w.bench.files := ht.entry hbase (by decide)
  have hlogs : [Artifact.log, .failedLog] ⊆ simulated s := by simp [simulated, hsimulates]
  have hmore : Stays memory base s.config.layout r (simulated s) w t := ht.mono fun _ ha => hlogs (by simp_all)
  -- A failed simulation ends with its log set aside, a good one with the log archived or left.
  cases fault with
  | some fault =>
      refine (setAside_works hclear hr hsince' logger).bind hrefl ?_
      rintro _ u ⟨haside, hu⟩
      refine Steps.ensures_pure fun v hv => ⟨rfl, by rintro ⟨⟩, fun _ hremovable => ⟨fun _ => ?_, fun _ hfree => ?_⟩,
        hmore.trans ((hu.mono hlogs).trans hv.stays)⟩
      · rw [hv.entry, hu.entry hbase (by decide), harchive]
      · rw [hv.entry, haside hremovable hfree]
  | none =>
      have hlog := hgood rfl
      dsimp only
      split
      next hcompress =>
        refine (archiveLog_works hclear hr hsince' record).weaken ?_
        rintro result u ⟨hid, hpacked, hkept, hu⟩
        have harchived : [Artifact.log, .archive, .archiveDraft] ⊆ simulated s := by
          simp [simulated, hsimulates, hcompress]
        refine ⟨hid, fun hnone => ?_, fun hsome hremovable => ⟨fun _ => ?_, ?_⟩, hmore.trans (hu.mono harchived)⟩
        · obtain ⟨content, time, bytes, hcontent, hbytes, hpack, hgone⟩ := hpacked hnone
          rw [Logged, if_pos hcompress]
          exact ⟨content, time, bytes, hcontent ▸ hlog, hbytes, hpack, hgone⟩
        · rw [hkept hsome hremovable, harchive]
        · intro hplain
          rw [hcompress] at hplain
          cases hplain
      next hcompress =>
        refine Steps.ensures_pure fun u hu => ⟨rfl, fun _ => ?_, fun h => absurd rfl h, hmore.trans hu.stays⟩
        rw [Logged, if_neg hcompress, hu.entry]
        exact hlog

/-- A run with a template renders its configuration and is simulated, or its mark is not set. -/
theorem renderAndSimulate_works (hclear : Clear base s.config.layout runs) (hr : r ∈ runs)
    (hsimulator : ∀ simulator ∈ s.simulator, simulator.KeepsTo base s.config.layout runs good)
    (template : Template) (hsince : Files.Since base w.bench.files) (logger : Log.Logger) (record : RunRecord) :
    Steps.Ensures (Bears memory base s.config.layout r) (Acts memory base s.config.layout r)
      (fun result t => result.1.runId = record.runId ∧
        (result.2 = none → Artifact.config.entry base s.config.layout r t.bench.files =
            some (.file (.bytes (template.render r.traceName))) ∧
          (s.simulator.isSome = true → Logged s base good r (template.render r.traceName) t.bench.files)) ∧
        (result.2 ≠ none → Retractable s (some template) base r →
          Unmarked s (some template) base r w.bench.files t.bench.files) ∧
        Stays memory base s.config.layout r ([Artifact.config, .configDraft] ++ simulated s) w t)
      (renderAndSimulate s template logger r record) w := by
  have hrefl := Bears.refl memory base s.config.layout r
  have hbase := hclear.wellFormed
  unfold renderAndSimulate
  refine (ensures_onFiles (write_works hclear hr hsince template)).bind hrefl ?_
  rintro fault t ⟨⟨hwritten, hblocked⟩, ht⟩
  have hmore : Stays memory base s.config.layout r ([Artifact.config, .configDraft] ++ simulated s) w t :=
    ht.mono (List.subset_append_left _ _)
  cases fault with
  | some fault =>
      obtain ⟨hsame, hnotFree⟩ := hblocked (by simp)
      refine Steps.ensures_pure fun u hu => ⟨rfl, by rintro ⟨⟩, fun _ _ => ⟨fun hmark => ?_, fun _ hfree => ?_⟩,
        hmore.trans hu.stays⟩
      · rwa [hu.entry, ht.markerOf_entry hbase (by decide) hsame] at hmark
      · exact absurd (hfree.2 .config (by simp)) (hnotFree (hfree.2 .configDraft (by simp)))
  | none =>
      have hconfig := hwritten rfl
      dsimp only
      cases hsimulates : s.simulator with
      | none =>
          refine Steps.ensures_pure fun u hu => ⟨rfl, fun _ => ⟨?_, by simp⟩, fun h => absurd rfl h,
            hmore.trans hu.stays⟩
          rw [hu.entry, hconfig]
      | some simulator =>
          refine (simulate_works hclear hr hsimulates (hsimulator simulator hsimulates)
            (hsince.trans ht.files.since) hconfig logger _).weaken ?_
          rintro result u ⟨hid, hlogged, hkept, hu⟩
          refine ⟨hid, fun hnone => ⟨?_, fun _ => hlogged hnone⟩, fun hsome hfailed => ?_,
            hmore.trans (hu.mono (List.subset_append_right _ _))⟩
          · rw [hu.entry hbase (notMem_simulated s (by decide)), hconfig]
          · obtain ⟨harchive, hlog⟩ := hkept hsome (hfailed.removable (by simp [hsimulates]))
            -- Which file is the mark depends on whether logs are compressed.
            by_cases hcompress : s.config.simulator.compress = true
            · have hmarker : markerOf s (some template) = .archive := by simp [markerOf, hsimulates, hcompress]
              refine ⟨fun hmark => ?_, fun hplain => ?_⟩
              · rw [hmarker] at hmark ⊢
                rwa [harchive hcompress, ht.entry hbase (by decide)] at hmark
              · rw [hmarker] at hplain
                cases hplain
            · have hmarker : markerOf s (some template) = .log := by simp [markerOf, hsimulates, hcompress]
              have hgone := hlog (Bool.eq_false_iff.mpr hcompress) (hfailed.aside hmarker)
              refine ⟨fun hmark => ?_, fun _ _ => ?_⟩
              · rw [hmarker] at hmark
                exact absurd hgone hmark
              · rw [hmarker, hgone]

/-- The work of a run completes its files, or its mark is not set. -/
theorem perform_works (hclear : Clear base s.config.layout runs) (hr : r ∈ runs)
    (hsimulator : ∀ simulator ∈ s.simulator, simulator.KeepsTo base s.config.layout runs good)
    {template : Option Template} (hsince : Files.Since base w.bench.files) (logger : Log.Logger) (startedAt : Instant) :
    Steps.Ensures (Bears memory base s.config.layout r) (Acts memory base s.config.layout r)
      (fun result t => result.1.runId = r.id ∧
        (result.2 = none → Complete s template base good r t.bench.files) ∧
        (result.2 ≠ none → Retractable s template base r →
          Unmarked s template base r w.bench.files t.bench.files) ∧
        Stays memory base s.config.layout r (reach s template) w t)
      (perform s template logger r (recordOf s r startedAt)) w := by
  have hrefl := Bears.refl memory base s.config.layout r
  have hbase := hclear.wellFormed
  unfold perform
  refine (ensures_onFiles (produce_works hclear hr hsince _ _ _)).bind hrefl ?_
  rintro ⟨stats, fault⟩ t ⟨⟨hproduced, hblocked⟩, ht⟩
  have hmore : Stays memory base s.config.layout r (reach s template) w t := ht.mono (List.subset_append_left _ _)
  cases fault with
  | some fault =>
      obtain ⟨hsame, hnotFree⟩ := hblocked (by simp)
      refine Steps.ensures_pure fun u hu => ⟨rfl, by rintro ⟨⟩, fun _ _ => ⟨fun hmark => ?_, fun _ hfree => ?_⟩,
        hmore.trans hu.stays⟩
      · rwa [hu.entry, ht.markerOf_entry hbase (by decide) hsame] at hmark
      · have hcreate : ∃ generator, Generator.create r.params (s.config.options (Seed.derive s.base r.id))
            (Pcg.ofSeed (Seed.derive s.base r.id)) = .ok generator := by
          obtain ⟨text, htext⟩ := Option.isSome_iff_exists.mp hfree.1
          obtain ⟨generator, hgenerator, -⟩ := mem_traceText.mp htext
          exact ⟨generator, hgenerator⟩
        exact absurd (hfree.2 .trace (by simp)) (hnotFree hcreate (hfree.2 .traceDraft (by simp)))
  | none =>
      obtain ⟨generator, hgenerator, htrace⟩ := hproduced rfl
      have htext : (generator.run .unlimited).1.toBytes ∈ traceText s r :=
        mem_traceText.mpr ⟨generator, hgenerator, rfl⟩
      refine (ensures_aside (keeps_common_note _ _ _ _)).bind hrefl ?_
      intro _ u hu
      have htrace' : Artifact.trace.entry base s.config.layout r u.bench.files =
          some (.file (.bytes (generator.run .unlimited).1.toBytes)) := by
        rw [hu.entry hbase (by simp), htrace]
      -- Without a template the trace is all there is to a run, and marks it.
      cases template with
      | none =>
          refine Steps.ensures_pure fun v hv =>
            ⟨rfl, fun _ => ⟨⟨_, htext, ?_⟩, by rintro _ ⟨⟩, by rintro _ ⟨⟩⟩, fun h => absurd rfl h,
            hmore.trans ((hu.mono (List.nil_subset _)).trans hv.stays)⟩
          rw [hv.entry, htrace']
      | some template =>
          have hsince' := hsince.trans (ht.files.since.trans hu.files.since)
          refine (renderAndSimulate_works hclear hr hsimulator template hsince' logger _).weaken ?_
          rintro result v ⟨hid, hdone, hkept, hv⟩
          have hrendered : [Artifact.config, .configDraft] ++ simulated s ⊆ reach s (some template) :=
            List.subset_append_right _ _
          refine ⟨hid, fun hnone => ⟨⟨_, htext, ?_⟩, ?_, ?_⟩,
            fun hsome hfailed => ⟨fun hmark => ?_, (hkept hsome hfailed).log⟩,
            hmore.trans ((hu.mono (List.nil_subset _)).trans (hv.mono hrendered))⟩
          · rw [hv.entry hbase (by simpa using notMem_simulated s (by decide)), htrace']
          · intro t ht
            obtain rfl := Option.some.inj ht
            exact (hdone hnone).1
          · intro t ht
            obtain rfl := Option.some.inj ht
            exact (hdone hnone).2
          · have hbefore := (hkept hsome hfailed).mark hmark
            rwa [hu.entry hbase (by simp), ht.entry hbase] at hbefore
            rcases markerOf_cases s (some template) with ⟨-, h⟩ | ⟨h, -⟩ | h | h
            · cases h
            all_goals simp [h]

end

end Sweep

end MobilitySweep
