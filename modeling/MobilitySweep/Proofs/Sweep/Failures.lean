import MobilitySweep.Proofs.Files.Provisioning
import MobilitySweep.Proofs.Sweep.Passes

/-! # Failed runs are not taken for finished ones

A pass that resumes skips a run when the file that marks it as done is there. A run that failed in the pass before
has not left that file, unless it was there already when that pass did not care to look.
-/

namespace MobilitySweep

/-- The status with which a write puts the end of a run on record. -/
def Ledger.Write.ending? : Ledger.Write → Option Bytes
  | .finish run => some run.status
  | .beginSweep _ | .endSweep _ _ _ | .start _ | .skip _ => none

/-- A keeper beside which every write is kept, in order. -/
structure Journal (κ : Type) where
  keeper : κ
  writes : List Ledger.Write

instance {κ : Type} [Recorder κ] : Recorder (Journal κ) :=
  ⟨fun journal write =>
    let (keeper, fault) := Recorder.record journal.keeper write
    (⟨keeper, journal.writes ++ [write]⟩, fault)⟩

/-- The configuration with resuming on. -/
def Config.resuming (c : Config) : Config := { c with sweep := { c.sweep with resume := true } }

namespace Sweep

/-- Whether a run is put on record as ended with a status. -/
def Ended (status : Bytes) (writes : List Ledger.Write) : Prop := ∃ write ∈ writes, write.ending? = some status

instance (status : Bytes) (writes : List Ledger.Write) : Decidable (Ended status writes) :=
  inferInstanceAs (Decidable (∃ write ∈ writes, write.ending? = some status))

/-- Whether a run is put on record as skipped only after it has succeeded. -/
def SkipsOnlyFinished (writes : List Ledger.Write) : Prop :=
  ∀ before record after, writes = before ++ .skip record :: after → Ended RunStatus.succeeded before

section

variable {status : Bytes} {writes : List Ledger.Write} {first last record : RunRecord}

theorem ended_finish : Ended status (writes ++ [Ledger.Write.start first, .finish last]) ↔
    Ended status writes ∨ last.status = status := by
  simp [Ended, or_and_right, exists_or, Ledger.Write.ending?]

theorem ended_skip : Ended status (writes ++ [Ledger.Write.skip record]) ↔ Ended status writes := by
  simp [Ended, or_and_right, exists_or, Ledger.Write.ending?]

theorem SkipsOnlyFinished.snoc (h : SkipsOnlyFinished writes) {write : Ledger.Write}
    (hwrite : ∀ record, write = .skip record → Ended RunStatus.succeeded writes) :
    SkipsOnlyFinished (writes ++ [write]) := by
  intro before record after heq
  rcases List.eq_nil_or_concat after with rfl | ⟨rest, final, rfl⟩
  · obtain ⟨rfl, hskip⟩ := List.append_inj' heq rfl
    exact hwrite record (List.singleton_injective hskip)
  · rw [List.concat_eq_append, ← List.cons_append, ← List.append_assoc] at heq
    exact h before record rest (List.append_inj' heq rfl).1

theorem SkipsOnlyFinished.finish (h : SkipsOnlyFinished writes) :
    SkipsOnlyFinished (writes ++ [Ledger.Write.start first, .finish last]) := by
  rw [← List.singleton_append, ← List.append_assoc]
  exact (h.snoc (by simp)).snoc (by simp)

end

section

variable {κ : Type} {s : Setup} {template : Option Template} {base : Files} {was : Run → Prop}

/-- The writes about a run in the journal. -/
abbrev journalOf (r : Run) (w : World (Journal κ)) : List Ledger.Write := writesAbout Journal.writes r w

/-- What journal and files tell of a run whose mark was there, or not, when the pass began: a mark stands for a run
that was done before or has succeeded since, and the mark of a failed run that was looked for, or that is a plain
log, has been set by another turn that succeeded. -/
structure Honest (s : Setup) (template : Option Template) (base : Files) (was : Run → Prop) (r : Run)
    (w : World (Journal κ)) : Prop where
  mark : (markerOf s template).entry base s.config.layout r w.bench.files ≠ none →
    was r ∨ Ended RunStatus.succeeded (journalOf r w)
  failed : s.config.sweep.resume = true ∨ markerOf s template = .log ∧ Unblocked s base r →
    Ended RunStatus.failed (journalOf r w) →
    (markerOf s template).entry base s.config.layout r w.bench.files ≠ none →
    Ended RunStatus.succeeded (journalOf r w)
  skipped : ¬ was r → SkipsOnlyFinished (journalOf r w)

theorem honest_isOwn (hbase : base.WellFormed) :
    IsOwn Journal.writes base s.config.layout (Honest s template base was : Run → World (Journal κ) → Prop) := by
  intro r w t hstays h
  have hentry : (markerOf s template).entry base s.config.layout r t.bench.files =
      (markerOf s template).entry base s.config.layout r w.bench.files := hstays.entry hbase (by simp)
  refine ⟨?_, ?_, ?_⟩
  · rw [hentry, journalOf, hstays.memory]
    exact h.mark
  · rw [hentry, journalOf, hstays.memory]
    exact h.failed
  · rw [journalOf, hstays.memory]
    exact h.skipped

variable {good : Run → Bytes → Option Entry → Prop} {r : Run} {w t : World (Journal κ)} {result : Option Fault}

theorem succeeded_ne_failed : RunStatus.succeeded ≠ RunStatus.failed := by decide +kernel

/-- Every turn of a run keeps its account honest. -/
theorem Honest.turn (hbase : base.WellFormed) (h : Honest s template base was r w)
    (hfailed : Retractable s template base r)
    (hturn : Turn s template base good Journal.writes true r w t result) : Honest s template base was r t := by
  cases hturn with
  | cancelled fault hstays => exact honest_isOwn hbase r w t hstays h
  | skipped record hresume hmark hfiles hmemory =>
      simp only [List.filter_true] at hmemory
      refine ⟨?_, ?_, fun hnew => ?_⟩
      · rw [hfiles, journalOf, hmemory, ended_skip]
        exact h.mark
      · rw [hfiles, journalOf, hmemory, ended_skip, ended_skip]
        exact h.failed
      · rw [journalOf, hmemory]
        exact (h.skipped hnew).snoc fun _ _ => (h.mark hmark).resolve_left hnew
  | succeeded first last hstatus hmark hcomplete hkept hmemory =>
      simp only [List.filter_true] at hmemory
      have hended : Ended RunStatus.succeeded (journalOf r t) := by
        rw [journalOf, hmemory, ended_finish]
        exact Or.inr hstatus
      refine ⟨fun _ => Or.inr hended, fun _ _ _ => hended, fun hnew => ?_⟩
      rw [journalOf, hmemory]
      exact (h.skipped hnew).finish
  | failed first last fault hstatus hmark hunmarked hmemory =>
      simp only [List.filter_true] at hmemory
      have hsame : Ended RunStatus.succeeded (journalOf r t) ↔ Ended RunStatus.succeeded (journalOf r w) := by
        rw [journalOf, hmemory, ended_finish, hstatus]
        exact or_iff_left succeeded_ne_failed.symm
      refine ⟨fun hthere => ?_, fun hlooked _ hthere => ?_, fun hnew => ?_⟩
      · rw [hsame]
        exact h.mark ((hunmarked hfailed).mark hthere)
      · rcases hlooked with hresume | ⟨hplain, hfree⟩
        · exact absurd (hmark hresume) ((hunmarked hfailed).mark hthere)
        · exact absurd ((hunmarked hfailed).log hplain hfree) hthere
      · rw [journalOf, hmemory]
        exact (h.skipped hnew).finish

end

/-! ## Two passes -/

section

variable {κ : Type} [Recorder κ] {c : Config} {base files : Files} {template : Option Template}
  {good : Run → Bytes → Option Entry → Prop} {paths : List Bytes}

theorem remembers_writes : Remembers (Journal.writes : Journal κ → List Ledger.Write) true := fun _ _ => rfl

omit [Recorder κ] in
theorem journalOf_start (files : Files) {journal : Journal κ} (h : journal.writes = []) (events : Option EventLog)
    (clock : Clock) (r : Run) : journalOf r (World.start files journal events clock) = [] := by
  simp [journalOf, writesAbout, World.start, h]

/-- A pass keeps the account of every planned run honest. -/
theorem Pass.honest (p : Pass (Journal κ)) (hblank : p.keeper.writes = []) (hclear : Clear base c.layout c.runs)
    (hpaths : p.eventPaths ⊆ paths) (hfiled : FiledAt base paths)
    (hsimulator : ∀ simulator ∈ p.simulator, simulator.KeepsTo base c.layout c.runs good)
    (hbase : Files.Alike (MayChange (p.setup c) base paths) base (c.layout.provision files).1)
    (htemplate : (c.layout.provision files).2 = none → ∀ t,
      templateOf (p.setup c) (c.layout.provision files).1 = .ok t → t = template)
    (hfailed : ∀ r ∈ c.runs, Retractable (p.setup c) template base r) :
    Files.Alike (MayChange (p.setup c) base paths) base (p.run c files).2.bench.files ∧
      ∀ r ∈ c.runs, Honest (p.setup c) template base (fun r =>
        (markerOf (p.setup c) template).entry base c.layout r (c.layout.provision files).1 ≠ none) r
        (p.run c files).2 := by
  have hown : IsOwn Journal.writes base (p.setup c).config.layout (Honest (p.setup c) template base (fun r =>
      (markerOf (p.setup c) template).entry base c.layout r (c.layout.provision files).1 ≠ none) :
        Run → World (Journal κ) → Prop) := honest_isOwn hclear.wellFormed
  have hkept := p.keeps (c := c) _ (fun _ _ => True) (fun _ _ => True) remembers_writes hclear.wellFormed hown hpaths
    hfiled hbase ?_ ?_ fun _ _ => trivial
  · exact ⟨hkept.1, hkept.2.1⟩
  · intro hprovision t ht
    obtain rfl := htemplate hprovision t ht
    have hthis : FiledAt base p.eventPaths := fun path hpath => hfiled path (hpaths hpath)
    refine .of_turns remembers_writes hclear.toUnlinked hthis hsimulator hown (fun _ _ _ _ => id) (fun _ _ _ _ => id)
      (fun r hr _ _ _ => hclear.noDirectory r hr) fun r hr w t result hsteady hturn => ⟨?_, fun _ _ => ⟨trivial, trivial⟩⟩
    exact hsteady.turn hclear.wellFormed (hfailed r hr) hturn
  · intro r _
    have hnothing := journalOf_start (c.layout.provision files).1 hblank p.events p.clock r
    refine ⟨Or.inl, fun _ hended => ?_, fun _ before record after heq => ?_⟩
    · simp [hnothing, Ended] at hended
    · simp [hnothing] at heq

/-- A pass that does not come to its runs leaves no account of them. -/
theorem Pass.silent (p : Pass (Journal κ)) (hblank : p.keeper.writes = []) (hwell : base.WellFormed)
    (hpaths : p.eventPaths ⊆ paths) (hfiled : FiledAt base paths)
    (hbase : Files.Alike (MayChange (p.setup c) base paths) base (c.layout.provision files).1)
    (hstopped : (c.layout.provision files).2 = none → ∀ t,
      templateOf (p.setup c) (c.layout.provision files).1 ≠ .ok t) :
    ∀ r ∈ c.runs, journalOf r (p.run c files).2 = [] := by
  have hkept := p.keeps (fun r w => journalOf r w = []) (fun _ _ => True) (fun _ _ => True) remembers_writes hwell ?_
    hpaths hfiled hbase ?_ ?_ fun _ _ => trivial
  · exact hkept.2.1
  · exact fun r w t hstays hnothing => hstays.memory.trans hnothing
  · exact fun hprovision t ht => absurd ht (hstopped hprovision t)
  · exact fun r _ => journalOf_start _ hblank _ _ r

end

/-- A journal without any writes. -/
def blankJournal : Journal Unit := ⟨(), []⟩

/-- The site with an archive that an earlier sweep has left. -/
def staleSite : Files := ((Config.standard.layout.provision site).1.writeFile "results/log1_0_1_0.txt.gz" "stale").1

/-- The place of the log. -/
def logPlace : Place := ["site", "results", "log1_0_1_0.txt"]

/-- The site with a log that nobody may take away. -/
def pinnedSite : Files :=
  { ((Config.standard.layout.provision site).1.writeFile "results/log1_0_1_0.txt" "old").1 with pinned := [logPlace] }

/-- The site with a log that has the name for the log of a failed simulation as another name. -/
def twofoldSite : Files :=
  ((Config.standard.layout.provision site).1.writeFile "results/log1_0_1_0.txt" "old").1.share logPlace
    ["site", "results", "log1_0_1_0.txt.failed"]

theorem not_skipsOnlyFinished (record : RunRecord) (h : writes = [.skip record]) : ¬ SkipsOnlyFinished writes := by
  intro honly
  obtain ⟨write, hwrite, -⟩ := honly [] record [] h
  cases hwrite

/-- Whether the run of a configuration fails when some simulations do, and is skipped all the same by a pass that
resumes on what is left of it. -/
def SkipsFailed (c : Config) (files : Files) (failures : List (Bytes × Bytes)) : Prop :=
  let first := (scriptedPass blankJournal failures).run c files
  let second := (scriptedPass blankJournal []).run c.resuming first.2.bench.files
  c.validate = .ok () ∧ Ended RunStatus.failed (journalOf theRun first.2) ∧
    ¬ SkipsOnlyFinished (journalOf theRun second.2)

theorem skipsFailed_of_skip {c : Config} {files : Files} {failures : List (Bytes × Bytes)} (record : RunRecord)
    (h : let first := (scriptedPass blankJournal failures).run c files
      let second := (scriptedPass blankJournal []).run c.resuming first.2.bench.files
      c.validate = .ok () ∧ Ended RunStatus.failed (journalOf theRun first.2) ∧
        journalOf theRun second.2 = [.skip record]) : SkipsFailed c files failures :=
  ⟨h.1, h.2.1, not_skipsOnlyFinished record h.2.2⟩

end Sweep

end MobilitySweep
