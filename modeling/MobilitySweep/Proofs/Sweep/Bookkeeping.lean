import MobilitySweep.Proofs.Concurrency.Groups
import MobilitySweep.Proofs.Files.Veils
import MobilitySweep.Proofs.Sweep.Passes

/-! # Bookkeeping leaves no mark on a sweep

Records and events are written down beside the work of a sweep, and the sweep reads nothing of them back. With one
worker two sweeps that differ in their bookkeeping only come to the same report and the same failure, ask for the same
simulations in the same order and leave the same files but for the event logs, whichever records are refused and
whether events are kept, as long as simulators take no notice of the event logs. With more workers the bookkeeping can
still change whose turn comes when.
-/

namespace MobilitySweep

open Artifact (Among Owned)

/-! ## Files beside event logs -/

namespace Sweep

/-- The places of event logs with some paths. -/
def eventPlaces (base : Files) (paths : List Bytes) : List Place := paths.filterMap base.homeOf

/-- A tree in which some hidden places are none of those that runs act on: they are in directories and bear the name of
event logs, no links are in the way of the runs, and no directory is in the way of the log of a run. -/
structure Orderly (l : Layout) (runs : List Run) (hidden : List Place) (files : Files) : Prop where
  clear : Clear files l runs
  sheltered : Files.Sheltered hidden files
  named : ∀ place ∈ hidden, place.getLast? = some Event.fileName

/-- A tree that is clear for some runs and in which an event log is where it was in another tree. -/
structure Tended (base : Files) (l : Layout) (runs : List Run) (path : Bytes) (files : Files) : Prop where
  clear : Clear files l runs
  lodged : Files.Lodged files path (base.homeOf path)
  named : ∀ place ∈ base.homeOf path, place.getLast? = some Event.fileName

/-- A tree that is clear for some runs and in which event logs with some paths are where they were in another tree. If
there are no event logs, any tree is in order. -/
def Tidy (base : Files) (l : Layout) (runs : List Run) (paths : List Bytes) (files : Files) : Prop :=
  ∀ path ∈ paths, Tended base l runs path files

/-- Two trees in order that differ in what is in the event logs at most, and in when that was written. -/
structure SameButEvents (base : Files) (l : Layout) (runs : List Run) (paths : List Bytes) (files other : Files) :
    Prop where
  veiled : files.veiled (eventPlaces base paths) = other.veiled (eventPlaces base paths)
  left : Tidy base l runs paths files
  right : Tidy base l runs paths other

section

variable {base files other : Files} {l : Layout} {runs : List Run} {paths : List Bytes} {hidden : List Place} {r : Run}

theorem mem_eventPlaces {place : Place} : place ∈ eventPlaces base paths ↔ EventHome base paths place :=
  List.mem_filterMap

theorem Tended.since {path : Bytes} (h : Tended base l runs path files) (hsince : Files.Since files other) :
    Tended base l runs path other :=
  ⟨h.clear.since hsince, h.lodged.alike hsince, h.named⟩

theorem Tidy.since (h : Tidy base l runs paths files) (hsince : Files.Since files other) :
    Tidy base l runs paths other := fun path hpath => (h path hpath).since hsince

/-- A tree in order is one in which no run acts on an event log, if there is any. -/
theorem Tidy.orderly (h : Tidy base l runs paths files) (hpaths : paths ≠ []) :
    Orderly l runs (eventPlaces base paths) files := by
  obtain ⟨path, hpath⟩ := List.exists_mem_of_ne_nil paths hpaths
  refine ⟨(h path hpath).clear, fun place hplace => ?_, fun place hplace => ?_⟩
  · obtain ⟨path, hpath, hhome⟩ := mem_eventPlaces.mp hplace
    exact ((h path hpath).lodged.homed place hhome).inDirectory
  · obtain ⟨path, hpath, hhome⟩ := mem_eventPlaces.mp hplace
    exact (h path hpath).named place hhome

theorem Orderly.lodged (h : Orderly l runs hidden files) (hr : r ∈ runs) (a : Artifact) :
    Files.Lodged files (a.path l r) (a.home files l r) :=
  h.clear.lodged hr (Files.Alike.refl _ _) a

/-- No file of a run is hidden. -/
theorem Orderly.shown (h : Orderly l runs hidden files) (a : Artifact) : ∀ place ∈ a.home files l r, place ∉ hidden := by
  intro place hplace hhidden
  have hname := (Artifact.getLast?_home h.clear.wellFormed hplace).symm.trans (h.named place hhidden)
  exact name_ne_fileName a r (Option.some.inj hname)

theorem SameButEvents.symm (h : SameButEvents base l runs paths files other) :
    SameButEvents base l runs paths other files :=
  ⟨h.veiled.symm, h.right, h.left⟩

/-- A line behind what one of the event logs holds makes no further difference. -/
theorem SameButEvents.append {path : Bytes} (h : SameButEvents base l runs paths files other) (hpath : path ∈ paths)
    (line : Bytes) : SameButEvents base l runs paths (files.append path line) other := by
  have htended := h.left path hpath
  have hhidden := htended.lodged.append_hidden (fun place hplace => mem_eventPlaces.mpr ⟨path, hpath, hplace⟩) line
  exact ⟨hhidden.trans h.veiled, h.left.since (htended.lodged.append_alike htended.clear.wellFormed line).since, h.right⟩

/-- A program that does the same behind the veil in every orderly tree, and acts on files only, ends in trees that
differ as much as those in which it began, and with the same value. -/
theorem SameButEvents.run {α : Type} {p : Steps Files α} (h : SameButEvents base l runs paths files other)
    (hp : ∀ tree, Orderly l runs (eventPlaces base paths) tree →
      Files.Oblivious (eventPlaces base paths) p tree ∧ Files.Since tree (p.run tree).2) :
    (p.run files).1 = (p.run other).1 ∧ SameButEvents base l runs paths (p.run files).2 (p.run other).2 := by
  by_cases hpaths : paths = []
  · subst hpaths
    have hsame : files = other := by simpa [eventPlaces, Files.veiled_nil] using h.veiled
    subst hsame
    exact ⟨rfl, rfl, by rintro _ ⟨⟩, by rintro _ ⟨⟩⟩
  · obtain ⟨hleft, hsince⟩ := hp files (h.left.orderly hpaths)
    obtain ⟨hright, hsince'⟩ := hp other (h.right.orderly hpaths)
    have hend := hleft.symm.trans ((congrArg p.run h.veiled).trans hright)
    obtain ⟨hvalue, hveiled⟩ := Prod.mk.inj hend
    exact ⟨hvalue, hveiled, h.left.since hsince, h.right.since hsince'⟩

end

/-! ## Programs of a run on files -/

section

variable {l : Layout} {runs : List Run} {hidden : List Place} {files : Files} {r : Run}

/-- A text published as a file of a run. -/
theorem Orderly.publish (h : Orderly l runs hidden files) (hr : r ∈ runs) {a : Artifact} (draft : Artifact)
    (hdraft : draft.path l r = a.path l r ++ Archive.temporaryEnding) (text : Bytes) :
    Files.Oblivious hidden (publish (a.path l r) text) files :=
  Files.publish_oblivious h.clear.wellFormed h.sheltered (hdraft ▸ h.lodged hr draft) (h.lodged hr a) (h.shown draft)
    (h.shown a) text

theorem Orderly.produce (h : Orderly l runs hidden files) (hr : r ∈ runs) (p : Params) (o : Options) (source : Pcg) :
    Files.Oblivious hidden (Trace.produce (Artifact.trace.path l r) p o source) files ∧
      Files.Since files ((Trace.produce (Artifact.trace.path l r) p o source).run files).2 := by
  refine ⟨?_, Files.since_of_ensures (produce_works h.clear hr (Files.Alike.refl _ _) p o source)⟩
  unfold Trace.produce
  cases Generator.create p o source with
  | error cause => exact Files.oblivious_pure _ _
  | ok generator =>
      refine (h.publish hr .traceDraft rfl _).bind ?_
      split
      next => exact Files.oblivious_pure _ _
      next => split <;> exact Files.oblivious_pure _ _

theorem Orderly.write (h : Orderly l runs hidden files) (hr : r ∈ runs) (template : Template) :
    Files.Oblivious hidden (template.write (Artifact.config.path l r) r.traceName) files ∧
      Files.Since files ((template.write (Artifact.config.path l r) r.traceName).run files).2 := by
  refine ⟨?_, Files.since_of_ensures (write_works h.clear hr (Files.Alike.refl _ _) template)⟩
  exact (h.publish hr .configDraft rfl _).bind (Files.oblivious_pure _ _)

theorem Orderly.moveLog (h : Orderly l runs hidden files) (hr : r ∈ runs) :
    let move := Archive.attempt (·.rename (Artifact.log.path l r) (Artifact.log.path l r ++ failedEnding))
    Files.Oblivious hidden move files ∧ Files.Since files (move.run files).2 := by
  intro move
  have hloose : ∀ place ∈ Artifact.log.home files l r, files.IsLoose place :=
    fun place hplace => h.clear.log_isLoose hr (Files.Alike.refl _ _) hplace
  refine ⟨Files.oblivious_attempt ((h.lodged hr .log).rename_veiled (h.lodged hr .failedLog) h.clear.wellFormed
    h.sheltered hloose (h.shown .log) (h.shown .failedLog)), ?_⟩
  by_cases hlog : Artifact.log.entry files l r files = none
  · have hmissing : ∀ place ∈ Artifact.log.home files l r, files.get? place = none := fun place hplace =>
      (Artifact.entry_of_home hplace files).symm.trans hlog
    have hsame : (move.run files).2 = files := (h.lodged hr .log).rename_missing hmissing _
    rw [hsame]
    exact Files.Alike.refl _ _
  · exact Files.since_of_ensures (moveLog_works h.clear hr (Files.Alike.refl _ _) hlog)

theorem Orderly.compress (h : Orderly l runs hidden files) (hr : r ∈ runs) :
    Files.Oblivious hidden (Archive.compress (Artifact.log.path l r)) files ∧
      Files.Since files ((Archive.compress (Artifact.log.path l r)).run files).2 := by
  have hwell := h.clear.wellFormed
  refine ⟨Files.compress_oblivious hwell h.sheltered (h.lodged hr .log) (h.lodged hr .archive) (h.lodged hr .archiveDraft)
    (h.shown .log) (h.shown .archive) (h.shown .archiveDraft), ?_⟩
  have hmine (a : Artifact) : ∀ place ∈ a.home files l r, Owned files l r place := fun place hplace => ⟨a, hplace⟩
  exact Files.since_of_ensures (Files.compress_ensures hwell (h.lodged hr .log) (h.lodged hr .archive)
    (h.lodged hr .archiveDraft) (Artifact.home_ne hwell (by decide)) (Artifact.home_ne hwell (by decide))
    (Artifact.home_ne hwell (by decide)) (hmine .log) (hmine .archive) (hmine .archiveDraft))

/-- A look at files of which nothing hidden shows. -/
theorem oblivious_look {α : Type} {view : Files → α} (h : view (files.veiled hidden) = view files) :
    Files.Oblivious hidden (Steps.look view) files ∧ Files.Since files ((Steps.look view).run files).2 :=
  ⟨Files.oblivious_look h, Files.Alike.refl _ _⟩

theorem Orderly.checksum (h : Orderly l runs hidden files) (hr : r ∈ runs) (a : Artifact) :
    Archive.checksum (files.veiled hidden) (a.path l r) = Archive.checksum files (a.path l r) := by
  simp only [Archive.checksum, Files.openFile, (h.lodged hr a).stat_veiled (h.shown a)]

end

end Sweep

/-! ## Worlds beside each other -/

/-- Benches that are the same, their files as far as a relation tells. -/
structure Bench.Beside (same : Files → Files → Prop) (b b' : Bench) : Prop where
  files : same b.files b'.files
  interrupted : b.interrupted = b'.interrupted
  failure : b.failure = b'.failure
  calls : b.calls = b'.calls

namespace World

variable {κ κ' α : Type} {same before after : Files → Files → Prop} {paths : List Bytes}

/-- Worlds that are the same as far as a sweep works with them, but for what is told of files: their keepers, their
event logs, which have some paths at most, and their operational logs are their own. -/
structure Beside (same : Files → Files → Prop) (paths : List Bytes) (w : World κ) (t : World κ') : Prop where
  bench : w.bench.Beside same t.bench
  clock : w.clock = t.clock
  tally : w.tally = t.tally
  left : w.eventPaths ⊆ paths
  right : t.eventPaths ⊆ paths

/-- Programs that cannot be told apart on worlds beside each other, wherever they are interrupted. -/
abbrev Agree (paths : List Bytes) (before after : Files → Files → Prop) (p : Steps (World κ) α)
    (q : Steps (World κ') α) : Prop :=
  Steps.Mirrors (Beside before paths) (Beside after paths) interrupt interrupt p q

theorem Beside.mono {w : World κ} {t : World κ'} (h : Beside before paths w t)
    (hsame : ∀ files other, before files other → after files other) : Beside after paths w t :=
  { h with bench := { h.bench with files := hsame _ _ h.bench.files } }

theorem Beside.interrupt {w : World κ} {t : World κ'} (h : Beside same paths w t) :
    Beside same paths w.interrupt t.interrupt :=
  { h with bench := { h.bench with interrupted := rfl } }

/-- A program on the bench that takes no notice of what may differ there. -/
theorem onBench_agree {p : Steps Bench α} (h : p.Overlooks (Bench.Beside same)) :
    Agree paths same same (onBench p : Steps (World κ) α) (onBench p : Steps (World κ') α) :=
  Steps.Overlooks.mirrors (fun _ _ => Beside.interrupt) (fun _ _ hbeside => hbeside.bench)
    (fun _ _ _ _ hbeside hbench => { hbeside with bench := hbench }) h

/-- A world with other files. -/
def withFiles (w : World κ) (files : Files) : World κ := { w with bench := { w.bench with files := files } }

theorem Beside.withFiles {w : World κ} {t : World κ'} (h : Beside before paths w t) {files other : Files}
    (hsame : after files other) : Beside after paths (w.withFiles files) (t.withFiles other) :=
  { h with bench := { h.bench with files := hsame } }

theorem onFiles_eq (p : Steps Files α) :
    (onFiles p : Steps (World κ) α) = p.onPart (·.bench.files) withFiles := Steps.onPart_onPart _ _ _ _ p

theorem run_onFiles (p : Steps Files α) (w : World κ) :
    (onFiles p).run w = ((p.run w.bench.files).1, w.withFiles (p.run w.bench.files).2) := by
  rw [onFiles_eq]
  refine Steps.run_onPart ?_ ?_ ?_ p w
  · exact fun _ _ => rfl
  · exact fun _ _ _ => rfl
  · exact fun _ => rfl

/-- A program on the files does not notice an interruption, which shows elsewhere. -/
theorem runStruck_onFiles (p : Steps Files α) {moment : Nat} {w : World κ} (h : moment < (onFiles p).length w) :
    (onFiles p).runStruck World.interrupt moment w =
      ((p.run w.bench.files).1, w.interrupt.withFiles (p.run w.bench.files).2) := by
  rw [onFiles_eq] at h ⊢
  refine Steps.runStruck_onPart ?_ ?_ ?_ ?_ p h
  · exact fun _ _ => rfl
  · exact fun _ _ _ => rfl
  · exact fun _ => rfl
  · exact fun _ _ => rfl

theorem onFiles_agree {p : Steps Files α} (h : ∀ files other, before files other →
    (p.run files).1 = (p.run other).1 ∧ after (p.run files).2 (p.run other).2) :
    Agree paths before after (onFiles p : Steps (World κ) α) (onFiles p : Steps (World κ') α) := by
  refine ⟨fun w t hbeside => ?_, fun w t hbeside moment hmoment => ⟨0, ?_, ?_⟩⟩
  · obtain ⟨hvalue, hfiles⟩ := h _ _ hbeside.bench.files
    rw [run_onFiles, run_onFiles]
    exact ⟨hvalue, hbeside.withFiles hfiles⟩
  · cases p with
    | done value => exact absurd hmoment (Nat.not_lt_zero _)
    | step act next => exact Nat.succ_pos _
  · cases p with
    | done value => exact absurd hmoment (Nat.not_lt_zero _)
    | step act next =>
        obtain ⟨hvalue, hfiles⟩ := h _ _ hbeside.bench.files
        rw [runStruck_onFiles _ hmoment, runStruck_onFiles _ (Nat.succ_pos _)]
        exact ⟨hvalue, hbeside.interrupt.withFiles hfiles⟩

theorem now_agree : Agree paths same same (now : Steps (World κ) Instant) (now : Steps (World κ') Instant) := by
  refine Steps.mirrors_act (fun _ _ => Beside.interrupt) fun w t h => ⟨?_, ?_⟩
  · dsimp only
    rw [h.clock]
  · exact ⟨h.bench, congrArg (fun clock : Clock => clock.read.2) h.clock, h.tally, h.left, h.right⟩

theorem count_agree (f : Tally → Tally) :
    Agree paths same same (count f : Steps (World κ) Unit) (count f : Steps (World κ') Unit) :=
  Steps.mirrors_change (fun _ _ => Beside.interrupt) fun _ _ h => { h with tally := congrArg f h.tally }

theorem look_agree {view : World κ → α} {view' : World κ' → α}
    (h : ∀ w t, Beside same paths w t → view w = view' t) :
    Agree paths same same (Steps.look view) (Steps.look view') :=
  Steps.mirrors_look (fun _ _ => Beside.interrupt) h

/-- What a world shows to its sweep, and the paths of its event log. -/
def shown (w : World κ) : Bench × Clock × Tally × List Bytes := (w.bench, w.clock, w.tally, w.eventPaths)

theorem Beside.of_shown {w u : World κ} {t v : World κ'} (h : Beside same paths w t) (hw : u.shown = w.shown)
    (ht : v.shown = t.shown) : Beside same paths u v := by
  simp only [shown, Prod.mk.injEq] at hw ht
  obtain ⟨hbench, hclock, htally, hpaths⟩ := hw
  obtain ⟨hbench', hclock', htally', hpaths'⟩ := ht
  exact ⟨hbench ▸ hbench' ▸ h.bench, hclock ▸ hclock' ▸ h.clock, htally ▸ htally' ▸ h.tally, hpaths ▸ h.left,
    hpaths' ▸ h.right⟩

/-- What keeps what a world shows does not show on the one beside it. -/
theorem unseen_of_keeps {p : Steps (World κ) α} (h : p.Keeps shown) :
    p.Unseen fun (w : World κ) (t : World κ') => Beside same paths w t :=
  h.unseen fun _ _ _ hview hbeside => hbeside.of_shown hview rfl

theorem Beside.symm {w : World κ} {t : World κ'} (h : Beside same paths w t) :
    Beside (fun files other => same other files) paths t w :=
  ⟨⟨h.bench.files, h.bench.interrupted.symm, h.bench.failure.symm, h.bench.calls.symm⟩, h.clock.symm, h.tally.symm,
    h.right, h.left⟩

/-- Programs that keep what their worlds show mirror each other if each of them takes some steps. -/
theorem agree_of_keeps {p : Steps (World κ) Unit} {q : Steps (World κ') Unit} (hp : p.Keeps shown)
    (hq : q.Keeps shown) (hpos : ∀ t, 0 < q.length t) : Agree paths same same p q :=
  Steps.mirrors_of_unseen (fun _ _ => Beside.interrupt) (unseen_of_keeps hp)
    (hq.unseen fun _ _ _ hview hbeside => hbeside.of_shown rfl hview) hpos

theorem note_keeps_shown (logger : Log.Logger) (level : Log.Level) (message : Bytes)
    (attributes : List (Bytes × Log.Value)) :
    (note logger level message attributes : Steps (World κ) Unit).Keeps shown := by
  refine Steps.keeps_change fun w => ?_
  split <;> rfl

/-- A record may be refused or not: the warning about a refusal goes to the operational log. -/
theorem record_keeps_shown [Recorder κ] (logger : Log.Logger) (write : Ledger.Write) :
    (record logger write : Steps (World κ) Unit).Keeps shown := by
  refine Steps.Keeps.bind (fun _ => ⟨rfl, trivial⟩) fun refusal => ?_
  cases refusal with
  | some fault => exact note_keeps_shown _ _ _ _
  | none => exact Steps.keeps_pure ()

theorem note_agree (logger : Log.Logger) (level : Log.Level) (message : Bytes)
    (attributes : List (Bytes × Log.Value)) :
    Agree paths same same (note logger level message attributes : Steps (World κ) Unit)
      (note logger level message attributes : Steps (World κ') Unit) :=
  agree_of_keeps (note_keeps_shown _ _ _ _) (note_keeps_shown _ _ _ _) fun _ => Nat.one_pos

/-- Two keepers may answer a write differently. -/
theorem record_agree [Recorder κ] [Recorder κ'] (logger : Log.Logger) (write : Ledger.Write) :
    Agree paths same same (record logger write : Steps (World κ) Unit) (record logger write : Steps (World κ') Unit) :=
  agree_of_keeps (record_keeps_shown _ _) (record_keeps_shown _ _) fun _ => Nat.succ_pos _

/-- An event shows in the file of the event log only. -/
theorem told_bench (w : World κ) (kind runId : Bytes) (fields : List (Bytes × Json)) :
    let t := w.told kind runId fields
    t.bench = { w.bench with files := t.bench.files } ∧ t.clock = w.clock ∧ t.tally = w.tally := by
  unfold told
  split <;> exact ⟨rfl, rfl, rfl⟩

variable {base : Files} {l : Layout} {runs : List Run}

theorem Beside.told {w : World κ} {t : World κ'} (h : Beside (Sweep.SameButEvents base l runs paths) paths w t)
    (kind runId : Bytes) (fields : List (Bytes × Json)) :
    Beside (Sweep.SameButEvents base l runs paths) paths (w.told kind runId fields) t := by
  obtain ⟨hbench, hclock, htally⟩ := told_bench w kind runId fields
  refine ⟨?_, hclock.trans h.clock, htally.trans h.tally, told_eventPaths w kind runId fields ▸ h.left, h.right⟩
  rw [hbench]
  refine { h.bench with files := ?_ }
  rcases told_files w kind runId fields with hsame | ⟨path, hpath, line, hsame⟩
  · rw [hsame]
    exact h.bench.files
  · rw [hsame]
    exact h.bench.files.append (h.left hpath) line

/-- One of the worlds may tell its event log what the other one does not. -/
theorem event_agree (kind runId : Bytes) (fields : List (Bytes × Json)) :
    Agree paths (Sweep.SameButEvents base l runs paths) (Sweep.SameButEvents base l runs paths)
      (event kind runId fields : Steps (World κ) Unit) (event kind runId fields : Steps (World κ') Unit) := by
  refine Steps.mirrors_of_unseen (fun _ _ => Beside.interrupt) ?_ ?_ fun _ => Nat.one_pos
  · exact Steps.unseen_change fun _ _ hbeside => hbeside.told kind runId fields
  · refine Steps.unseen_change fun w t hbeside => ?_
    have hflipped : Beside (Sweep.SameButEvents base l runs paths) paths w t :=
      hbeside.symm.mono fun _ _ => Sweep.SameButEvents.symm
    exact (hflipped.told kind runId fields).symm.mono fun _ _ => Sweep.SameButEvents.symm

end World

/-- Whether a simulator takes no notice of event logs with some paths when it is asked for the runs of a plan, nor makes
links or directories that would be in the way. -/
def Simulator.Overlooks (simulator : Simulator) (base : Files) (l : Layout) (runs : List Run) (paths : List Bytes) :
    Prop :=
  ∀ r ∈ runs, (simulator (l.configRelative r) (l.logRelative r)).Overlooks
    (Bench.Beside (Sweep.SameButEvents base l runs paths))

namespace Sweep

open World

variable {κ κ' : Type} {s : Setup} {base : Files} {paths : List Bytes} {r : Run}

/-- Programs of a sweep that cannot be told apart where trees differ in what is in event logs with
some paths at most. -/
abbrev Agrees {α : Type} (s : Setup) (base : Files) (paths : List Bytes) (p : Steps (World κ) α)
    (q : Steps (World κ') α) : Prop :=
  Agree paths (SameButEvents base s.config.layout s.runs paths) (SameButEvents base s.config.layout s.runs paths) p q

/-! ## A run -/

section

/-- A program on files that does the same behind the veil. -/
theorem onFiles_agrees {α : Type} {p : Steps Files α}
    (hp : ∀ tree, Orderly s.config.layout s.runs (eventPlaces base paths) tree →
      Files.Oblivious (eventPlaces base paths) p tree ∧ Files.Since tree (p.run tree).2) :
    Agrees s base paths (onFiles p : Steps (World κ) α) (onFiles p : Steps (World κ') α) :=
  onFiles_agree fun _ _ h => h.run hp

theorem agrees_pure {α : Type} (value : α) :
    Agrees s base paths (pure value : Steps (World κ) α) (pure value : Steps (World κ') α) :=
  Steps.mirrors_pure value fun _ _ => id

theorem exists_agrees (path : Bytes) :
    Agrees s base paths (onFiles (Steps.look (·.exists? path)) : Steps (World κ) Bool)
      (onFiles (Steps.look (·.exists? path)) : Steps (World κ') Bool) :=
  onFiles_agrees fun _ _ => oblivious_look (Files.exists?_veiled path)

theorem setAside_agrees (hr : r ∈ s.runs) (logger : Log.Logger) :
    Agrees s base paths (setAside logger (Artifact.log.path s.config.layout r) : Steps (World κ) Unit)
      (setAside logger (Artifact.log.path s.config.layout r) : Steps (World κ') Unit) := by
  unfold setAside
  refine (exists_agrees _).bind fun found => ?_
  cases found with
  | false => exact agrees_pure ()
  | true =>
      refine (onFiles_agrees fun _ horderly => horderly.moveLog hr).bind fun fault => ?_
      cases fault with
      | some fault => exact note_agree _ _ _ _
      | none => exact agrees_pure ()

/-- A log that is compressed without a failure has its archive beside it. -/
theorem compress_yields (path : Bytes) :
    (Archive.compress path).Yields fun result => result.2 = none → result.1 = Archive.pathFor path := by
  have hfault : ∀ (archive : Bytes) (fault : Fault),
      (pure (archive, some fault) : Steps Files (Bytes × Option Fault)).Yields fun result =>
        result.2 = none → result.1 = Archive.pathFor path := fun _ _ => Steps.yields_pure (by rintro ⟨⟩)
  unfold Archive.compress
  refine Steps.yields_bind _ ?_
  rintro ⟨opened, written⟩
  cases opened with
  | error fault => exact hfault _ _
  | ok opened =>
      refine Steps.yields_bind _ fun created => ?_
      cases created with
      | some fault => exact hfault _ _
      | none =>
          refine Steps.yields_bind _ ?_
          rintro ⟨left, time⟩
          dsimp only
          split
          next => exact Steps.yields_bind _ fun _ => hfault _ _
          next =>
            refine Steps.yields_bind _ fun _ => Steps.yields_bind _ fun renamed => ?_
            cases renamed with
            | some fault => exact Steps.yields_bind _ fun _ => hfault _ _
            | none =>
                refine Steps.yields_bind _ fun removed => ?_
                cases removed with
                | some fault => exact hfault _ _
                | none => exact Steps.yields_pure fun _ => rfl

theorem archiveLog_agrees (hr : r ∈ s.runs) (record : RunRecord) :
    Agrees s base paths
      (archiveLog (Artifact.log.path s.config.layout r) record : Steps (World κ) (RunRecord × Option Fault))
      (archiveLog (Artifact.log.path s.config.layout r) record : Steps (World κ') (RunRecord × Option Fault)) := by
  unfold archiveLog
  refine (onFiles_agrees fun _ horderly => horderly.compress hr).bind_yields (compress_yields _).onPart.onPart ?_
  rintro ⟨archive, fault⟩ harchive
  cases fault with
  | some fault => exact agrees_pure _
  | none =>
      obtain rfl := harchive rfl
      refine Steps.Mirrors.bind (onFiles_agrees fun _ horderly => oblivious_look (horderly.checksum hr .archive)) ?_
      intro sum
      cases sum with
      | error fault => exact agrees_pure _
      | ok sum => exact agrees_pure _

theorem simulate_agrees {simulator : Simulator} (hsimulator : simulator.Overlooks base s.config.layout s.runs paths)
    (hr : r ∈ s.runs) (logger : Log.Logger) (record : RunRecord) :
    Agrees s base paths (simulate s simulator logger r record : Steps (World κ) (RunRecord × Option Fault))
      (simulate s simulator logger r record : Steps (World κ') (RunRecord × Option Fault)) := by
  unfold simulate
  refine (onBench_agree (hsimulator r hr)).bind fun fault => ?_
  cases fault with
  | some fault => exact (setAside_agrees hr _).bind fun _ => agrees_pure _
  | none =>
      dsimp only
      split
      next => exact archiveLog_agrees hr _
      next => exact agrees_pure _

theorem renderAndSimulate_agrees
    (hsimulator : ∀ simulator ∈ s.simulator, simulator.Overlooks base s.config.layout s.runs paths) (hr : r ∈ s.runs)
    (template : Template) (logger : Log.Logger) (record : RunRecord) :
    Agrees s base paths
      (renderAndSimulate s template logger r record : Steps (World κ) (RunRecord × Option Fault))
      (renderAndSimulate s template logger r record : Steps (World κ') (RunRecord × Option Fault)) := by
  unfold renderAndSimulate
  refine Steps.Mirrors.bind (onFiles_agrees fun _ horderly => horderly.write hr template) fun fault => ?_
  cases fault with
  | some fault => exact agrees_pure _
  | none =>
      dsimp only
      split
      next simulator hin => exact simulate_agrees (hsimulator simulator hin) hr _ _
      next => exact agrees_pure _

theorem perform_agrees
    (hsimulator : ∀ simulator ∈ s.simulator, simulator.Overlooks base s.config.layout s.runs paths) (hr : r ∈ s.runs)
    (template : Option Template) (logger : Log.Logger) (record : RunRecord)
    (hpath : record.tracePath = Artifact.trace.path s.config.layout r) :
    Agrees s base paths (perform s template logger r record : Steps (World κ) (RunRecord × Option Fault))
      (perform s template logger r record : Steps (World κ') (RunRecord × Option Fault)) := by
  unfold perform
  rw [hpath]
  refine Steps.Mirrors.bind (onFiles_agrees fun _ horderly => horderly.produce hr _ _ _) ?_
  rintro ⟨stats, fault⟩
  cases fault with
  | some fault => exact agrees_pure _
  | none =>
      refine (note_agree _ _ _ _).bind fun _ => ?_
      cases template with
      | some template => exact renderAndSimulate_agrees hsimulator hr template _ _
      | none => exact agrees_pure _

variable [Recorder κ] [Recorder κ']

theorem skip_agrees (logger : Log.Logger) (path : Bytes) (record : RunRecord) :
    Agrees s base paths (skip s logger r path record : Steps (World κ) (Option Fault))
      (skip s logger r path record : Steps (World κ') (Option Fault)) := by
  unfold skip
  refine (note_agree _ _ _ _).bind fun _ => ?_
  refine (record_agree _ _).bind fun _ => ?_
  refine (event_agree _ _ _).bind fun _ => ?_
  exact (count_agree _).bind fun _ => agrees_pure none

/-- What `perform` has filled in goes on record, and nothing of it comes back. -/
theorem launch_agrees
    (hsimulator : ∀ simulator ∈ s.simulator, simulator.Overlooks base s.config.layout s.runs paths) (hr : r ∈ s.runs)
    (template : Option Template) (logger : Log.Logger) (record : RunRecord)
    (hpath : record.tracePath = Artifact.trace.path s.config.layout r) :
    Agrees s base paths (launch s template logger r record : Steps (World κ) (Option Fault))
      (launch s template logger r record : Steps (World κ') (Option Fault)) := by
  unfold launch
  refine (note_agree _ _ _ _).bind fun _ => ?_
  refine (record_agree _ _).bind fun _ => ?_
  refine (event_agree _ _ _).bind fun _ => ?_
  refine (perform_agrees hsimulator hr template logger record hpath).bind ?_
  rintro ⟨last, fault⟩
  refine now_agree.bind fun _ => ?_
  cases fault with
  | some fault =>
      refine (record_agree _ _).bind fun _ => ?_
      refine (event_agree _ _ _).bind fun _ => ?_
      refine (note_agree _ _ _ _).bind fun _ => ?_
      exact (count_agree _).bind fun _ => agrees_pure _
  | none =>
      refine (record_agree _ _).bind fun _ => ?_
      refine (event_agree _ _ _).bind fun _ => ?_
      refine (note_agree _ _ _ _).bind fun _ => ?_
      exact (count_agree _).bind fun _ => agrees_pure _

theorem execute_agrees
    (hsimulator : ∀ simulator ∈ s.simulator, simulator.Overlooks base s.config.layout s.runs paths) (hr : r ∈ s.runs)
    (template : Option Template) :
    Agrees s base paths (execute s template r : Steps (World κ) (Option Fault))
      (execute s template r : Steps (World κ') (Option Fault)) := by
  unfold execute
  refine now_agree.bind fun startedAt => ?_
  have hrest (logger : Log.Logger) (done : Bool) :
      Agrees s base paths
        (if done then skip s logger r (marker s template r) (recordOf s r startedAt)
          else launch s template logger r (recordOf s r startedAt) : Steps (World κ) (Option Fault))
        (if done then skip s logger r (marker s template r) (recordOf s r startedAt)
          else launch s template logger r (recordOf s r startedAt) : Steps (World κ') (Option Fault)) := by
    cases done with
    | true => exact skip_agrees logger _ _
    | false => exact launch_agrees hsimulator hr template logger _ rfl
  dsimp only
  split
  next => exact (exists_agrees _).bind (hrest _)
  next => exact hrest _ false

theorem task_agrees
    (hsimulator : ∀ simulator ∈ s.simulator, simulator.Overlooks base s.config.layout s.runs paths)
    (template : Option Template) (hr : r ∈ s.runs) :
    Agrees s base paths (task s template r : Steps (World κ) (Option Fault))
      (task s template r : Steps (World κ') (Option Fault)) := by
  unfold task
  refine Steps.Mirrors.bind (look_agree fun w t hbeside => ?_) fun cancelled => ?_
  · rw [Bench.cancelled, Bench.cancelled, hbeside.bench.interrupted, hbeside.bench.failure]
  · cases cancelled with
    | true => exact agrees_pure _
    | false => exact execute_agrees hsimulator hr template

/-! ## A sweep -/

/-- With one worker a schedule has nothing to choose. -/
theorem runCombination_agrees (hworkers : s.config.sweep.workers = 1)
    (hsimulator : ∀ simulator ∈ s.simulator, simulator.Overlooks base s.config.layout s.runs paths)
    (template : Option Template) (schedule schedule' : List Nat) {p : Params}
    (hplanned : ∀ r ∈ Plan.repetitions p s.config.sweep.repetitions, r ∈ s.runs) :
    Agrees s base paths (runCombination s template schedule p : Steps (World κ) (Option Fault))
      (runCombination s template schedule' p : Steps (World κ') (Option Fault)) := by
  have hlimit : s.config.sweep.workers.toInt.toNat = 1 := by rw [hworkers]; rfl
  unfold runCombination
  rw [hlimit, Group.interleaved_one _ schedule _ _ (by simp), Group.interleaved_one _ schedule' _ _ (by simp)]
  have hreset : Agrees s base paths
      (Steps.change fun (w : World κ) => { w with bench := { w.bench with failure := none } })
      (Steps.change fun (w : World κ') => { w with bench := { w.bench with failure := none } }) :=
    Steps.mirrors_change (fun _ _ => Beside.interrupt) fun _ _ h =>
      { h with bench := { h.bench with failure := rfl } }
  refine hreset.bind fun _ => ?_
  refine Steps.Mirrors.bind ?_ fun _ => look_agree fun _ _ hbeside => hbeside.bench.failure
  refine Group.inTurn_mirrors (fun _ _ => Beside.interrupt) (fun outcome w t h => ?_) fun r hr =>
    task_agrees hsimulator template (hplanned r hr)
  exact { h with bench := { h.bench with failure := congrArg (Option.or · outcome) h.bench.failure } }

theorem runCombinations_agrees (hworkers : s.config.sweep.workers = 1)
    (hsimulator : ∀ simulator ∈ s.simulator, simulator.Overlooks base s.config.layout s.runs paths)
    (template : Option Template) (schedules schedules' : List (List Nat)) (combinations : List Params)
    (hplanned : ∀ r ∈ Plan.runs combinations s.config.sweep.repetitions, r ∈ s.runs) :
    Agrees s base paths (runCombinations s template schedules combinations : Steps (World κ) (Option Fault))
      (runCombinations s template schedules' combinations : Steps (World κ') (Option Fault)) := by
  induction combinations generalizing schedules schedules' with
  | nil => exact agrees_pure none
  | cons p rest ih =>
      unfold runCombinations
      refine Steps.Mirrors.bind (look_agree fun _ _ hbeside => hbeside.bench.interrupted) fun interrupted => ?_
      cases interrupted with
      | true => exact agrees_pure _
      | false =>
          have hfirst : ∀ r ∈ Plan.repetitions p s.config.sweep.repetitions, r ∈ s.runs :=
            fun r hr => hplanned r (List.mem_append_left _ hr)
          refine (runCombination_agrees hworkers hsimulator template _ _ hfirst).bind fun fault => ?_
          cases fault with
          | some fault => exact agrees_pure _
          | none => exact ih _ _ fun r hr => hplanned r (List.mem_append_right _ hr)

theorem announce_agrees (startedAt : Instant) :
    Agrees s base paths (announce s startedAt : Steps (World κ) Unit) (announce s startedAt : Steps (World κ') Unit) := by
  unfold announce
  refine (record_agree _ _).bind fun _ => ?_
  exact (note_agree _ _ _ _).bind fun _ => event_agree _ _ _

theorem conclude_agrees (startedAt : Instant) (fault : Option Fault) :
    Agrees s base paths (conclude s startedAt fault : Steps (World κ) Report)
      (conclude s startedAt fault : Steps (World κ') Report) := by
  unfold conclude
  refine Steps.Mirrors.bind (look_agree fun _ _ hbeside => hbeside.tally) fun tally => ?_
  refine now_agree.bind fun finishedAt => ?_
  refine Steps.Mirrors.bind (look_agree fun _ _ hbeside => hbeside.bench.interrupted) fun interrupted => ?_
  refine now_agree.bind fun recordedAt => ?_
  refine (record_agree _ _).bind fun _ => ?_
  refine (event_agree _ _ _).bind fun _ => ?_
  exact (note_agree _ _ _ _).bind fun _ => agrees_pure _

/-- Two trees that are both a given one. -/
def Both (tree files other : Files) : Prop := files = tree ∧ other = tree

omit [Recorder κ] [Recorder κ'] in
/-- A look at one tree by two worlds. -/
theorem look_both {α : Type} {tree : Files} (view : Files → α) :
    Agree paths (Both tree) (Both tree) (onFiles (Steps.look view) : Steps (World κ) α)
      (onFiles (Steps.look view) : Steps (World κ') α) := by
  refine onFiles_agree ?_
  rintro _ _ ⟨rfl, rfl⟩
  exact ⟨rfl, rfl, rfl⟩

omit [Recorder κ] [Recorder κ'] in
theorem loadTemplate_agree {tree : Files} :
    Agree paths (Both tree) (Both tree) (loadTemplate s : Steps (World κ) (Except Fault (Option Template)))
      (loadTemplate s : Steps (World κ') (Except Fault (Option Template))) := by
  unfold loadTemplate
  refine (look_both _).bind fun found => ?_
  split
  next => exact (note_agree _ _ _ _).bind fun _ => Steps.mirrors_pure _ fun _ _ => id
  next => exact (look_both _).bind fun _ => Steps.mirrors_pure _ fun _ _ => id

/-- With one worker neither keeper nor event log changes what a sweep does, nor what comes of an interruption: before
the first event there is one tree only. -/
theorem run_agree (hworkers : s.config.sweep.workers = 1) {files : Files}
    (hbase : (s.config.layout.provision files).1 = base)
    (hsame : SameButEvents base s.config.layout s.runs paths base base)
    (hsimulator : ∀ simulator ∈ s.simulator, simulator.Overlooks base s.config.layout s.runs paths)
    (schedules schedules' : List (List Nat)) :
    Agree paths (Both files) (SameButEvents base s.config.layout s.runs paths)
      (run s schedules : Steps (World κ) (Report × Option Fault))
      (run s schedules' : Steps (World κ') (Report × Option Fault)) := by
  have hprovision : Agree paths (Both files) (Both base)
      (onFiles (Archive.attempt s.config.layout.provision) : Steps (World κ) (Option Fault))
      (onFiles (Archive.attempt s.config.layout.provision) : Steps (World κ') (Option Fault)) := by
    refine onFiles_agree ?_
    rintro _ _ ⟨rfl, rfl⟩
    exact ⟨rfl, hbase, hbase⟩
  have hstart : ∀ (w : World κ) (t : World κ'), Beside (Both base) paths w t →
      Beside (SameButEvents base s.config.layout s.runs paths) paths w t := by
    refine fun w t h => h.mono ?_
    rintro _ _ ⟨rfl, rfl⟩
    exact hsame
  unfold run
  refine now_agree.bind fun startedAt => ?_
  refine hprovision.bind fun fault => ?_
  cases fault with
  | some fault => exact Steps.mirrors_pure _ hstart
  | none =>
      refine loadTemplate_agree.bind fun loaded => ?_
      cases loaded with
      | error fault => exact Steps.mirrors_pure _ hstart
      | ok template =>
          refine Steps.Mirrors.mono ?_ hstart fun _ _ => id
          refine (announce_agrees startedAt).bind fun _ => ?_
          refine (runCombinations_agrees hworkers hsimulator template schedules schedules' _ fun _ => id).bind
            fun fault => ?_
          exact (conclude_agrees startedAt fault).bind fun _ => agrees_pure _

end

/-- Whether two executions of a sweep come to the same but for what is in event logs with some paths: to the same report
and the same failure, to the same simulations asked for in the same order, and to the same tree behind the veil, with
the same files of every planned run. -/
structure Unswayed (s : Setup) (base : Files) (paths : List Bytes) (ended : (Report × Option Fault) × World κ)
    (ended' : (Report × Option Fault) × World κ') : Prop where
  outcome : ended.1 = ended'.1
  bench : ended.2.bench.Beside
    (fun files other => files.veiled (eventPlaces base paths) = other.veiled (eventPlaces base paths)) ended'.2.bench
  artifacts : ∀ r ∈ s.runs, ∀ a : Artifact, ended.2.bench.files.contentAt (a.path s.config.layout r) =
    ended'.2.bench.files.contentAt (a.path s.config.layout r)

/-- Trees that differ in event logs at most have the same files of runs. -/
theorem SameButEvents.contentAt {files other : Files}
    (h : SameButEvents base s.config.layout s.runs paths files other) (hr : r ∈ s.runs) (a : Artifact) :
    files.contentAt (a.path s.config.layout r) = other.contentAt (a.path s.config.layout r) := by
  by_cases hpaths : paths = []
  · subst hpaths
    have hsame : files = other := by simpa [eventPlaces, Files.veiled_nil] using h.veiled
    rw [hsame]
  · have hleft := h.left.orderly hpaths
    have hright := h.right.orderly hpaths
    rw [← (hleft.lodged hr a).contentAt_veiled (hleft.shown a), h.veiled,
      (hright.lodged hr a).contentAt_veiled (hright.shown a)]

/-- A tree in which event logs with some paths are filed. -/
theorem SameButEvents.refl {l : Layout} {runs : List Run} (hclear : paths ≠ [] → Clear base l runs)
    (hfiled : FiledAt base paths) : SameButEvents base l runs paths base base := by
  have horder : Tidy base l runs paths base := by
    intro path hpath
    have hclear' := hclear (List.ne_nil_of_mem hpath)
    refine ⟨hclear', (hfiled path hpath).lodged hclear'.wellFormed, fun place hplace => ?_⟩
    exact (Files.resolve_homeOf hclear'.wellFormed plain_fileName (hfiled path hpath).named hplace).1
  exact ⟨rfl, horder, horder⟩

/-- Where no event log is open, every simulator takes no notice of it. -/
theorem overlooks_nil (simulator : Simulator) (base : Files) (l : Layout) (runs : List Run) :
    simulator.Overlooks base l runs [] := by
  refine fun r _ => Steps.Overlooks.mono_eq ?_ ?_ _
  · rintro ⟨files, interrupted, failure, calls⟩ ⟨files', _, _, _⟩ ⟨hfiles, rfl, rfl, rfl⟩
    have hsame : files = files' := by simpa [eventPlaces, Files.veiled_nil] using hfiles.veiled
    rw [hsame]
  · exact fun b => ⟨⟨rfl, by rintro _ ⟨⟩, by rintro _ ⟨⟩⟩, rfl, rfl, rfl⟩

/-- A text written as a log where trees differ in event logs. -/
theorem SameButEvents.writeLog {l : Layout} {runs : List Run} {files other : Files}
    (h : SameButEvents base l runs paths files other) (hr : r ∈ runs) (text : Bytes) :
    (files.writeFile (Artifact.log.path l r) text).2 = (other.writeFile (Artifact.log.path l r) text).2 ∧
      SameButEvents base l runs paths (files.writeFile (Artifact.log.path l r) text).1
        (other.writeFile (Artifact.log.path l r) text).1 := by
  refine h.run (p := Archive.attempt (·.writeFile (Artifact.log.path l r) text)) fun tree horderly => ⟨?_, ?_⟩
  · exact Files.oblivious_attempt ((horderly.lodged hr .log).writeFile_veiled horderly.clear.wellFormed
      (horderly.shown .log) text)
  · exact ((horderly.lodged hr .log).writeFile horderly.clear.wellFormed text).1.since

/-- A simulator that follows a script takes no notice of event logs. -/
theorem scripted_overlooks {l : Layout} {runs : List Run} (script : ScriptedSimulator) (hroot : script.root = l.root) :
    script.simulator.Overlooks base l runs paths := by
  refine fun r hr => Steps.overlooks_act fun b b' hbeside => ?_
  have hpath : Path.join [script.root, l.logRelative r] = Artifact.log.path l r := by rw [hroot]; rfl
  have hwritten (text : Bytes) := hbeside.files.writeLog hr text
  have hcalls (call : Bytes × Bytes) : call :: b.calls = call :: b'.calls := congrArg (call :: ·) hbeside.calls
  simp only [ScriptedSimulator.simulate, ScriptedSimulator.writeLog, hpath]
  split
  next => exact ⟨rfl, { hbeside with calls := hcalls _ }⟩
  next =>
    split
    next => exact ⟨rfl, (hwritten _).2, hbeside.interrupted, hbeside.failure, hcalls _⟩
    next =>
      split
      next => exact ⟨rfl, hbeside.files, rfl, hbeside.failure, hcalls _⟩
      next =>
        split
        next => exact ⟨rfl, { hbeside with calls := hcalls _ }⟩
        next =>
          exact ⟨(hwritten _).1, (hwritten _).2, hbeside.interrupted, hbeside.failure, hcalls _⟩

/-- The site with an event log. -/
def notedSite : Files := (site.writeFile "events.jsonl" "").1

/-- The event log of the site. -/
def siteEvents : EventLog := ⟨"events.jsonl", "sweep", true, ⟨.zero, 1⟩, []⟩

/-- A simulator that gives out the event log for the log of the run. -/
def eavesdropper : Simulator := fun config log =>
  .act fun bench =>
    let text := match bench.files.contentAt "events.jsonl" with
      | .ok content => content.toBytes
      | .error _ => []
    let (files, fault) := bench.files.writeFile log text
    (fault, { bench with files := files, calls := (config, log) :: bench.calls })

end Sweep

end MobilitySweep
