import MobilitySweep.Proofs.Files.Publishing
import MobilitySweep.Proofs.Sweep.Artifacts
import MobilitySweep.Proofs.Sweep.Opening

/-! # What belongs to a run

A run works on its own files and has its own writes recorded; what it tells the event log of a sweep comes into a file
that is no run's. What it does leaves the files and the records of every other run alone, so that a run among others
finds its own as it left them.
-/

namespace MobilitySweep

/-- The run that a write is about. -/
def Ledger.Write.runId? : Ledger.Write → Option Bytes
  | .beginSweep _ | .endSweep _ _ _ => none
  | .start run | .finish run | .skip run => some run.runId

namespace Artifact

/-- What is at the home of a file of a run. -/
def entry (base : Files) (l : Layout) (r : Run) (a : Artifact) (files : Files) : Option Entry :=
  (a.home base l r).bind files.get?

theorem entry_of_home {base : Files} {l : Layout} {r : Run} {a : Artifact} {place : Place}
    (h : place ∈ a.home base l r) (files : Files) : a.entry base l r files = files.get? place := by
  rw [entry, Option.mem_def.mp h, Option.bind_some]

/-- Whether a place is the home of one of some files of a run. -/
def Among (base : Files) (l : Layout) (r : Run) (touched : List Artifact) (place : Place) : Prop :=
  ∃ a ∈ touched, place ∈ a.home base l r

section

variable {base : Files} {l : Layout} {r : Run} {a : Artifact} {files other : Files}

theorem entry_eq_some {e : Entry} :
    a.entry base l r files = some e ↔ ∃ place ∈ a.home base l r, files.get? place = some e := by
  simp [entry, Option.bind_eq_some_iff]

theorem entry_ne_none : a.entry base l r files ≠ none ↔ ∃ place ∈ a.home base l r, files.get? place ≠ none := by
  unfold entry
  cases a.home base l r <;> simp

theorem entry_congr (h : ∀ place ∈ a.home base l r, other.get? place = files.get? place) :
    a.entry base l r other = a.entry base l r files := by
  unfold entry
  cases hhome : a.home base l r with
  | none => rfl
  | some place => exact h place hhome

theorem Among.owned {touched : List Artifact} {place : Place} (h : Among base l r touched place) :
    Owned base l r place := by
  obtain ⟨a, -, ha⟩ := h
  exact ⟨a, ha⟩

/-- What is not touched stays as it is. -/
theorem entry_alike (hbase : base.WellFormed) {touched : List Artifact}
    (h : Files.Alike (fun place => Among base l r touched place ∨ ¬ Owned base l r place) files other)
    (ha : a ∉ touched) : a.entry base l r other = a.entry base l r files := by
  refine entry_congr fun place hplace => h.outside place ?_
  rintro (⟨b, hb, hplace'⟩ | hnot)
  · exact ha ((home_inj hbase hplace hplace').1 ▸ hb)
  · exact hnot ⟨a, hplace⟩

end

end Artifact

/-- The paths that an event log writes to, if there is one: one that is closed writes nothing. -/
def EventLog.openPaths (events : Option EventLog) : List Bytes := (events.filter (·.isOpen)).toList.map (·.path)

/-- Where the open event log of a sweep is, if it has one. -/
def World.eventPaths {κ : Type} (w : World κ) : List Bytes := EventLog.openPaths w.events

section

variable {κ : Type} (w : World κ) (kind runId : Bytes) (fields : List (Bytes × Json))

theorem World.told_eventPaths : (w.told kind runId fields).eventPaths = w.eventPaths := by
  cases hevents : w.events with
  | none => simp only [World.eventPaths, World.told, hevents]
  | some log =>
      obtain ⟨hpath, hopen⟩ := log.told_keeps kind runId fields
      simp only [World.eventPaths, World.told, hevents, EventLog.openPaths, EventLog.log_snd, Option.filter_some, hopen]
      split <;> simp [hpath]

/-- An event makes no difference to the files, or it comes behind what the file of an open log holds. -/
theorem World.told_files : (w.told kind runId fields).bench.files = w.bench.files ∨
    ∃ path ∈ w.eventPaths, ∃ line, (w.told kind runId fields).bench.files = w.bench.files.append path line := by
  unfold World.told
  cases hevents : w.events with
  | none => exact Or.inl rfl
  | some log =>
      dsimp only [EventLog.log]
      cases hline : log.line? kind runId fields with
      | none => exact Or.inl rfl
      | some line =>
          have hopen : log.isOpen = true := by
            by_contra hclosed
            simp [EventLog.line?, hclosed] at hline
          exact Or.inr ⟨log.path, by simp [World.eventPaths, EventLog.openPaths, hevents, hopen], line, rfl⟩

theorem World.told_failure : (w.told kind runId fields).bench.failure = w.bench.failure := by
  unfold World.told
  split <;> rfl

theorem World.told_keeper : (w.told kind runId fields).keeper = w.keeper := by
  unfold World.told
  split <;> rfl

end

/-- What the runs of a sweep have in common: the keeper of records, the failure noted of them, the files, and the place
of the event log. -/
def World.common {κ : Type} (w : World κ) : κ × Option Fault × Files × List Bytes :=
  (w.keeper, w.bench.failure, w.bench.files, w.eventPaths)

namespace Sweep

open Artifact (Owned Among)

variable {κ : Type}

/-- A tree in which no link is at the name of a file of some runs, be it a symbolic one or one of several names. -/
structure Unlinked (base : Files) (l : Layout) (runs : List Run) : Prop where
  wellFormed : base.WellFormed
  noLink : ∀ r ∈ runs, ∀ (a : Artifact) target, base.linkStat (a.path l r) ≠ .ok (.link target)
  sole : ∀ r ∈ runs, ∀ a : Artifact, ∀ place ∈ a.home base l r, base.IsSole place

/-- A tree in which neither a link is at the name of a file of some runs nor a directory at that of a log. -/
structure Clear (base : Files) (l : Layout) (runs : List Run) : Prop extends Unlinked base l runs where
  noDirectory : ∀ r ∈ runs, base.linkStat (Artifact.log.path l r) ≠ .ok .directory

/-- A tree with nothing at all at the names of files of some runs. -/
def Bare (base : Files) (l : Layout) (runs : List Run) : Prop :=
  ∀ r ∈ runs, ∀ a : Artifact, (base.linkStat (a.path l r)).toOption = none

instance (base : Files) (l : Layout) (runs : List Run) : Decidable (Bare base l runs) :=
  inferInstanceAs (Decidable (∀ r ∈ runs, ∀ a : Artifact, (base.linkStat (a.path l r)).toOption = none))

section

variable {base files : Files} {l : Layout} {runs : List Run} {r : Run}

theorem Bare.linkStat_ne (h : Bare base l runs) (hr : r ∈ runs) (a : Artifact) (entry : Entry) :
    base.linkStat (a.path l r) ≠ .ok entry := by
  intro hentry
  have hnone := h r hr a
  rw [hentry] at hnone
  cases hnone

/-- Where nothing is at the names of files, nothing is at their homes. -/
theorem Bare.get? (h : Bare base l runs) (hbase : base.WellFormed) (hr : r ∈ runs) {a : Artifact} {place : Place}
    (hplace : place ∈ a.home base l r) : base.get? place = none := by
  have hresolve := Artifact.resolve_home hbase hplace
  cases hentry : base.get? place with
  | none => rfl
  | some entry =>
      rw [Files.spotAt, hentry] at hresolve
      exact absurd (Files.linkStat_of_resolve hresolve) (h.linkStat_ne hr a entry)

theorem Bare.clear (h : Bare base l runs) (hbase : base.WellFormed) : Clear base l runs where
  wellFormed := hbase
  noLink _ hr a _ := h.linkStat_ne hr a _
  sole _ hr _ _ hplace := hbase.isSole (by rw [h.get? hbase hr hplace]; rfl)
  noDirectory _ hr := h.linkStat_ne hr .log _

theorem Unlinked.lodged (h : Unlinked base l runs) (hr : r ∈ runs) (hsince : Files.Since base files) (a : Artifact) :
    Files.Lodged files (a.path l r) (a.home base l r) :=
  (Artifact.lodged_home h.wellFormed (h.noLink r hr a) (h.sole r hr a)).alike hsince

theorem Unlinked.clear (h : Unlinked base l runs)
    (hlog : ∀ r ∈ runs, base.linkStat (Artifact.log.path l r) ≠ .ok .directory) : Clear base l runs :=
  ⟨h, hlog⟩

theorem Unlinked.singleton (h : Unlinked base l runs) (hr : r ∈ runs) : Unlinked base l [r] :=
  ⟨h.wellFormed, fun x hx => h.noLink x (List.mem_singleton.mp hx ▸ hr),
    fun x hx => h.sole x (List.mem_singleton.mp hx ▸ hr)⟩

/-- A file of a run exists when there is something at its home. -/
theorem Unlinked.exists?_iff (h : Unlinked base l runs) (hr : r ∈ runs) (hsince : Files.Since base files)
    (a : Artifact) : files.exists? (a.path l r) = true ↔ a.entry base l r files ≠ none := by
  rw [(h.lodged hr hsince a).exists?_iff, Artifact.entry_ne_none]

/-- There is nothing but a file at the home of a log. -/
theorem Clear.log_isLoose (h : Clear base l runs) (hr : r ∈ runs) (hsince : Files.Since base files) {place : Place}
    (hplace : place ∈ Artifact.log.home base l r) : files.IsLoose place := by
  have hhomed := (h.lodged hr (Files.Alike.refl _ _) .log).homed place hplace
  refine hsince.isLoose.mpr ?_
  rcases hhomed.directory_or_isLoose with hdirectory | hloose
  · have hresolve := hhomed.resolves false
    rw [Files.spotAt, hdirectory] at hresolve
    exact absurd (Files.linkStat_of_resolve hresolve) (h.noDirectory r hr)
  · exact hloose

/-- Whatever happens to files, a tree stays clear. -/
theorem Clear.since (h : Clear base l runs) (hsince : Files.Since base files) : Clear files l runs := by
  have hlodged : ∀ r ∈ runs, ∀ a : Artifact, Files.Lodged files (a.path l r) (a.home base l r) :=
    fun r hr a => h.lodged hr hsince a
  have hhome : ∀ r ∈ runs, ∀ a : Artifact, a.home files l r = a.home base l r :=
    fun r hr a => (hlodged r hr a).homeOf_eq
  refine ⟨⟨hsince.wellFormed.mp h.wellFormed, fun r hr a target => ?_, fun r hr a place hplace => ?_⟩, fun r hr => ?_⟩
  · exact (hlodged r hr a).linkStat_ne_link target
  · exact ((hlodged r hr a).homed place (hhome r hr a ▸ hplace)).sole
  · intro hdirectory
    obtain ⟨place, hplace, hthere⟩ := (hlodged r hr .log).linkStat_eq_ok hdirectory
    exact (hsince.isLoose.mpr (h.log_isLoose hr (Files.Alike.refl _ _) hplace)).ne_directory hthere

end

/-! ## What runs share -/

theorem keeps_common_note (logger : Log.Logger) (level : Log.Level) (message : Bytes)
    (attributes : List (Bytes × Log.Value)) :
    (World.note logger level message attributes : Steps (World κ) Unit).Keeps World.common := by
  refine Steps.keeps_change fun w => ?_
  split <;> rfl

theorem keeps_common_now : (World.now : Steps (World κ) Instant).Keeps World.common := fun _ => ⟨rfl, trivial⟩

theorem keeps_common_count (f : Tally → Tally) : (World.count f : Steps (World κ) Unit).Keeps World.common :=
  fun _ => ⟨rfl, trivial⟩

/-! ## Event files -/

/-- Whether a place is the home of an event log with one of some paths. -/
def EventHome (base : Files) (paths : List Bytes) (place : Place) : Prop := ∃ path ∈ paths, place ∈ base.homeOf path

/-- An event log that has its usual name in a tree, at which no link is, be it a symbolic one or
one of several names. -/
structure Filed (base : Files) (path : Bytes) : Prop where
  named : Path.EndsIn Event.fileName path
  noLink : ∀ target, base.linkStat path ≠ .ok (.link target)
  sole : ∀ place ∈ base.homeOf path, base.IsSole place

theorem plain_fileName : Path.Plain Event.fileName := by decide +kernel

theorem Filed.lodged {base : Files} {path : Bytes} (h : Filed base path) (hbase : base.WellFormed) :
    Files.Lodged base path (base.homeOf path) :=
  Files.lodged_homeOf hbase plain_fileName h.named h.noLink h.sole

/-- No file of a run has the name of an event log. -/
theorem name_ne_fileName (a : Artifact) (r : Run) : a.name r ≠ Event.fileName := by
  have hfirst : a.stem.head? ≠ Event.fileName.head? := by cases a <;> decide +kernel
  intro hname
  refine hfirst ?_
  rw [← hname, Artifact.name, List.append_assoc]
  cases a <;> rfl

/-- No file of a run is where an event log is. -/
theorem Filed.not_owned {base : Files} {path : Bytes} (h : Filed base path) (hbase : base.WellFormed) {l : Layout}
    {r : Run} {place : Place} (hplace : place ∈ base.homeOf path) : ¬ Owned base l r place := by
  rintro ⟨a, ha⟩
  have hnamed := (Files.resolve_homeOf hbase plain_fileName h.named hplace).1
  exact name_ne_fileName a r (Option.some.inj ((Artifact.getLast?_home hbase ha).symm.trans hnamed))

/-- Whether all of some event logs are filed. -/
abbrev FiledAt (base : Files) (paths : List Bytes) : Prop := ∀ path ∈ paths, Filed base path

theorem FiledAt.not_owned {base : Files} {paths : List Bytes} (h : FiledAt base paths) (hbase : base.WellFormed)
    {l : Layout} {r : Run} {place : Place} (hnoted : EventHome base paths place) : ¬ Owned base l r place := by
  obtain ⟨path, hpath, hplace⟩ := hnoted
  exact (h path hpath).not_owned hbase hplace

/-- A world that a sweep may have come to since it had a tree, told to the event log with a path, if there is one. -/
structure Later (base : Files) (paths : List Bytes) (w : World κ) : Prop where
  files : Files.Since base w.bench.files
  eventPaths : w.eventPaths = paths

/-- What an event changes: the file of the event log. -/
structure Hears (base : Files) (w w' : World κ) : Prop where
  files : Files.Alike (EventHome base w.eventPaths) w.bench.files w'.bench.files
  failure : w'.bench.failure = w.bench.failure
  keeper : w'.keeper = w.keeper
  eventPaths : w'.eventPaths = w.eventPaths

/-- An event comes into the file of the event log. -/
theorem Later.hears {base : Files} {paths : List Bytes} {w : World κ} (h : Later base paths w)
    (hbase : base.WellFormed) (hfiled : FiledAt base paths) (kind runId : Bytes) (fields : List (Bytes × Json)) :
    Hears base w (w.told kind runId fields) := by
  obtain ⟨hfiles, rfl⟩ := h
  refine ⟨?_, World.told_failure w kind runId fields, World.told_keeper w kind runId fields,
    World.told_eventPaths w kind runId fields⟩
  rcases World.told_files w kind runId fields with hsame | ⟨path, hpath, line, hsame⟩
  · rw [hsame]
    exact Files.Alike.refl _ _
  · rw [hsame]
    refine ((((hfiled path hpath).lodged hbase).alike hfiles).append_alike (hfiles.wellFormed.mp hbase) line).mono ?_
    exact fun place hplace => ⟨path, hpath, hplace⟩

/-! ## Bounds -/

/-- The writes about a run that a keeper remembers. -/
def writesAbout (memory : κ → List Ledger.Write) (r : Run) (w : World κ) : List Ledger.Write :=
  (memory w.keeper).filter (·.runId? = some r.id)

/-- Whether a place is the home of an event log with one of some paths, and no file of a run is there. -/
def EventsOnly (base : Files) (l : Layout) (paths : List Bytes) (place : Place) : Prop :=
  EventHome base paths place ∧ ∀ r, ¬ Owned base l r place

/-- What a run may do: act on its own files, tell of events, and have records made of itself. -/
structure Acts (memory : κ → List Ledger.Write) (base : Files) (l : Layout) (r : Run) (w w' : World κ) : Prop where
  files : Files.Alike (fun place => Owned base l r place ∨ EventsOnly base l w.eventPaths place) w.bench.files
    w'.bench.files
  eventPaths : w'.eventPaths = w.eventPaths
  failure : w.bench.failure ≠ none → w'.bench.failure ≠ none
  memory : ∀ x, x ≠ r → writesAbout memory x w' = writesAbout memory x w

/-- What a run can bear of others: its own files and its own records are left alone. -/
structure Bears (memory : κ → List Ledger.Write) (base : Files) (l : Layout) (r : Run) (w w' : World κ) : Prop where
  files : Files.Spares (Owned base l r) w.bench.files w'.bench.files
  eventPaths : w'.eventPaths = w.eventPaths
  failure : w.bench.failure ≠ none → w'.bench.failure ≠ none
  memory : writesAbout memory r w' = writesAbout memory r w

/-- What a run does to some of its files while no records are made. -/
structure Works (base : Files) (l : Layout) (r : Run) (touched : List Artifact) (w w' : World κ) : Prop where
  files : Files.Alike (Among base l r touched) w.bench.files w'.bench.files
  eventPaths : w'.eventPaths = w.eventPaths
  failure : w'.bench.failure = w.bench.failure
  keeper : w'.keeper = w.keeper

/-- What is left of a run's own when it has worked on some of its files. -/
structure Stays (memory : κ → List Ledger.Write) (base : Files) (l : Layout) (r : Run) (touched : List Artifact)
    (w w' : World κ) : Prop where
  files : Files.Alike (fun place => Among base l r touched place ∨ ¬ Owned base l r place) w.bench.files w'.bench.files
  eventPaths : w'.eventPaths = w.eventPaths
  memory : writesAbout memory r w' = writesAbout memory r w

section

variable {memory : κ → List Ledger.Write} {base : Files} {l : Layout} {r : Run} {touched : List Artifact}
  {w w' w'' : World κ}

theorem Bears.refl (memory : κ → List Ledger.Write) (base : Files) (l : Layout) (r : Run) (w : World κ) :
    Bears memory base l r w w :=
  ⟨Files.Alike.refl _ _, rfl, id, rfl⟩

theorem Bears.trans (h : Bears memory base l r w w') (h' : Bears memory base l r w' w'') :
    Bears memory base l r w w'' :=
  ⟨h.files.trans h'.files, h'.eventPaths.trans h.eventPaths, fun hw => h'.failure (h.failure hw), h'.memory.trans h.memory⟩

theorem Stays.trans (h : Stays memory base l r touched w w') (h' : Stays memory base l r touched w' w'') :
    Stays memory base l r touched w w'' :=
  ⟨h.files.trans h'.files, h'.eventPaths.trans h.eventPaths, h'.memory.trans h.memory⟩

theorem Stays.mono {more : List Artifact} (h : Stays memory base l r touched w w') (hmore : touched ⊆ more) :
    Stays memory base l r more w w' := by
  refine ⟨h.files.mono ?_, h.eventPaths, h.memory⟩
  rintro place (⟨a, ha, hplace⟩ | hnot)
  · exact Or.inl ⟨a, hmore ha, hplace⟩
  · exact Or.inr hnot

theorem Stays.entry (hbase : base.WellFormed) (h : Stays memory base l r touched w w') {a : Artifact}
    (ha : a ∉ touched) : a.entry base l r w'.bench.files = a.entry base l r w.bench.files :=
  Artifact.entry_alike hbase h.files ha

theorem Bears.stays (h : Bears memory base l r w w') : Stays memory base l r touched w w' :=
  ⟨h.files.mono fun _ => Or.inr, h.eventPaths, h.memory⟩

theorem Bears.entry (h : Bears memory base l r w w') (a : Artifact) :
    a.entry base l r w'.bench.files = a.entry base l r w.bench.files :=
  Artifact.entry_congr fun _ hplace => h.files.get? ⟨a, hplace⟩

theorem Works.stays (h : Works base l r touched w w') : Stays memory base l r touched w w' :=
  ⟨h.files.mono fun _ => Or.inl, h.eventPaths, by rw [writesAbout, writesAbout, h.keeper]⟩

theorem Works.acts (h : Works base l r touched w w') : Acts memory base l r w w' := by
  refine ⟨h.files.mono fun _ hplace => Or.inl hplace.owned, h.eventPaths, fun hw => h.failure ▸ hw, fun x _ => ?_⟩
  rw [writesAbout, writesAbout, h.keeper]

/-- A run at work leaves its own alone but for the files that it touches. -/
theorem ensures_stays {α : Type} {post : α → World κ → Prop} {p : Steps (World κ) α}
    (h : Steps.Ensures (Bears memory base l r) (Works base l r touched) post p w) :
    Steps.Ensures (Bears memory base l r) (Acts memory base l r)
      (fun value t => post value t ∧ Stays memory base l r touched w t) p w := by
  refine (Steps.Ensures.track ?_ ?_ ?_ h).mono (fun _ _ => id) (fun _ _ => Works.acts) (fun _ _ => id)
  · exact fun _ _ _ => Stays.trans
  · exact fun _ _ => Bears.stays
  · exact fun _ _ => Works.stays

/-- A program on the bench that touches some files of a run. -/
theorem ensures_onBench {α : Type} {post : α → Bench → Prop} {p : Steps Bench α}
    (h : Steps.Ensures (fun b b' : Bench => Files.Spares (Owned base l r) b.files b'.files)
      (fun b b' => Files.Alike (Among base l r touched) b.files b'.files ∧ b'.failure = b.failure) post p w.bench) :
    Steps.Ensures (Bears memory base l r) (Acts memory base l r)
      (fun value t => post value t.bench ∧ Stays memory base l r touched w t) (World.onBench p) w := by
  refine ensures_stays (Steps.Ensures.onPart ?_ ?_ ?_ h)
  · exact fun _ _ hbears => hbears.files
  · exact fun _ _ hworks => ⟨hworks.1, rfl, hworks.2, rfl⟩
  · exact fun _ _ => rfl

/-- A program on the files of a run. -/
theorem ensures_onFiles {α : Type} {post : α → Files → Prop} {p : Steps Files α}
    (h : Steps.Ensures (Files.Spares (Owned base l r)) (Files.Alike (Among base l r touched)) post p w.bench.files) :
    Steps.Ensures (Bears memory base l r) (Acts memory base l r)
      (fun value t => post value t.bench.files ∧ Stays memory base l r touched w t) (World.onFiles p) w := by
  have hbench : Steps.Ensures (fun b b' : Bench => Files.Spares (Owned base l r) b.files b'.files)
      (fun b b' => Files.Alike (Among base l r touched) b.files b'.files ∧ b'.failure = b.failure)
      (fun value (b : Bench) => post value b.files) p.onFiles w.bench := by
    refine Steps.Ensures.onPart ?_ ?_ ?_ h
    · exact fun _ _ => id
    · exact fun _ _ halike => ⟨halike, rfl⟩
    · exact fun _ _ => rfl
  exact ensures_onBench hbench

/-- A program that acts on none of what runs share. -/
theorem ensures_aside {α : Type} {p : Steps (World κ) α} (h : p.Keeps World.common) :
    Steps.Ensures (Bears memory base l r) (Acts memory base l r)
      (fun _ t => Stays memory base l r [] w t) p w := by
  have hworks : ∀ w : World κ, Steps.Ensures (Bears memory base l r) (Works base l r []) (fun _ _ => True) p w := by
    intro w
    induction p generalizing w with
    | done value => exact fun _ _ => trivial
    | step act next ih =>
        intro t _
        obtain ⟨hact, hnext⟩ := h t
        simp only [World.common, Prod.mk.injEq] at hact
        obtain ⟨hkeeper, hfailure, hfiles, hpaths⟩ := hact
        exact ⟨⟨hfiles ▸ Files.Alike.refl _ _, hpaths, hfailure, hkeeper⟩, ih _ hnext _⟩
  exact (ensures_stays (hworks w)).weaken fun _ _ => And.right

/-- A world stays a later one while others act. -/
theorem Stays.later {paths : List Bytes} (h : Stays memory base l r touched w w') (hw : Later base paths w) :
    Later base paths w' :=
  ⟨hw.files.trans h.files.since, h.eventPaths.trans hw.eventPaths⟩

/-- An event leaves the files of a run and the records of it alone. -/
theorem Hears.stays (h : Hears base w w') (hbase : base.WellFormed) (hfiled : FiledAt base w.eventPaths) :
    Stays memory base l r [] w w' := by
  refine ⟨h.files.mono fun place hplace => Or.inr (hfiled.not_owned hbase hplace), h.eventPaths, ?_⟩
  rw [writesAbout, writesAbout, h.keeper]

theorem Hears.acts (h : Hears base w w') (hbase : base.WellFormed) (hfiled : FiledAt base w.eventPaths) :
    Acts memory base l r w w' := by
  refine ⟨h.files.mono fun place hplace => Or.inr ⟨hplace, fun x => hfiled.not_owned hbase hplace⟩, h.eventPaths,
    fun hw => h.failure ▸ hw, fun x _ => ?_⟩
  rw [writesAbout, writesAbout, h.keeper]

/-- A run that tells of an event. -/
theorem ensures_event {paths : List Bytes} (hbase : base.WellFormed) (hfiled : FiledAt base paths)
    (hlater : Later base paths w) (kind runId : Bytes) (fields : List (Bytes × Json)) :
    Steps.Ensures (Bears memory base l r) (Acts memory base l r) (fun _ t => Stays memory base l r [] w t)
      (World.event kind runId fields) w := by
  refine Steps.ensures_change fun t ht => ?_
  have hstays : Stays memory base l r [] w t := ht.stays
  have hthere := hstays.later hlater
  have hhears := hthere.hears hbase hfiled kind runId fields
  rw [← hthere.eventPaths] at hfiled
  exact ⟨hhears.acts hbase hfiled, fun u hu => (hstays.trans (hhears.stays hbase hfiled)).trans hu.stays⟩

end

end Sweep

end MobilitySweep
