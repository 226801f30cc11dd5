import MobilitySweep.Proofs.Archive.Readback
import MobilitySweep.Proofs.Files.Publishing
import MobilitySweep.Proofs.Files.Replacing
import MobilitySweep.Proofs.Mobility.Emission
import MobilitySweep.Proofs.Sweep.Passes
import MobilitySweep.Sweep.Publishing

/-! # Artifacts all or nothing

Traces, simulator configurations and archives are drafted under a temporary name and take their own name once they are
complete. Whatever was there before, with no links at the temporary names and nobody else at work, each of them is
published as a whole or not at all, and nothing else changes.
-/

namespace MobilitySweep

namespace Files

/-- Whether a path names a place, taken or free; a link at its end is not followed. -/
def Names (files : Files) (path : Bytes) (place : Place) : Prop :=
  ∃ spot, files.resolve false path = .ok spot ∧ spot.place = place

/-- Whether a path names no link. -/
def NamesNoLink (files : Files) (path : Bytes) : Prop := ∀ target, files.linkStat path ≠ .ok (.link target)

instance (files : Files) (path : Bytes) : Decidable (files.NamesNoLink path) :=
  match h : files.linkStat path with
  | .ok (.link target) => isFalse fun hnone => hnone target h
  | .ok .directory | .ok (.file _) | .error _ => isTrue fun target htarget => by simp [h] at htarget

/-- Whether a path names no link, and no file that has other names. -/
structure NamesAlone (files : Files) (path : Bytes) : Prop where
  noLink : files.NamesNoLink path
  sole : ∀ place, files.Names path place → files.IsSole place

/-- What a path names is what it was, node and all. -/
structure Kept (files after : Files) (path : Bytes) : Prop where
  stat : after.linkStat path = files.linkStat path
  node : ∀ place, files.Names path place → after.node? place = files.node? place

/-- The temporary name of a path. -/
def draftOf (path : Bytes) : Bytes := path ++ Archive.temporaryEnding

/-- A text took the name of a path: a regular file with all of it is at the place that the path named, nothing is left
under the temporary name, and nothing else has changed but what is allowed to. By its path it is found again, unless a
link on the way was replaced. -/
structure Took (files after : Files) (path text : Bytes) (changing : Place → Prop) : Prop where
  file : ∃ place, files.Names path place ∧ after.get? place = some (.file (.bytes text))
  found : files.NamesNoLink path → (∀ place, changing place → ∀ target, files.get? place ≠ some (.link target)) →
    after.linkStat path = .ok (.file (.bytes text))
  draft : ∀ entry, after.linkStat (draftOf path) ≠ .ok entry
  rest : SameBut (fun place => files.Names path place ∨ files.Names (draftOf path) place ∨ changing place) files after

/-- Nothing has changed, a draft apart that was left by somebody else. -/
structure Untouched (files after : Files) (path : Bytes) : Prop where
  kept : Kept files after path
  rest : SameBut (files.Names (draftOf path)) files after

variable {files after : Files} {path text : Bytes} {place old new : Place}

theorem names_iff (h : files.resolve false path = .ok (files.spotAt place)) (other : Place) :
    files.Names path other ↔ other = place := by
  constructor
  · rintro ⟨spot, hspot, rfl⟩
    rw [← Except.ok.inj (h.symm.trans hspot), place_spotAt]
  · rintro rfl
    exact ⟨_, h, place_spotAt _ _⟩

theorem linkStat_eq (h : files.resolve false path = .ok (files.spotAt place)) :
    files.linkStat path = match files.get? place with
      | none => .error .missing
      | some entry => .ok entry := by
  unfold linkStat
  rw [h, spotAt]
  cases files.get? place <;> rfl

theorem temporaryEnding_isEnding : Path.Ending Archive.temporaryEnding := by decide +kernel

/-- What a path names stays when a draft beside it changes. -/
theorem Homed.kept {ending : Bytes} (h : Homed files (path ++ ending) old) (hfiles : files.WellFormed)
    (hending : Path.Ending ending) (hloose : files.IsLoose old) (halike : Alike (· = old) files after)
    (hsame : SameBut (· = old) files after) : Kept files after path := by
  refine ⟨?_, ?_⟩
  · rw [linkStat, linkStat, h.resolve_beside_eq hfiles hending halike]
  · rintro _ ⟨spot, hspot, rfl⟩
    exact hsame.node _ (h.place_ne hfiles hending hloose hspot)

theorem Kept.refl (files : Files) (path : Bytes) : Kept files files path := ⟨rfl, fun _ _ => rfl⟩

theorem Untouched.refl (files : Files) (path : Bytes) : Untouched files files path :=
  ⟨Kept.refl files path, SameBut.refl _ _⟩

/-- A draft that has gone has left everything untouched. -/
theorem Drafted.untouched {drafted : Files} (h : Drafted files (draftOf path) old text drafted)
    (hdraft : Homed files (draftOf path) old) (hloose : files.IsLoose old) (hfiles : files.WellFormed) :
    Untouched files (drafted.remove (draftOf path)).1 path := by
  obtain ⟨halike, hsame⟩ := h.removed hfiles
  exact ⟨hdraft.kept hfiles temporaryEnding_isEnding hloose halike hsame,
    hsame.mono fun place hplace => (names_iff (hdraft.resolves false) place).mpr hplace⟩

theorem namesNoLink_iff (h : files.resolve false path = .ok (files.spotAt place)) :
    files.NamesNoLink path ↔ ∀ target, files.get? place ≠ some (.link target) := by
  unfold NamesNoLink
  rw [linkStat_eq h]
  cases files.get? place <;> simp

/-- A draft that has taken the name beside it. -/
structure Renamed (files : Files) (path : Bytes) (old new : Place) (text : Bytes) (renamed : Files) : Prop
    extends Moved files old new (.bytes text) renamed where
  aside : Aside files path old new
  free : files.get? new ≠ some .directory

/-- By its path the name that was taken is found again, if it was no link. -/
theorem Renamed.homed {renamed : Files} (h : Renamed files path old new text renamed) (hfiles : files.WellFormed)
    (hold : files.get? old = some (.file (.bytes text))) (hlink : ∀ target, files.get? new ≠ some (.link target)) :
    Alike (fun q => q = old ∨ q = new) files.unmarked renamed.unmarked ∧ Homed renamed.unmarked path new := by
  have hhomed := h.aside.homed_unmarked hfiles hlink
  have hloose : files.IsLoose new := hhomed.directory_or_isLoose.resolve_left h.free
  have halike := h.alike_unmarked hfiles hold hloose
  exact ⟨halike, hhomed.alike halike⟩

/-- Nothing is found under the temporary name once the draft is gone, though links may have gone too. -/
theorem Homed.linkStat_ne {drafted : Files} (h : Homed drafted (draftOf path) old) (hthin : Thinner drafted after)
    (hafter : after.WellFormed) (hnone : after.get? old = none) (entry : Entry) :
    after.linkStat (draftOf path) ≠ .ok entry := by
  intro hentry
  obtain ⟨last, hlast, hin⟩ := Path.exists_endsIn path
  have hplain := temporaryEnding_isEnding.plain hlast
  have hinDraft : Path.EndsIn (last ++ Archive.temporaryEnding) (draftOf path) := hin.append _
  cases hresolve : after.resolve false (draftOf path) with
  | error cause => simp [linkStat, hresolve, bind, Except.bind] at hentry
  | ok spot =>
      obtain ⟨spot', hspot', hplace⟩ := resolve_thinner hthin h.noSlash hresolve
      rw [← Except.ok.inj ((h.resolves false).symm.trans hspot'), place_spotAt] at hplace
      rw [spot_eq_of_resolve hafter hplain hinDraft hresolve, ← hplace] at hresolve
      rw [linkStat_eq hresolve, hnone] at hentry
      cases hentry

/-- A draft that is renamed to the path beside it stays what it is, or takes the name. -/
theorem Drafted.rename_cases {drafted : Files} (h : Drafted files (draftOf path) old text drafted)
    (hfiles : files.WellFormed) :
    (∃ fault, drafted.rename (draftOf path) path = (drafted, some fault)) ∨
      ∃ new renamed, drafted.rename (draftOf path) path = (renamed, none) ∧
        Renamed drafted path old new text renamed := by
  rcases h.homed.rename_aside (h.alike.wellFormed.mp hfiles) temporaryEnding_isEnding h.file with
    hfailed | ⟨new, renamed, haside, hnew, hrename, hmoved⟩
  · exact Or.inl hfailed
  · exact Or.inr ⟨new, renamed, hrename, hmoved, haside, hnew⟩

/-- A name is taken as a whole. -/
theorem Renamed.took {drafted renamed : Files} (h : Renamed drafted path old new text renamed)
    (hdrafted : Drafted files (draftOf path) old text drafted) (hdraft : Homed files (draftOf path) old)
    (hfiles : files.WellFormed) : Took files renamed path text fun _ => False := by
  have hwell := hdrafted.alike.wellFormed.mp hfiles
  have haside : Aside files path old new := h.aside.alike hdrafted.alike.symm
  have hfile : renamed.get? new = some (.file (.bytes text)) := by
    rw [h.get?, Function.update_of_ne haside.other.symm, Function.update_self]
  have hthin := h.thinner hdrafted.file h.free
  have hnone : renamed.get? old = none := by rw [h.get?, Function.update_self]
  refine ⟨⟨new, (names_iff haside.resolves new).mpr rfl, hfile⟩, fun hlink _ => ?_,
    hdrafted.homed.linkStat_ne hthin h.wellFormed hnone, ?_⟩
  · have hnoLink : ∀ target, drafted.get? new ≠ some (.link target) := by
      rw [hdrafted.alike.outside new haside.other.symm]
      exact (namesNoLink_iff haside.resolves).mp hlink
    have hresolves := (h.homed hwell hdrafted.file hnoLink).2.resolves false
    rw [unmarked_resolve] at hresolves
    rw [linkStat_eq hresolves, hfile]
  · refine (hdrafted.same.mono fun _ => Or.inl).trans h.same |>.mono ?_
    rintro place (rfl | rfl)
    · exact Or.inr (Or.inl ((names_iff (hdraft.resolves false) _).mpr rfl))
    · exact Or.inl ((names_iff haside.resolves _).mpr rfl)

end Files

/-! ## Publishing -/

theorem Steps.run_seq {σ α β : Type} (p : Steps σ α) (f : α → Steps σ β) (s : σ) :
    (p >>= f).run s = (f (p.run s).1).run (p.run s).2 := run_bind p f s

theorem Steps.run_look {σ α : Type} (view : σ → α) (s : σ) : (look view).run s = (view s, s) := rfl

theorem Steps.run_change {σ : Type} (f : σ → σ) (s : σ) : (change f).run s = ((), f s) := rfl

theorem Archive.attempt_run (action : Files → Files × Option Fault) (files : Files) :
    (attempt action).run files = ((action files).2, (action files).1) := rfl

theorem publish_run (path text : Bytes) (files : Files) :
    (publish path text).run files =
      match files.create (Files.draftOf path) with
      | (created, some fault) => (some (.create fault), created)
      | (created, none) =>
        match (created.append (Files.draftOf path) text).rename (Files.draftOf path) path with
        | (renamed, some fault) => (some (.rename fault), (renamed.remove (Files.draftOf path)).1)
        | (renamed, none) => (none, renamed) := by
  unfold publish Files.draftOf
  rw [Steps.run_seq, Archive.attempt_run]
  rcases files.create (path ++ Archive.temporaryEnding) with ⟨created, _ | fault⟩
  · dsimp only
    rw [Steps.run_seq, Steps.run_seq, Archive.attempt_run, Steps.run_change]
    rcases (created.append (path ++ Archive.temporaryEnding) text).rename (path ++ Archive.temporaryEnding) path with
      ⟨renamed, _ | fault⟩
    · rfl
    · rfl
  · rfl

/-- A text is published as a whole or not at all. -/
theorem publish_atomic {files : Files} (hfiles : files.WellFormed) {path : Bytes}
    (halone : files.NamesAlone (Files.draftOf path)) (text : Bytes) :
    let result := (publish path text).run files
    (result.1 ≠ none → Files.Untouched files result.2 path) ∧
      (result.1 = none → Files.Took files result.2 path text fun _ => False) := by
  obtain ⟨home, hhome⟩ := Files.exists_lodged hfiles Files.temporaryEnding_isEnding halone.noLink
    fun spot hspot => halone.sole _ ⟨spot, hspot, rfl⟩
  rw [publish_run]
  rcases hhome.create_cases with ⟨old, hold, hloose, hcreate⟩ | ⟨-, fault, hcreate⟩
  · have hdraft := hhome.homed old hold
    have hdrafted := (hdraft.drafted hfiles hloose).append hfiles text
    rw [Files.draftOf, hcreate]
    dsimp only
    rcases hdrafted.rename_cases hfiles with ⟨fault, hrename⟩ | ⟨new, renamed, hrename, hrenamed⟩
    · rw [Files.draftOf] at hrename
      rw [hrename]
      exact ⟨fun _ => hdrafted.untouched hdraft hloose hfiles, by rintro ⟨⟩⟩
    · rw [Files.draftOf] at hrename
      rw [hrename]
      exact ⟨fun h => absurd rfl h, fun _ => hrenamed.took hdrafted hdraft hfiles⟩
  · rw [Files.draftOf, hcreate]
    exact ⟨fun _ => Files.Untouched.refl files path, by rintro ⟨⟩⟩

theorem Trace.produce_atomic {files : Files} (hfiles : files.WellFormed) {path : Bytes}
    (halone : files.NamesAlone (Files.draftOf path)) (p : Params) (o : Options) (source : Pcg) :
    let result := (produce path p o source).run files
    (result.1.2 ≠ none → Files.Untouched files result.2 path) ∧
      (result.1.2 = none → ∃ start, Generator.create p o source = .ok start ∧
        Files.Took files result.2 path (text start.samples) fun _ => False) := by
  unfold produce
  cases hstart : Generator.create p o source with
  | error cause => exact ⟨fun _ => Files.Untouched.refl files path, by rintro ⟨⟩⟩
  | ok start =>
      have htext : (start.run .unlimited).1.toBytes = text start.samples := start.run_unlimited.1
      dsimp only
      rw [htext, Steps.run_seq]
      have hpublished := publish_atomic hfiles halone (text start.samples)
      revert hpublished
      rcases (publish path (text start.samples)).run files with ⟨_ | fault | fault, after⟩
      · rintro ⟨_, htook⟩
        exact ⟨fun h => absurd rfl h, fun _ => ⟨start, rfl, htook rfl⟩⟩
      · rintro ⟨huntouched, _⟩
        exact ⟨fun _ => huntouched (by rintro ⟨⟩), by rintro ⟨⟩⟩
      · rintro ⟨huntouched, _⟩
        exact ⟨fun _ => huntouched (by rintro ⟨⟩), by rintro ⟨⟩⟩

theorem Template.write_atomic {files : Files} (hfiles : files.WellFormed) {path : Bytes}
    (halone : files.NamesAlone (Files.draftOf path)) (t : Template) (traceName : Bytes) :
    let result := (t.write path traceName).run files
    (result.1 ≠ none → Files.Untouched files result.2 path) ∧
      (result.1 = none → Files.Took files result.2 path (t.render traceName) fun _ => False) := by
  unfold write
  rw [Steps.run_seq]
  have hpublished := publish_atomic hfiles halone (t.render traceName)
  revert hpublished
  rcases (publish path (t.render traceName)).run files with ⟨_ | failure, after⟩
  · rintro ⟨_, htook⟩
    exact ⟨fun h => absurd rfl h, fun _ => htook rfl⟩
  · rintro ⟨huntouched, _⟩
    exact ⟨fun _ => huntouched (by rintro ⟨⟩), by rintro ⟨⟩⟩

/-! ## Archiving -/

namespace Archive

open Files

/-- The failure to remove a log that has been packed. -/
def IsKeptLog (fault : Fault) : Prop := ∃ cause : Fault, fault = cause.within "removing plain log"

/-- Some bytes are an archive of a text: the text is what its members hold, and whoever decompresses it gets the text
and meets no failure, unless the text is longer than a decompressed text may be. -/
structure IsArchiveOf (text archive : Bytes) : Prop where
  unpacked : ∃ header body, readHeader archive = .ok (header, body) ∧ unpack body = (text, none)
  decompressed : text.length ≤ sizeLimit →
    ∀ files path, files.contentAt path = .ok (.bytes archive) → decompress files path = (text, none)
  refused : sizeLimit < text.length →
    ∀ files path, files.contentAt path = .ok (.bytes archive) →
      (decompress files path).1 = text.take (sizeLimit + 1) ∧ (decompress files path).2.isSome = true

/-- The archive of a file took its name. -/
def TookArchive (files after : Files) (path : Bytes) (changing : Place → Prop) : Prop :=
  ∃ content archive, files.contentAt path = .ok content ∧ IsArchiveOf content.toBytes archive ∧
    Took files after (pathFor path) archive changing

theorem compress_run (path : Bytes) (files : Files) :
    (compress path).run files =
      match files.openFile path with
      | .error fault => (([], some (fault.within "opening log")), files)
      | .ok opened =>
        match files.create (draftOf (pathFor path)) with
        | (created, some fault) => (([], some (fault.within "creating archive")), created)
        | (created, none) =>
          let left := remaining path (draftOf (pathFor path)) opened (files.timeOf path) created
          match packed path left.1 left.2 with
          | .error fault => (([], some fault), (created.remove (draftOf (pathFor path))).1)
          | .ok bytes =>
            match (created.append (draftOf (pathFor path)) bytes).rename (draftOf (pathFor path)) (pathFor path) with
            | (renamed, some fault) =>
              (([], some (fault.within "renaming archive")), (renamed.remove (draftOf (pathFor path))).1)
            | (renamed, none) =>
              match renamed.remove path with
              | (removed, some fault) => ((pathFor path, some (fault.within "removing plain log")), removed)
              | (removed, none) => ((pathFor path, none), removed) := by
  -- Stage by stage, with the outcome of each as it comes.
  unfold compress draftOf
  rw [Steps.run_seq, Steps.run_look]
  rcases files.openFile path with fault | opened
  · rfl
  dsimp only
  rw [Steps.run_seq, attempt_run]
  rcases files.create (pathFor path ++ temporaryEnding) with ⟨created, _ | fault⟩
  · dsimp only
    rw [Steps.run_seq, Steps.run_look]
    rcases remaining path (pathFor path ++ temporaryEnding) opened (files.timeOf path) created with ⟨left, time⟩
    dsimp only
    rcases packed path left time with fault | bytes
    · rfl
    dsimp only
    rw [Steps.run_seq, Steps.run_seq, attempt_run, Steps.run_change]
    rcases (created.append (pathFor path ++ temporaryEnding) bytes).rename (pathFor path ++ temporaryEnding)
      (pathFor path) with ⟨renamed, _ | fault⟩
    · dsimp only
      rw [Steps.run_seq, attempt_run]
      rcases renamed.remove path with ⟨removed, _ | fault⟩
      · rfl
      · rfl
    · rfl
  · rfl

variable {files : Files} {path : Bytes}

theorem pathFor_isEnding : Path.Ending ending := by decide +kernel

theorem draftOf_pathFor (path : Bytes) : draftOf (pathFor path) = path ++ (ending ++ temporaryEnding) :=
  List.append_assoc _ _ _

theorem logEnding_isEnding : Path.Ending (ending ++ temporaryEnding) := by decide +kernel

/-- What was opened is no draft, if it was not the file under the temporary name. -/
theorem opened_apart {other : Bytes} {opened : Entry} {place old : Place}
    (hresolve : files.resolve true path = .ok (.taken place opened)) (hdraft : Homed files other old)
    (hloose : files.IsLoose old) (hapart : files.isSameFile path other = false) : ¬ place = old ∨ opened = .directory := by
  rcases get?_of_resolve hresolve with hdirectory | hentry
  · exact Or.inr hdirectory
  · refine Or.inl ?_
    rintro rfl
    rcases (isLoose_iff files place).mp hloose with hnone | ⟨content, hfile⟩
    · rw [hnone] at hentry
      cases hentry
    · obtain rfl := Option.some.inj (hentry.symm.trans hfile)
      simp [isSameFile, isOneFile, hresolve, hdraft.resolves, spotAt, hfile] at hapart

/-- What was opened is still what it was once a draft has been made beside it. -/
theorem remaining_eq {created : Files} {other : Bytes} {opened : Entry} {place old : Place}
    (hresolve : files.resolve true path = .ok (.taken place opened)) (hplace : ¬ place = old ∨ opened = .directory)
    (hdrafted : Drafted files other old [] created) (time : Nat) :
    remaining path other opened time created = (opened, time) := by
  obtain ⟨spot, hspot, -, hkept⟩ := resolve_taken hdrafted.alike hresolve
  rw [hkept hplace] at hspot
  have hsame : created.isSameFile path other = false := by
    rw [isSameFile, hspot, hdrafted.homed.resolves, spotAt, hdrafted.file]
    rcases hplace with hne | rfl
    · have hother : created.isOneFile place old = false := by
        rw [isOneFile_comm, hdrafted.homed.sole.isOneFile (Ne.symm hne)]
      cases opened <;> simp [hother]
    · rfl
  rw [remaining, hsame]
  rfl

theorem openFile_eq_ok {opened : Entry} (h : files.openFile path = .ok opened) :
    ∃ place, files.resolve true path = .ok (.taken place opened) := by
  refine stat_eq_ok ?_
  unfold openFile at h
  cases hstat : files.stat path with
  | error cause => simp [hstat, Except.mapError] at h
  | ok found => simpa [hstat, Except.mapError] using h

theorem remove_of_fault {fault : Fault} (h : (files.remove path).2 = some fault) : (files.remove path).1 = files := by
  unfold Files.remove at h ⊢
  split at h
  all_goals try rfl
  next place entry _ =>
    by_cases hpinned : files.pinned.contains place = true
    · rw [if_pos hpinned]
    · rw [if_neg hpinned] at h ⊢
      split at h
      next hbelow => rw [if_pos hbelow]
      next => cases h

/-- A file that is read is named by its path beside its archive and beside the draft of it. -/
theorem source_aside (hfiles : files.WellFormed) {old new place : Place} {content : Content}
    (hdraft : Homed files (draftOf (pathFor path)) old) (hnew : files.resolve false (pathFor path) = .ok (files.spotAt new))
    (hopen : files.resolve true path = .ok (.taken place (.file content))) :
    ∃ log, Aside files path old log ∧ new ≠ log ∧ files.get? log ≠ some .directory := by
  have hpath : path ≠ [] := by
    rintro rfl
    cases hopen
  have hnoFolder : ¬ files.IsFolder path := by
    rintro ⟨folder, -, hresolve⟩
    cases hopen.symm.trans (hresolve true)
  rw [draftOf_pathFor] at hdraft
  obtain ⟨log, hlog⟩ := (hdraft.aside hfiles logEnding_isEnding hpath).resolve_left hnoFolder
  obtain ⟨log', hlog'⟩ := (aside_of_resolve hfiles pathFor_isEnding hpath hnew).resolve_left hnoFolder
  have hsame := congrArg Spot.place (Except.ok.inj (hlog.resolves.symm.trans hlog'.resolves))
  rw [place_spotAt, place_spotAt] at hsame
  subst hsame
  refine ⟨log, hlog, hlog'.other, fun hdirectory => ?_⟩
  have hhomed := hlog.homed hfiles (by simp [hdirectory]) (hfiles.isSole (by rw [hdirectory]; rfl))
  have hfolder := hhomed.resolves true
  rw [spotAt, hdirectory, hopen] at hfolder
  cases hfolder

/-- Once the archive has its name the log is removed, or it stays with a failure. -/
theorem remove_cases {renamed : Files} {log : Place} (hthin : Thinner files renamed)
    (hrenamed : renamed.WellFormed) {old : Place} (hlog : Aside files path old log)
    (hentry : renamed.get? log ≠ some .directory) :
    (∃ fault, renamed.remove path = (renamed, some fault)) ∨
      log ∉ renamed.pinned ∧ renamed.remove path = (renamed.erase log, none) ∧
        renamed.resolve false path = .ok (renamed.spotAt log) := by
  cases hremove : (renamed.remove path).2 with
  | some fault => exact Or.inl ⟨fault, Prod.ext (remove_of_fault hremove) hremove⟩
  | none =>
      refine Or.inr ?_
      cases hresolve : renamed.resolve false path with
      | error cause => simp [Files.remove, hresolve] at hremove
      | ok spot =>
          obtain ⟨last, hlast, hin, -⟩ := hlog.named
          obtain ⟨spot', hspot', hplace⟩ := resolve_thinner hthin hlog.noSlash hresolve
          rw [← Except.ok.inj (hlog.resolves.symm.trans hspot'), place_spotAt] at hplace
          have hspot := spot_eq_of_resolve hrenamed hlast hin hresolve
          rw [← hplace] at hspot
          subst hspot
          cases hfound : renamed.get? log with
          | none => simp [Files.remove, hresolve, spotAt, hfound] at hremove
          | some entry =>
              have hfree : log ∉ renamed.pinned := by
                intro hpinned
                simp [Files.remove, hresolve, spotAt, hfound, hpinned] at hremove
              refine ⟨hfree, ?_, rfl⟩
              cases entry with
              | directory => exact absurd hfound hentry
              | file content => simp [Files.remove, hresolve, spotAt, hfound, hfree]
              | link target => simp [Files.remove, hresolve, spotAt, hfound, hfree]

/-- An archive that took its name has it after the log is gone. -/
theorem took_cleared {drafted renamed : Files} {old new log : Place} {archive : Bytes}
    (h : Renamed drafted (pathFor path) old new archive renamed)
    (hdrafted : Drafted files (draftOf (pathFor path)) old archive drafted)
    (hdraft : Homed files (draftOf (pathFor path)) old) (hfiles : files.WellFormed) (hlog : Aside files path old log)
    (hne : new ≠ log) (hentry : files.get? log ≠ some .directory) (hunpinned : log ∉ renamed.pinned) :
    Took files (renamed.erase log) (pathFor path) archive (files.Names path) := by
  have hwell := hdrafted.alike.wellFormed.mp hfiles
  have haside : Aside files (pathFor path) old new := h.aside.alike hdrafted.alike.symm
  have htook := h.took hdrafted hdraft hfiles
  have herased := renamed.get?_erase hlog.ne_nil
  have hfile : (renamed.erase log).get? new = some (.file (.bytes archive)) := by
    rw [herased, Function.update_of_ne hne, h.get?, Function.update_of_ne haside.other.symm, Function.update_self]
  have hsame : renamed.get? log = files.get? log := by
    rw [h.get?, Function.update_of_ne hlog.other.symm, Function.update_of_ne hne.symm,
      hdrafted.alike.outside log hlog.other.symm]
  have hfree : renamed.get? log ≠ some .directory := hsame ▸ hentry
  have hwellErased : (renamed.erase log).WellFormed := by
    obtain ⟨parent, name, rfl, hparent⟩ := hlog.inDirectory
    have hthin := h.thinner hdrafted.file h.free
    have hstill := (hthin.directory parent).mpr (hdrafted.alike.directory hparent)
    exact h.wellFormed.erase hstill hfree hunpinned
  refine ⟨⟨new, (names_iff haside.resolves new).mpr rfl, hfile⟩, fun hlink hlogLink => ?_, ?_, ?_⟩
  · have hnoLink : ∀ target, drafted.get? new ≠ some (.link target) := by
      rw [hdrafted.alike.outside new haside.other.symm]
      exact (namesNoLink_iff haside.resolves).mp hlink
    have hnoLogLink := hlogLink log ((names_iff hlog.resolves log).mpr rfl)
    obtain ⟨halike, hhomed⟩ := h.homed hwell hdrafted.file hnoLink
    have hlogHomed := ((hlog.homed_unmarked hfiles hnoLogLink).alike (hdrafted.alike.unmarked hfiles)).alike halike
    have hgone := hlogHomed.erase_alike h.wellFormed.unmarked (hlogHomed.directory_or_isLoose.resolve_left hfree)
      (by simp [unmarked])
    have hresolves := (hhomed.alike hgone).resolves false
    rw [show renamed.unmarked.erase log = (renamed.erase log).unmarked from rfl, unmarked_resolve] at hresolves
    rw [linkStat_eq hresolves, hfile]
  · have hthin := (h.thinner hdrafted.file h.free).trans (erase_thinner hlog.ne_nil hfree)
    refine hdrafted.homed.linkStat_ne hthin hwellErased ?_
    rw [herased, Function.update_of_ne hlog.other, h.get?, Function.update_self]
  · refine (htook.rest.mono ?_).trans ((erase_sameBut hlog.ne_nil).mono ?_)
    · rintro place (hplace | hplace | hplace)
      · exact Or.inl hplace
      · exact Or.inr (Or.inl hplace)
      · exact hplace.elim
    · exact fun place hplace => Or.inr (Or.inr ((names_iff hlog.resolves place).mpr hplace))

/-- A log of which nothing was lost. -/
structure LogKept (files after : Files) (path : Bytes) : Prop where
  kept : Kept files after path
  content : after.contentAt path = files.contentAt path

/-- A log that is gone. -/
structure LogGone (files after : Files) (path : Bytes) : Prop where
  missing : after.linkStat path = .error .missing
  free : ∀ place, files.Names path place → after.get? place = none

/-- An opened log is kept as long as nothing but a draft beside it changes. -/
theorem logKept {after : Files} {opened : Entry} {place old : Place} (hfiles : files.WellFormed)
    (hopen : files.openFile path = .ok opened) (hresolve : files.resolve true path = .ok (.taken place opened))
    (hplace : ¬ place = old ∨ opened = .directory) (hdraft : Homed files (draftOf (pathFor path)) old)
    (hloose : files.IsLoose old) (halike : Alike (· = old) files after) (hsame : SameBut (· = old) files after) :
    LogKept files after path := by
  rw [draftOf_pathFor] at hdraft
  refine ⟨hdraft.kept hfiles logEnding_isEnding hloose halike hsame, ?_⟩
  obtain ⟨spot, hspot, -, hkept⟩ := resolve_taken halike hresolve
  rw [hkept hplace] at hspot
  rw [contentAt, contentAt, hopen, openFile, stat_of_resolve hspot]
  rfl

theorem packed_isArchiveOf {old log : Place} (hlog : Aside files path old log) {content : Content} {archive : Bytes}
    {time : Nat} (h : pack? (Path.base path) time content.toBytes = some archive) : IsArchiveOf content.toBytes archive := by
  obtain ⟨last, hlast, hin, hlength⟩ := hlog.named
  rw [hin.base hlast] at h
  have hlimit : last.length < headerTextLimit := hlength.trans_lt (by decide)
  refine ⟨unpack_pack h hlimit, fun hsize files path hcontent => ?_, fun hsize files path hcontent => ?_⟩
  · rw [decompress_of_pack hcontent h hlimit, delivered, if_neg hsize.not_gt]
  · rw [decompress_of_pack hcontent h hlimit, delivered, if_pos hsize]
    exact ⟨rfl, rfl⟩

/-- What has come of a log and its archive once the archive has its name. -/
theorem remove_log {drafted renamed : Files} {old new place : Place} {content : Content} {archive : Bytes}
    (h : Renamed drafted (pathFor path) old new archive renamed)
    (hdrafted : Drafted files (draftOf (pathFor path)) old archive drafted)
    (hdraft : Homed files (draftOf (pathFor path)) old) (hfiles : files.WellFormed)
    (hopen : files.openFile path = .ok (.file content))
    (hresolve : files.resolve true path = .ok (.taken place (.file content)))
    {time : Nat} (hpack : pack? (Path.base path) time content.toBytes = some archive) :
    (∃ fault, renamed.remove path = (renamed, some fault) ∧ TookArchive files renamed path (fun _ => False) ∧
        ∀ place, files.Names path place → renamed.node? place = files.node? place) ∨
      ∃ removed, renamed.remove path = (removed, none) ∧ TookArchive files removed path (files.Names path) ∧
        LogGone files removed path := by
  have haside : Aside files (pathFor path) old new := h.aside.alike hdrafted.alike.symm
  obtain ⟨log, hlog, hne, hentry⟩ := source_aside hfiles hdraft haside.resolves hresolve
  have hthin := hdrafted.alike.thinner.trans (h.thinner hdrafted.file h.free)
  have hfree : renamed.get? log ≠ some .directory := fun hfound => hentry ((hthin.directory log).mp hfound)
  have hcontent : files.contentAt path = .ok content := by
    rw [contentAt, hopen]
    rfl
  have harchive := packed_isArchiveOf hlog hpack
  rcases remove_cases hthin h.wellFormed hlog hfree with ⟨fault, hremove⟩ | ⟨hunpinned, hremove, hstill⟩
  · refine Or.inl ⟨fault, hremove, ⟨content, archive, hcontent, harchive, h.took hdrafted hdraft hfiles⟩, ?_⟩
    intro place hplace
    rw [(names_iff hlog.resolves place).mp hplace]
    have hkept := h.same.node log (not_or.mpr ⟨hlog.other.symm, hne.symm⟩)
    exact hkept.trans (hdrafted.same.node log hlog.other.symm)
  · refine Or.inr ⟨renamed.erase log, hremove, ⟨content, archive, hcontent, harchive,
      took_cleared h hdrafted hdraft hfiles hlog hne hentry hunpinned⟩,
      linkStat_gone h.wellFormed hlog.noSlash hstill hlog.ne_nil hfree, fun place hplace => ?_⟩
    rw [(names_iff hlog.resolves place).mp hplace, get?_erase _ hlog.ne_nil, Function.update_self]

/-- A file is replaced by its archive as a whole or not at all. It may stay beside its archive, with a failure that
says so. -/
theorem compress_atomic (hfiles : files.WellFormed) (halone : files.NamesAlone (draftOf (pathFor path)))
    (hapart : files.isSameFile path (draftOf (pathFor path)) = false) :
    let result := (compress path).run files
    (∀ fault, result.1.2 = some fault →
      Untouched files result.2 (pathFor path) ∧ LogKept files result.2 path ∨
        IsKeptLog fault ∧ TookArchive files result.2 path (fun _ => False) ∧
          ∀ place, files.Names path place → result.2.node? place = files.node? place) ∧
      (result.1.2 = none → result.1.1 = pathFor path ∧ TookArchive files result.2 path (files.Names path) ∧
        LogGone files result.2 path) := by
  rw [compress_run]
  cases hopen : files.openFile path with
  | error fault => exact ⟨fun _ _ => Or.inl ⟨Untouched.refl _ _, Kept.refl _ _, rfl⟩, by rintro ⟨⟩⟩
  | ok opened =>
      obtain ⟨place, hresolve⟩ := openFile_eq_ok hopen
      obtain ⟨home, hhome⟩ := exists_lodged hfiles temporaryEnding_isEnding halone.noLink
        fun spot hspot => halone.sole _ ⟨spot, hspot, rfl⟩
      rcases hhome.create_cases with ⟨old, hold, hloose, hcreate⟩ | ⟨-, fault, hcreate⟩
      · have hdraft : Homed files (draftOf (pathFor path)) old := hhome.homed old hold
        have hempty := hdraft.drafted hfiles hloose
        have hplace := opened_apart hresolve hdraft hloose hapart
        -- Up to the renaming a failure leaves no more than a draft, and that is removed.
        have hkept {text : Bytes} {drafted : Files} (hdrafted : Drafted files (draftOf (pathFor path)) old text drafted) :
            Untouched files (drafted.remove (draftOf (pathFor path))).1 (pathFor path) ∧
              LogKept files (drafted.remove (draftOf (pathFor path))).1 path := by
          obtain ⟨halike, hsame⟩ := hdrafted.removed hfiles
          refine ⟨hdrafted.untouched hdraft hloose hfiles, ?_⟩
          exact logKept hfiles hopen hresolve hplace hdraft hloose halike hsame
        have hcreate' : files.create (draftOf (pathFor path)) = _ := hcreate
        rw [hcreate']
        dsimp only
        rw [remaining_eq hresolve hplace hempty]
        dsimp only
        cases hpacked : packed path opened (files.timeOf path) with
        | error fault => exact ⟨fun _ _ => Or.inl (hkept hempty), by rintro ⟨⟩⟩
        | ok archive =>
            obtain ⟨content, rfl, hpack⟩ := packed_eq_ok hpacked
            have hdrafted : Drafted files (draftOf (pathFor path)) old archive _ := hempty.append hfiles archive
            dsimp only
            rcases hdrafted.rename_cases hfiles with ⟨fault, hrename⟩ | ⟨new, renamed, hrename, h⟩
            · rw [hrename]
              exact ⟨fun _ _ => Or.inl (hkept hdrafted), by rintro ⟨⟩⟩
            · rw [hrename]
              dsimp only
              rcases remove_log h hdrafted hdraft hfiles hopen hresolve hpack with
                ⟨fault, hremove, htook, hnodes⟩ | ⟨removed, hremove, htook, hgone⟩
              · rw [hremove]
                refine ⟨fun found hfound => Or.inr ⟨⟨fault, ?_⟩, htook, hnodes⟩, by rintro ⟨⟩⟩
                exact (Option.some.inj hfound).symm
              · rw [hremove]
                exact ⟨by rintro _ ⟨⟩, fun _ => ⟨rfl, htook, hgone⟩⟩
      · have hcreate' : files.create (draftOf (pathFor path)) = _ := hcreate
        rw [hcreate']
        exact ⟨fun _ _ => Or.inl ⟨Untouched.refl _ _, Kept.refl _ _, rfl⟩, by rintro ⟨⟩⟩

end Archive

namespace Sweep

open Files Archive

/-! ## The artifacts of a sweep -/

/-- The site with a log that is a link to the temporary name of its own archive. -/
def emptiedSite : Files :=
  (site.writeFile "log.txt.gz.tmp" "all there is\n").1.symlink "log.txt.gz.tmp" "log.txt"

/-- The site with a trace that has its temporary name as another name. -/
def twinnedSite : Files := (site.writeFile "trace.txt" "old\n").1.share ["site", "trace.txt"] ["site", "trace.txt.tmp"]

end Sweep

end MobilitySweep
