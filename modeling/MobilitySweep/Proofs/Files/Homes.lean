import MobilitySweep.Proofs.Files.Likeness
import MobilitySweep.Proofs.Files.Names
import MobilitySweep.Proofs.Files.Tree

/-! # Homes of paths

A path that ends in a plain name leads to a place in a directory, its home. As long as no link is put there and the file
there has no other name, the home stays the same whatever happens to files, and every operation on the path is one on
its home.
-/

namespace MobilitySweep

namespace Files

/-- A path whose home is a given place: it is found there by every walk, no link is in the way, and a file there has
this one name. -/
structure Homed (files : Files) (path : Bytes) (place : Place) : Prop where
  resolves : ∀ follow, files.resolve follow path = .ok (files.spotAt place)
  noLink : ∀ target, files.get? place ≠ some (.link target)
  sole : files.IsSole place
  noSlash : endsWithSlash path = false
  inDirectory : ∃ parent name, place = parent ++ [name] ∧ files.get? parent = some .directory

section

variable {changing : Place → Prop} {files other : Files} {path : Bytes} {place : Place}

/-- Trees that are alike have the same homes. -/
theorem Homed.alike (h : Homed files path place) (halike : Alike changing files other) :
    Homed other path place := by
  refine ⟨fun follow => ?_, fun target hlink => ?_, halike.isSole.mpr h.sole, h.noSlash, ?_⟩
  · exact resolve_alike halike (h.resolves false) h.noLink follow
  · exact h.noLink target (halike.symm.link hlink)
  · obtain ⟨parent, name, hplace, hparent⟩ := h.inDirectory
    exact ⟨parent, name, hplace, halike.directory hparent⟩

theorem start_directory (hfiles : files.WellFormed) (path : Bytes) :
    files.get? (files.start path) = some .directory := by
  unfold start
  split
  next => rfl
  next => exact hfiles.working

/-- A path that leads somewhere leads to its last name in a directory. -/
theorem resolve_last (hfiles : files.WellFormed) {last : Bytes} (hhere : last ≠ Path.here) (habove : last ≠ Path.above)
    (hlast : (Path.names path).getLast? = some last) (hslash : endsWithSlash path = false) {spot : Spot}
    (hresolve : files.resolve false path = .ok spot) :
    ∃ parent, files.get? parent = some .directory ∧ spot = files.spotAt (parent ++ [last]) :=
  ((resolve_iff (fits_of_resolve hresolve)).mp hresolve).last hfiles hhere habove hslash (start_directory hfiles path)
    hlast

/-- A path with a plain last name that leads somewhere, and neither to a link nor to a file with other names, has a home
that bears the name. -/
theorem homed_of_resolve (hfiles : files.WellFormed) {last : Bytes} (hhere : last ≠ Path.here)
    (habove : last ≠ Path.above) (hlast : (Path.names path).getLast? = some last)
    (hslash : endsWithSlash path = false) {spot : Spot} (hresolve : files.resolve false path = .ok spot)
    (hlink : ∀ place target, spot ≠ .taken place (.link target)) (hsole : files.IsSole spot.place) :
    ∃ parent, Homed files path (parent ++ [last]) ∧ spot = files.spotAt (parent ++ [last]) := by
  obtain ⟨parent, hparent, rfl⟩ := resolve_last hfiles hhere habove hlast hslash hresolve
  have hnoLink : ∀ target, files.get? (parent ++ [last]) ≠ some (.link target) := by
    intro target hentry
    apply hlink (parent ++ [last]) target
    rw [spotAt, hentry]
  have hresolves := resolve_alike (Alike.refl (fun _ => True) files) hresolve hnoLink
  rw [place_spotAt] at hsole
  exact ⟨parent, ⟨hresolves, hnoLink, hsole, hslash, parent, last, rfl, hparent⟩, rfl⟩

theorem Homed.ne_nil (h : Homed files path place) : place ≠ [] := by
  obtain ⟨parent, name, rfl, -⟩ := h.inDirectory
  simp

/-- Whether a place holds neither a directory nor a link. -/
def IsLoose (files : Files) (place : Place) : Prop := Entry.shape (files.get? place) = none

theorem isLoose_iff (files : Files) (place : Place) :
    files.IsLoose place ↔ files.get? place = none ∨ ∃ content, files.get? place = some (.file content) := by
  unfold IsLoose
  cases files.get? place with
  | none => simp [Entry.shape]
  | some entry => cases entry <;> simp [Entry.shape]

theorem IsLoose.ne_directory (h : files.IsLoose place) : files.get? place ≠ some .directory := by
  intro hentry
  simp [IsLoose, hentry, Entry.shape] at h

theorem Alike.isLoose (h : Alike changing files other) : other.IsLoose place ↔ files.IsLoose place := by
  unfold IsLoose
  rw [h.shape]

/-- A home holds a directory unless it is loose. -/
theorem Homed.directory_or_isLoose (h : Homed files path place) :
    files.get? place = some .directory ∨ files.IsLoose place := by
  cases hentry : files.get? place with
  | none => exact Or.inr (by simp [IsLoose, hentry, Entry.shape])
  | some entry =>
      cases entry with
      | directory => exact Or.inl rfl
      | file content => exact Or.inr (by simp [IsLoose, hentry, Entry.shape])
      | link target => exact absurd hentry (h.noLink target)

/-- A tree with another file at a loose home, or none, is alike. -/
theorem Homed.alike_of_update (h : Homed files path place) (hfiles : files.WellFormed)
    (hloose : files.IsLoose place) {entry : Option Entry} (hentry : Entry.shape entry = none)
    (hget : other.get? = Function.update files.get? place entry)
    (hworking : other.workingDirectory = files.workingDirectory) (hshares : other.shares = files.shares)
    (hpinned : other.pinned = files.pinned) (hkept : entry = none → place ∉ files.pinned) :
    Alike (· = place) files other := by
  obtain ⟨parent, name, rfl, hparent⟩ := h.inDirectory
  refine ⟨hworking, hshares, hpinned, fun q hq => ?_, fun q => ?_, ?_⟩
  · rw [hget, Function.update_of_ne hq]
  · rw [hget]
    by_cases hq : q = parent ++ [name]
    · subst hq
      rw [Function.update_self, hentry, hloose]
    · rw [Function.update_of_ne hq]
  · have hnumbered := hfiles.numbered_of_same hshares fun mark hmark => by
      rw [hget, Function.update_of_ne (h.sole mark hmark)]
    exact iff_of_true hfiles
      (hfiles.of_update hparent hloose.ne_directory hget hworking hnumbered hpinned hkept)

/-! ## Operations at home -/

theorem Homed.stat (h : Homed files path place) :
    files.stat path = match files.get? place with
      | none => .error .missing
      | some entry => .ok entry := by
  unfold Files.stat
  rw [h.resolves true, spotAt]
  cases files.get? place <;> rfl

theorem Homed.exists? (h : Homed files path place) : files.exists? path = (files.get? place).isSome := by
  unfold Files.exists?
  rw [h.stat]
  cases files.get? place <;> rfl

theorem Homed.writablePlace (h : Homed files path place) (hloose : files.IsLoose place) :
    files.writablePlace path = .ok place := by
  unfold Files.writablePlace
  rw [h.noSlash, h.resolves true, spotAt]
  rcases (isLoose_iff files place).mp hloose with hnone | ⟨content, hfile⟩
  · rw [hnone]
    rfl
  · rw [hfile]
    rfl

theorem Homed.create (h : Homed files path place) (hloose : files.IsLoose place) :
    files.create path = (files.put place (.file (.bytes [])), none) := by
  unfold Files.create
  rw [h.writablePlace hloose]
  dsimp only
  rw [h.sole.write]

/-- A home that is no loose place cannot be written to. -/
theorem Homed.create_directory (h : Homed files path place) (hdirectory : files.get? place = some .directory) :
    ∃ fault, files.create path = (files, some fault) := by
  unfold Files.create Files.writablePlace
  rw [h.noSlash, h.resolves true, spotAt, hdirectory]
  exact ⟨_, rfl⟩

/-- A text is put behind what a file holds. -/
theorem Homed.append_content (h : Homed files path place) {content : Content}
    (hfile : files.get? place = some (.file content)) (text : Bytes) :
    files.append path text = files.put place (.file (.bytes (content.toBytes ++ text))) := by
  unfold Files.append
  rw [h.resolves true, spotAt, hfile]
  dsimp only
  rw [h.sole.write]

theorem Homed.append (h : Homed files path place) {old : Bytes}
    (hfile : files.get? place = some (.file (.bytes old))) (text : Bytes) :
    files.append path text = files.put place (.file (.bytes (old ++ text))) := h.append_content hfile text

/-- Nothing is put behind what is no file. -/
theorem Homed.append_nothing (h : Homed files path place) (hnone : ∀ content, files.get? place ≠ some (.file content))
    (text : Bytes) : files.append path text = files := by
  unfold Files.append
  rw [h.resolves true, spotAt]
  cases hentry : files.get? place with
  | none => rfl
  | some entry =>
      cases entry with
      | file content => exact absurd hentry (hnone content)
      | directory | link target => rfl

/-- A file is removed, or it stays because its name may not be taken away. -/
theorem Homed.remove_cases (h : Homed files path place) {content : Content}
    (hfile : files.get? place = some (.file content)) :
    place ∉ files.pinned ∧ files.remove path = (files.erase place, none) ∨
      place ∈ files.pinned ∧ ∃ fault, files.remove path = (files, some fault) := by
  unfold Files.remove
  rw [h.resolves false, spotAt, hfile]
  by_cases hpinned : place ∈ files.pinned
  · exact Or.inr ⟨hpinned, by simp [hpinned]⟩
  · exact Or.inl ⟨hpinned, by simp [hpinned]⟩

theorem Homed.openFile (h : Homed files path place) {content : Content}
    (hfile : files.get? place = some (.file content)) : files.openFile path = .ok (.file content) := by
  unfold Files.openFile
  rw [h.stat, hfile]
  rfl

theorem Homed.contentAt (h : Homed files path place) {content : Content}
    (hfile : files.get? place = some (.file content)) : files.contentAt path = .ok content := by
  unfold Files.contentAt
  rw [h.openFile hfile]
  rfl

theorem withoutSlash_eq (h : endsWithSlash path = false) : withoutSlash path = path := by
  unfold withoutSlash
  unfold endsWithSlash at h
  rw [List.getLast?_eq_head?_reverse] at h
  have hkeep : path.reverse.dropWhile (· = ('/' : UInt8)) = path.reverse := by
    cases hpath : path.reverse with
    | nil => rfl
    | cons b rest =>
        rw [hpath] at h
        rw [List.dropWhile_cons_of_neg]
        simpa using h
  rw [hkeep, List.reverse_reverse]

/-- A file has left its place for another one, in place of what was there, and nothing else has changed. -/
structure Moved (files : Files) (old new : Place) (content : Content) (renamed : Files) : Prop where
  get? : renamed.get? = Function.update (Function.update files.get? new (some (.file content))) old none
  same : SameBut (fun place => place = old ∨ place = new) files renamed
  wellFormed : renamed.WellFormed
  shares : files.IsSole new → renamed.shares = files.shares
  pinned : renamed.pinned = files.pinned

/-- Whether a file can be moved to a place: it holds neither a directory nor a link, nor anything that nobody may
replace. -/
def IsOpen (files : Files) (place : Place) : Prop := files.IsLoose place ∧ place ∉ files.pinned

theorem Alike.isOpen (h : Alike changing files other) : other.IsOpen place ↔ files.IsOpen place := by
  rw [IsOpen, IsOpen, h.isLoose, h.pinned]

/-- A file takes a name that no directory bears, in place of what bears it, and leaves its own, or nothing changes
because one of the names may not be taken away. -/
theorem Homed.rename_onto {source target : Bytes} {old new : Place} (hsource : Homed files source old)
    (hspot : files.resolve false target = .ok (files.spotAt new)) (hslash : endsWithSlash target = false)
    (hdirectory : ∃ parent name, new = parent ++ [name] ∧ files.get? parent = some .directory)
    (hfiles : files.WellFormed) (hne : old ≠ new) {content : Content}
    (hfile : files.get? old = some (.file content)) (hnew : files.get? new ≠ some .directory) :
    (old ∉ files.pinned ∧ new ∉ files.pinned ∧
        ∃ renamed, files.rename source target = (renamed, none) ∧ Moved files old new content renamed) ∨
      (old ∈ files.pinned ∨ new ∈ files.pinned) ∧ ∃ fault, files.rename source target = (files, some fault) := by
  have hnonempty : target.isEmpty = false := (fits_of_resolve hspot).2.1
  have hspot' : files.resolve false (withoutSlash target) = .ok (files.spotAt new) := by
    rw [withoutSlash_eq hslash, hspot]
  have hfile' : files.get? old ≠ some .directory := by simp [hfile]
  obtain ⟨parent, name, rfl, hparent⟩ := hdirectory
  -- What bears the new name goes first, if anything does, and then the file moves to a free place.
  cases hentry : files.get? (parent ++ [name]) with
  | none =>
      have hunpinned : parent ++ [name] ∉ files.pinned := fun hin => by simpa [hentry] using hfiles.pinned _ hin
      by_cases hold : old ∈ files.pinned
      · refine Or.inr ⟨Or.inl hold, Cause.notPermitted.fault "rename" [source, target], ?_⟩
        simp only [Files.rename, renameEntry, hspot, hsource.resolves, hspot', spotAt, hentry, hfile, hnonempty, hslash]
        simp [bind, Except.bind, hold]
      · obtain ⟨hshares, hpinned⟩ := hfiles.move_marks (parent ++ [name]) hfile' hsource.sole hold
        refine Or.inl ⟨hold, hunpinned, files.move old (parent ++ [name]), ?_, ?_,
          hfiles.move_sameBut hsource.ne_nil (by simp) hne hfile' hentry,
          hfiles.move hfile hsource.sole hold hparent hentry, fun _ => hshares, hpinned⟩
        · simp only [Files.rename, renameEntry, hspot, hsource.resolves, hspot', spotAt, hentry, hfile, hnonempty, hslash]
          simp [bind, Except.bind, hold]
        · rw [hfiles.get?_move hsource.ne_nil (by simp) hne hfile' hentry, hfile]
  | some existing =>
      rw [hentry] at hnew
      have hexisting : existing ≠ .directory := fun heq => hnew (congrArg some heq)
      have hbelow : files.hasEntriesBelow (parent ++ [name]) = false := hfiles.hasEntriesBelow (hentry ▸ hnew)
      by_cases hpinned : old ∈ files.pinned ∨ parent ++ [name] ∈ files.pinned
      · refine Or.inr ⟨hpinned, Cause.notPermitted.fault "rename" [source, target], ?_⟩
        simp only [Files.rename, renameEntry, hspot, hsource.resolves, hspot', spotAt, hentry, hfile, hnonempty, hslash]
        cases existing with
        | directory => exact absurd rfl hexisting
        | file content => simp [bind, Except.bind, hsource.sole.isOneFile hne, hpinned]
        | link target => simp [bind, Except.bind, hsource.sole.isOneFile hne, hpinned]
      obtain ⟨hold, hunpinned⟩ := not_or.mp hpinned
      have herased := files.get?_erase (List.concat_ne_nil name parent)
      have hwell : (files.erase (parent ++ [name])).WellFormed := hfiles.erase hparent (hentry ▸ hnew) hunpinned
      have hsame : (files.erase (parent ++ [name])).get? old = some (.file content) := by
        rw [herased, Function.update_of_ne hne, hfile]
      have hfree : (files.erase (parent ++ [name])).get? (parent ++ [name]) = none := by simp [herased]
      have hneParent : parent ≠ parent ++ [name] := by simp
      have hstill : (files.erase (parent ++ [name])).get? parent = some .directory := by
        rw [herased, Function.update_of_ne hneParent, hparent]
      have hsole : (files.erase (parent ++ [name])).IsSole old := fun mark hmark =>
        hsource.sole mark (List.mem_of_mem_filter hmark)
      obtain ⟨hshares, hpins⟩ := hwell.move_marks (parent ++ [name]) (by simp [hsame]) hsole hold
      refine Or.inl ⟨hold, hunpinned, (files.erase (parent ++ [name])).move old (parent ++ [name]), ?_, ?_, ?_,
        hwell.move hsame hsole hold hstill hfree, fun hother => hshares.trans (erase_shares hother), hpins⟩
      · simp only [Files.rename, renameEntry, hspot, hsource.resolves, hspot', spotAt, hentry, hfile, hnonempty, hslash]
        cases existing with
        | directory => exact absurd rfl hexisting
        | file content => simp [bind, Except.bind, hsource.sole.isOneFile hne, hold, hunpinned, hbelow]
        | link target => simp [bind, Except.bind, hsource.sole.isOneFile hne, hold, hunpinned, hbelow]
      · rw [hwell.get?_move hsource.ne_nil (by simp) hne (by simp [hsame]) hfree, hsame, herased,
          Function.update_idem]
      · have hmoved := hwell.move_sameBut hsource.ne_nil (by simp) hne (by simp [hsame]) hfree
        exact ((erase_sameBut (by simp)).mono fun _ => Or.inr).trans hmoved

/-- Nothing is renamed onto a directory. -/
theorem Homed.rename_directory {source target : Bytes} {old new : Place} (hsource : Homed files source old)
    (htarget : Homed files target new) (hne : old ≠ new) {content : Content}
    (hfile : files.get? old = some (.file content)) (hdirectory : files.get? new = some .directory) :
    ∃ fault, files.rename source target = (files, some fault) := by
  simp only [Files.rename, htarget.resolves, hsource.resolves, spotAt, hfile, hdirectory]
  simp [hne]

/-- Nothing is renamed to a path that leads nowhere. -/
theorem Homed.rename_homeless {source target : Bytes} {old : Place} (hsource : Homed files source old)
    {content : Content} (hfile : files.get? old = some (.file content)) (hslash : endsWithSlash target = false)
    {cause : Cause} (htarget : files.resolve false target = .error cause) :
    ∃ fault, files.rename source target = (files, some fault) := by
  simp only [Files.rename, renameEntry, hsource.resolves, htarget, spotAt, hfile, withoutSlash_eq hslash]
  cases target.isEmpty <;> exact ⟨_, rfl⟩

/-- A path that has a home, or none because it leads nowhere. -/
structure Lodged (files : Files) (path : Bytes) (home : Option Place) : Prop where
  homed : ∀ place ∈ home, Homed files path place
  homeless : home = none → ∀ follow, ∃ cause, files.resolve follow path = .error cause
  noSlash : endsWithSlash path = false

theorem Lodged.alike {home : Option Place} (h : Lodged files path home) (halike : Alike changing files other) :
    Lodged other path home := by
  refine ⟨fun place hplace => (h.homed place hplace).alike halike, fun hnone follow => ?_, h.noSlash⟩
  obtain ⟨cause, hcause⟩ := h.homeless hnone false
  exact resolve_stuck halike h.noSlash hcause follow

/-- A path exists when there is something at its home. -/
theorem Lodged.exists?_iff {home : Option Place} (h : Lodged files path home) :
    files.exists? path = true ↔ ∃ place ∈ home, files.get? place ≠ none := by
  cases home with
  | some place => simp [(h.homed place rfl).exists?, Option.isSome_iff_ne_none]
  | none =>
      obtain ⟨cause, hcause⟩ := h.homeless rfl true
      simp [Files.exists?, Files.stat, hcause, bind, Except.bind]

/-- A file is created at a loose home, or not at all. -/
theorem Lodged.create_cases {home : Option Place} (h : Lodged files path home) :
    (∃ place ∈ home, files.IsLoose place ∧ files.create path = (files.put place (.file (.bytes [])), none)) ∨
      (∀ place ∈ home, ¬ files.IsLoose place) ∧ ∃ fault, files.create path = (files, some fault) := by
  cases home with
  | some place =>
      have hhomed := h.homed place rfl
      rcases hhomed.directory_or_isLoose with hdirectory | hloose
      · refine Or.inr ⟨?_, hhomed.create_directory hdirectory⟩
        intro other hother hloose
        obtain rfl := Option.some.inj hother
        exact hloose.ne_directory hdirectory
      · exact Or.inl ⟨place, rfl, hloose, hhomed.create hloose⟩
  | none =>
      obtain ⟨cause, hcause⟩ := h.homeless rfl true
      refine Or.inr ⟨by rintro _ ⟨⟩, cause.fault "open" [path], ?_⟩
      simp [Files.create, Files.writablePlace, h.noSlash, hcause, bind, Except.bind]

/-- A file is renamed to an open home, or not at all. -/
theorem Homed.rename_cases {source target : Bytes} {old : Place} {home : Option Place}
    (hsource : Homed files source old) (htarget : Lodged files target home) (hfiles : files.WellFormed)
    (hne : ∀ new ∈ home, old ≠ new) {content : Content} (hfile : files.get? old = some (.file content)) :
    (∃ new ∈ home, files.IsOpen new ∧ ∃ renamed, files.rename source target = (renamed, none) ∧
        Moved files old new content renamed) ∨
      (old ∈ files.pinned ∨ ∀ new ∈ home, ¬ files.IsOpen new) ∧
        ∃ fault, files.rename source target = (files, some fault) := by
  cases home with
  | some new =>
      have hhomed := htarget.homed new rfl
      rcases hhomed.directory_or_isLoose with hdirectory | hloose
      · refine Or.inr ⟨Or.inr ?_, hsource.rename_directory hhomed (hne new rfl) hfile hdirectory⟩
        intro other hother hopen
        obtain rfl := Option.some.inj hother
        exact hopen.1.ne_directory hdirectory
      · rcases hsource.rename_onto (hhomed.resolves false) hhomed.noSlash hhomed.inDirectory hfiles (hne new rfl) hfile
          hloose.ne_directory with ⟨-, hnew, hmoved⟩ | ⟨hpinned, hfailed⟩
        · exact Or.inl ⟨new, rfl, ⟨hloose, hnew⟩, hmoved⟩
        · refine Or.inr ⟨hpinned.imp_right fun hnew other hother hopen => ?_, hfailed⟩
          obtain rfl := Option.some.inj hother
          exact hopen.2 hnew
  | none =>
      obtain ⟨cause, hcause⟩ := htarget.homeless rfl false
      exact Or.inr ⟨Or.inr (by rintro _ ⟨⟩), hsource.rename_homeless hfile htarget.noSlash hcause⟩

/-! ## Changes at home -/

theorem Homed.put_alike (h : Homed files path place) (hfiles : files.WellFormed) (hloose : files.IsLoose place)
    (content : Content) : Alike (· = place) files (files.put place (.file content)) :=
  h.alike_of_update hfiles hloose rfl (files.get?_put h.ne_nil _) rfl rfl rfl (by rintro ⟨⟩)

theorem Homed.erase_alike (h : Homed files path place) (hfiles : files.WellFormed) (hloose : files.IsLoose place)
    (hfree : place ∉ files.pinned) : Alike (· = place) files (files.erase place) :=
  h.alike_of_update hfiles hloose rfl (files.get?_erase h.ne_nil) rfl (erase_shares h.sole) rfl fun _ => hfree

/-- A text that is put behind what a file holds changes its home only. -/
theorem Lodged.append_alike {home : Option Place} (h : Lodged files path home) (hfiles : files.WellFormed)
    (text : Bytes) : Alike (· ∈ home) files (files.append path text) := by
  cases home with
  | none =>
      obtain ⟨cause, hcause⟩ := h.homeless rfl true
      rw [Files.append, hcause]
      exact Alike.refl _ files
  | some place =>
      have hhomed := h.homed place rfl
      by_cases hfile : ∃ content, files.get? place = some (.file content)
      · obtain ⟨content, hfile⟩ := hfile
        rw [hhomed.append_content hfile]
        refine (hhomed.put_alike hfiles ((isLoose_iff files place).mpr (Or.inr ⟨content, hfile⟩)) _).mono ?_
        rintro _ rfl
        rfl
      · rw [hhomed.append_nothing (fun content hcontent => hfile ⟨content, hcontent⟩)]
        exact Alike.refl _ files

/-- A text is written to its home, or nothing is. -/
theorem Lodged.writeFile {home : Option Place} (h : Lodged files path home) (hfiles : files.WellFormed)
    (text : Bytes) : Alike (· ∈ home) files (files.writeFile path text).1 ∧
      ((files.writeFile path text).2 = none →
        ∃ place ∈ home, (files.writeFile path text).1.get? place = some (.file (.bytes text))) := by
  unfold Files.writeFile
  rcases h.create_cases with ⟨place, hplace, hloose, hcreate⟩ | ⟨-, fault, hcreate⟩
  · rw [hcreate]
    dsimp only
    have hhomed := h.homed place hplace
    have hput := hhomed.put_alike hfiles hloose (.bytes [])
    have hempty : (files.put place (.file (.bytes []))).get? place = some (.file (.bytes [])) := by
      rw [get?_put _ hhomed.ne_nil, Function.update_self]
    have hloose' := hput.isLoose.mpr hloose
    rw [(hhomed.alike hput).append hempty text]
    refine ⟨(hput.trans ((hhomed.alike hput).put_alike (hput.wellFormed.mp hfiles) hloose' _)).mono ?_, fun _ => ?_⟩
    · rintro _ rfl
      exact hplace
    · refine ⟨place, hplace, ?_⟩
      rw [get?_put _ hhomed.ne_nil, Function.update_self, List.nil_append]
  · rw [hcreate]
    exact ⟨Alike.refl _ _, by rintro ⟨⟩⟩

/-- A path sees a renamed file nowhere. -/
theorem Moved.shape {old new : Place} {content : Content} {renamed : Files} (h : Moved files old new content renamed)
    (hfile : files.get? old = some (.file content)) (hloose : files.IsLoose new) (q : Place) :
    Entry.shape (renamed.get? q) = Entry.shape (files.get? q) := by
  rw [h.get?]
  by_cases hold : q = old
  · rw [hold, Function.update_self, hfile]
    rfl
  · rw [Function.update_of_ne hold]
    by_cases hnew : q = new
    · rw [hnew, Function.update_self, hloose]
      rfl
    · rw [Function.update_of_ne hnew]

/-- A renamed file changes its two homes only. -/
theorem Moved.alike {target : Bytes} {old new : Place} {content : Content} {renamed : Files}
    (h : Moved files old new content renamed) (htarget : Homed files target new)
    (hfiles : files.WellFormed) (hfile : files.get? old = some (.file content)) (hloose : files.IsLoose new) :
    Alike (fun q => q = old ∨ q = new) files renamed :=
  ⟨h.same.working, h.shares htarget.sole, h.pinned, fun _ hq => h.same.get? hq, h.shape hfile hloose,
    iff_of_true hfiles h.wellFormed⟩

/-! ## Homes of paths with plain names -/

/-- The home of a path, if it leads anywhere. -/
def homeOf (files : Files) (path : Bytes) : Option Place :=
  match files.resolve false path with
  | .ok spot => some spot.place
  | .error _ => none

theorem linkStat_of_resolve {entry : Entry} (h : files.resolve false path = .ok (.taken place entry)) :
    files.linkStat path = .ok entry := by
  simp only [Files.linkStat, h, bind, Except.bind]

theorem Lodged.homeOf_eq {home : Option Place} (h : Lodged files path home) : files.homeOf path = home := by
  unfold homeOf
  cases home with
  | none =>
      obtain ⟨cause, hcause⟩ := h.homeless rfl false
      rw [hcause]
  | some place =>
      rw [(h.homed place rfl).resolves]
      exact congrArg some (place_spotAt files place)

/-- What a path leads to is at its home. -/
theorem Lodged.linkStat_eq_ok {home : Option Place} (h : Lodged files path home) {entry : Entry}
    (hentry : files.linkStat path = .ok entry) : ∃ place ∈ home, files.get? place = some entry := by
  unfold linkStat at hentry
  cases home with
  | none =>
      obtain ⟨cause, hcause⟩ := h.homeless rfl false
      rw [hcause] at hentry
      cases hentry
  | some place =>
      rw [(h.homed place rfl).resolves, spotAt] at hentry
      refine ⟨place, rfl, ?_⟩
      cases hthere : files.get? place with
      | none =>
          rw [hthere] at hentry
          cases hentry
      | some found =>
          rw [hthere] at hentry
          exact congrArg some (Except.ok.inj hentry)

theorem Lodged.linkStat_ne_link {home : Option Place} (h : Lodged files path home) (target : Bytes) :
    files.linkStat path ≠ .ok (.link target) := by
  intro hlink
  obtain ⟨place, hplace, hentry⟩ := h.linkStat_eq_ok hlink
  exact (h.homed place hplace).noLink target hentry

variable {last : Bytes}

/-- A path with a plain last name leads to its home, which bears the name. -/
theorem resolve_homeOf (hfiles : files.WellFormed) (hplain : Path.Plain last) (hends : Path.EndsIn last path)
    (h : place ∈ files.homeOf path) :
    place.getLast? = some last ∧ files.resolve false path = .ok (files.spotAt place) := by
  unfold homeOf at h
  cases hresolve : files.resolve false path with
  | error cause => simp [hresolve] at h
  | ok spot =>
      simp only [hresolve, Option.mem_some_iff] at h
      obtain ⟨parent, -, rfl⟩ := resolve_last hfiles hplain.ne_here hplain.ne_above (hends.getLast?_names hplain)
        (hends.endsWithSlash hplain) hresolve
      rw [place_spotAt] at h
      subst h
      exact ⟨by simp, rfl⟩

/-- A path whose plain last name is neither that of a link nor one of several names of a file lives at its home. -/
theorem lodged_homeOf (hfiles : files.WellFormed) (hplain : Path.Plain last) (hends : Path.EndsIn last path)
    (hlink : ∀ target, files.linkStat path ≠ .ok (.link target)) (hsole : ∀ place ∈ files.homeOf path, files.IsSole place) :
    Lodged files path (files.homeOf path) := by
  have hslash := hends.endsWithSlash hplain
  unfold homeOf at hsole ⊢
  cases hresolve : files.resolve false path with
  | error cause =>
      exact ⟨by rintro _ ⟨⟩, fun _ follow => resolve_stuck (Alike.refl (fun _ => True) files) hslash hresolve follow,
        hslash⟩
  | ok spot =>
      obtain ⟨parent, hhomed, rfl⟩ := homed_of_resolve hfiles hplain.ne_here hplain.ne_above
        (hends.getLast?_names hplain) hslash hresolve (by
          rintro place target rfl
          exact hlink target (linkStat_of_resolve hresolve)) (hsole _ (by simp [hresolve]))
      refine ⟨fun place hplace => ?_, by rintro ⟨⟩, hslash⟩
      obtain rfl := Option.some.inj hplace
      rw [place_spotAt]
      exact hhomed

end

end Files

end MobilitySweep
