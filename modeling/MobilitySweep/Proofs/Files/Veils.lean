import MobilitySweep.Proofs.Files.Publishing

/-! # Trees behind a veil

What is in the files at some places, and when it was written, can be hidden behind a veil. Operations on other files do
behind the veil what they do before it, and so do the programs that are made of them.
-/

namespace MobilitySweep

/-- An entry of which only the kind shows. -/
def Entry.veiled : Entry → Entry
  | .file _ => .file (.bytes [])
  | entry => entry

/-- What shows of an entry at a place when some places are hidden. -/
def Entry.behind (hidden : List Place) (place : Place) (entry : Entry) : Entry :=
  if place ∈ hidden then entry.veiled else entry

namespace Files

/-- The tree with what is in the files at some places, and when they were written, hidden. -/
def veiled (hidden : List Place) (files : Files) : Files :=
  { files with
    entries := files.entries.map fun entry => (entry.1, entry.2.behind hidden entry.1)
    times := files.times.filter (·.1 ∉ hidden) }

/-- What shows of a spot when some places are hidden. -/
def Spot.behind (hidden : List Place) : Spot → Spot
  | .taken place entry => .taken place (entry.behind hidden place)
  | .free place slash => .free place slash

/-- What shows of the progress of a walk when some places are hidden. -/
def Progress.behind (hidden : List Place) : Progress → Progress
  | .arrived spot => .arrived (spot.behind hidden)
  | progress => progress

section

variable {hidden : List Place} {files : Files} {place : Place} {entry : Entry}

theorem behind_of_notMem (h : place ∉ hidden) (entry : Entry) : entry.behind hidden place = entry := if_neg h

@[simp]
theorem behind_directory : Entry.directory.behind hidden place = .directory := ite_self _

@[simp]
theorem behind_link (target : Bytes) : (Entry.link target).behind hidden place = .link target := ite_self _

theorem behind_eq_directory : entry.behind hidden place = .directory ↔ entry = .directory := by
  unfold Entry.behind
  cases entry <;> split <;> simp [Entry.veiled]

/-- A file is still a file behind the veil. -/
theorem behind_file (hidden : List Place) (place : Place) (content : Content) :
    ∃ shown, (Entry.file content).behind hidden place = .file shown := by
  unfold Entry.behind
  split
  next => exact ⟨.bytes [], rfl⟩
  next => exact ⟨content, rfl⟩

theorem veiled_nil (files : Files) : files.veiled [] = files := by
  simp [veiled, Entry.behind]

theorem get?_veiled (place : Place) : (files.veiled hidden).get? place = (files.get? place).map (·.behind hidden place) := by
  unfold get?
  split
  next => simp
  next =>
    simp only [veiled, List.find?_map, Option.map_map]
    cases hfound : files.entries.find? ((fun entry => decide (entry.1 = place)) ∘ fun entry =>
        (entry.1, entry.2.behind hidden entry.1)) with
    | none =>
        have hnone : files.entries.find? (fun entry => decide (entry.1 = place)) = none := hfound
        rw [hnone]
        rfl
    | some old =>
        have hsome : files.entries.find? (fun entry => decide (entry.1 = place)) = some old := hfound
        obtain rfl : old.1 = place := by simpa using List.find?_some hsome
        rw [hsome]
        rfl

end

/-! ## Walks behind the veil -/

section

variable {hidden : List Place} {files : Files} {follow slash : Bool} {here : Place} {names : List Bytes}

theorem Scans.veiled {progress : Progress} (h : Scans files follow slash here names progress) :
    Scans (files.veiled hidden) follow slash here names (progress.behind hidden) := by
  have hsame : ∀ {place : Place} {entry : Entry}, files.get? place = some entry →
      (files.veiled hidden).get? place = some (entry.behind hidden place) := by
    intro place entry hentry
    rw [get?_veiled, hentry, Option.map_some]
  induction h with
  | done =>
      rw [Progress.behind, Spot.behind, behind_directory]
      exact .done
  | here _ ih => exact .here ih
  | above _ ih => exact .above ih
  | long hhere habove hlong => exact .long hhere habove hlong
  | free hname hentry => exact .free hname (by rw [get?_veiled, hentry, Option.map_none])
  | missing hname hentry hrest => exact .missing hname (by rw [get?_veiled, hentry, Option.map_none]) hrest
  | down hname hentry _ ih => exact .down hname ((hsame hentry).trans (by rw [behind_directory])) ih
  | @file here name content hname hentry hslash =>
      obtain ⟨shown, hshown⟩ := behind_file hidden (here ++ [name]) content
      rw [Progress.behind, Spot.behind, hshown]
      exact .file hname ((hsame hentry).trans (by rw [hshown])) hslash
  | @blocked here name rest content hname hentry hmore =>
      obtain ⟨shown, hshown⟩ := behind_file hidden (here ++ [name]) content
      exact .blocked hname ((hsame hentry).trans (by rw [hshown])) hmore
  | link hname hentry hfollow hslash =>
      rw [Progress.behind, Spot.behind, behind_link]
      exact .link hname ((hsame hentry).trans (by rw [behind_link])) hfollow hslash
  | jump hname hentry hmore => exact .jump hname ((hsame hentry).trans (by rw [behind_link])) hmore

theorem Walks.veiled {links : Nat} {result : Except Cause Spot}
    (h : Walks files follow links slash here names result) :
    Walks (files.veiled hidden) follow links slash here names (result.map (·.behind hidden)) := by
  induction h with
  | arrived hscan => exact .arrived hscan.veiled
  | stuck hscan => exact .stuck hscan.veiled
  | exhausted hscan => exact .exhausted hscan.veiled
  | jump hscan _ ih => exact .jump hscan.veiled ih

theorem walk_veiled (links : Nat) : (files.veiled hidden).walk follow links slash here names =
    (files.walk follow links slash here names).map (·.behind hidden) :=
  (walks files follow links slash here names).veiled.walk_eq

/-- A path leads to the same place behind the veil. -/
theorem resolve_veiled (follow : Bool) (path : Bytes) :
    (files.veiled hidden).resolve follow path = (files.resolve follow path).map (·.behind hidden) := by
  unfold resolve
  split
  next => rfl
  next =>
    split
    next => rfl
    next =>
      split
      next => rfl
      next => exact walk_veiled linkLimit

/-- A path that leads to no hidden place leads to the same spot behind the veil. -/
theorem resolve_veiled_of_notMem {path : Bytes} (h : ∀ spot, files.resolve follow path = .ok spot → spot.place ∉ hidden) :
    (files.veiled hidden).resolve follow path = files.resolve follow path := by
  rw [resolve_veiled]
  cases hresolve : files.resolve follow path with
  | error cause => rfl
  | ok spot =>
      cases spot with
      | free place slash => rfl
      | taken place entry =>
          have hshown : entry.behind hidden place = entry := behind_of_notMem (h _ hresolve) entry
          simp only [Except.map, Spot.behind, hshown]

end

/-! ## Changes behind the veil -/

section

variable {hidden : List Place} {files : Files} {place : Place}

theorem map_setEntry (place : Place) (entry : Entry) (entries : List (Place × Entry)) :
    (setEntry place entry entries).map (fun entry => (entry.1, entry.2.behind hidden entry.1)) =
      setEntry place (entry.behind hidden place)
        (entries.map fun entry => (entry.1, entry.2.behind hidden entry.1)) := by
  induction entries with
  | nil => rfl
  | cons old rest ih =>
      simp only [setEntry, List.map_cons]
      split
      next => rfl
      next => rw [List.map_cons, ih]

theorem put_veiled (h : place ∉ hidden) (entry : Entry) :
    (files.put place entry).veiled hidden = (files.veiled hidden).put place entry := by
  simp only [put, veiled, map_setEntry, behind_of_notMem h]
  rw [List.filter_cons_of_pos (by simpa using h), List.filter_comm]

/-- What is put into a hidden file does not show. -/
theorem put_hidden (h : place ∈ hidden) (hne : place ≠ []) {old : Content}
    (hfile : files.get? place = some (.file old)) (content : Content) :
    (files.put place (.file content)).veiled hidden = files.veiled hidden := by
  have hshown : ∀ content, (Entry.file content).behind hidden place = .file (.bytes []) := fun _ => if_pos h
  have hentries : ∀ entries : List (Place × Entry), entries.find? (·.1 = place) = some (place, .file old) →
      (setEntry place (.file content) entries).map (fun entry => (entry.1, entry.2.behind hidden entry.1)) =
        entries.map fun entry => (entry.1, entry.2.behind hidden entry.1) := by
    intro entries
    induction entries with
    | nil => rintro ⟨⟩
    | cons first rest ih =>
        intro hfound
        by_cases hfirst : first.1 = place
        · rw [List.find?_cons_of_pos (by simpa using hfirst)] at hfound
          obtain rfl := Option.some.inj hfound
          simp only [setEntry, if_true, List.map_cons, hshown]
        · rw [List.find?_cons_of_neg (by simpa using hfirst)] at hfound
          simp only [setEntry, hfirst, if_false, List.map_cons, ih hfound]
  rw [get?_of_ne_nil files hne] at hfile
  obtain ⟨first, hfound, hentry⟩ := Option.map_eq_some_iff.mp hfile
  obtain rfl : first.1 = place := by simpa using List.find?_some hfound
  rw [← hentry] at hentries
  simp only [put, veiled, hentries _ hfound]
  rw [List.filter_cons_of_neg (by simpa using h), List.filter_filter]
  congr 1
  refine List.filter_congr fun mark _ => ?_
  by_cases hmark : mark.1 ∈ hidden <;> simp [hmark]
  exact fun heq => hmark (heq ▸ h)

theorem erase_veiled (place : Place) : (files.erase place).veiled hidden = (files.veiled hidden).erase place := by
  simp only [erase, veiled, List.filter_map]
  rw [List.filter_comm]
  rfl

/-- Moving what is neither above a hidden place nor to be above one. -/
theorem move_veiled {source target : Place} (hsource : ∀ place ∈ hidden, ¬ source <+: place)
    (htarget : ∀ place ∈ hidden, ¬ target <+: place) :
    (files.move source target).veiled hidden = (files.veiled hidden).move source target := by
  have hgoal : ∀ place, move.goal source target place ∈ hidden ↔ place ∈ hidden := by
    intro place
    by_cases hbelow : source <+: place
    · rw [move.goal, if_pos (by simpa using hbelow)]
      exact iff_of_false (fun h => htarget _ h (List.prefix_append _ _)) fun h => hsource _ h hbelow
    · rw [ goal_of_not_prefix hbelow]
  have hshown : ∀ (place : Place) (entry : Entry), entry.behind hidden (move.goal source target place) =
      entry.behind hidden place := by
    intro place entry
    simp only [Entry.behind, hgoal]
  simp only [move, veiled, List.map_map, List.filter_map]
  congr 1
  · refine List.map_congr_left fun entry _ => ?_
    simp only [Function.comp_apply, move.moved, hshown]
  · congr 1
    refine List.filter_congr fun mark _ => ?_
    simp only [Function.comp_apply, move.moved, hgoal]

theorem hasEntriesBelow_veiled (place : Place) :
    (files.veiled hidden).hasEntriesBelow place = files.hasEntriesBelow place := by
  simp only [hasEntriesBelow, veiled, List.any_map]
  rfl

theorem timeAt_veiled (h : place ∉ hidden) : (files.veiled hidden).timeAt place = files.timeAt place := by
  have htime : said? (files.veiled hidden).times place = said? files.times place := by
    unfold said? veiled
    rw [List.find?_filter]
    congr 2
    funext mark
    by_cases hmark : mark.1 = place
    · simp [hmark, h]
    · simp [hmark]
  unfold timeAt
  rw [get?_veiled, htime]
  cases files.get? place with
  | none => rfl
  | some entry => rw [Option.map_some, behind_of_notMem h]

end

/-! ## Operations behind the veil -/

section

variable {hidden : List Place} {files : Files} {path : Bytes} {home : Option Place}

theorem exists?_veiled (path : Bytes) : (files.veiled hidden).exists? path = files.exists? path := by
  unfold exists? stat
  rw [resolve_veiled]
  cases files.resolve true path with
  | error cause => rfl
  | ok spot => cases spot <;> rfl

/-- Removing something makes no difference to what shows of the rest. -/
theorem remove_veiled (path : Bytes) :
    (files.veiled hidden).remove path = ((files.remove path).1.veiled hidden, (files.remove path).2) := by
  unfold remove
  rw [resolve_veiled]
  cases files.resolve false path with
  | error cause => rfl
  | ok spot =>
      cases spot with
      | free place slash => rfl
      | taken place entry =>
          have hpinned : (files.veiled hidden).pinned = files.pinned := rfl
          simp only [Except.map, Spot.behind, hpinned, behind_eq_directory, hasEntriesBelow_veiled]
          split
          next => rfl
          next =>
            split
            next => rfl
            next => rw [erase_veiled]

theorem isSameFile_veiled (path other : Bytes) :
    (files.veiled hidden).isSameFile path other = files.isSameFile path other := by
  have hone : ∀ place place', (files.veiled hidden).isOneFile place place' = files.isOneFile place place' :=
    fun _ _ => rfl
  have hkind : ∀ path : Bytes, (∃ place content, files.resolve true path = .ok (.taken place (.file content)) ∧
      ∃ shown, (files.veiled hidden).resolve true path = .ok (.taken place (.file shown))) ∨
      (∀ place content, files.resolve true path ≠ .ok (.taken place (.file content))) ∧
        ∀ place content, (files.veiled hidden).resolve true path ≠ .ok (.taken place (.file content)) := by
    intro path
    rw [resolve_veiled]
    cases files.resolve true path with
    | error cause => exact Or.inr ⟨by simp, by simp [Except.map]⟩
    | ok spot =>
        cases spot with
        | free place slash => exact Or.inr ⟨by simp, by simp [Except.map, Spot.behind]⟩
        | taken place entry =>
            cases entry with
            | file content =>
                obtain ⟨shown, hshown⟩ := behind_file hidden place content
                exact Or.inl ⟨place, content, rfl, shown, by simp only [Except.map, Spot.behind, hshown]⟩
            | directory | link target => exact Or.inr ⟨by simp, by simp [Except.map, Spot.behind]⟩
  unfold isSameFile
  rcases hkind path with ⟨place, content, hpath, shown, hveiled⟩ | ⟨hpath, hveiled⟩
  · rcases hkind other with ⟨place', content', hother, shown', hveiled'⟩ | ⟨hother, hveiled'⟩
    · rw [hpath, hveiled, hother, hveiled']
      exact hone place place'
    · grind
  · grind

/-- A path that lives at no hidden place leads to the same spot behind the veil. -/
theorem Lodged.resolve_veiled (h : Lodged files path home) (hhome : ∀ place ∈ home, place ∉ hidden) (follow : Bool) :
    (files.veiled hidden).resolve follow path = files.resolve follow path := by
  refine resolve_veiled_of_notMem fun spot hspot => ?_
  cases home with
  | none =>
      obtain ⟨cause, hcause⟩ := h.homeless rfl follow
      rw [hcause] at hspot
      cases hspot
  | some place =>
      rw [(h.homed place rfl).resolves] at hspot
      obtain rfl := Except.ok.inj hspot
      rw [place_spotAt]
      exact hhome place rfl

theorem Lodged.stat_veiled (h : Lodged files path home) (hhome : ∀ place ∈ home, place ∉ hidden) :
    (files.veiled hidden).stat path = files.stat path := by
  rw [Files.stat, Files.stat, h.resolve_veiled hhome]

theorem Lodged.contentAt_veiled (h : Lodged files path home) (hhome : ∀ place ∈ home, place ∉ hidden) :
    (files.veiled hidden).contentAt path = files.contentAt path := by
  simp only [contentAt, openFile, h.stat_veiled hhome]

theorem Lodged.timeOf_veiled (h : Lodged files path home) (hhome : ∀ place ∈ home, place ∉ hidden) :
    (files.veiled hidden).timeOf path = files.timeOf path := by
  unfold timeOf
  rw [h.resolve_veiled hhome]
  cases home with
  | none =>
      obtain ⟨cause, hcause⟩ := h.homeless rfl true
      rw [hcause]
  | some place =>
      rw [(h.homed place rfl).resolves, spotAt]
      cases files.get? place with
      | none => rfl
      | some entry => exact timeAt_veiled (hhome place rfl)

theorem Lodged.writablePlace (h : Lodged files path home) {place : Place} (hplace : files.writablePlace path = .ok place) :
    place ∈ home ∧ files.IsSole place := by
  unfold Files.writablePlace at hplace
  rw [h.noSlash] at hplace
  cases home with
  | none =>
      obtain ⟨cause, hcause⟩ := h.homeless rfl true
      simp [hcause, bind, Except.bind] at hplace
  | some there =>
      have hhomed := h.homed there rfl
      suffices hsame : there = place from hsame ▸ ⟨rfl, hhomed.sole⟩
      rw [hhomed.resolves, spotAt] at hplace
      cases hentry : files.get? there with
      | none =>
          rw [hentry] at hplace
          exact Except.ok.inj hplace
      | some entry =>
          rw [hentry] at hplace
          cases entry with
          | directory => cases hplace
          | file content | link target => exact Except.ok.inj hplace

theorem Lodged.writablePlace_veiled (h : Lodged files path home) (hhome : ∀ place ∈ home, place ∉ hidden) :
    (files.veiled hidden).writablePlace path = files.writablePlace path := by
  simp only [Files.writablePlace, h.noSlash, Bool.false_and, Bool.false_eq_true, if_false, h.resolve_veiled hhome]

theorem Lodged.create_veiled (h : Lodged files path home) (hhome : ∀ place ∈ home, place ∉ hidden) :
    (files.veiled hidden).create path = ((files.create path).1.veiled hidden, (files.create path).2) := by
  unfold Files.create
  rw [h.writablePlace_veiled hhome]
  cases hplace : files.writablePlace path with
  | error cause => rfl
  | ok place =>
      obtain ⟨hin, hsole⟩ := h.writablePlace hplace
      have hsole' : (files.veiled hidden).IsSole place := hsole
      dsimp only
      rw [hsole.write, hsole'.write, put_veiled (hhome place hin)]

theorem Lodged.append_veiled (h : Lodged files path home) (hhome : ∀ place ∈ home, place ∉ hidden) (text : Bytes) :
    (files.veiled hidden).append path text = (files.append path text).veiled hidden := by
  unfold Files.append
  rw [h.resolve_veiled hhome]
  cases home with
  | none =>
      obtain ⟨cause, hcause⟩ := h.homeless rfl true
      rw [hcause]
  | some place =>
      have hhomed := h.homed place rfl
      rw [hhomed.resolves, spotAt]
      cases files.get? place with
      | none => rfl
      | some entry =>
          cases entry with
          | file old =>
              have hsole : (files.veiled hidden).IsSole place := hhomed.sole
              dsimp only
              rw [hhomed.sole.write, hsole.write, put_veiled (hhome place rfl)]
          | directory | link target => rfl

theorem Lodged.writeFile_veiled (h : Lodged files path home) (hfiles : files.WellFormed)
    (hhome : ∀ place ∈ home, place ∉ hidden) (text : Bytes) :
    (files.veiled hidden).writeFile path text =
      ((files.writeFile path text).1.veiled hidden, (files.writeFile path text).2) := by
  unfold Files.writeFile
  rw [h.create_veiled hhome]
  rcases h.create_cases with ⟨place, hplace, hloose, hcreate⟩ | ⟨-, fault, hcreate⟩
  · rw [hcreate]
    have hcreated := h.alike ((h.homed place hplace).put_alike hfiles hloose (.bytes []))
    dsimp only
    rw [hcreated.append_veiled hhome]
  · rw [hcreate]

/-- What is put behind the text of a hidden file does not show. -/
theorem Lodged.append_hidden (h : Lodged files path home) (hhome : ∀ place ∈ home, place ∈ hidden) (text : Bytes) :
    (files.append path text).veiled hidden = files.veiled hidden := by
  cases home with
  | none =>
      obtain ⟨cause, hcause⟩ := h.homeless rfl true
      rw [Files.append, hcause]
  | some place =>
      have hhomed := h.homed place rfl
      by_cases hfile : ∃ content, files.get? place = some (.file content)
      · obtain ⟨content, hfile⟩ := hfile
        rw [hhomed.append_content hfile, put_hidden (hhome place rfl) hhomed.ne_nil hfile]
      · rw [hhomed.append_nothing fun content hcontent => hfile ⟨content, hcontent⟩]

/-- Whether the hidden places are in directories, so that nothing but directories is above them. -/
def Sheltered (hidden : List Place) (files : Files) : Prop :=
  ∀ place ∈ hidden, ∃ parent name, place = parent ++ [name] ∧ files.get? parent = some .directory

theorem Sheltered.alike {changing : Place → Prop} {other : Files} (h : Sheltered hidden files)
    (halike : Alike changing files other) : Sheltered hidden other := by
  intro place hplace
  obtain ⟨parent, name, hsplit, hparent⟩ := h place hplace
  exact ⟨parent, name, hsplit, halike.directory hparent⟩

/-- What is no directory is not above a hidden place. -/
theorem Sheltered.not_prefix (h : Sheltered hidden files) (hfiles : files.WellFormed) {place : Place}
    (hnot : files.get? place ≠ some .directory) (hplace : place ∉ hidden) : ∀ other ∈ hidden, ¬ place <+: other := by
  rintro other hother ⟨rest, rfl⟩
  obtain ⟨parent, name, hsplit, hparent⟩ := h _ hother
  rcases List.eq_nil_or_concat rest with rfl | ⟨front, last, rfl⟩
  · exact hplace (by rwa [List.append_nil] at hother)
  · rw [List.concat_eq_append, ← List.append_assoc] at hsplit
    obtain ⟨rfl, -⟩ := List.append_inj' hsplit rfl
    by_cases hfront : front = []
    · subst hfront
      rw [List.append_nil] at hparent
      exact hnot hparent
    · exact hnot (hfiles.above front hfront (by rw [hparent]; rfl))

/-- Renaming nothing changes nothing. -/
theorem Lodged.rename_missing (h : Lodged files path home) (hmissing : ∀ place ∈ home, files.get? place = none)
    (target : Bytes) : (files.rename path target).1 = files := by
  have hentry : ∃ cause, files.renameEntry path target = .error cause := by
    unfold renameEntry
    cases home with
    | none =>
        obtain ⟨cause, hcause⟩ := h.homeless rfl false
        exact ⟨cause, by rw [hcause]; rfl⟩
    | some place =>
        rw [(h.homed place rfl).resolves, spotAt, hmissing place rfl]
        exact ⟨.missing, rfl⟩
  obtain ⟨cause, hcause⟩ := hentry
  unfold Files.rename
  rw [hcause]
  grind

/-- Renaming a file, or nothing at all, where no hidden place is concerned. -/
theorem Lodged.rename_veiled {target : Bytes} {goal : Option Place} (hsource : Lodged files path home)
    (htarget : Lodged files target goal) (hfiles : files.WellFormed) (hshelter : Sheltered hidden files)
    (hloose : ∀ place ∈ home, files.IsLoose place) (hhome : ∀ place ∈ home, place ∉ hidden)
    (hgoal : ∀ place ∈ goal, place ∉ hidden) :
    (files.veiled hidden).rename path target =
      ((files.rename path target).1.veiled hidden, (files.rename path target).2) := by
  have hentry : (files.veiled hidden).renameEntry path target =
      (files.renameEntry path target).map (·.veiled hidden) := by
    have hpinned : (files.veiled hidden).pinned = files.pinned := rfl
    have hone : ∀ place place', (files.veiled hidden).isOneFile place place' = files.isOneFile place place' :=
      fun _ _ => rfl
    unfold renameEntry
    rw [hsource.resolve_veiled hhome, withoutSlash_eq htarget.noSlash, htarget.resolve_veiled hgoal, htarget.noSlash]
    -- The veil covers neither name, nor anything below them, so it commutes with the move of one to the other.
    cases home with
    | none =>
        obtain ⟨cause, hcause⟩ := hsource.homeless rfl false
        rw [hcause]
        rfl
    | some old =>
        have hhomed := hsource.homed old rfl
        rw [hhomed.resolves, spotAt]
        rcases (isLoose_iff files old).mp (hloose old rfl) with hnone | ⟨content, hfile⟩
        · rw [hnone]
          rfl
        have hold := hshelter.not_prefix hfiles (hloose old rfl).ne_directory (hhome old rfl)
        cases goal with
        | none =>
            obtain ⟨cause, hcause⟩ := htarget.homeless rfl false
            rw [hfile, hcause]
            cases target.isEmpty <;> rfl
        | some new =>
            have hspot := (htarget.homed new rfl).resolves false
            have hnonempty : target.isEmpty = false := (fits_of_resolve hspot).2.1
            rw [hspot, spotAt, hfile, hnonempty]
            have hmove : ∀ tree : Files, files.get? new ≠ some .directory →
                (tree.move old new).veiled hidden = (tree.veiled hidden).move old new := fun tree hnew =>
              move_veiled hold (hshelter.not_prefix hfiles hnew (hgoal new rfl))
            cases hnew : files.get? new with
            | none =>
                have hthere := hmove files (by simp [hnew])
                simp only [bind, Except.bind, hpinned, Bool.false_eq_true, if_false, reduceCtorEq, decide_false,
                  Bool.false_and]
                split <;> first | rfl | exact congrArg Except.ok hthere.symm
            | some existing =>
                simp only [bind, Except.bind, hpinned, hone, hasEntriesBelow_veiled, Bool.false_eq_true, if_false,
                  reduceCtorEq, decide_false, Bool.false_and, Bool.not_false, Bool.true_and]
                by_cases hdirectory : existing = .directory
                · simp only [hdirectory, decide_true, if_true]
                  split_ifs <;> rfl
                · have hthere := hmove (files.erase new) (by simpa [hnew] using hdirectory)
                  rw [erase_veiled] at hthere
                  simp only [hdirectory, decide_false, Bool.false_eq_true, if_false]
                  split_ifs <;> first | rfl | exact congrArg Except.ok hthere.symm
  unfold Files.rename
  rw [hsource.resolve_veiled hhome, htarget.resolve_veiled hgoal, hentry]
  cases files.renameEntry path target with
  | error cause =>
      simp only [Except.map]
      split
      next => split <;> (try split) <;> rfl
      next => rfl
  | ok renamed =>
      simp only [Except.map]
      split
      next => split <;> (try split) <;> rfl
      next => rfl

end

/-! ## Programs behind the veil -/

/-- Whether a program does the same behind the veil. -/
def Oblivious {α : Type} (hidden : List Place) (p : Steps Files α) (files : Files) : Prop :=
  p.run (files.veiled hidden) = ((p.run files).1, (p.run files).2.veiled hidden)

section

variable {α β : Type} {hidden : List Place} {files : Files}

theorem oblivious_pure (value : α) (files : Files) : Oblivious hidden (pure value) files := rfl

theorem Oblivious.bind {p : Steps Files β} {f : β → Steps Files α} (h : Oblivious hidden p files)
    (hf : Oblivious hidden (f (p.run files).1) (p.run files).2) : Oblivious hidden (p >>= f) files := by
  have hrun : ∀ tree, (p >>= f).run tree = (f (p.run tree).1).run (p.run tree).2 := Steps.run_bind p f
  rw [Oblivious, hrun, hrun, h]
  exact hf

theorem oblivious_look {view : Files → α} (h : view (files.veiled hidden) = view files) :
    Oblivious hidden (Steps.look view) files := congrArg (·, files.veiled hidden) h

theorem oblivious_change {f : Files → Files} (h : f (files.veiled hidden) = (f files).veiled hidden) :
    Oblivious hidden (Steps.change f) files := congrArg ((), ·) h

theorem oblivious_attempt {action : Files → Files × Option Fault}
    (h : action (files.veiled hidden) = ((action files).1.veiled hidden, (action files).2)) :
    Oblivious hidden (Archive.attempt action) files := by
  simp only [Oblivious, Archive.attempt, Steps.act, Steps.run, h]

theorem discard_oblivious (path : Bytes) (value : α) (files : Files) :
    Oblivious hidden ((Steps.change fun (files : Files) => (files.remove path).1) >>= fun _ => pure value) files :=
  (oblivious_change (congrArg Prod.fst (remove_veiled path))).bind (oblivious_pure value _)

variable {path : Bytes} {draft home : Option Place}

/-- A program goes on from a new file, or from a failure and the tree as it was. -/
theorem oblivious_create {f : Option Fault → Steps Files α} (hfiles : files.WellFormed)
    (hdraft : Lodged files path draft) (hshown : ∀ place ∈ draft, place ∉ hidden)
    (hfault : ∀ fault, Oblivious hidden (f (some fault)) files)
    (hcreated : ∀ t, Alike (· ∈ draft) files t → (∀ place ∈ draft, t.IsLoose place) → Oblivious hidden (f none) t) :
    Oblivious hidden (Archive.attempt (·.create path) >>= f) files := by
  refine (oblivious_attempt (hdraft.create_veiled hshown)).bind ?_
  simp only [Archive.attempt, Steps.act, Steps.run]
  rcases hdraft.create_cases with ⟨old, hold, hloose, hcreate⟩ | ⟨-, fault, hcreate⟩
  · rw [hcreate]
    have halike := (hdraft.homed old hold).put_alike hfiles hloose (.bytes [])
    refine hcreated _ (halike.mono ?_) fun place hplace => halike.isLoose.mpr (Option.mem_unique hold hplace ▸ hloose)
    rintro _ rfl
    exact hold
  · rw [hcreate]
    exact hfault fault

/-- A text put into a file that takes its name then, or is discarded. -/
theorem install_oblivious {temporary : Bytes} (hfiles : files.WellFormed) (hshelter : Sheltered hidden files)
    (hdraft : Lodged files temporary draft) (hhome : Lodged files path home)
    (hloose : ∀ place ∈ draft, files.IsLoose place) (hdraftShown : ∀ place ∈ draft, place ∉ hidden)
    (hhomeShown : ∀ place ∈ home, place ∉ hidden) (text : Bytes) :
    Oblivious hidden ((Steps.change fun (files : Files) => files.append temporary text) >>= fun _ =>
      Archive.attempt (·.rename temporary path)) files := by
  have halike := hdraft.append_alike hfiles text
  refine (oblivious_change (hdraft.append_veiled hdraftShown text)).bind (oblivious_attempt ?_)
  exact (hdraft.alike halike).rename_veiled (hhome.alike halike) (halike.wellFormed.mp hfiles) (hshelter.alike halike)
    (fun place hplace => halike.isLoose.mpr (hloose place hplace)) hdraftShown hhomeShown

theorem publish_oblivious (hfiles : files.WellFormed) (hshelter : Sheltered hidden files)
    (hdraft : Lodged files (path ++ Archive.temporaryEnding) draft) (hhome : Lodged files path home)
    (hdraftShown : ∀ place ∈ draft, place ∉ hidden) (hhomeShown : ∀ place ∈ home, place ∉ hidden) (text : Bytes) :
    Oblivious hidden (publish path text) files := by
  unfold publish
  refine oblivious_create hfiles hdraft hdraftShown (fun _ => oblivious_pure _ _) fun t halike hloose => ?_
  have hinstall := install_oblivious (halike.wellFormed.mp hfiles) (hshelter.alike halike) (hdraft.alike halike)
    (hhome.alike halike) hloose hdraftShown hhomeShown text
  refine Eq.mp (congrArg (Oblivious hidden · _) (Steps.bind_bind _ _ _)) (hinstall.bind ?_)
  split
  next => exact discard_oblivious _ _ _
  next => exact oblivious_pure _ _

theorem remaining_veiled (created : Bytes) (opened : Entry) (time : Nat) :
    Archive.remaining path created opened time (files.veiled hidden) =
      Archive.remaining path created opened time files := by
  unfold Archive.remaining
  rw [isSameFile_veiled]
  rfl

theorem compress_oblivious {archive : Option Place} (hfiles : files.WellFormed) (hshelter : Sheltered hidden files)
    (hlog : Lodged files path home) (harchive : Lodged files (Archive.pathFor path) archive)
    (hdraft : Lodged files (Archive.pathFor path ++ Archive.temporaryEnding) draft)
    (hlogShown : ∀ place ∈ home, place ∉ hidden) (harchiveShown : ∀ place ∈ archive, place ∉ hidden)
    (hdraftShown : ∀ place ∈ draft, place ∉ hidden) : Oblivious hidden (Archive.compress path) files := by
  unfold Archive.compress
  refine (oblivious_look ?_).bind ?_
  · simp only [openFile, hlog.stat_veiled hlogShown, hlog.timeOf_veiled hlogShown]
  simp only [Steps.look, Steps.act, Steps.run]
  cases files.openFile path with
  | error fault => exact oblivious_pure _ _
  | ok opened =>
      refine oblivious_create hfiles hdraft hdraftShown (fun _ => oblivious_pure _ _) fun t halike hloose => ?_
      refine (oblivious_look (remaining_veiled _ _ _)).bind ?_
      dsimp only [Steps.look, Steps.act, Steps.run]
      split
      next => exact discard_oblivious _ _ _
      next bytes _ =>
        have hinstall := install_oblivious (halike.wellFormed.mp hfiles) (hshelter.alike halike) (hdraft.alike halike)
          (harchive.alike halike) hloose hdraftShown harchiveShown bytes
        refine Eq.mp (congrArg (Oblivious hidden · _) (Steps.bind_bind _ _ _)) (hinstall.bind ?_)
        split
        next => exact discard_oblivious _ _ _
        next =>
          refine (oblivious_attempt (remove_veiled path)).bind ?_
          split <;> exact oblivious_pure _ _

end

end Files

end MobilitySweep
