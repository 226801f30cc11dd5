import MobilitySweep.Proofs.Files.Homes
import MobilitySweep.Proofs.Files.Names
import MobilitySweep.Files.Confine

/-! # Provisioning

Creating directories only adds to a tree. Once the directories of a layout are there, provisioning it again
leaves the tree as it is.
-/

namespace MobilitySweep

namespace Files

/-- A tree that has all that another one has. -/
structure Extends (files other : Files) : Prop where
  working : other.workingDirectory = files.workingDirectory
  shares : other.shares = files.shares
  entries : ∀ place entry, files.get? place = some entry → other.get? place = some entry

section

variable {files other third : Files}

theorem Extends.refl (files : Files) : Extends files files := ⟨rfl, rfl, fun _ _ => id⟩

theorem Extends.trans (h : Extends files other) (h' : Extends other third) : Extends files third :=
  ⟨h'.working.trans h.working, h'.shares.trans h.shares,
    fun place entry hentry => h'.entries place entry (h.entries place entry hentry)⟩

/-! ## What is there stays where it is -/

theorem Extends.ways (h : Extends files other) : Ways files other :=
  ⟨fun place => h.entries place _, fun place _ => h.entries place _⟩

section

variable {follow slash slash' : Bool} {links : Nat} {here place : Place} {names : List Bytes} {entry : Entry}

theorem Scans.extends (h : Scans files follow slash here names (.arrived (.taken place entry)))
    (hextends : Extends files other) : Scans other follow slash here names (.arrived (.taken place entry)) := by
  generalize harrived : Progress.arrived (Spot.taken place entry) = progress at h
  induction h with
  | long | free | missing | blocked | jump => cases harrived
  | done =>
      cases harrived
      exact .done
  | here _ ih => exact .here (ih harrived)
  | above _ ih => exact .above (ih harrived)
  | down hname hentry _ ih => exact .down hname (hextends.entries _ _ hentry) (ih harrived)
  | file hname hentry hslash =>
      cases harrived
      exact .file hname (hextends.entries _ _ hentry) hslash
  | link hname hentry hfollow hslash =>
      cases harrived
      exact .link hname (hextends.entries _ _ hentry) hfollow hslash

theorem Walks.extends (h : Walks files follow links slash here names (.ok (.taken place entry)))
    (hextends : Extends files other) : Walks other follow links slash here names (.ok (.taken place entry)) := by
  generalize hresult : Except.ok (Spot.taken place entry) = result at h
  induction h with
  | arrived hscan =>
      cases hresult
      exact .arrived (hscan.extends hextends)
  | stuck | exhausted => cases hresult
  | jump hscan _ ih => exact .jump (hscan.jump_along hextends.ways id) (ih hresult)

end

theorem Extends.resolve (h : Extends files other) {follow : Bool} {path : Bytes} {place : Place} {entry : Entry}
    (hresolve : files.resolve follow path = .ok (.taken place entry)) :
    other.resolve follow path = .ok (.taken place entry) := by
  have hfits := fits_of_resolve hresolve
  have hstart : other.start path = files.start path := by rw [start, start, h.working]
  rw [resolve_iff hfits, hstart]
  exact ((resolve_iff hfits).mp hresolve).extends h

theorem Extends.stat (h : Extends files other) {path : Bytes} {entry : Entry} (hstat : files.stat path = .ok entry) :
    other.stat path = .ok entry := by
  obtain ⟨place, hresolve⟩ := stat_eq_ok hstat
  exact stat_of_resolve (h.resolve hresolve)

/-! ## Directories at free places -/

/-- A place where nothing is, in a directory. -/
structure Vacant (files : Files) (place : Place) : Prop where
  free : files.get? place = none
  inDirectory : ∃ parent name, place = parent ++ [name] ∧ files.get? parent = some .directory

/-- A new entry at a free place takes nothing away. -/
theorem Vacant.put {place : Place} (h : files.Vacant place) (hfiles : files.WellFormed) (entry : Entry) :
    (files.put place entry).WellFormed ∧ Extends files (files.put place entry) ∧
      (files.put place entry).get? = Function.update files.get? place (some entry) := by
  obtain ⟨hfree, parent, name, rfl, hparent⟩ := h
  have hput := files.get?_put (List.append_ne_nil_of_right_ne_nil parent (List.cons_ne_nil name [])) entry
  refine ⟨hfiles.put_new hparent hfree entry, ⟨rfl, rfl, fun other old hold => ?_⟩, hput⟩
  have hne : other ≠ parent ++ [name] := by
    rintro rfl
    rw [hfree] at hold
    cases hold
  rw [hput, Function.update_of_ne hne, hold]

section

variable {follow slash slash' : Bool} {links : Nat} {here place : Place} {names : List Bytes}

/-- A scan from a directory finds a free place in a directory. -/
theorem Scans.vacant (h : Scans files follow slash here names (.arrived (.free place slash')))
    (hfiles : files.WellFormed) (hdirectory : files.get? here = some .directory) : files.Vacant place := by
  generalize harrived : Progress.arrived (Spot.free place slash') = progress at h
  induction h with
  | done | long | missing | file | blocked | link | jump => cases harrived
  | here _ ih => exact ih hdirectory harrived
  | above _ ih => exact ih (hfiles.dropLast hdirectory) harrived
  | down _ hentry _ ih => exact ih hentry harrived
  | @free here name _ hentry =>
      cases harrived
      exact ⟨hentry, here, name, rfl, hdirectory⟩

/-- A scan that finds a free place finds a directory there once there is one, whatever is asked of the last name. -/
theorem Scans.filled (h : Scans files follow slash here names (.arrived (.free place slash')))
    (hextends : Extends files other) (hmade : other.get? place = some .directory) (follow' asked : Bool) :
    Scans other follow' asked here names (.arrived (.taken place .directory)) := by
  generalize harrived : Progress.arrived (Spot.free place slash') = progress at h
  induction h with
  | done | long | missing | file | blocked | link | jump => cases harrived
  | here _ ih => exact .here (ih harrived)
  | above _ ih => exact .above (ih harrived)
  | down hname hentry _ ih => exact .down hname (hextends.entries _ _ hentry) (ih harrived)
  | free hname =>
      cases harrived
      exact .down hname hmade .done

theorem Walks.vacant (h : Walks files follow links slash here names (.ok (.free place slash')))
    (hfiles : files.WellFormed) (hdirectory : files.get? here = some .directory) : files.Vacant place := by
  generalize hresult : Except.ok (Spot.free place slash') = result at h
  induction h with
  | arrived hscan =>
      cases hresult
      exact hscan.vacant hfiles hdirectory
  | stuck | exhausted => cases hresult
  | jump hscan _ ih => exact ih (hscan.jump_directory hfiles hdirectory) hresult

theorem Walks.filled (h : Walks files false links slash here names (.ok (.free place slash'))) (hslash : slash = false)
    (hextends : Extends files other) (hmade : other.get? place = some .directory) (follow asked : Bool) :
    Walks other follow links asked here names (.ok (.taken place .directory)) := by
  generalize hresult : Except.ok (Spot.free place slash') = result at h
  induction h with
  | arrived hscan =>
      cases hresult
      exact .arrived (hscan.filled hextends hmade follow asked)
  | stuck | exhausted => cases hresult
  | jump hscan _ ih =>
      subst hslash
      obtain ⟨rfl, hasked⟩ := hscan.jump_asked hextends.ways
      exact .jump (hasked follow asked) (ih rfl hresult)

end

/-! ## Making directories -/

theorem names_append_slashes (path : Bytes) (count : Nat) :
    Path.names (path ++ List.replicate count ('/' : UInt8)) = Path.names path := by
  induction count with
  | zero => simp
  | succ count ih =>
      have hnone : ('/' : UInt8) ∉ ([] : Bytes) := by simp
      have hpieces := Bytes.splitOn_append hnone (path ++ List.replicate count ('/' : UInt8))
      rw [← ih, List.replicate_succ', ← List.append_assoc, Path.names, Path.pieces, hpieces, List.filter_append]
      simp [Path.names, Path.pieces]

/-- A path is what is left without the slashes at its end, and some slashes. -/
theorem exists_slashes (path : Bytes) :
    ∃ count, path = withoutSlash path ++ List.replicate count ('/' : UInt8) := by
  have hsplit := List.takeWhile_append_dropWhile (p := fun b => decide (b = ('/' : UInt8))) (l := path.reverse)
  have hslashes : path.reverse.takeWhile (fun b => decide (b = ('/' : UInt8))) =
      List.replicate (path.reverse.takeWhile fun b => decide (b = ('/' : UInt8))).length ('/' : UInt8) := by
    refine List.eq_replicate_of_mem fun b hb => ?_
    simpa using List.mem_takeWhile_imp hb
  refine ⟨(path.reverse.takeWhile fun b => decide (b = ('/' : UInt8))).length, ?_⟩
  have hreverse := congrArg List.reverse hsplit
  rw [List.reverse_append, List.reverse_reverse, hslashes, List.reverse_replicate] at hreverse
  exact hreverse.symm

theorem endsWithSlash_withoutSlash (path : Bytes) : endsWithSlash (withoutSlash path) = false := by
  unfold endsWithSlash withoutSlash
  rw [List.getLast?_reverse]
  have hhead := List.head?_dropWhile_not (fun b => decide (b = ('/' : UInt8))) path.reverse
  cases hfirst : (path.reverse.dropWhile fun b => decide (b = ('/' : UInt8))).head? with
  | none => rfl
  | some b =>
      rw [hfirst] at hhead
      simpa using hhead

/-- A directory is made at a free place. -/
theorem mkdir_eq_ok {path : Bytes} {made : Files} (h : files.mkdir path = .ok made) :
    ∃ place slash, files.resolve false (withoutSlash path) = .ok (.free place slash) ∧
      made = files.put place .directory := by
  unfold mkdir at h
  split at h
  next => cases h
  next =>
    cases hresolve : files.resolve false (withoutSlash path) with
    | error cause => simp [hresolve, bind, Except.bind] at h
    | ok spot =>
        cases spot with
        | taken place entry => simp [hresolve, bind, Except.bind] at h
        | free place slash =>
            simp only [hresolve, bind, Except.bind, Except.ok.injEq] at h
            exact ⟨place, slash, rfl, h.symm⟩

/-- A new directory is added to the tree, and found by its path. -/
theorem mkdir_extends (hfiles : files.WellFormed) {path : Bytes} {made : Files} (h : files.mkdir path = .ok made) :
    made.WellFormed ∧ Extends files made ∧ (Fits path → made.stat path = .ok .directory) := by
  obtain ⟨place, slash, hresolve, rfl⟩ := mkdir_eq_ok h
  have hfits := fits_of_resolve hresolve
  have hwalk := (resolve_iff hfits).mp hresolve
  obtain ⟨hwell, hextends, hput⟩ := (hwalk.vacant hfiles (start_directory hfiles _)).put hfiles .directory
  refine ⟨hwell, hextends, fun hpath => ?_⟩
  -- Slashes at the end of a path change neither its names nor where it starts.
  obtain ⟨count, hslashes⟩ := exists_slashes path
  have hnames : Path.names path = Path.names (withoutSlash path) := by
    rw [hslashes, names_append_slashes, ← hslashes]
  have hstart : (files.put place .directory).start path = files.start (withoutSlash path) := by
    have habsolute : Path.isAbsolute path = Path.isAbsolute (withoutSlash path) := by
      rw [hslashes, Path.isAbsolute, List.head?_append_of_ne_nil, ← hslashes, Path.isAbsolute]
      simpa using hfits.2.1
    simp only [start, habsolute, put]
  have hmade := hwalk.filled (endsWithSlash_withoutSlash path) hextends (by rw [hput, Function.update_self]) true
    (endsWithSlash path)
  rw [← hstart, ← hnames] at hmade
  exact stat_of_resolve ((resolve_iff hpath).mpr hmade)

section

variable {slash : Bool} {links : Nat} {here place : Place} {names : List Bytes}

/-- A scan that comes upon a directory comes upon it when it follows a last link too. -/
theorem Scans.follow (h : Scans files false slash here names (.arrived (.taken place .directory))) :
    Scans files true slash here names (.arrived (.taken place .directory)) := by
  generalize harrived : Progress.arrived (Spot.taken place .directory) = progress at h
  induction h with
  | long | free | missing | file | blocked | link | jump => cases harrived
  | done =>
      cases harrived
      exact .done
  | here _ ih => exact .here (ih harrived)
  | above _ ih => exact .above (ih harrived)
  | down hname hentry _ ih => exact .down hname hentry (ih harrived)

theorem Walks.follow (h : Walks files false links slash here names (.ok (.taken place .directory))) :
    Walks files true links slash here names (.ok (.taken place .directory)) := by
  generalize hresult : Except.ok (Spot.taken place .directory) = result at h
  induction h with
  | arrived hscan =>
      cases hresult
      exact .arrived hscan.follow
  | stuck | exhausted => cases hresult
  | jump hscan _ ih => exact .jump (hscan.jump_along (Extends.refl files).ways fun _ => rfl) (ih hresult)

end

theorem stat_of_isPlainDirectory {path : Bytes} (h : files.isPlainDirectory path = true) :
    files.stat path = .ok .directory := by
  unfold isPlainDirectory linkStat at h
  cases hresolve : files.resolve false path with
  | error cause => simp [hresolve, bind, Except.bind] at h
  | ok spot =>
      cases spot with
      | free place slash => simp [hresolve, bind, Except.bind] at h
      | taken place entry =>
          cases entry with
          | file content => simp [hresolve, bind, Except.bind] at h
          | link target => simp [hresolve, bind, Except.bind] at h
          | directory =>
              have hfits := fits_of_resolve hresolve
              exact stat_of_resolve ((resolve_iff hfits).mpr ((resolve_iff hfits).mp hresolve).follow)

/-- Directories made along the parents of a path are added to the tree; without a failure the path leads to
one. -/
theorem mkdirChain_extends (hfiles : files.WellFormed) (texts : List Bytes) :
    (files.mkdirChain texts).1.WellFormed ∧ Extends files (files.mkdirChain texts).1 ∧
      ∀ path ∈ texts.head?, Fits path → (files.mkdirChain texts).2 = none →
        (files.mkdirChain texts).1.stat path = .ok .directory := by
  induction texts with
  | nil => exact ⟨hfiles, Extends.refl files, by rintro _ ⟨⟩⟩
  | cons path parents ih =>
      unfold mkdirChain
      split
      next hstat =>
        refine ⟨hfiles, Extends.refl files, fun other hother _ _ => ?_⟩
        obtain rfl := Option.some.inj hother
        exact hstat
      next => exact ⟨hfiles, Extends.refl files, by rintro _ _ _ ⟨⟩⟩
      next =>
        obtain ⟨hwell, hextends, -⟩ := ih
        split
        next hparents =>
          rw [hparents] at hwell hextends
          exact ⟨hwell, hextends, by rintro _ _ _ ⟨⟩⟩
        next below hparents =>
          rw [hparents] at hwell hextends
          cases hmade : below.mkdir path with
          | ok made =>
              obtain ⟨hwell', hextends', hstat⟩ := mkdir_extends hwell hmade
              refine ⟨hwell', hextends.trans hextends', fun other hother hfits _ => ?_⟩
              obtain rfl := Option.some.inj hother
              exact hstat hfits
          | error cause =>
              dsimp only
              split
              next hplain =>
                refine ⟨hwell, hextends, fun other hother _ _ => ?_⟩
                obtain rfl := Option.some.inj hother
                exact stat_of_isPlainDirectory hplain
              next => exact ⟨hwell, hextends, by rintro _ _ _ ⟨⟩⟩

theorem fits_of_missing {path : Bytes} (hempty : path.isEmpty = false) (h : files.stat path = .error .missing) :
    Fits path := by
  unfold stat resolve at h
  split at h
  next => cases h
  next hnull =>
    rw [if_neg (Bool.eq_false_iff.mp hempty)] at h
    split at h
    next => cases h
    next hlong => exact ⟨Bool.eq_false_iff.mpr hnull, hempty, by omega⟩

/-- Directories that are ensured without a failure are there. -/
theorem ensureDirectories_extends (hfiles : files.WellFormed) (paths : List Bytes) :
    (files.ensureDirectories paths).1.WellFormed ∧ Extends files (files.ensureDirectories paths).1 ∧
      ((files.ensureDirectories paths).2 = none →
        ∀ path ∈ paths, (files.ensureDirectories paths).1.stat path = .ok .directory) := by
  induction paths generalizing files with
  | nil => exact ⟨hfiles, Extends.refl files, by rintro _ _ ⟨⟩⟩
  | cons path rest ih =>
      unfold ensureDirectories
      split
      next => exact ⟨hfiles, Extends.refl files, by rintro ⟨⟩⟩
      next hempty =>
        split
        next hstat =>
          obtain ⟨hwell, hextends, hall⟩ := ih hfiles
          refine ⟨hwell, hextends, fun hnone other hother => ?_⟩
          rcases List.mem_cons.mp hother with rfl | hother
          · exact hextends.stat hstat
          · exact hall hnone other hother
        next => exact ⟨hfiles, Extends.refl files, by rintro ⟨⟩⟩
        next hstat =>
          have hnonempty : path.isEmpty = false := Bool.eq_false_iff.mpr hempty
          have hfits := fits_of_missing hnonempty hstat
          obtain ⟨hwell, hextends, hmade⟩ := mkdirChain_extends hfiles (parentTexts (path.length + 1) path)
          have hhead : path ∈ (parentTexts (path.length + 1) path).head? := by simp [parentTexts, hnonempty]
          have hall : files.mkdirAll path = files.mkdirChain (parentTexts (path.length + 1) path) := by
            simp [mkdirAll, hnonempty]
          rw [← hall] at hwell hextends hmade
          split
          next made hchain =>
            rw [hchain] at hwell hextends hmade
            obtain ⟨hwell', hextends', hothers⟩ := ih hwell
            refine ⟨hwell', hextends.trans hextends', fun hnone other hother => ?_⟩
            rcases List.mem_cons.mp hother with rfl | hother
            · exact hextends'.stat (hmade other hhead hfits rfl)
            · exact hothers hnone other hother
          next made fault hchain =>
            rw [hchain] at hwell hextends
            exact ⟨hwell, hextends, by rintro ⟨⟩⟩
        next => exact ⟨hfiles, Extends.refl files, by rintro ⟨⟩⟩

theorem ensureDirectories_of_stat (paths : List Bytes) (h : ∀ path ∈ paths, files.stat path = .ok .directory) :
    (files.ensureDirectories paths).1 = files := by
  induction paths with
  | nil => rfl
  | cons path rest ih =>
      unfold ensureDirectories
      split
      next => rfl
      next =>
        rw [h path List.mem_cons_self]
        exact ih fun other hother => h other (List.mem_cons_of_mem path hother)

end

end Files

namespace Layout

variable {files : Files} (l : Layout)

/-- Whether all directories of a layout are there. -/
def IsProvided (files : Files) : Prop := ∀ path ∈ l.directories, files.stat path = .ok .directory

/-- Provisioning without a failure gives a well-formed tree with all directories. -/
theorem provision_isProvided (hfiles : files.WellFormed) (h : (l.provision files).2 = none) :
    (l.provision files).1.WellFormed ∧ l.IsProvided (l.provision files).1 := by
  obtain ⟨hwell, -, hall⟩ := Files.ensureDirectories_extends hfiles l.directories
  unfold provision at h ⊢
  cases hvalid : files.validatePaths l.root l.directories with
  | error reason => simp [hvalid] at h
  | ok value =>
      rcases hmade : files.ensureDirectories l.directories with ⟨made, fault⟩
      rw [hmade] at hwell hall
      cases fault with
      | some fault => simp [hvalid, hmade] at h
      | none => exact ⟨hwell, hall rfl⟩

/-- There is nothing left to provision where all directories are. -/
theorem provision_of_isProvided (h : l.IsProvided files) : (l.provision files).1 = files := by
  have hsame := Files.ensureDirectories_of_stat l.directories h
  unfold provision
  cases files.validatePaths l.root l.directories with
  | error reason => rfl
  | ok value =>
      rcases hmade : files.ensureDirectories l.directories with ⟨made, fault⟩
      rw [hmade] at hsame
      cases fault <;> exact hsame

/-- Trees that are alike have the same directories. -/
theorem IsProvided.alike {l : Layout} {changing : Place → Prop} {other : Files} (h : l.IsProvided files)
    (halike : Files.Alike changing files other) : l.IsProvided other := by
  intro path hpath
  obtain ⟨place, hresolve⟩ := Files.stat_eq_ok (h path hpath)
  obtain ⟨spot, hspot, -, hsame⟩ := Files.resolve_taken halike hresolve
  rw [hsame (Or.inr rfl)] at hspot
  exact Files.stat_of_resolve hspot

end Layout

end MobilitySweep
