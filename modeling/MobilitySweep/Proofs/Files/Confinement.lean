import MobilitySweep.Proofs.Files.Leading

/-! # Confinement

Where the directories of a layout are once they are provisioned. The check of a path follows the links on its way but
keeps its last name, and takes what does not exist for what it will be; so a link at the last name, or one whose target
is not there yet, is not seen through. Without such links all directories are below the root.
-/

namespace MobilitySweep

namespace Files

variable {files made third : Files}

/-! ## Nothing but directories -/

/-- A tree that has nothing but directories beside what another one has. -/
def Furnished (files made : Files) : Prop :=
  ∀ place entry, made.get? place = some entry → files.get? place = some entry ∨ entry = .directory

theorem furnished_refl (files : Files) : Furnished files files := fun _ _ => Or.inl

theorem Furnished.trans (h : Furnished files made) (h' : Furnished made third) : Furnished files third :=
  fun place entry hentry => (h' place entry hentry).elim (h place entry) Or.inr

theorem put_furnished (files : Files) (place : Place) : Furnished files (files.put place .directory) := by
  intro other entry hentry
  by_cases hother : other = []
  · subst hother
    exact Or.inr (Option.some.inj hentry).symm
  · rw [get?_of_ne_nil _ hother, put, find?_setEntry] at hentry
    split at hentry
    next => exact Or.inr (Option.some.inj hentry).symm
    next => exact Or.inl ((get?_of_ne_nil files hother).trans hentry)

theorem mkdir_furnished {path : Bytes} (h : files.mkdir path = .ok made) : Furnished files made := by
  unfold mkdir at h
  split at h
  next => cases h
  next =>
    cases hresolve : files.resolve false (withoutSlash path) with
    | error cause => simp [hresolve, bind, Except.bind] at h
    | ok spot =>
        cases spot with
        | taken place entry => simp [hresolve, bind, Except.bind] at h
        | free place slash =>
            simp only [hresolve, bind, Except.bind, Except.ok.injEq] at h
            exact h ▸ put_furnished files place

theorem mkdirChain_furnished (files : Files) (texts : List Bytes) : Furnished files (files.mkdirChain texts).1 := by
  induction texts with
  | nil => exact furnished_refl files
  | cons path parents ih =>
      unfold mkdirChain
      split
      next => exact furnished_refl files
      next => exact furnished_refl files
      next =>
        split
        next below fault hparents =>
          rw [hparents] at ih
          exact ih
        next below hparents =>
          rw [hparents] at ih
          split
          next other hmade => exact ih.trans (mkdir_furnished hmade)
          next =>
            split
            next => exact ih
            next => exact ih

theorem ensureDirectories_furnished (files : Files) (paths : List Bytes) :
    Furnished files (files.ensureDirectories paths).1 := by
  induction paths generalizing files with
  | nil => exact furnished_refl files
  | cons path rest ih =>
      unfold ensureDirectories
      split
      next => exact furnished_refl files
      next =>
        split
        next => exact ih files
        next => exact furnished_refl files
        next =>
          have hchain : Furnished files (files.mkdirAll path).1 := by
            unfold mkdirAll
            split
            next => exact furnished_refl files
            next => exact mkdirChain_furnished files _
          split
          next other hmade =>
            rw [hmade] at hchain
            exact hchain.trans (ih other)
          next other fault hmade =>
            rw [hmade] at hchain
            exact hchain
        next => exact furnished_refl files

/-! ## Links on the way -/

theorem nameable_nil : Nameable [] := fun _ hname => absurd hname List.not_mem_nil

/-- Whether a link stands under some components. -/
def isLinked (files : Files) (components : List Bytes) : Bool :=
  match files.walk false evaluationLimit false [] components with
  | .ok (.taken _ (.link _)) => true
  | _ => false

/-- A path without a link at its last name, and on which every link leads somewhere. -/
structure Straight (files : Files) (path : Bytes) : Prop where
  last : files.isLinked (Path.components (files.absolutePath path)) = false
  onward : ∀ part ∈ (Path.components (files.absolutePath path)).inits, files.isLinked part = true →
    (files.evaluate? part).isSome = true

section

variable {parts : List Bytes} {place : Place} {count : Nat}

theorem Leads.evaluate? (h : Leads files [] parts count place) (hcount : count ≤ evaluationLimit) :
    files.evaluate? parts = some place := by
  have hwalk := h.walk_all false (evaluationLimit - count)
  rw [Nat.add_sub_cancel' hcount] at hwalk
  rw [Files.evaluate?, hwalk]

theorem evaluate?_extends (hextends : Extends files made) (h : files.evaluate? parts = some place) :
    made.evaluate? parts = some place := by
  unfold Files.evaluate? at h
  split at h
  next other entry hwalk =>
    rw [Files.evaluate?, ((walks_iff.mpr hwalk).extends hextends).walk_eq]
    exact h
  next => cases h

/-- What is evaluated in a tree to the place of a directory leads there. -/
theorem leads_of_evaluate? (hfiles : files.WellFormed) (hparts : ∀ name ∈ parts, Path.IsName name)
    (h : files.evaluate? parts = some place) (hplace : files.get? place = some .directory) :
    ∃ count, count ≤ evaluationLimit ∧ Leads files [] parts count place := by
  unfold Files.evaluate? at h
  split at h
  next other entry hwalk =>
    obtain rfl := Option.some.inj h
    have hentry := ((walks_iff.mpr hwalk).found hfiles rfl nameable_nil hparts).1
    obtain rfl := Option.some.inj (hplace.symm.trans hentry)
    exact (walks_iff.mpr hwalk).leads
  next => cases h

/-- The name of a link behind a directory. -/
theorem Leads.isLinked {name target : Bytes} (h : Leads files [] parts count place) (hcount : count ≤ evaluationLimit)
    (hname : Path.Plain name) (hshort : name.length ≤ nameLimit)
    (hlink : files.get? (place ++ [name]) = some (.link target)) : files.isLinked (parts ++ [name]) = true := by
  have hwalk := h.walk (List.cons_ne_nil name []) false false (evaluationLimit - count)
  rw [Nat.add_sub_cancel' hcount] at hwalk
  have harrived : files.walk false (evaluationLimit - count) false place [name] =
      .ok (.taken (place ++ [name]) (.link target)) :=
    walks_iff.mp (.arrived (.link ⟨hname.ne_here, hname.ne_above, hshort⟩ hlink rfl rfl))
  rw [Files.isLinked, hwalk, harrived]

theorem resolveExisting_concat (files : Files) (parts : List Bytes) (name : Bytes) :
    files.resolveExisting (parts ++ [name]).reverse =
      (files.evaluate? (parts ++ [name])).getD (files.resolveExisting parts.reverse ++ [name]) := by
  rw [List.reverse_append, List.reverse_singleton, List.singleton_append, resolveExisting, List.reverse_reverse]
  cases files.evaluate? (parts ++ [name]) <;> rfl

/-- What was in a directory before it is now reached, was reached behind the same names. -/
theorem leads_before (hfiles : files.WellFormed) (hextends : Extends files made)
    (hparts : ∀ name ∈ parts, Path.Plain name) (h : Leads made [] parts count place) (hcount : count ≤ evaluationLimit)
    (hfresh : files.evaluate? parts = none → files.get? place = none) {name : Bytes} {entry : Entry}
    (hentry : files.get? (place ++ [name]) = some entry) :
    ∃ count, count ≤ evaluationLimit ∧ Leads files [] parts count place := by
  have hparent := hfiles.parent place name entry hentry
  cases heval : files.evaluate? parts with
  | none =>
      rw [hfresh heval] at hparent
      cases hparent
  | some other =>
      obtain rfl := Option.some.inj ((evaluate?_extends hextends heval).symm.trans (h.evaluate? hcount))
      exact leads_of_evaluate? hfiles (fun other hother => (hparts other hother).isName) heval hparent

/-- A link that is now come upon was come upon before. -/
theorem isLinked_before (hfiles : files.WellFormed) (hextends : Extends files made) (hfurnished : Furnished files made)
    (hparts : ∀ name ∈ parts, Path.Plain name) (h : Leads made [] parts count place) (hcount : count ≤ evaluationLimit)
    (hfresh : files.evaluate? parts = none → files.get? place = none) {name target : Bytes} (hname : Path.Plain name)
    (hshort : name.length ≤ nameLimit) (hlink : made.get? (place ++ [name]) = some (.link target)) :
    files.isLinked (parts ++ [name]) = true := by
  rcases hfurnished _ _ hlink with hbefore | hdirectory
  · obtain ⟨count, hfew, hleads⟩ := leads_before hfiles hextends hparts h hcount hfresh hbefore
    exact hleads.isLinked hfew hname hshort hbefore
  · cases hdirectory

/-- Where components lead once directories have been made is where the check took them to lead, and what had to be
made for it was not there before. -/
theorem leads_resolveExisting (hfiles : files.WellFormed) (hextends : Extends files made)
    (hfurnished : Furnished files made) (hparts : ∀ name ∈ parts, Path.Plain name)
    (honward : ∀ part ∈ parts.inits, files.isLinked part = true → (files.evaluate? part).isSome = true)
    (hcount : count ≤ evaluationLimit) (h : Leads made [] parts count place) :
    place = files.resolveExisting parts.reverse ∧ (files.evaluate? parts = none → files.get? place = none) := by
  induction parts using List.reverseRecOn generalizing count place with
  | nil =>
      cases h
      exact ⟨rfl, by rintro ⟨⟩⟩
  | append_singleton parts name ih =>
      have hname : Path.Plain name := hparts name (by simp)
      have hbefore : ∀ other ∈ parts, Path.Plain other := fun other hother =>
        hparts other (List.mem_append_left _ hother)
      rw [resolveExisting_concat]
      cases hknown : files.evaluate? (parts ++ [name]) with
      | some known =>
          have hsame := (evaluate?_extends hextends hknown).symm.trans (h.evaluate? hcount)
          exact ⟨(Option.some.inj hsame).symm, by rintro ⟨⟩⟩
      | none =>
          obtain ⟨first, more, middle, rfl, hfirst, hmore⟩ := h.split
          have hless : first ≤ evaluationLimit := (Nat.le_add_right first more).trans hcount
          obtain ⟨hmiddle, hfresh⟩ := ih hbefore (fun part hpart => honward part ((List.mem_inits _ _).mpr
            (((List.mem_inits _ _).mp hpart).trans (List.prefix_append _ _)))) hless hfirst
          rcases hmore.uncons with ⟨hhere, -⟩ | ⟨habove, -⟩ | ⟨-, -, hshort, ⟨hdirectory, hlast⟩ | ⟨target, hlink⟩⟩
          · exact absurd hhere hname.ne_here
          · exact absurd habove hname.ne_above
          · cases hlast
            refine ⟨congrArg (· ++ [name]) hmiddle, fun _ => ?_⟩
            rw [Option.eq_none_iff_forall_ne_some]
            intro entry hentry
            obtain ⟨count, hfew, hleads⟩ := leads_before hfiles hextends hbefore hfirst hless hfresh hentry
            obtain rfl := Option.some.inj ((hextends.entries _ _ hentry).symm.trans hdirectory)
            have hthere := hleads.trans (.down _ _ _ _ _ hname.ne_here hname.ne_above hshort hentry (.arrived _))
            rw [hthere.evaluate? hfew] at hknown
            cases hknown
          · have hlinked := isLinked_before hfiles hextends hfurnished hbefore hfirst hless hfresh hname hshort hlink
            have hsome := honward _ ((List.mem_inits _ _).mpr (List.prefix_refl _)) hlinked
            rw [hknown] at hsome
            cases hsome

/-- Components that were taken to lead to what is now a directory do lead there. -/
theorem leads_of_resolveExisting (hmade : made.WellFormed) (hextends : Extends files made)
    (hparts : ∀ name ∈ parts, Path.Plain name)
    (hplace : made.get? (files.resolveExisting parts.reverse) = some .directory)
    (hshort : ∀ name ∈ files.resolveExisting parts.reverse, name.length ≤ nameLimit) :
    ∃ count, count ≤ evaluationLimit ∧ Leads made [] parts count (files.resolveExisting parts.reverse) := by
  induction parts using List.reverseRecOn with
  | nil => exact ⟨0, Nat.zero_le _, .arrived []⟩
  | append_singleton parts name ih =>
      have hname : Path.Plain name := hparts name (by simp)
      rw [resolveExisting_concat] at hplace hshort ⊢
      cases hknown : files.evaluate? (parts ++ [name]) with
      | some known =>
          rw [hknown] at hplace
          exact leads_of_evaluate? hmade (fun other hother => (hparts other hother).isName)
            (evaluate?_extends hextends hknown) hplace
      | none =>
          rw [hknown, Option.getD_none] at hplace hshort
          obtain ⟨count, hcount, hleads⟩ := ih (fun other hother => hparts other (List.mem_append_left _ hother))
            (hmade.parent _ _ _ hplace) fun other hother => hshort other (List.mem_append_left _ hother)
          exact ⟨count, hcount, hleads.trans (.down _ _ _ _ _ hname.ne_here hname.ne_above (hshort name (by simp))
            hplace (.arrived _))⟩

theorem isName_of_mem_resolveExisting (hfiles : files.WellFormed) (hparts : ∀ name ∈ parts, Path.IsName name) :
    ∀ name ∈ files.resolveExisting parts.reverse, Path.IsName name := by
  induction parts using List.reverseRecOn with
  | nil => rintro _ ⟨⟩
  | append_singleton parts name ih =>
      rw [resolveExisting_concat]
      cases hknown : files.evaluate? (parts ++ [name]) with
      | some known =>
          unfold Files.evaluate? at hknown
          split at hknown
          next other entry hwalk =>
            obtain rfl := Option.some.inj hknown
            exact fun other hother => (((walks_iff.mpr hwalk).found hfiles rfl nameable_nil hparts).2 other hother).1
          next => cases hknown
      | none =>
          intro other hother
          rcases List.mem_append.mp hother with hother | hother
          · exact ih (fun last hlast => hparts last (List.mem_append_left _ hlast)) other hother
          · exact hparts other (List.mem_append_right _ hother)

/-! ## The directories of a layout -/

/-- A working directory whose names can stand in a path. -/
def Speakable (files : Files) : Prop :=
  ∀ name ∈ files.workingDirectory, Path.Plain name ∧ name.length ≤ nameLimit

theorem Speakable.working (h : files.Speakable) : ∀ name ∈ files.workingDirectory, Path.Plain name :=
  fun name hname => (h name hname).1

theorem Speakable.plain (h : files.Speakable) (path : Bytes) :
    ∀ name ∈ files.start path, Path.Plain name ∧ name.length ≤ nameLimit := by
  intro name hname
  unfold start at hname
  split at hname
  next => cases hname
  next => exact h name hname

theorem Speakable.nameable (h : files.Speakable) (path : Bytes) : Nameable (files.start path) :=
  fun name hname => ⟨(h.plain path name hname).1.isName, (h.plain path name hname).2⟩

theorem WellFormed.take {files : Files} (hfiles : files.WellFormed) {place : Place}
    (hplace : files.get? place = some .directory) (count : Nat) : files.get? (place.take count) = some .directory := by
  by_cases hrest : place.drop count = []
  · have hall := List.take_append_drop count place
    rw [hrest, List.append_nil] at hall
    rwa [hall]
  · exact hfiles.above _ hrest (by rw [List.take_append_drop, hplace]; rfl)

/-- A path in normal form leads where its absolute form does. -/
theorem leads_absolutePath (hfiles : files.WellFormed) (hworking : files.Speakable) (path : Bytes)
    (h : Leads files (files.start (Path.clean path)) (Path.names (Path.clean path)) count place) :
    Leads files [] (Path.components (files.absolutePath (Path.clean path))) count place := by
  obtain ⟨climbs, plain, hcomponents, -, habsolute⟩ :=
    components_absolutePath hworking.working (Path.clean path)
  rw [Path.components_clean] at hcomponents
  have hstart : files.get? (files.start (Path.clean path)) = some .directory := start_directory hfiles _
  have hclimbed : Leads files ((files.start (Path.clean path)).take ((files.start (Path.clean path)).length - climbs))
      plain count place := by
    rcases Path.names_clean path with hsame | ⟨hhere, hempty⟩
    · rw [hsame, hcomponents] at h
      exact h.climb
    · rw [hhere] at h
      rw [hempty] at hcomponents
      obtain ⟨hclimbs, rfl⟩ := List.append_eq_nil_iff.mp hcomponents.symm
      obtain rfl : climbs = 0 := by simpa using hclimbs
      rcases h.uncons with ⟨-, h⟩ | ⟨habove, -⟩ | ⟨hnot, -⟩
      · simpa using h
      · exact absurd habove (by decide +kernel)
      · exact absurd rfl hnot
  have hbase := hfiles.leads (hfiles.take hstart ((files.start (Path.clean path)).length - climbs))
    fun name hname => hworking.plain _ name (List.mem_of_mem_take hname)
  have hall := hbase.trans hclimbed
  rw [Nat.zero_add] at hall
  rw [habsolute]
  unfold start at hall
  split
  next hroot => simpa [hroot] using hall
  next hroot => simpa [hroot] using hall

/-- What a path is checked for. -/
theorem validatePath_eq_ok {path root : Bytes} : files.validatePath path root = .ok () ↔
    path ≠ [] ∧ root ≠ [] ∧ (0 : UInt8) ∉ path ∧
      Path.isBelow (files.resolvedPath path) (files.resolvedRoot root) = true := by
  unfold validatePath
  split
  next hempty => simp [List.isEmpty_iff.mp hempty]
  next hpath =>
    split
    next hempty => simp [List.isEmpty_iff.mp hempty]
    next hroot =>
      split
      next hnull => simp [List.contains_iff_mem.mp hnull]
      next hnull =>
        have hnull : (0 : UInt8) ∉ path := fun hmem => hnull (List.contains_iff_mem.mpr hmem)
        rw [List.isEmpty_iff] at hpath hroot
        split
        next hbelow => simp [hpath, hroot, hnull, hbelow]
        next hout => simp [hout]

theorem of_validatePath {path root : Bytes} (h : files.validatePath path root = .ok ()) :
    root.isEmpty = false ∧ Path.isBelow (files.resolvedPath path) (files.resolvedRoot root) = true := by
  obtain ⟨-, hroot, -, hbelow⟩ := validatePath_eq_ok.mp h
  exact ⟨by simpa using hroot, hbelow⟩

/-- A path that leads to a directory, without a link at its last name, leads to what its check has compared with the
root. -/
theorem resolvedPath_of_leads (hfiles : files.WellFormed) (hextends : Extends files made)
    (hfurnished : Furnished files made) (hworking : files.Speakable) {path : Bytes} (hstraight : files.Straight path)
    (hcount : count ≤ evaluationLimit)
    (h : Leads made [] (Path.components (files.absolutePath path)) count place) :
    files.resolvedPath path = Path.ofComponents true place := by
  have hparts := plain_of_mem_absolutePath hworking.working path
  obtain ⟨hlast, honward⟩ := hstraight
  rw [resolvedPath]
  generalize Path.components (files.absolutePath path) = parts at h hparts hlast honward
  rcases List.eq_nil_or_concat' parts with rfl | ⟨before, name, rfl⟩
  · cases h
    rfl
  · have hname : Path.Plain name := hparts name (by simp)
    rw [List.reverse_append, List.reverse_singleton, List.singleton_append]
    have hbefore : ∀ other ∈ before, Path.Plain other := fun other hother => hparts other (List.mem_append_left _ hother)
    obtain ⟨first, more, middle, rfl, hfirst, hmore⟩ := h.split
    have hless : first ≤ evaluationLimit := (Nat.le_add_right first more).trans hcount
    obtain ⟨hmiddle, hfresh⟩ := leads_resolveExisting hfiles hextends hfurnished hbefore
      (fun part hpart => honward part ((List.mem_inits _ _).mpr
        (((List.mem_inits _ _).mp hpart).trans (List.prefix_append _ _)))) hless hfirst
    rcases hmore.uncons with ⟨hhere, -⟩ | ⟨habove, -⟩ | ⟨-, -, hshort, ⟨hdirectory, hend⟩ | ⟨target, hlink⟩⟩
    · exact absurd hhere hname.ne_here
    · exact absurd habove hname.ne_above
    · cases hend
      rw [hmiddle]
    · rw [isLinked_before hfiles hextends hfurnished hbefore hfirst hless hfresh hname hshort hlink] at hlast
      cases hlast

theorem validatePath_of_validatePaths {root : Bytes} {paths : List Bytes} (h : files.validatePaths root paths = .ok ()) :
    ∀ path ∈ paths, files.validatePath path root = .ok () := by
  induction paths with
  | nil => rintro _ ⟨⟩
  | cons path rest ih =>
      unfold validatePaths at h
      split at h
      next hfirst =>
        intro other hother
        rcases List.mem_cons.mp hother with rfl | hother
        · exact hfirst
        · exact ih h other hother
      next => cases h

end

end Files

namespace Layout

/-- The directories of a layout are directories at or below the place of its root, all links followed. -/
def IsConfined (l : Layout) (files : Files) : Prop :=
  ∃ root, files.evaluate? (Path.components (files.absolutePath l.root)) = some root ∧
    ∀ path ∈ l.directories, ∃ place, files.resolve true path = .ok (.taken place .directory) ∧ root <+: place

theorem not_isConfined (l : Layout) (files : Files) (root place : Place) (path : Bytes)
    (hroot : files.evaluate? (Path.components (files.absolutePath l.root)) = some root) (hpath : path ∈ l.directories)
    (hplace : files.resolve true path = .ok (.taken place .directory)) (hout : ¬ root <+: place) :
    ¬ l.IsConfined files := by
  rintro ⟨other, hother, hall⟩
  obtain rfl := Option.some.inj (hother.symm.trans hroot)
  obtain ⟨there, hthere, hbelow⟩ := hall path hpath
  obtain ⟨rfl, -⟩ := Files.Spot.taken.inj (Except.ok.inj (hthere.symm.trans hplace))
  exact hout hbelow

/-- What a layout that was provisioned has been checked for, and how its directories were made. -/
theorem provision_eq_none {l : Layout} {files : Files} (h : (l.provision files).2 = none) :
    (∀ path ∈ l.directories, files.validatePath path l.root = .ok ()) ∧
      (l.provision files).1 = (files.ensureDirectories l.directories).1 := by
  unfold provision at h ⊢
  cases hvalid : files.validatePaths l.root l.directories with
  | error reason => simp [hvalid] at h
  | ok value =>
      refine ⟨Files.validatePath_of_validatePaths hvalid, ?_⟩
      dsimp only
      split <;> simp_all

/-- The directories of a layout with a root have normal forms. -/
theorem clean_of_mem_directories {l : Layout} (hroot : l.root.isEmpty = false) {path : Bytes}
    (h : path ∈ l.directories) : ∃ written, path = Path.clean written := by
  have hpath : ∀ relative, l.path relative = Path.clean (Bytes.joinWith "/" [l.root, relative]) := by
    intro relative
    rw [Layout.path, Path.join, hroot, if_neg (by simp)]
  simp only [directories, List.mem_cons, List.not_mem_nil, or_false] at h
  rcases h with rfl | rfl | rfl <;> exact ⟨_, hpath _⟩

/-- Provisioning confines the directories of a layout to its root, as long as no link stands at the last name of one of
them and none on its way leads nowhere. -/
theorem provision_confines (l : Layout) (files : Files) (hfiles : files.WellFormed) (hworking : files.Speakable)
    (hstraight : ∀ path ∈ l.directories, files.Straight path) (h : (l.provision files).2 = none) :
    l.IsConfined (l.provision files).1 := by
  obtain ⟨hmade, hprovided⟩ := l.provision_isProvided hfiles h
  obtain ⟨hvalid, hsame⟩ := provision_eq_none h
  have hextends : Files.Extends files (l.provision files).1 := by
    rw [hsame]
    exact (Files.ensureDirectories_extends hfiles l.directories).2.1
  have hfurnished : Files.Furnished files (l.provision files).1 := by
    rw [hsame]
    exact Files.ensureDirectories_furnished files l.directories
  generalize (l.provision files).1 = made at *
  have habsolute : ∀ path, made.absolutePath path = files.absolutePath path := by
    intro path
    rw [Files.absolutePath, Files.absolutePath, Files.workingPath, Files.workingPath, hextends.working]
  have hspeakable : made.Speakable := by
    unfold Files.Speakable
    rw [hextends.working]
    exact hworking
  have hroot := Files.plain_of_mem_absolutePath hworking.working l.root
  -- Each directory is where its check has compared it with the root.
  have hplaces : ∀ path ∈ l.directories, ∃ place, made.resolve true path = .ok (.taken place .directory) ∧
      made.get? place = some .directory ∧ Files.Nameable place ∧
      files.resolveExisting (Path.components (files.absolutePath l.root)).reverse <+: place := by
    intro path hpath
    obtain ⟨hnonempty, hbelow⟩ := Files.of_validatePath (hvalid path hpath)
    obtain ⟨written, rfl⟩ := clean_of_mem_directories hnonempty hpath
    obtain ⟨place, hresolve⟩ := Files.stat_eq_ok (hprovided _ hpath)
    have hwalk := (Files.resolve_iff (Files.fits_of_resolve hresolve)).mp hresolve
    obtain ⟨hfound, hnameable⟩ := hwalk.found hmade (Files.start_directory hmade _) (hspeakable.nameable _)
      fun name => Path.isName_of_mem_names
    obtain ⟨count, hcount, hleads⟩ := hwalk.leads
    have hthere := Files.leads_absolutePath hmade hspeakable written hleads
    rw [habsolute] at hthere
    have hfew : count ≤ Files.evaluationLimit := hcount.trans (by decide)
    rw [Files.resolvedPath_of_leads hfiles hextends hfurnished hworking (hstraight _ hpath) hfew hthere] at hbelow
    exact ⟨place, hresolve, hfound, hnameable, Path.prefix_of_isBelow (fun name hname => (hnameable name hname).1)
      (Files.isName_of_mem_resolveExisting hfiles fun name hname => (hroot name hname).isName) hbelow⟩
  obtain ⟨place, -, hfound, hnameable, hbelow⟩ := hplaces (l.path l.positions) List.mem_cons_self
  have hrootFound : made.get? (files.resolveExisting (Path.components (files.absolutePath l.root)).reverse) =
      some .directory := by
    rw [List.prefix_iff_eq_take.mp hbelow]
    exact hmade.take hfound _
  obtain ⟨count, hcount, hleads⟩ := Files.leads_of_resolveExisting hmade hextends hroot hrootFound
    fun name hname => (hnameable name (hbelow.subset hname)).2
  refine ⟨files.resolveExisting (Path.components (files.absolutePath l.root)).reverse, ?_, fun path hpath => ?_⟩
  · rw [habsolute]
    exact hleads.evaluate? hcount
  · obtain ⟨place, hresolve, -, -, hbelow⟩ := hplaces path hpath
    exact ⟨place, hresolve, hbelow⟩

/-- Links on the way of the directories that stay below the root do no harm. -/
theorem linked_directories_are_confined :
    let files : Files :=
      { entries := [(["work"], .directory), (["data"], .directory), (["data", "site"], .directory),
          (["data", "site", "store"], .directory), (["work", "site"], .link "../data/site"),
          (["data", "site", "new"], .link "store")]
        workingDirectory := ["work"] }
    let l : Layout := ⟨"site", "new/positions", "csc", "new/../results"⟩
    (l.provision files).2 = none ∧ l.IsConfined (l.provision files).1 := by
  intro files l
  have hplain : ∀ name ∈ files.workingDirectory, Path.Plain name ∧ name.length ≤ Files.nameLimit := by decide +kernel
  have hstraight : ∀ path ∈ l.directories, files.Straight path := by
    have hall : ∀ path ∈ l.directories, files.isLinked (Path.components (files.absolutePath path)) = false ∧
        ∀ part ∈ (Path.components (files.absolutePath path)).inits, files.isLinked part = true →
          (files.evaluate? part).isSome = true := by decide +kernel
    exact fun path hpath => ⟨(hall path hpath).1, (hall path hpath).2⟩
  have hmade : (l.provision files).2 = none := by decide +kernel
  have hfiles : files.WellFormed := by decide +kernel
  exact ⟨hmade, provision_confines l files hfiles hplain hstraight hmade⟩

/-- A link at the last name of a directory leads out of the root, and so does one on the way whose target is only there
once another directory is. -/
theorem provisioned_directories_escape :
    let last : Files :=
      { entries := [(["outside"], .directory), (["site"], .directory), (["site", "positions"], .link "../outside")]
        workingDirectory := [] }
    let way : Files :=
      { entries := [(["outside"], .directory), (["outside", "b"], .directory), (["site"], .directory),
          (["site", "a"], .link "p/../../outside")]
        workingDirectory := [] }
    let l : Layout := ⟨"site", "positions", "csc", "results"⟩
    let m : Layout := ⟨"site", "p", "a/b", "results"⟩
    ((l.provision last).2 = none ∧ ¬ l.IsConfined (l.provision last).1) ∧
      (m.provision way).2 = none ∧ ¬ m.IsConfined (m.provision way).1 := by
  intro last way l m
  have hlast := not_isConfined l (l.provision last).1 ["site"] ["outside"] (l.path "positions")
    (by decide +kernel) (by decide +kernel) (by decide +kernel) (by decide +kernel)
  have hway := not_isConfined m (m.provision way).1 ["site"] ["outside", "b"] (m.path "a/b")
    (by decide +kernel) (by decide +kernel) (by decide +kernel) (by decide +kernel)
  exact ⟨⟨by decide +kernel, hlast⟩, by decide +kernel, hway⟩

end Layout

end MobilitySweep
