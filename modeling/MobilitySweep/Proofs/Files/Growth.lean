import MobilitySweep.Proofs.Files.Enclosure
import MobilitySweep.Proofs.Files.Reprovisioning

/-! # Growth by directories

Provisioning a layout makes a tree grow, by directories on the way to those of the layout and by nothing else. Where
there are no links every path leads to the place that its names spell out, so the places that come into being can be
told from the texts of the paths, whichever of them are there already and wherever a file is in the way.
-/

namespace MobilitySweep

namespace Files

variable {files made third : Files} {path text written : Bytes}

/-! ## Places spelled out -/

/-- What a walk has come upon at a place. -/
def Spot.IsAt (files : Files) (place : Place) : Spot → Prop
  | .taken there entry => there = place ∧ files.get? place = some entry
  | .free there _ => there = place ∧ files.get? place = none

/-- A scan from a directory comes upon what is where it arrives. -/
theorem Scans.isAt {follow slash : Bool} {here : Place} {names : List Bytes} {spot : Spot}
    (h : Scans files follow slash here names (.arrived spot)) (hfiles : files.WellFormed)
    (hhere : files.get? here = some .directory) : spot.IsAt files spot.place := by
  generalize harrived : Progress.arrived spot = progress at h
  induction h with
  | long | missing | blocked | jump => cases harrived
  | done =>
      cases harrived
      exact ⟨rfl, hhere⟩
  | here _ ih => exact ih hhere harrived
  | above _ ih => exact ih (hfiles.dropLast hhere) harrived
  | down _ hentry _ ih => exact ih hentry harrived
  | free _ hentry | file _ hentry | link _ hentry =>
      cases harrived
      exact ⟨rfl, hentry⟩

section

variable (hlinks : files.LinkFree) (hfiles : files.WellFormed)
include hlinks hfiles

theorem LinkFree.resolve_isAt {follow : Bool} {spot : Spot} (h : files.resolve follow path = .ok spot) :
    spot.IsAt files (files.spelled path) := by
  have hscan := hlinks.scans ((resolve_iff (fits_of_resolve h)).mp h)
  have hat := hscan.isAt hfiles (start_directory hfiles path)
  rwa [hscan.place_eq] at hat

/-- Without links a path leads to a directory just if there is one where its names lead. -/
theorem LinkFree.get?_of_stat {entry : Entry} (h : files.stat path = .ok entry) :
    files.get? (files.spelled path) = some entry := by
  obtain ⟨place, hresolve⟩ := stat_eq_ok h
  exact (hlinks.resolve_isAt hfiles hresolve).2

end

theorem spelled_withoutSlash (h : withoutSlash path ≠ []) :
    files.spelled (withoutSlash path) = files.spelled path := by
  obtain ⟨count, hslashes⟩ := exists_slashes path
  have hnames : Path.names path = Path.names (withoutSlash path) := by
    rw [hslashes, names_append_slashes, ← hslashes]
  have habsolute : Path.isAbsolute path = Path.isAbsolute (withoutSlash path) := by
    rw [hslashes, Path.isAbsolute, List.head?_append_of_ne_nil _ h, ← hslashes, Path.isAbsolute]
  rw [spelled, spelled, hnames, start, start, habsolute]

theorem LinkFree.mkdir_eq_ok (hlinks : files.LinkFree) (hfiles : files.WellFormed) (h : files.mkdir path = .ok made) :
    files.get? (files.spelled path) = none ∧ made = files.put (files.spelled path) .directory := by
  obtain ⟨place, slash, hresolve, rfl⟩ := Files.mkdir_eq_ok h
  have hat := hlinks.resolve_isAt hfiles hresolve
  rw [spelled_withoutSlash (by simpa using (fits_of_resolve hresolve).2.1)] at hat
  obtain ⟨rfl, hfree⟩ := hat
  exact ⟨hfree, rfl⟩

/-! ## The parents of a path -/

/-- A parent is what stands before a slash, with the slash, or nothing. -/
theorem parentText_cases (path : Bytes) :
    parentText path = [] ∨
      ∃ front rest, parentText path = front ++ [('/' : UInt8)] ∧ path = front ++ ('/' : UInt8) :: rest := by
  have hslashes := List.takeWhile_append_dropWhile (p := fun b => decide (b = ('/' : UInt8))) (l := path.reverse)
  have hlast := List.takeWhile_append_dropWhile (p := fun b => decide (b ≠ ('/' : UInt8)))
    (l := path.reverse.dropWhile fun b => decide (b = ('/' : UInt8)))
  unfold parentText
  generalize path.reverse.takeWhile (fun b => decide (b = ('/' : UInt8))) = slashes at hslashes
  generalize path.reverse.dropWhile (fun b => decide (b = ('/' : UInt8))) = kept at hslashes hlast
  have hhead := List.head?_dropWhile_not (fun b => decide (b ≠ ('/' : UInt8))) kept
  generalize kept.takeWhile (fun b => decide (b ≠ ('/' : UInt8))) = last at hlast
  cases hfront : kept.dropWhile (fun b => decide (b ≠ ('/' : UInt8))) with
  | nil => exact Or.inl rfl
  | cons b front =>
      rw [hfront] at hlast hhead
      obtain rfl : b = ('/' : UInt8) := by simpa using hhead
      refine Or.inr ⟨front.reverse, last.reverse ++ slashes.reverse, by simp, ?_⟩
      rw [← List.reverse_inj, ← hslashes, ← hlast]
      simp

/-- The parents of a path start where it starts, and have its first names. -/
theorem of_mem_parentTexts {count : Nat} (h : text ∈ parentTexts count path) :
    Path.names text <+: Path.names path ∧ Path.isAbsolute text = Path.isAbsolute path := by
  induction count generalizing path with
  | zero => cases h
  | succ count ih =>
      unfold parentTexts at h
      split at h
      next => cases h
      next =>
        rcases List.mem_cons.mp h with rfl | h
        · exact ⟨List.prefix_refl _, rfl⟩
        obtain ⟨hnames, habsolute⟩ := ih h
        rcases parentText_cases path with hempty | ⟨front, rest, hparent, rfl⟩
        · rw [hempty] at h
          cases count <;> cases h
        · refine ⟨hnames.trans ?_, habsolute.trans ?_⟩
          · have hslash := names_append_slashes front 1
            rw [List.replicate_one] at hslash
            rw [hparent, hslash, Path.names, Path.names, Path.pieces_behind, List.filter_append]
            exact List.prefix_append _ _
          · rw [hparent, Path.isAbsolute, Path.isAbsolute]
            cases front <;> rfl

/-- The parents of a path in normal form spell out places on its way, or places that are there because the working
directory is. -/
theorem spelled_of_mem_parentTexts (hfiles : files.WellFormed) {count : Nat}
    (h : text ∈ parentTexts count (Path.clean written)) :
    files.spelled text <+: files.spelled (Path.clean written) ∨ files.get? (files.spelled text) = some .directory := by
  obtain ⟨hnames, habsolute⟩ := of_mem_parentTexts h
  have hstart : files.start text = files.start (Path.clean written) := by rw [start, start, habsolute]
  have hthere := start_directory hfiles (Path.clean written)
  have hclimbed : ∀ climbs, files.get? ((List.replicate climbs Path.above).foldl Path.descend
      (files.start (Path.clean written))) = some .directory := by
    intro climbs
    rw [Path.foldl_descend_climbs]
    exact hfiles.take hthere _
  obtain ⟨climbs, plain, hcomponents, hplain, -⟩ := Path.components_normal written
  rw [spelled, spelled, hstart]
  rcases Path.names_clean written with hsame | ⟨hhere, -⟩
  · rw [hsame, hcomponents] at hnames ⊢
    obtain ⟨rest, hrest⟩ := hnames
    rcases List.append_eq_append_iff.mp hrest with ⟨more, hclimbs, -⟩ | ⟨kept, hkept, rfl⟩
    · -- A parent that does nothing but climb.
      obtain ⟨-, hclimbing⟩ := List.prefix_replicate_iff.mp ⟨more, hclimbs.symm⟩
      rw [hclimbing]
      exact Or.inr (hclimbed _)
    · left
      rw [hkept, List.foldl_append, List.foldl_append, Path.foldl_descend_plain hplain,
        Path.foldl_descend_plain fun name hname => hplain name (List.mem_append_left rest hname), ← List.append_assoc]
      exact List.prefix_append _ _
  · rw [hhere] at hnames ⊢
    left
    rcases List.prefix_cons_iff.mp hnames with hnone | ⟨others, hothers, hnone⟩
    · rw [hnone]
      exact List.prefix_refl _
    · rw [hothers, List.prefix_nil.mp hnone]

/-! ## Growing -/

/-- A tree that has grown by nothing but directories, and by these only at places that may be added. -/
structure Grown (added : Place → Prop) (files made : Files) : Prop where
  working : made.workingDirectory = files.workingDirectory
  kept : ∀ place, files.get? place ≠ none → made.node? place = files.node? place
  new : ∀ place, files.get? place = none → made.get? place ≠ none → made.get? place = some .directory ∧ added place

section

variable {added : Place → Prop}

theorem Grown.refl (added : Place → Prop) (files : Files) : Grown added files files :=
  ⟨rfl, fun _ _ => rfl, fun _ hnone hsome => absurd hnone hsome⟩

theorem Grown.get? (h : Grown added files made) {place : Place} (hplace : files.get? place ≠ none) :
    made.get? place = files.get? place := by
  have hnode := congrArg (Option.map Prod.fst) (h.kept place hplace)
  simpa [node?, Option.map_map, Function.comp_def] using hnode

theorem Grown.trans (h : Grown added files made) (h' : Grown added made third) : Grown added files third := by
  refine ⟨h'.working.trans h.working, fun place hplace => ?_, fun place hnone hsome => ?_⟩
  · exact (h'.kept place (by rwa [h.get? hplace])).trans (h.kept place hplace)
  · by_cases hmade : made.get? place = none
    · exact h'.new place hmade hsome
    · rw [h'.get? hmade]
      exact h.new place hnone hmade

theorem Grown.linkFree (h : Grown added files made) (hlinks : files.LinkFree) : made.LinkFree := by
  intro place target hlink
  by_cases hplace : files.get? place = none
  · obtain ⟨hdirectory, -⟩ := h.new place hplace (by simp [hlink])
    simp [hlink] at hdirectory
  · exact hlinks place target ((h.get? hplace).symm.trans hlink)

theorem Grown.spelled (h : Grown added files made) (path : Bytes) : made.spelled path = files.spelled path := by
  rw [Files.spelled, Files.spelled, start, start, h.working]

theorem put_grown {place : Place} (hfree : files.get? place = none) (hadded : added place) :
    Grown added files (files.put place .directory) := by
  have hplace : place ≠ [] := by
    rintro rfl
    cases hfree
  refine ⟨rfl, fun other hother => (put_sameBut hplace .directory).node other fun heq => hother (heq ▸ hfree),
    fun other hnone hsome => ?_⟩
  rw [get?_put files hplace] at hsome ⊢
  by_cases hother : other = place
  · rw [hother, Function.update_self]
    exact ⟨rfl, hadded⟩
  · rw [Function.update_of_ne hother] at hsome
    exact absurd hnone hsome

/-- Making directories along the parents of a path makes the tree grow where they are not there yet. -/
theorem LinkFree.mkdirChain_grown (hlinks : files.LinkFree) (hfiles : files.WellFormed) (texts : List Bytes)
    (htexts : ∀ text ∈ texts, added (files.spelled text) ∨ files.get? (files.spelled text) = some .directory) :
    Grown added files (files.mkdirChain texts).1 := by
  induction texts with
  | nil => exact Grown.refl added files
  | cons path parents ih =>
      have hgrown := ih fun text htext => htexts text (List.mem_cons_of_mem path htext)
      have hwell := (mkdirChain_extends hfiles parents).1
      unfold mkdirChain
      split
      next => exact Grown.refl added files
      next => exact Grown.refl added files
      next =>
        split
        next below fault hparents =>
          rw [hparents] at hgrown
          exact hgrown
        next below hparents =>
          rw [hparents] at hgrown hwell
          split
          next made hmade =>
            obtain ⟨hfree, rfl⟩ := (hgrown.linkFree hlinks).mkdir_eq_ok hwell hmade
            rw [hgrown.spelled] at hfree ⊢
            refine hgrown.trans (put_grown hfree ?_)
            rcases htexts path List.mem_cons_self with hadded | hdirectory
            · exact hadded
            · rw [hgrown.get? (by simp [hdirectory]), hdirectory] at hfree
              cases hfree
          next =>
            split
            next => exact hgrown
            next => exact hgrown

/-- Ensuring directories makes the tree grow on the ways to them, also where it fails. -/
theorem LinkFree.ensureDirectories_grown (hlinks : files.LinkFree) (hfiles : files.WellFormed) (paths : List Bytes)
    (hpaths : ∀ path ∈ paths, ∃ written, path = Path.clean written)
    (hadded : ∀ path ∈ paths, ∀ place, place <+: files.spelled path → added place) :
    Grown added files (files.ensureDirectories paths).1 := by
  induction paths generalizing files with
  | nil => exact Grown.refl added files
  | cons path rest ih =>
      obtain ⟨⟨written, rfl⟩, hrest⟩ := List.forall_mem_cons.mp hpaths
      obtain ⟨hfirst, hothers⟩ := List.forall_mem_cons.mp hadded
      unfold ensureDirectories
      split
      next => exact Grown.refl added files
      next hempty =>
        split
        next => exact ih hlinks hfiles hrest hothers
        next => exact Grown.refl added files
        next =>
          have hgrown : Grown added files _ := hlinks.mkdirChain_grown hfiles
            (parentTexts ((Path.clean written).length + 1) (Path.clean written))
            fun text htext => (spelled_of_mem_parentTexts hfiles htext).imp_left (hfirst _)
          have hwell := (mkdirChain_extends hfiles (parentTexts ((Path.clean written).length + 1)
            (Path.clean written))).1
          have hall : files.mkdirAll (Path.clean written) =
              files.mkdirChain (parentTexts ((Path.clean written).length + 1) (Path.clean written)) := if_neg hempty
          rw [← hall] at hgrown hwell
          split
          next made hmade =>
            rw [hmade] at hgrown hwell
            refine hgrown.trans (ih (hgrown.linkFree hlinks) hwell hrest fun path hpath place hplace => ?_)
            rw [hgrown.spelled] at hplace
            exact hothers path hpath place hplace
          next made fault hmade =>
            rw [hmade] at hgrown
            exact hgrown
        next => exact Grown.refl added files

end

end Files

namespace Layout

variable (l : Layout) {files : Files}

/-- The places on the ways to the directories of a layout. -/
def OnWay (files : Files) (place : Place) : Prop := ∃ path ∈ l.directories, place <+: files.spelled path

/-- A refused layout leaves the tree alone, and every other one makes it grow by directories on the ways to its own. -/
theorem provision_cases (hfiles : files.WellFormed) (hlinks : files.LinkFree) :
    (∃ reason fault, files.validatePaths l.root l.directories = .error reason ∧
        l.provision files = (files, some fault)) ∨
      files.validatePaths l.root l.directories = .ok () ∧
        Files.Grown (l.OnWay files) files (l.provision files).1 := by
  unfold provision
  cases hvalid : files.validatePaths l.root l.directories with
  | error reason => exact Or.inl ⟨reason, _, rfl, rfl⟩
  | ok value =>
      have hroot : l.root.isEmpty = false :=
        (Files.of_validatePath (Files.validatePath_of_validatePaths hvalid _ List.mem_cons_self)).1
      have hgrown : Files.Grown (l.OnWay files) files _ := hlinks.ensureDirectories_grown hfiles l.directories
        (fun path hpath => clean_of_mem_directories hroot hpath) fun path hpath place hplace => ⟨path, hpath, hplace⟩
      refine Or.inr ⟨rfl, ?_⟩
      dsimp only
      split
      next made hmade =>
        rw [hmade] at hgrown
        exact hgrown
      next made fault hmade =>
        rw [hmade] at hgrown
        exact hgrown

/-- Provisioning can be repeated, and refuses before it touches anything. A layout with a directory outside its root
leaves the tree as it is. Otherwise the tree keeps every node it has and grows at most by directories on the ways to
those of the layout, even where one of them cannot be made; and once all of them are there, provisioning again changes
nothing. -/
theorem provision_grows (hfiles : files.WellFormed) (hlinks : files.LinkFree)
    (hworking : ∀ name ∈ files.workingDirectory, Path.Plain name) :
    ((∃ path ∈ l.directories, ¬ files.spelled l.root <+: files.spelled path) →
      ∃ fault, l.provision files = (files, some fault)) ∧
    (∀ made, l.provision files = (made, none) →
      Files.Grown (l.OnWay files) files made ∧
      (∀ path ∈ l.directories, made.stat path = .ok .directory ∧
        made.get? (files.spelled path) = some .directory) ∧
      l.provision made = (made, none)) ∧
    ∀ made fault, l.provision files = (made, some fault) → Files.Grown (l.OnWay files) files made := by
  have hcases := l.provision_cases hfiles hlinks
  refine ⟨?_, fun made hmade => ?_, fun made fault hmade => ?_⟩
  · rintro ⟨path, hpath, hout⟩
    rcases hcases with ⟨-, fault, -, hrefused⟩ | ⟨hvalid, -⟩
    · exact ⟨fault, hrefused⟩
    · have hpassed := Files.validatePath_of_validatePaths hvalid path hpath
      exact absurd ((hlinks.validatePath_iff_prefix hworking).mp hpassed).2.2.2 hout
  · have hnone : (l.provision files).2 = none := by rw [hmade]
    obtain ⟨hwell, hprovided⟩ := l.provision_isProvided hfiles hnone
    rcases hcases with ⟨-, fault, -, hrefused⟩ | ⟨hvalid, hgrown⟩
    · rw [hmade] at hrefused
      cases hrefused
    rw [hmade] at hwell hprovided hgrown
    have hmadeLinks := hgrown.linkFree hlinks
    refine ⟨hgrown, fun path hpath => ⟨hprovided path hpath, ?_⟩, l.provision_eq_self (fun path hpath => ?_) hprovided⟩
    · rw [← hgrown.spelled]
      exact hmadeLinks.get?_of_stat hwell (hprovided path hpath)
    · have hpassed := Files.validatePath_of_validatePaths hvalid path hpath
      rw [hlinks.validatePath_iff_prefix hworking] at hpassed
      have hmadeWorking : ∀ name ∈ made.workingDirectory, Path.Plain name := by rwa [hgrown.working]
      rwa [hmadeLinks.validatePath_iff_prefix hmadeWorking, hgrown.spelled, hgrown.spelled]
  · rcases hcases with ⟨-, other, -, hrefused⟩ | ⟨-, hgrown⟩
    · rw [hmade] at hrefused
      obtain ⟨rfl, -⟩ := Prod.mk.inj hrefused
      exact Files.Grown.refl _ _
    · rwa [hmade] at hgrown

/-- Directories that coincide and lie in one another are made beside what is there, a file at any depth stops them after
the first ones, and one beside the root is refused. -/
theorem nested_directories_are_provisioned :
    let files : Files :=
      { entries := [(["work"], .directory), (["work", "site"], .directory), (["work", "site-2"], .directory),
          (["work", "site", "runs"], .directory), (["work", "site", "runs", "old"], .file (.bytes "kept"))]
        workingDirectory := ["work"]
        permissions := [(["work", "site", "runs"], 0o700)] }
    let nested : Layout := ⟨"../work/site", "runs/a/b", "runs", "./runs//x/../a/b/"⟩
    let blocked : Layout := ⟨"site", "runs/new", "runs/old/deep/csc", "results"⟩
    let outside : Layout := ⟨"site", "positions", "csc", "../site-2"⟩
    (∃ made, nested.provision files = (made, none) ∧ nested.provision made = (made, none) ∧
      made.get? ["work", "site", "runs", "a", "b"] = some .directory ∧
      made.node? ["work", "site", "runs"] = some (.directory, 0o700, 0)) ∧
    (∃ made fault, blocked.provision files = (made, some fault) ∧
      made.get? ["work", "site", "runs", "new"] = some .directory ∧
      made.node? ["work", "site", "runs", "old"] = files.node? ["work", "site", "runs", "old"]) ∧
    ∃ fault, outside.provision files = (files, some fault) := by
  intro files nested blocked outside
  have hfiles : files.WellFormed := by decide +kernel
  have hlinks : files.LinkFree := by
    refine Files.linkFree_of_entries fun entry hentry => ?_
    simp only [files, List.mem_cons, List.not_mem_nil, or_false] at hentry
    rcases hentry with rfl | rfl | rfl | rfl | rfl <;> rintro target ⟨⟩
  have hworking : ∀ name ∈ files.workingDirectory, Path.Plain name := by decide +kernel
  -- One of the three cases of the theorem for each of the layouts.
  refine ⟨?_, ?_, ?_⟩
  · have hnone : (nested.provision files).2 = none := by decide +kernel
    rcases hmade : nested.provision files with ⟨made, fault⟩
    rw [hmade] at hnone
    obtain rfl : fault = none := hnone
    obtain ⟨hgrown, hthere, hagain⟩ := (provision_grows nested hfiles hlinks hworking).2.1 made hmade
    have hplace : files.spelled (nested.path nested.positions) = (["work", "site", "runs", "a", "b"] : Place) := by
      decide +kernel
    have hruns : files.node? ["work", "site", "runs"] = some (.directory, 0o700, 0) := by decide +kernel
    refine ⟨made, rfl, hagain, hplace ▸ (hthere _ List.mem_cons_self).2, (hgrown.kept _ ?_).trans hruns⟩
    decide +kernel
  · have hfault : (blocked.provision files).2.isSome = true := by decide +kernel
    have hnew : (blocked.provision files).1.get? ["work", "site", "runs", "new"] = some .directory := by decide +kernel
    rcases hmade : blocked.provision files with ⟨made, fault⟩
    rw [hmade] at hfault hnew
    obtain ⟨fault, rfl⟩ := Option.isSome_iff_exists.mp hfault
    have hgrown := (provision_grows blocked hfiles hlinks hworking).2.2 made fault hmade
    refine ⟨made, fault, rfl, hnew, hgrown.kept _ ?_⟩
    decide +kernel
  · exact (provision_grows outside hfiles hlinks hworking).1 ⟨outside.path outside.results, by decide +kernel,
      by decide +kernel⟩

end Layout

end MobilitySweep
