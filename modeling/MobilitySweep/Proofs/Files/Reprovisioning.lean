import MobilitySweep.Proofs.Files.Confinement

/-! # Provisioning again

A layout whose directories are there, and which can be provisioned as it is, can be provisioned again once files have
come and gone: the check of its directories follows the same links to the same directories, and nothing has to be made.
-/

namespace MobilitySweep

namespace Files

variable {files other : Files} {changing : Place → Prop} {parts names : List Bytes} {place there : Place} {count : Nat}

/-- A walk that comes to an end comes to the same end if it may follow more links. -/
theorem Walks.more {follow slash : Bool} {links : Nat} {spot : Spot}
    (h : Walks files follow links slash place names (.ok spot)) (more : Nat) :
    Walks files follow (links + more) slash place names (.ok spot) := by
  generalize hresult : Except.ok spot = result at h
  induction h with
  | arrived hscan => exact .arrived hscan
  | stuck | exhausted => cases hresult
  | jump hscan _ ih =>
      rw [Nat.add_right_comm]
      exact .jump hscan (ih hresult)

/-- Components that lead to a directory are evaluated to it, unless too many links are on the way. -/
theorem Leads.evaluate?_eq_some_iff (h : Leads files [] parts count there) :
    files.evaluate? parts = some place ↔
      place = there ∧ ∃ few, few ≤ evaluationLimit ∧ Leads files [] parts few there := by
  constructor
  · intro heval
    unfold Files.evaluate? at heval
    split at heval
    next found entry hwalk =>
      obtain rfl := Option.some.inj heval
      -- With more links than there are on the way, the walk comes to the directory.
      have hwalks := walks_iff.mpr hwalk
      have hend := (hwalks.more count).walk_eq
      rw [Nat.add_comm, h.walk_all] at hend
      obtain ⟨rfl, rfl⟩ := Spot.taken.inj (Except.ok.inj hend)
      exact ⟨rfl, hwalks.leads⟩
    next => cases heval
  · rintro ⟨rfl, few, hfew, hleads⟩
    exact hleads.evaluate? hfew

theorem Leads.evaluate?_alike (halike : Alike changing files other) (h : Leads files [] parts count there) :
    other.evaluate? parts = files.evaluate? parts := by
  refine Option.ext fun place => ?_
  rw [(h.along halike.ways).evaluate?_eq_some_iff, h.evaluate?_eq_some_iff]
  refine and_congr_right fun _ => exists_congr fun few => and_congr_right fun _ => ?_
  exact ⟨fun hother => hother.along halike.symm.ways, fun hfiles => hfiles.along halike.ways⟩

theorem Scans.ne_link {slash : Bool} {progress : Progress} {target : Bytes}
    (h : Scans files true slash place names progress) : progress ≠ .arrived (.taken there (.link target)) := by
  induction h with
  | done | long | free | missing | file | blocked | jump => rintro ⟨⟩
  | here _ ih | above _ ih | down _ _ _ ih => exact ih
  | link _ _ hfollow => cases hfollow

/-- A walk that follows all links does not end at one. -/
theorem Walks.ne_link {links : Nat} {slash : Bool} {result : Except Cause Spot} {target : Bytes}
    (h : Walks files true links slash place names result) : result ≠ .ok (.taken there (.link target)) := by
  induction h with
  | arrived hscan => exact fun hlink => hscan.ne_link (congrArg _ (Except.ok.inj hlink))
  | stuck | exhausted => rintro ⟨⟩
  | jump _ _ ih => exact ih

/-- What components are evaluated to is there, bears names, and is no link. -/
theorem evaluate?_found (hfiles : files.WellFormed) (hparts : ∀ name ∈ parts, Path.IsName name)
    (h : files.evaluate? parts = some place) : Nameable place ∧ ∀ target, files.get? place ≠ some (.link target) := by
  unfold Files.evaluate? at h
  split at h
  next found entry hwalk =>
    obtain rfl := Option.some.inj h
    have hwalks := walks_iff.mpr hwalk
    obtain ⟨hentry, hnameable⟩ := hwalks.found hfiles rfl nameable_nil hparts
    refine ⟨hnameable, fun target hlink => ?_⟩
    obtain rfl := Option.some.inj (hlink.symm.trans hentry)
    exact hwalks.ne_link rfl
  next => cases h

/-- A place that leads to a directory: there is one, or a link to one. -/
def Enters (files : Files) (place : Place) : Prop :=
  files.get? place = some .directory ∨ ∃ parent name target count there, place = parent ++ [name] ∧
    files.get? place = some (.link target) ∧ Leads files parent [name] count there

theorem resolveExisting_of_evaluate? (h : files.evaluate? parts = some place) :
    files.resolveExisting parts.reverse = place := by
  rcases List.eq_nil_or_concat' parts with rfl | ⟨before, name, rfl⟩
  · exact Option.some.inj h
  · rw [resolveExisting_concat, h, Option.getD_some]

/-- Components that were taken for a place that leads to a directory are taken for it in a tree that is alike. -/
theorem resolveExisting_alike (halike : Alike changing files other) (hfiles : files.WellFormed)
    (hparts : ∀ name ∈ parts, Path.Plain name)
    (hshort : ∀ name ∈ files.resolveExisting parts.reverse, name.length ≤ nameLimit)
    (henters : files.Enters (files.resolveExisting parts.reverse)) :
    other.resolveExisting parts.reverse = files.resolveExisting parts.reverse := by
  rcases henters with hdirectory | ⟨parent, last, target, more, there, hplace, hlink, hmore⟩
  · obtain ⟨count, hcount, hleads⟩ := leads_of_resolveExisting hfiles (Extends.refl files) hparts hdirectory hshort
    exact resolveExisting_of_evaluate? ((hleads.evaluate?_alike halike).trans (hleads.evaluate? hcount))
  · rcases List.eq_nil_or_concat' parts with rfl | ⟨before, name, rfl⟩
    · rfl
    rw [resolveExisting_concat] at hlink hplace hshort
    rw [resolveExisting_concat, resolveExisting_concat]
    cases heval : files.evaluate? (before ++ [name]) with
    | some known =>
        rw [heval, Option.getD_some] at hlink
        exact absurd hlink ((evaluate?_found hfiles (fun name h => (hparts name h).isName) heval).2 target)
    | none =>
        rw [heval, Option.getD_none] at hlink hplace hshort
        obtain ⟨rfl, hlast⟩ := List.append_inj' hplace rfl
        obtain rfl := List.singleton_injective hlast
        obtain ⟨count, hcount, hleads⟩ := leads_of_resolveExisting hfiles (Extends.refl files)
          (fun other hother => hparts other (List.mem_append_left _ hother)) (hfiles.parent _ _ _ hlink)
          fun other hother => hshort other (List.mem_append_left _ hother)
        rw [(hleads.trans hmore).evaluate?_alike halike, heval, Option.getD_none, Option.getD_none,
          resolveExisting_of_evaluate? ((hleads.evaluate?_alike halike).trans (hleads.evaluate? hcount))]

/-- What is above a place that leads to a directory leads to one. -/
theorem Enters.above (h : files.Enters place) (hfiles : files.WellFormed) (habove : there <+: place) :
    files.Enters there := by
  obtain ⟨rest, rfl⟩ := habove
  by_cases hrest : rest = []
  · rwa [hrest, List.append_nil] at h
  · refine Or.inl (hfiles.above _ hrest ?_)
    rcases h with hdirectory | ⟨parent, last, target, more, there, -, hlink, -⟩
    · rw [hdirectory, Option.isSome_some]
    · rw [hlink, Option.isSome_some]

/-- Where a path to a directory is taken to be before its last name is followed. -/
theorem resolvedPath_enters (hfiles : files.WellFormed) (hworking : files.Speakable) {path : Bytes}
    (hcount : count ≤ evaluationLimit) (h : Leads files [] (Path.components (files.absolutePath path)) count place) :
    ∃ entrance, Nameable entrance ∧ files.Enters entrance ∧ files.resolvedPath path = Path.ofComponents true entrance ∧
      ∀ changing other, Alike changing files other → other.resolvedPath path = files.resolvedPath path := by
  have hparts := plain_of_mem_absolutePath hworking.working path
  have habsolute : ∀ changing other, Alike changing files other → other.absolutePath path = files.absolutePath path := by
    intro changing other halike
    rw [absolutePath, absolutePath, workingPath, workingPath, halike.working]
  rcases List.eq_nil_or_concat' (Path.components (files.absolutePath path)) with hnil | ⟨before, name, hconcat⟩
  · have hplace : ∀ tree : Files, tree.absolutePath path = files.absolutePath path →
        tree.resolvedPath path = Path.ofComponents true [] := by
      intro tree htree
      rw [resolvedPath, htree, hnil]
      rfl
    exact ⟨[], nameable_nil, Or.inl rfl, hplace files rfl, fun changing other halike =>
      (hplace other (habsolute changing other halike)).trans (hplace files rfl).symm⟩
  · rw [hconcat] at h hparts
    have hname : Path.Plain name := hparts name (by simp)
    have hbefore : ∀ other ∈ before, Path.IsName other := fun other hother =>
      (hparts other (List.mem_append_left _ hother)).isName
    obtain ⟨first, more, middle, rfl, hfirst, hmore⟩ := h.split
    have heval := hfirst.evaluate? ((Nat.le_add_right first more).trans hcount)
    have hplace : ∀ tree : Files, tree.absolutePath path = files.absolutePath path →
        tree.evaluate? before = some middle → tree.resolvedPath path = Path.ofComponents true (middle ++ [name]) := by
      intro tree htree hmiddle
      rw [resolvedPath, htree, hconcat, List.reverse_append, List.reverse_singleton, List.singleton_append,
        ← resolveExisting_of_evaluate? hmiddle]
    have hsame := hplace files rfl heval
    obtain ⟨hshort, henters⟩ : name.length ≤ nameLimit ∧ files.Enters (middle ++ [name]) := by
      rcases hmore.uncons with ⟨hhere, -⟩ | ⟨habove, -⟩ | ⟨-, -, hshort, ⟨hdirectory, -⟩ | ⟨target, hlink⟩⟩
      · exact absurd hhere hname.ne_here
      · exact absurd habove hname.ne_above
      · exact ⟨hshort, Or.inl hdirectory⟩
      · exact ⟨hshort, Or.inr ⟨middle, name, target, more, place, rfl, hlink, hmore⟩⟩
    refine ⟨middle ++ [name], fun part hpart => ?_, henters, hsame, fun changing other halike => ?_⟩
    · rcases List.mem_append.mp hpart with hpart | hpart
      · exact (evaluate?_found hfiles hbefore heval).1 part hpart
      · exact List.mem_singleton.mp hpart ▸ ⟨hname.isName, hshort⟩
    · rw [hsame]
      exact hplace other (habsolute changing other halike) ((hfirst.evaluate?_alike halike).trans heval)

/-- A path to a directory that was found to lie in a root is found to lie in it in a tree that is alike. -/
theorem validatePath_alike (halike : Alike changing files other) (hfiles : files.WellFormed)
    (hworking : files.Speakable) {written root : Bytes} (hstat : files.stat (Path.clean written) = .ok .directory)
    (h : files.validatePath (Path.clean written) root = .ok ()) :
    other.validatePath (Path.clean written) root = .ok () := by
  have habsolute : ∀ path, other.absolutePath path = files.absolutePath path := by
    intro path
    rw [absolutePath, absolutePath, workingPath, workingPath, halike.working]
  obtain ⟨place, hresolve⟩ := stat_eq_ok hstat
  obtain ⟨count, hcount, hleads⟩ := ((resolve_iff (fits_of_resolve hresolve)).mp hresolve).leads
  obtain ⟨entrance, hnameable, henters, hplace, hsame⟩ := resolvedPath_enters hfiles hworking
    (hcount.trans (by decide)) (leads_absolutePath hfiles hworking written hleads)
  have hroot := plain_of_mem_absolutePath hworking.working root
  have hbelow := (of_validatePath h).2
  rw [hplace, resolvedRoot] at hbelow
  have hinside := Path.prefix_of_isBelow (fun name hname => (hnameable name hname).1)
    (isName_of_mem_resolveExisting hfiles fun name hname => (hroot name hname).isName) hbelow
  have hrootSame : other.resolvedRoot root = files.resolvedRoot root := by
    rw [resolvedRoot, resolvedRoot, habsolute]
    exact congrArg _ (resolveExisting_alike halike hfiles hroot
      (fun name hname => (hnameable name (hinside.subset hname)).2) (henters.above hfiles hinside))
  unfold validatePath at h ⊢
  rw [hsame changing other halike, hrootSame, habsolute, habsolute]
  exact h

theorem validatePaths_eq_ok {root : Bytes} {paths : List Bytes}
    (h : ∀ path ∈ paths, files.validatePath path root = .ok ()) : files.validatePaths root paths = .ok () := by
  induction paths with
  | nil => rfl
  | cons path rest ih =>
      obtain ⟨hpath, hrest⟩ := List.forall_mem_cons.mp h
      rw [validatePaths, hpath]
      exact ih hrest

theorem ensureDirectories_eq_none {paths : List Bytes} (h : ∀ path ∈ paths, files.stat path = .ok .directory) :
    (files.ensureDirectories paths).2 = none := by
  induction paths with
  | nil => rfl
  | cons path rest ih =>
      obtain ⟨hpath, hrest⟩ := List.forall_mem_cons.mp h
      obtain ⟨place, hresolve⟩ := stat_eq_ok hpath
      rw [ensureDirectories, (fits_of_resolve hresolve).2.1, hpath]
      exact ih hrest

end Files

namespace Layout

/-- A layout whose directories are there and lie in its root is provisioned by leaving the tree as it is. -/
theorem provision_eq_self (l : Layout) {files : Files}
    (hvalid : ∀ path ∈ l.directories, files.validatePath path l.root = .ok ()) (hprovided : l.IsProvided files) :
    l.provision files = (files, none) := by
  have hensured := Files.ensureDirectories_of_stat l.directories hprovided
  have hnone := Files.ensureDirectories_eq_none hprovided
  unfold provision
  rw [Files.validatePaths_eq_ok hvalid]
  rcases hmade : files.ensureDirectories l.directories with ⟨made, fault⟩
  rw [hmade] at hensured hnone
  obtain rfl := hensured
  obtain rfl := hnone
  rfl

/-- Once its directories are there and it can be provisioned as it is, a layout can be provisioned in every tree that is
alike, and nothing is made there. -/
theorem provision_again (l : Layout) {files other : Files} {changing : Place → Prop} (hfiles : files.WellFormed)
    (hworking : files.Speakable) (hprovided : l.IsProvided files) (h : (l.provision files).2 = none)
    (halike : Files.Alike changing files other) : l.provision other = (other, none) := by
  refine l.provision_eq_self (fun path hpath => ?_) (hprovided.alike halike)
  have hpassed := (provision_eq_none h).1 path hpath
  obtain ⟨written, rfl⟩ := clean_of_mem_directories (Files.of_validatePath hpassed).1 hpath
  exact Files.validatePath_alike halike hfiles hworking (hprovided _ hpath) hpassed

end Layout

end MobilitySweep
