import MobilitySweep.Proofs.Files.Components
import MobilitySweep.Proofs.Files.Provisioning

/-! # Where names lead

The names of a path lead from one directory to another, through other directories and behind links, whatever is asked
of the last name. Walks that follow all links come upon a directory exactly when the names lead there behind few enough
of them.
-/

namespace MobilitySweep

namespace Files

/-- Names lead from a directory to another one, behind a number of links. -/
inductive Leads (files : Files) : Place → List Bytes → Nat → Place → Prop where
  | arrived (place : Place) : Leads files place [] 0 place
  | here (place : Place) (rest : List Bytes) (links : Nat) (there : Place) (h : Leads files place rest links there) :
      Leads files place (Path.here :: rest) links there
  | above (place : Place) (rest : List Bytes) (links : Nat) (there : Place)
      (h : Leads files place.dropLast rest links there) : Leads files place (Path.above :: rest) links there
  | down (place : Place) (name : Bytes) (rest : List Bytes) (links : Nat) (there : Place) (hhere : name ≠ Path.here)
      (habove : name ≠ Path.above) (hshort : name.length ≤ nameLimit)
      (hdirectory : files.get? (place ++ [name]) = some .directory)
      (h : Leads files (place ++ [name]) rest links there) : Leads files place (name :: rest) links there
  | behind (place : Place) (name : Bytes) (rest : List Bytes) (links : Nat) (there : Place) (target : Bytes)
      (hhere : name ≠ Path.here) (habove : name ≠ Path.above) (hshort : name.length ≤ nameLimit)
      (hlink : files.get? (place ++ [name]) = some (.link target))
      (h : Leads files (if Path.isAbsolute target then [] else place) (Path.names target ++ rest) links there) :
      Leads files place (name :: rest) (links + 1) there

section

variable {files other : Files} {place there : Place} {names rest : List Bytes} {count : Nat}

theorem Leads.trans {middle : Place} {more : Nat} (h : Leads files place names count middle)
    (hrest : Leads files middle rest more there) : Leads files place (names ++ rest) (count + more) there := by
  induction h with
  | arrived => simpa using hrest
  | here place names links middle _ ih => exact .here _ _ _ _ (ih hrest)
  | above place names links middle _ ih => exact .above _ _ _ _ (ih hrest)
  | down place name names links middle hhere habove hshort hdirectory _ ih =>
      exact .down _ _ _ _ _ hhere habove hshort hdirectory (ih hrest)
  | behind place name names links middle target hhere habove hshort hlink _ ih =>
      rw [Nat.add_right_comm, List.cons_append]
      refine .behind _ _ _ _ _ target hhere habove hshort hlink ?_
      rw [← List.append_assoc]
      exact ih hrest

theorem Leads.split_nil (h : Leads files place rest count there) :
    ∃ first more middle, count = first + more ∧ Leads files place [] first middle ∧ Leads files middle rest more there :=
  ⟨0, count, place, (Nat.zero_add count).symm, .arrived place, h⟩

/-- Names lead on from where the first ones lead. -/
theorem Leads.split (h : Leads files place (names ++ rest) count there) :
    ∃ first more middle, count = first + more ∧ Leads files place names first middle ∧
      Leads files middle rest more there := by
  generalize hall : names ++ rest = all at h
  -- The names divide as soon as none of the first ones is left; behind a link they are more than before.
  induction h generalizing names with
  | arrived place =>
      obtain ⟨rfl, rfl⟩ := List.append_eq_nil_iff.mp hall
      exact Leads.split_nil (.arrived place)
  | here place others links there h ih =>
      cases names with
      | nil => exact Leads.split_nil ((show rest = _ from hall) ▸ .here _ _ _ _ h)
      | cons name names =>
          obtain ⟨rfl, hrest⟩ := List.cons.inj hall
          obtain ⟨first, more, middle, rfl, hfirst, hmore⟩ := ih hrest
          exact ⟨first, more, middle, rfl, .here _ _ _ _ hfirst, hmore⟩
  | above place others links there h ih =>
      cases names with
      | nil => exact Leads.split_nil ((show rest = _ from hall) ▸ .above _ _ _ _ h)
      | cons name names =>
          obtain ⟨rfl, hrest⟩ := List.cons.inj hall
          obtain ⟨first, more, middle, rfl, hfirst, hmore⟩ := ih hrest
          exact ⟨first, more, middle, rfl, .above _ _ _ _ hfirst, hmore⟩
  | down place last others links there hhere habove hshort hdirectory h ih =>
      cases names with
      | nil =>
          exact Leads.split_nil ((show rest = _ from hall) ▸ .down _ _ _ _ _ hhere habove hshort hdirectory h)
      | cons name names =>
          obtain ⟨rfl, hrest⟩ := List.cons.inj hall
          obtain ⟨first, more, middle, rfl, hfirst, hmore⟩ := ih hrest
          exact ⟨first, more, middle, rfl, .down _ _ _ _ _ hhere habove hshort hdirectory hfirst, hmore⟩
  | behind place last others links there target hhere habove hshort hlink h ih =>
      cases names with
      | nil =>
          exact Leads.split_nil ((show rest = _ from hall) ▸ .behind _ _ _ _ _ target hhere habove hshort hlink h)
      | cons name names =>
          obtain ⟨rfl, hrest⟩ := List.cons.inj hall
          obtain ⟨first, more, middle, rfl, hfirst, hmore⟩ := ih ((List.append_assoc _ _ _).trans (congrArg _ hrest))
          exact ⟨first + 1, more, middle, Nat.add_right_comm _ _ _,
            .behind _ _ _ _ _ target hhere habove hshort hlink hfirst, hmore⟩

/-- What the first name of several does. -/
theorem Leads.uncons {name : Bytes} (h : Leads files place (name :: names) count there) :
    name = Path.here ∧ Leads files place names count there ∨
      name = Path.above ∧ Leads files place.dropLast names count there ∨
      name ≠ Path.here ∧ name ≠ Path.above ∧ name.length ≤ nameLimit ∧ (files.get? (place ++ [name]) = some .directory ∧
          Leads files (place ++ [name]) names count there ∨
        ∃ target, files.get? (place ++ [name]) = some (.link target)) := by
  cases h with
  | here _ _ _ _ h => exact Or.inl ⟨rfl, h⟩
  | above _ _ _ _ h => exact Or.inr (Or.inl ⟨rfl, h⟩)
  | down _ _ _ _ _ hhere habove hshort hdirectory h =>
      exact Or.inr (Or.inr ⟨hhere, habove, hshort, Or.inl ⟨hdirectory, h⟩⟩)
  | behind _ _ _ _ _ target hhere habove hshort hlink =>
      exact Or.inr (Or.inr ⟨hhere, habove, hshort, Or.inr ⟨target, hlink⟩⟩)

/-- Names that lead above a directory take the last names of its place away. -/
theorem Leads.climb {climbs : Nat} (h : Leads files place (List.replicate climbs Path.above ++ names) count there) :
    Leads files (place.take (place.length - climbs)) names count there := by
  induction climbs generalizing place with
  | zero => simpa using h
  | succ climbs ih =>
      rw [List.replicate_succ, List.cons_append] at h
      rcases h.uncons with ⟨hhere, -⟩ | ⟨-, h⟩ | ⟨-, habove, -⟩
      · exact absurd hhere (by decide +kernel)
      · have hless := ih h
        rwa [List.length_dropLast, List.dropLast_eq_take, List.take_take, min_eq_left (Nat.sub_le _ _),
          Nat.sub_sub, Nat.add_comm 1] at hless
      · exact absurd rfl habove

theorem Leads.along (h : Leads files place names count there) (hways : Ways files other) :
    Leads other place names count there := by
  induction h with
  | arrived place => exact .arrived place
  | here place names links there _ ih => exact .here _ _ _ _ ih
  | above place names links there _ ih => exact .above _ _ _ _ ih
  | down place name names links there hhere habove hshort hdirectory _ ih =>
      exact .down _ _ _ _ _ hhere habove hshort (hways.directory _ hdirectory) ih
  | behind place name names links there target hhere habove hshort hlink _ ih =>
      exact .behind _ _ _ _ _ target hhere habove hshort (hways.link _ _ hlink) ih

/-! ## Walks -/

section

variable {follow slash : Bool} {name : Bytes}

theorem scan_down (hhere : name ≠ Path.here) (habove : name ≠ Path.above) (hshort : name.length ≤ nameLimit)
    (hdirectory : files.get? (place ++ [name]) = some .directory) :
    files.scan follow slash place (name :: names) = files.scan follow slash (place ++ [name]) names := by
  simp only [scan_cons hhere habove hshort, hdirectory]

theorem scan_behind {target : Bytes} (hhere : name ≠ Path.here) (habove : name ≠ Path.above)
    (hshort : name.length ≤ nameLimit) (hlink : files.get? (place ++ [name]) = some (.link target))
    (hfollow : follow = true ∨ names ≠ []) :
    files.scan follow slash place (name :: names) = .jump (if Path.isAbsolute target then [] else place)
      (Path.names target ++ names) (slash || (names.isEmpty && endsWithSlash target)) := by
  simp only [scan_cons hhere habove hshort, hlink]
  rcases hfollow with rfl | hnames
  · simp
  · simp [hnames]

end

/-- A walk goes on from where the first names lead. -/
theorem Leads.walk (h : Leads files place names count there) (hrest : rest ≠ []) (follow slash : Bool) (links : Nat) :
    files.walk follow (count + links) slash place (names ++ rest) = files.walk follow links slash there rest := by
  induction h with
  | arrived => rw [List.nil_append, Nat.zero_add]
  | here place names count there _ ih => exact (walk_congr scan_here _).trans ih
  | above place names count there _ ih => exact (walk_congr scan_above _).trans ih
  | down place name names count there hhere habove hshort hdirectory _ ih =>
      exact (walk_congr (scan_down hhere habove hshort hdirectory) _).trans ih
  | behind place name names count there target hhere habove hshort hlink _ ih =>
      have hmore : names ++ rest ≠ [] := List.append_ne_nil_of_right_ne_nil names hrest
      rw [Nat.add_right_comm, List.cons_append, Files.walk,
        scan_behind hhere habove hshort hlink (Or.inr hmore), List.isEmpty_eq_false_iff.mpr hmore, Bool.false_and,
        Bool.or_false, ← List.append_assoc]
      exact ih

/-- A walk that follows all links comes where the names lead. -/
theorem Leads.walk_all (h : Leads files place names count there) (slash : Bool) (links : Nat) :
    files.walk true (count + links) slash place names = .ok (.taken there .directory) := by
  induction h generalizing slash with
  | arrived => cases links <;> simp [Files.walk, scan]
  | here place names count there _ ih => exact (walk_congr scan_here _).trans (ih slash)
  | above place names count there _ ih => exact (walk_congr scan_above _).trans (ih slash)
  | down place name names count there hhere habove hshort hdirectory _ ih =>
      exact (walk_congr (scan_down hhere habove hshort hdirectory) _).trans (ih slash)
  | behind place name names count there target hhere habove hshort hlink _ ih =>
      rw [Nat.add_right_comm, Files.walk, scan_behind hhere habove hshort hlink (Or.inl rfl)]
      exact ih _

section

variable {start : Place} {slash slash' : Bool} {links : Nat}

/-- A scan that follows all links and comes upon a directory goes where the names lead. -/
theorem Scans.leads (h : Scans files true slash place names (.arrived (.taken there .directory))) :
    Leads files place names 0 there := by
  generalize harrived : Progress.arrived (Spot.taken there .directory) = progress at h
  induction h with
  | long | free | missing | file | blocked | link | jump => cases harrived
  | done =>
      cases harrived
      exact .arrived _
  | here _ ih => exact .here _ _ _ _ (ih harrived)
  | above _ ih => exact .above _ _ _ _ (ih harrived)
  | down hname hentry _ ih =>
      exact .down _ _ _ _ _ hname.ne_here hname.ne_above hname.short hentry (ih harrived)

/-- Names lead where those lead that a scan goes on with, behind one more link. -/
theorem Scans.jump_leads (h : Scans files true slash place names (.jump start rest slash'))
    (hrest : Leads files start rest count there) : Leads files place names (count + 1) there := by
  generalize hjump : Progress.jump start rest slash' = progress at h
  induction h with
  | done | long | free | missing | file | blocked | link => cases hjump
  | here _ ih => exact .here _ _ _ _ (ih hjump)
  | above _ ih => exact .above _ _ _ _ (ih hjump)
  | down hname hentry _ ih =>
      exact .down _ _ _ _ _ hname.ne_here hname.ne_above hname.short hentry (ih hjump)
  | jump hname hentry =>
      cases hjump
      exact .behind _ _ _ _ _ _ hname.ne_here hname.ne_above hname.short hentry hrest

theorem Walks.leads (h : Walks files true links slash place names (.ok (.taken there .directory))) :
    ∃ count, count ≤ links ∧ Leads files place names count there := by
  generalize hresult : Except.ok (Spot.taken there .directory) = result at h
  induction h with
  | arrived hscan =>
      cases hresult
      exact ⟨0, Nat.zero_le _, hscan.leads⟩
  | stuck | exhausted => cases hresult
  | jump hscan _ ih =>
      obtain ⟨count, hcount, hleads⟩ := ih hresult
      exact ⟨count + 1, Nat.succ_le_succ hcount, hscan.jump_leads hleads⟩

end

/-! ## What is there -/

/-- Names that a place can have. -/
def Nameable (place : Place) : Prop := ∀ name ∈ place, Path.IsName name ∧ name.length ≤ nameLimit

/-- The place of a directory leads there. -/
theorem WellFormed.leads (hfiles : files.WellFormed) (hplace : files.get? place = some .directory)
    (hnames : ∀ name ∈ place, Path.Plain name ∧ name.length ≤ nameLimit) : Leads files [] place 0 place := by
  induction place using List.reverseRecOn with
  | nil => exact .arrived []
  | append_singleton parent name ih =>
      obtain ⟨hname, hshort⟩ := hnames name (by simp)
      have hparent := ih (hfiles.parent parent name _ hplace) fun other hother =>
        hnames other (List.mem_append_left _ hother)
      exact hparent.trans (.down _ _ _ _ _ hname.ne_here hname.ne_above hshort hplace (.arrived _))

theorem Nameable.dropLast (h : Nameable place) : Nameable place.dropLast := fun name hname =>
  h name (List.mem_of_mem_dropLast hname)

theorem Nameable.append (h : Nameable place) {name : Bytes} (hname : Path.IsName name)
    (hshort : name.length ≤ nameLimit) : Nameable (place ++ [name]) := by
  intro other hother
  rcases List.mem_append.mp hother with hother | hother
  · exact h other hother
  · exact List.mem_singleton.mp hother ▸ ⟨hname, hshort⟩

section

variable {start : Place} {follow slash slash' : Bool} {links : Nat} {entry : Entry}

/-- What a scan comes upon is there, and has a name. -/
theorem Scans.found (h : Scans files follow slash place names (.arrived (.taken there entry)))
    (hfiles : files.WellFormed) (hplace : files.get? place = some .directory) (hnameable : Nameable place)
    (hnames : ∀ name ∈ names, Path.IsName name) : files.get? there = some entry ∧ Nameable there := by
  generalize harrived : Progress.arrived (Spot.taken there entry) = progress at h
  induction h with
  | long | free | missing | blocked | jump => cases harrived
  | done =>
      cases harrived
      exact ⟨hplace, hnameable⟩
  | here _ ih => exact ih hplace hnameable (List.forall_mem_cons.mp hnames).2 harrived
  | above _ ih =>
      exact ih (hfiles.dropLast hplace) hnameable.dropLast (List.forall_mem_cons.mp hnames).2 harrived
  | down hname hentry _ ih =>
      obtain ⟨hisName, hrest⟩ := List.forall_mem_cons.mp hnames
      exact ih hentry (hnameable.append hisName hname.short) hrest harrived
  | file hname hentry | link hname hentry =>
      cases harrived
      exact ⟨hentry, hnameable.append (List.forall_mem_cons.mp hnames).1 hname.short⟩

/-- Where a scan goes on has a name, and so has all that it goes on with. -/
theorem Scans.jump_found (h : Scans files follow slash place names (.jump start rest slash'))
    (hnameable : Nameable place) (hnames : ∀ name ∈ names, Path.IsName name) :
    Nameable start ∧ ∀ name ∈ rest, Path.IsName name := by
  generalize hjump : Progress.jump start rest slash' = progress at h
  induction h with
  | done | long | free | missing | file | blocked | link => cases hjump
  | here _ ih => exact ih hnameable (List.forall_mem_cons.mp hnames).2 hjump
  | above _ ih => exact ih hnameable.dropLast (List.forall_mem_cons.mp hnames).2 hjump
  | down hname _ _ ih =>
      obtain ⟨hisName, hrest⟩ := List.forall_mem_cons.mp hnames
      exact ih (hnameable.append hisName hname.short) hrest hjump
  | jump =>
      cases hjump
      refine ⟨?_, fun other hother => ?_⟩
      · split
        next => rintro _ ⟨⟩
        next => exact hnameable
      · rcases List.mem_append.mp hother with hother | hother
        · exact Path.isName_of_mem_names hother
        · exact (List.forall_mem_cons.mp hnames).2 other hother

theorem Walks.found (h : Walks files follow links slash place names (.ok (.taken there entry)))
    (hfiles : files.WellFormed) (hplace : files.get? place = some .directory) (hnameable : Nameable place)
    (hnames : ∀ name ∈ names, Path.IsName name) : files.get? there = some entry ∧ Nameable there := by
  generalize hresult : Except.ok (Spot.taken there entry) = result at h
  induction h with
  | arrived hscan =>
      cases hresult
      exact hscan.found hfiles hplace hnameable hnames
  | stuck | exhausted => cases hresult
  | jump hscan _ ih =>
      obtain ⟨hstart, hrest⟩ := hscan.jump_found hnameable hnames
      exact ih (hscan.jump_directory hfiles hplace) hstart hrest hresult

end

end

end Files

end MobilitySweep
