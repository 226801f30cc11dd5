import MobilitySweep.Proofs.Files.Tree
import MobilitySweep.Files.Operations

/-! # Trees that look alike to paths

A walk along a path only cares for directories and links: whether there is a file at a place, and what is in
it, matters at the end of the path alone. Trees that differ in files only therefore lead a path to the same
place.
-/

namespace MobilitySweep

/-- What a walk sees of an entry: files look like nothing. -/
def Entry.shape : Option Entry → Option Entry
  | some (.file _) => none
  | entry => entry

namespace Files

/-- Trees that have the same entries but for files at some places. The same files have several names in both, and the
same names can be taken away; when files were written makes no difference. -/
structure Alike (changing : Place → Prop) (files other : Files) : Prop where
  working : other.workingDirectory = files.workingDirectory
  shares : other.shares = files.shares
  pinned : other.pinned = files.pinned
  outside : ∀ place, ¬ changing place → other.get? place = files.get? place
  shape : ∀ place, Entry.shape (other.get? place) = Entry.shape (files.get? place)
  wellFormed : files.WellFormed ↔ other.WellFormed

section

variable {changing changing' : Place → Prop} {files other third : Files}

theorem Alike.refl (changing : Place → Prop) (files : Files) : Alike changing files files :=
  ⟨rfl, rfl, rfl, fun _ _ => rfl, fun _ => rfl, Iff.rfl⟩

theorem Alike.symm (h : Alike changing files other) : Alike changing other files :=
  ⟨h.working.symm, h.shares.symm, h.pinned.symm, fun place hplace => (h.outside place hplace).symm,
    fun place => (h.shape place).symm, h.wellFormed.symm⟩

theorem Alike.trans (h : Alike changing files other) (h' : Alike changing other third) :
    Alike changing files third :=
  ⟨h'.working.trans h.working, h'.shares.trans h.shares, h'.pinned.trans h.pinned,
    fun place hplace => (h'.outside place hplace).trans (h.outside place hplace),
    fun place => (h'.shape place).trans (h.shape place), h.wellFormed.trans h'.wellFormed⟩

theorem Alike.mono (h : Alike changing files other) (hmono : ∀ place, changing place → changing' place) :
    Alike changing' files other :=
  ⟨h.working, h.shares, h.pinned, fun place hplace => h.outside place fun hin => hplace (hmono place hin), h.shape,
    h.wellFormed⟩

theorem Alike.isSole (h : Alike changing files other) {place : Place} : other.IsSole place ↔ files.IsSole place := by
  rw [IsSole, IsSole, h.shares]

/-- Directories are the same in trees that are alike. -/
theorem Alike.directory (h : Alike changing files other) {place : Place}
    (hplace : files.get? place = some .directory) : other.get? place = some .directory := by
  have hshape := h.shape place
  rw [hplace] at hshape
  cases hother : other.get? place with
  | none => simp [hother, Entry.shape] at hshape
  | some entry =>
      cases entry with
      | file content => simp [hother, Entry.shape] at hshape
      | directory => rfl
      | link target => simp [hother, Entry.shape] at hshape

/-- Links are the same in trees that are alike. -/
theorem Alike.link (h : Alike changing files other) {place : Place} {target : Bytes}
    (hplace : files.get? place = some (.link target)) : other.get? place = some (.link target) := by
  have hshape := h.shape place
  rw [hplace] at hshape
  cases hother : other.get? place with
  | none => simp [hother, Entry.shape] at hshape
  | some entry =>
      cases entry with
      | file content => simp [hother, Entry.shape] at hshape
      | directory => simp [hother, Entry.shape] at hshape
      | link other => simpa [hother, Entry.shape] using hshape

/-- Where there is neither directory nor link, there is neither in a tree that is alike. -/
theorem Alike.loose (h : Alike changing files other) {place : Place}
    (hplace : Entry.shape (files.get? place) = none) :
    other.get? place = none ∨ ∃ content, other.get? place = some (.file content) := by
  have hshape := h.shape place
  rw [hplace] at hshape
  cases hother : other.get? place with
  | none => exact Or.inl rfl
  | some entry =>
      cases entry with
      | file content => exact Or.inr ⟨content, rfl⟩
      | directory => simp [hother, Entry.shape] at hshape
      | link target => simp [hother, Entry.shape] at hshape

end

/-- What a path that leads to a place comes upon. -/
def spotAt (files : Files) (place : Place) : Spot :=
  match files.get? place with
  | none => .free place false
  | some entry => .taken place entry

/-- The place of a spot. -/
def Spot.place : Spot → Place
  | .taken place _ | .free place _ => place

theorem spotAt_eq_free {files : Files} {place spot : Place} {slash : Bool}
    (h : files.spotAt place = .free spot slash) : place = spot ∧ slash = false ∧ files.get? place = none := by
  unfold spotAt at h
  split at h
  next heq =>
    cases h
    exact ⟨rfl, rfl, heq⟩
  next => cases h

theorem spotAt_eq_taken {files : Files} {place spot : Place} {entry : Entry}
    (h : files.spotAt place = .taken spot entry) : place = spot ∧ files.get? place = some entry := by
  unfold spotAt at h
  split at h
  next => cases h
  next heq =>
    cases h
    exact ⟨rfl, heq⟩

/-! ## Scans name by name -/

section

variable {files : Files} {follow slash : Bool} {here : Place} {name : Bytes} {rest : List Bytes}

/-- A name says the directory itself or the one above it, or is too long, or says what bears it. -/
theorem name_cases (name : Bytes) : name = Path.here ∨ name = Path.above ∨
    (name ≠ Path.here ∧ name ≠ Path.above ∧ nameLimit < name.length) ∨
      (name ≠ Path.here ∧ name ≠ Path.above ∧ name.length ≤ nameLimit) := by
  rcases Nat.lt_or_ge nameLimit name.length with hlong | hshort <;> tauto

theorem scan_here : files.scan follow slash here (Path.here :: rest) = files.scan follow slash here rest := by
  rw [scan, if_pos rfl]

theorem scan_above : files.scan follow slash here (Path.above :: rest) = files.scan follow slash here.dropLast rest := by
  rw [scan, if_neg (by decide +kernel), if_pos rfl]

theorem scan_long (hhere : name ≠ Path.here) (habove : name ≠ Path.above) (hlong : nameLimit < name.length) :
    files.scan follow slash here (name :: rest) = .stuck .nameTooLong := by
  rw [scan, if_neg hhere, if_neg habove, if_pos hlong]

/-- A scan goes by what bears the name. -/
theorem scan_cons (hhere : name ≠ Path.here) (habove : name ≠ Path.above) (hshort : name.length ≤ nameLimit) :
    files.scan follow slash here (name :: rest) =
      match files.get? (here ++ [name]) with
      | none => if rest.isEmpty then .arrived (.free (here ++ [name]) slash) else .stuck .missing
      | some .directory => files.scan follow slash (here ++ [name]) rest
      | some (.file content) =>
        if rest.isEmpty && !slash then .arrived (.taken (here ++ [name]) (.file content)) else .stuck .notDirectory
      | some (.link target) =>
        if rest.isEmpty && !follow && !slash then .arrived (.taken (here ++ [name]) (.link target))
        else
          .jump (if Path.isAbsolute target then [] else here) (Path.names target ++ rest)
            (slash || (rest.isEmpty && endsWithSlash target)) := by
  rw [scan]
  exact (if_neg hhere).trans ((if_neg habove).trans (if_neg hshort.not_gt))

end

/-! ## Scans and walks as relations

What a scan does is told by the names on its way, and what a walk does by its scans. Whatever is proved of scans and
walks is proved along these relations.
-/

/-- A name that something in a directory can bear. -/
structure Bearable (name : Bytes) : Prop where
  ne_here : name ≠ Path.here
  ne_above : name ≠ Path.above
  short : name.length ≤ nameLimit

/-- What a scan comes to, name by name. -/
inductive Scans (files : Files) (follow slash : Bool) : Place → List Bytes → Progress → Prop where
  | done {here : Place} : Scans files follow slash here [] (.arrived (.taken here .directory))
  | here {here : Place} {rest : List Bytes} {progress : Progress} (h : Scans files follow slash here rest progress) :
      Scans files follow slash here (Path.here :: rest) progress
  | above {here : Place} {rest : List Bytes} {progress : Progress}
      (h : Scans files follow slash here.dropLast rest progress) :
      Scans files follow slash here (Path.above :: rest) progress
  | long {here : Place} {name : Bytes} {rest : List Bytes} (hhere : name ≠ Path.here) (habove : name ≠ Path.above)
      (hlong : nameLimit < name.length) : Scans files follow slash here (name :: rest) (.stuck .nameTooLong)
  | free {here : Place} {name : Bytes} (hname : Bearable name) (hentry : files.get? (here ++ [name]) = none) :
      Scans files follow slash here [name] (.arrived (.free (here ++ [name]) slash))
  | missing {here : Place} {name : Bytes} {rest : List Bytes} (hname : Bearable name)
      (hentry : files.get? (here ++ [name]) = none) (hrest : rest ≠ []) :
      Scans files follow slash here (name :: rest) (.stuck .missing)
  | down {here : Place} {name : Bytes} {rest : List Bytes} {progress : Progress} (hname : Bearable name)
      (hentry : files.get? (here ++ [name]) = some .directory)
      (h : Scans files follow slash (here ++ [name]) rest progress) :
      Scans files follow slash here (name :: rest) progress
  | file {here : Place} {name : Bytes} {content : Content} (hname : Bearable name)
      (hentry : files.get? (here ++ [name]) = some (.file content)) (hslash : slash = false) :
      Scans files follow slash here [name] (.arrived (.taken (here ++ [name]) (.file content)))
  | blocked {here : Place} {name : Bytes} {rest : List Bytes} {content : Content} (hname : Bearable name)
      (hentry : files.get? (here ++ [name]) = some (.file content)) (hmore : rest ≠ [] ∨ slash = true) :
      Scans files follow slash here (name :: rest) (.stuck .notDirectory)
  | link {here : Place} {name target : Bytes} (hname : Bearable name)
      (hentry : files.get? (here ++ [name]) = some (.link target)) (hfollow : follow = false) (hslash : slash = false) :
      Scans files follow slash here [name] (.arrived (.taken (here ++ [name]) (.link target)))
  | jump {here : Place} {name target : Bytes} {rest : List Bytes} (hname : Bearable name)
      (hentry : files.get? (here ++ [name]) = some (.link target))
      (hmore : rest ≠ [] ∨ follow = true ∨ slash = true) :
      Scans files follow slash here (name :: rest) (.jump (if Path.isAbsolute target then [] else here)
        (Path.names target ++ rest) (slash || (rest.isEmpty && endsWithSlash target)))

/-- What a walk comes to, link by link. -/
inductive Walks (files : Files) (follow : Bool) : Nat → Bool → Place → List Bytes → Except Cause Spot → Prop where
  | arrived {links : Nat} {slash : Bool} {here : Place} {names : List Bytes} {spot : Spot}
      (h : Scans files follow slash here names (.arrived spot)) : Walks files follow links slash here names (.ok spot)
  | stuck {links : Nat} {slash : Bool} {here : Place} {names : List Bytes} {cause : Cause}
      (h : Scans files follow slash here names (.stuck cause)) :
      Walks files follow links slash here names (.error cause)
  | exhausted {slash slash' : Bool} {here start : Place} {names rest : List Bytes}
      (h : Scans files follow slash here names (.jump start rest slash')) :
      Walks files follow 0 slash here names (.error .tooManyLinks)
  | jump {links : Nat} {slash slash' : Bool} {here start : Place} {names rest : List Bytes} {result : Except Cause Spot}
      (h : Scans files follow slash here names (.jump start rest slash'))
      (hrest : Walks files follow links slash' start rest result) :
      Walks files follow (links + 1) slash here names result

section

variable {files : Files} {follow slash : Bool} {here : Place} {names : List Bytes}

theorem scans (files : Files) (follow slash : Bool) (here : Place) (names : List Bytes) :
    Scans files follow slash here names (files.scan follow slash here names) := by
  induction names generalizing here with
  | nil => exact .done
  | cons name rest ih =>
      rcases name_cases name with rfl | rfl | ⟨hhere, habove, hlong⟩ | ⟨hhere, habove, hshort⟩
      · rw [scan_here]
        exact .here (ih here)
      · rw [scan_above]
        exact .above (ih here.dropLast)
      · rw [scan_long hhere habove hlong]
        exact .long hhere habove hlong
      have hname : Bearable name := ⟨hhere, habove, hshort⟩
      rw [scan_cons hhere habove hshort]
      split
      next hentry =>
        split
        next hlast =>
          obtain rfl := List.isEmpty_iff.mp hlast
          exact .free hname hentry
        next hmore => exact .missing hname hentry fun hnil => hmore (List.isEmpty_iff.mpr hnil)
      next hentry => exact .down hname hentry (ih _)
      next content hentry =>
        split
        next hlast =>
          obtain ⟨rfl, hslash⟩ : rest = [] ∧ slash = false := by simpa using hlast
          exact .file hname hentry hslash
        next hmore => exact .blocked hname hentry (by simpa [or_iff_not_imp_left] using hmore)
      next target hentry =>
        split
        next hlast =>
          obtain ⟨⟨rfl, hfollow⟩, hslash⟩ : (rest = [] ∧ follow = false) ∧ slash = false := by simpa using hlast
          exact .link hname hentry hfollow hslash
        next hmore => exact .jump hname hentry (by simpa [or_iff_not_imp_left] using hmore)

theorem Scans.scan_eq {progress : Progress} (h : Scans files follow slash here names progress) :
    files.scan follow slash here names = progress := by
  induction h with
  | done => rfl
  | here _ ih => rw [scan_here, ih]
  | above _ ih => rw [scan_above, ih]
  | long hhere habove hlong => exact scan_long hhere habove hlong
  | free hname hentry => simp [scan_cons hname.ne_here hname.ne_above hname.short, hentry]
  | missing hname hentry hrest => simp [scan_cons hname.ne_here hname.ne_above hname.short, hentry, hrest]
  | down hname hentry _ ih => simp [scan_cons hname.ne_here hname.ne_above hname.short, hentry, ih]
  | file hname hentry hslash => simp [scan_cons hname.ne_here hname.ne_above hname.short, hentry, hslash]
  | blocked hname hentry hmore =>
      simp only [scan_cons hname.ne_here hname.ne_above hname.short, hentry]
      exact if_neg (by simpa [or_iff_not_imp_left] using hmore)
  | link hname hentry hfollow hslash =>
      simp [scan_cons hname.ne_here hname.ne_above hname.short, hentry, hfollow, hslash]
  | jump hname hentry hmore =>
      simp only [scan_cons hname.ne_here hname.ne_above hname.short, hentry]
      exact if_neg (by simpa [or_iff_not_imp_left] using hmore)

theorem scans_iff {progress : Progress} :
    Scans files follow slash here names progress ↔ files.scan follow slash here names = progress :=
  ⟨Scans.scan_eq, fun h => h ▸ scans files follow slash here names⟩

theorem walks (files : Files) (follow : Bool) (links : Nat) (slash : Bool) (here : Place) (names : List Bytes) :
    Walks files follow links slash here names (files.walk follow links slash here names) := by
  fun_induction Files.walk files follow links slash here names with
  | case1 links slash here names spot hscan => exact .arrived (scans_iff.mpr hscan)
  | case2 links slash here names cause hscan => exact .stuck (scans_iff.mpr hscan)
  | case3 slash here names start rest slash' hscan => exact .exhausted (scans_iff.mpr hscan)
  | case4 slash here names start rest slash' hscan links ih => exact .jump (scans_iff.mpr hscan) ih

theorem Walks.walk_eq {links : Nat} {result : Except Cause Spot} (h : Walks files follow links slash here names result) :
    files.walk follow links slash here names = result := by
  induction h with
  | arrived h => rw [walk, h.scan_eq]
  | stuck h => rw [walk, h.scan_eq]
  | exhausted h => rw [walk, h.scan_eq]
  | jump h _ ih => rw [walk, h.scan_eq, ← ih]

theorem walks_iff {links : Nat} {result : Except Cause Spot} :
    Walks files follow links slash here names result ↔ files.walk follow links slash here names = result :=
  ⟨Walks.walk_eq, fun h => h ▸ walks files follow links slash here names⟩

/-- A walk goes by its first scan. -/
theorem walk_congr {start : Place} {others : List Bytes} {slash' : Bool}
    (h : files.scan follow slash here names = files.scan follow slash' start others) (links : Nat) :
    files.walk follow links slash here names = files.walk follow links slash' start others := by
  unfold walk
  rw [h]

end

/-! ## Scans that go on behind a link -/

/-- The ways of a tree, which are its directories and links, are there in another one. -/
structure Ways (files other : Files) : Prop where
  directory : ∀ place, files.get? place = some .directory → other.get? place = some .directory
  link : ∀ place target, files.get? place = some (.link target) → other.get? place = some (.link target)

theorem Alike.ways {changing : Place → Prop} {files other : Files} (h : Alike changing files other) :
    Ways files other :=
  ⟨fun _ => h.directory, fun _ _ => h.link⟩

/-- A walk goes on from a directory behind a link. -/
theorem directory_behind {files : Files} {here : Place} (h : files.get? here = some .directory) (target : Bytes) :
    files.get? (if Path.isAbsolute target then [] else here) = some .directory := by
  split
  next => rfl
  next => exact h

section

variable {files other : Files} {follow slash slash' : Bool} {here start : Place} {names rest : List Bytes}

/-- A scan goes on behind the same link wherever the ways are there. -/
theorem Scans.jump_along (h : Scans files follow slash here names (.jump start rest slash')) (hways : Ways files other)
    {follow' : Bool} (hfollow : follow = true → follow' = true) :
    Scans other follow' slash here names (.jump start rest slash') := by
  generalize hjump : Progress.jump start rest slash' = progress at h
  induction h with
  | done | long | free | missing | file | blocked | link => cases hjump
  | here _ ih => exact .here (ih hjump)
  | above _ ih => exact .above (ih hjump)
  | down hname hentry _ ih => exact .down hname (hways.directory _ hentry) (ih hjump)
  | jump hname hentry hmore =>
      cases hjump
      exact .jump hname (hways.link _ _ hentry) (hmore.imp_right fun hmore => hmore.imp_left hfollow)

/-- A scan that does not follow the last name goes on behind the same link whatever is asked of that name. -/
theorem Scans.jump_asked (h : Scans files false false here names (.jump start rest slash')) (hways : Ways files other) :
    slash' = false ∧ ∀ follow asked, Scans other follow asked here names (.jump start rest asked) := by
  generalize hjump : Progress.jump start rest slash' = progress at h
  induction h with
  | done | long | free | missing | file | blocked | link => cases hjump
  | here _ ih => exact (ih hjump).imp_right fun hasked follow asked => .here (hasked follow asked)
  | above _ ih => exact (ih hjump).imp_right fun hasked follow asked => .above (hasked follow asked)
  | down hname hentry _ ih =>
      exact (ih hjump).imp_right fun hasked follow asked =>
        .down hname (hways.directory _ hentry) (hasked follow asked)
  | jump hname hentry hmore =>
      cases hjump
      have hrest := hmore.resolve_right (by simp)
      refine ⟨by simp [hrest], fun follow asked => ?_⟩
      have hasked : Scans other follow asked _ (_ :: _) _ := .jump hname (hways.link _ _ hentry) (.inl hrest)
      rwa [List.isEmpty_eq_false_iff.mpr hrest, Bool.false_and, Bool.or_false] at hasked

/-- A scan from a directory goes on from a directory. -/
theorem Scans.jump_directory (h : Scans files follow slash here names (.jump start rest slash'))
    (hfiles : files.WellFormed) (hdirectory : files.get? here = some .directory) :
    files.get? start = some .directory := by
  generalize hjump : Progress.jump start rest slash' = progress at h
  induction h with
  | done | long | free | missing | file | blocked | link => cases hjump
  | here _ ih => exact ih hdirectory hjump
  | above _ ih => exact ih (hfiles.dropLast hdirectory) hjump
  | down _ hentry _ ih => exact ih hentry hjump
  | jump =>
      cases hjump
      exact directory_behind hdirectory _

end

/-! ## The last name of a path -/

/-- A walk that is headed for a last name: it ends with it, in a directory, or goes on from one. -/
def HeadedFor (files : Files) (last : Bytes) : Progress → Prop
  | .arrived spot => ∃ parent, files.get? parent = some .directory ∧ spot = files.spotAt (parent ++ [last])
  | .jump place rest slash => files.get? place = some .directory ∧ rest.getLast? = some last ∧ slash = false
  | .stuck _ => True

theorem getLast?_rest {last name : Bytes} {rest : List Bytes} (hlast : (name :: rest).getLast? = some last)
    (hrest : rest ≠ []) : rest.getLast? = some last := by
  rwa [List.getLast?_cons_of_ne_nil hrest] at hlast

/-- A scan that does not follow the last name is headed for it. -/
theorem Scans.headedFor {files : Files} (hfiles : files.WellFormed) {last : Bytes} (hhere : last ≠ Path.here)
    (habove : last ≠ Path.above) {here : Place} {names : List Bytes} {progress : Progress}
    (h : Scans files false false here names progress) (hdirectory : files.get? here = some .directory)
    (hlast : names.getLast? = some last) : files.HeadedFor last progress := by
  induction h with
  | done => simp at hlast
  | here _ ih =>
      refine ih hdirectory (getLast?_rest hlast ?_)
      rintro rfl
      exact hhere (by simpa using hlast.symm)
  | above _ ih =>
      refine ih (hfiles.dropLast hdirectory) (getLast?_rest hlast ?_)
      rintro rfl
      exact habove (by simpa using hlast.symm)
  | long | missing | blocked => trivial
  | @down here name rest progress _ hentry h ih =>
      by_cases hempty : rest = []
      · subst hempty
        obtain rfl : name = last := by simpa using hlast
        cases h
        exact ⟨here, hdirectory, by rw [spotAt, hentry]⟩
      · exact ih hentry (getLast?_rest hlast hempty)
  | @free here name _ hentry | @file here name _ _ hentry | @link here name _ _ hentry =>
      obtain rfl : name = last := by simpa using hlast
      exact ⟨here, hdirectory, by rw [spotAt, hentry]⟩
  | @jump here name target rest _ _ hmore =>
      have hrest := hmore.resolve_right (by simp)
      refine ⟨directory_behind hdirectory target, ?_, by simp [hrest]⟩
      rw [List.getLast?_append_of_ne_nil _ hrest]
      exact getLast?_rest hlast hrest

theorem Walks.last {files : Files} (hfiles : files.WellFormed) {last : Bytes} (hhere : last ≠ Path.here)
    (habove : last ≠ Path.above) {links : Nat} {slash : Bool} {here : Place} {names : List Bytes} {spot : Spot}
    (h : Walks files false links slash here names (.ok spot)) (hslash : slash = false)
    (hdirectory : files.get? here = some .directory) (hlast : names.getLast? = some last) :
    ∃ parent, files.get? parent = some .directory ∧ spot = files.spotAt (parent ++ [last]) := by
  generalize hresult : Except.ok spot = result at h
  induction h with
  | arrived hscan =>
      subst hslash
      cases hresult
      exact hscan.headedFor hfiles hhere habove hdirectory hlast
  | stuck | exhausted => cases hresult
  | jump hscan _ ih =>
      subst hslash
      obtain ⟨hstart, hrest, hslash⟩ := hscan.headedFor hfiles hhere habove hdirectory hlast
      exact ih hslash hstart hrest hresult

/-! ## Walks through trees that are alike -/

section

variable {changing : Place → Prop} {files other : Files} {links : Nat} {follow slash : Bool} {here place : Place}
  {name : Bytes} {names rest : List Bytes} {entry : Entry} {cause : Cause}

/-- A last name comes upon what bears it, be it nothing or a file. -/
theorem Scans.loose (hname : Bearable name)
    (hloose : files.get? (here ++ [name]) = none ∨ ∃ content, files.get? (here ++ [name]) = some (.file content))
    (hslash : slash = false) : Scans files follow slash here [name] (.arrived (files.spotAt (here ++ [name]))) := by
  rcases hloose with hnone | ⟨content, hfile⟩
  · rw [spotAt, hnone, ← hslash]
    exact .free hname hnone
  · rw [spotAt, hfile]
    exact .file hname hfile hslash

/-- A name that nothing or a file bears leads no further. -/
theorem Scans.beyond (hname : Bearable name)
    (hloose : files.get? (here ++ [name]) = none ∨ ∃ content, files.get? (here ++ [name]) = some (.file content))
    (hrest : rest ≠ []) : ∃ cause, Scans files follow slash here (name :: rest) (.stuck cause) := by
  rcases hloose with hnone | ⟨content, hfile⟩
  · exact ⟨_, .missing hname hnone hrest⟩
  · exact ⟨_, .blocked hname hfile (.inl hrest)⟩

/-- A scan that does not follow the last name, and comes upon no link there, does the same in a tree that is
alike, whether it follows the last name or not. -/
theorem Scans.alike (h : Scans files false slash here names (.arrived (files.spotAt place)))
    (halike : Alike changing files other) (hlink : ∀ target, files.get? place ≠ some (.link target)) (follow : Bool) :
    Scans other follow slash here names (.arrived (other.spotAt place)) := by
  generalize harrived : Progress.arrived (files.spotAt place) = progress at h
  induction h with
  | long | missing | blocked | jump => cases harrived
  | done =>
      obtain ⟨rfl, hentry⟩ := spotAt_eq_taken (Progress.arrived.inj harrived)
      rw [spotAt, halike.directory hentry]
      exact .done
  | here _ ih => exact .here (ih harrived)
  | above _ ih => exact .above (ih harrived)
  | down hname hentry _ ih => exact .down hname (halike.directory hentry) (ih harrived)
  | free hname hentry =>
      obtain ⟨rfl, hslash, -⟩ := spotAt_eq_free (Progress.arrived.inj harrived)
      exact .loose hname (halike.loose (by rw [hentry]; rfl)) hslash
  | file hname hentry hslash =>
      obtain ⟨rfl, -⟩ := spotAt_eq_taken (Progress.arrived.inj harrived)
      exact .loose hname (halike.loose (by rw [hentry]; rfl)) hslash
  | link hname hentry =>
      obtain ⟨rfl, -⟩ := spotAt_eq_taken (Progress.arrived.inj harrived)
      exact absurd hentry (hlink _)

theorem Walks.alike (h : Walks files false links slash here names (.ok (files.spotAt place)))
    (halike : Alike changing files other) (hlink : ∀ target, files.get? place ≠ some (.link target)) (follow : Bool) :
    Walks other follow links slash here names (.ok (other.spotAt place)) := by
  generalize hresult : Except.ok (files.spotAt place) = result at h
  induction h with
  | arrived hscan =>
      cases hresult
      exact .arrived (hscan.alike halike hlink follow)
  | stuck | exhausted => cases hresult
  | jump hscan _ ih => exact .jump (hscan.jump_along halike.ways (by simp)) (ih hresult)

/-- A scan that is stuck is stuck in a tree that is alike. -/
theorem Scans.stuck_alike (h : Scans files false false here names (.stuck cause)) (halike : Alike changing files other)
    (follow : Bool) : ∃ cause', Scans other follow false here names (.stuck cause') := by
  generalize hstuck : Progress.stuck cause = progress at h
  induction h with
  | done | free | file | link | jump => cases hstuck
  | here _ ih => exact (ih hstuck).imp fun _ => .here
  | above _ ih => exact (ih hstuck).imp fun _ => .above
  | down hname hentry _ ih => exact (ih hstuck).imp fun _ => .down hname (halike.directory hentry)
  | long hhere habove hlong => exact ⟨_, .long hhere habove hlong⟩
  | missing hname hentry hrest => exact Scans.beyond hname (halike.loose (by rw [hentry]; rfl)) hrest
  | blocked hname hentry hmore =>
      exact Scans.beyond hname (halike.loose (by rw [hentry]; rfl)) (hmore.resolve_right (by simp))

theorem Walks.stuck_alike (h : Walks files false links slash here names (.error cause)) (hslash : slash = false)
    (halike : Alike changing files other) (follow : Bool) :
    ∃ cause', Walks other follow links slash here names (.error cause') := by
  generalize hresult : Except.error cause = result at h
  induction h with
  | arrived => cases hresult
  | stuck hscan =>
      subst hslash
      exact (hscan.stuck_alike halike follow).imp fun _ => .stuck
  | exhausted hscan => exact ⟨_, .exhausted (hscan.jump_along halike.ways (by simp))⟩
  | jump hscan _ ih =>
      subst hslash
      obtain ⟨rfl, hasked⟩ := hscan.jump_asked halike.ways
      exact (ih rfl hresult).imp fun _ => .jump (hasked follow false)

theorem place_spotAt (files : Files) (place : Place) : (files.spotAt place).place = place := by
  unfold spotAt
  split <;> rfl

/-- A scan that comes upon an entry ends at the same place in a tree that is alike, and upon the same entry
unless it is a file that may have changed. -/
theorem Scans.taken (h : Scans files follow slash here names (.arrived (.taken place entry)))
    (halike : Alike changing files other) :
    ∃ spot, Scans other follow slash here names (.arrived spot) ∧ spot.place = place ∧
      (¬ changing place ∨ entry = .directory → spot = .taken place entry) := by
  generalize harrived : Progress.arrived (Spot.taken place entry) = progress at h
  induction h with
  | long | free | missing | blocked | jump => cases harrived
  | done =>
      cases harrived
      exact ⟨_, .done, rfl, fun _ => rfl⟩
  | here _ ih => exact (ih harrived).imp fun _ => And.imp_left .here
  | above _ ih => exact (ih harrived).imp fun _ => And.imp_left .above
  | down hname hentry _ ih =>
      exact (ih harrived).imp fun _ => And.imp_left (.down hname (halike.directory hentry))
  | file hname hentry hslash =>
      cases harrived
      refine ⟨_, .loose hname (halike.loose (by rw [hentry]; rfl)) hslash, place_spotAt _ _, ?_⟩
      rintro (hnot | hdirectory)
      · rw [spotAt, halike.outside _ hnot, hentry]
      · cases hdirectory
  | link hname hentry hfollow hslash =>
      cases harrived
      exact ⟨_, .link hname (halike.link hentry) hfollow hslash, rfl, fun _ => rfl⟩

theorem Walks.taken (h : Walks files follow links slash here names (.ok (.taken place entry)))
    (halike : Alike changing files other) :
    ∃ spot, Walks other follow links slash here names (.ok spot) ∧ spot.place = place ∧
      (¬ changing place ∨ entry = .directory → spot = .taken place entry) := by
  generalize hresult : Except.ok (Spot.taken place entry) = result at h
  induction h with
  | arrived hscan =>
      cases hresult
      exact (hscan.taken halike).imp fun _ => And.imp_left .arrived
  | stuck | exhausted => cases hresult
  | jump hscan _ ih => exact (ih hresult).imp fun _ => And.imp_left (.jump (hscan.jump_along halike.ways id))

end

/-- Whether a text is a path at all. -/
def Fits (path : Bytes) : Prop := path.contains 0 = false ∧ path.isEmpty = false ∧ path.length < pathLimit

theorem resolve_of_fits {path : Bytes} (h : Fits path) (files : Files) (follow : Bool) :
    files.resolve follow path =
      files.walk follow linkLimit (endsWithSlash path) (files.start path) (Path.names path) := by
  obtain ⟨hnull, hempty, hlength⟩ := h
  have hlong : ¬ pathLimit ≤ path.length := by omega
  simp only [resolve, hnull, hempty, hlong, Bool.false_eq_true, if_false]

theorem resolve_iff {path : Bytes} (h : Fits path) {files : Files} {follow : Bool} {result : Except Cause Spot} :
    files.resolve follow path = result ↔
      Walks files follow linkLimit (endsWithSlash path) (files.start path) (Path.names path) result := by
  rw [resolve_of_fits h, walks_iff]

theorem fits_of_resolve {files : Files} {follow : Bool} {path : Bytes} {spot : Spot}
    (h : files.resolve follow path = .ok spot) : Fits path := by
  unfold resolve at h
  split at h
  next => cases h
  next hnull =>
    split at h
    next => cases h
    next hempty =>
      split at h
      next => cases h
      next hlong => exact ⟨by simpa using hnull, by simpa using hempty, by omega⟩

/-- A path that leads nowhere leads nowhere in a tree that is alike. -/
theorem resolve_stuck {changing : Place → Prop} {files other : Files} (h : Alike changing files other)
    {path : Bytes} (hslash : endsWithSlash path = false) {cause : Cause}
    (hresolve : files.resolve false path = .error cause) (follow : Bool) :
    ∃ cause', other.resolve follow path = .error cause' := by
  by_cases hfits : Fits path
  · have hstart : other.start path = files.start path := by rw [start, start, h.working]
    obtain ⟨cause', hcause⟩ := ((resolve_iff hfits).mp hresolve).stuck_alike hslash h follow
    exact ⟨cause', (resolve_iff hfits).mpr (hstart ▸ hcause)⟩
  · cases hother : other.resolve follow path with
    | error cause' => exact ⟨cause', rfl⟩
    | ok spot => exact absurd (fits_of_resolve hother) hfits

/-- A path that comes upon no link at its end comes to the same place in a tree that is alike, whether a last link is
followed or not. -/
theorem resolve_alike {changing : Place → Prop} {files other : Files} (h : Alike changing files other) {path : Bytes}
    {place : Place} (hresolve : files.resolve false path = .ok (files.spotAt place))
    (hlink : ∀ target, files.get? place ≠ some (.link target)) (follow : Bool) :
    other.resolve follow path = .ok (other.spotAt place) := by
  have hfits := fits_of_resolve hresolve
  have hstart : other.start path = files.start path := by rw [start, start, h.working]
  rw [resolve_iff hfits, hstart]
  exact ((resolve_iff hfits).mp hresolve).alike h hlink follow

/-- What a path leads to is the same in a tree that is alike, unless it is a file that may have changed. -/
theorem resolve_taken {changing : Place → Prop} {files other : Files} (h : Alike changing files other)
    {follow : Bool} {path : Bytes} {place : Place} {entry : Entry}
    (hresolve : files.resolve follow path = .ok (.taken place entry)) :
    ∃ spot, other.resolve follow path = .ok spot ∧ spot.place = place ∧
      (¬ changing place ∨ entry = .directory → spot = .taken place entry) := by
  have hfits := fits_of_resolve hresolve
  have hstart : other.start path = files.start path := by rw [start, start, h.working]
  simp only [resolve_iff hfits, hstart] at hresolve ⊢
  exact hresolve.taken h

theorem stat_eq_ok {files : Files} {path : Bytes} {entry : Entry} (h : files.stat path = .ok entry) :
    ∃ place, files.resolve true path = .ok (.taken place entry) := by
  unfold stat at h
  cases hresolve : files.resolve true path with
  | error cause => simp [hresolve, bind, Except.bind] at h
  | ok spot =>
      cases spot with
      | free place slash => simp [hresolve, bind, Except.bind] at h
      | taken place found =>
          simp only [hresolve, bind, Except.bind, Except.ok.injEq] at h
          exact ⟨place, h ▸ rfl⟩

theorem stat_of_resolve {files : Files} {path : Bytes} {place : Place} {entry : Entry}
    (h : files.resolve true path = .ok (.taken place entry)) : files.stat path = .ok entry := by
  simp only [stat, h, bind, Except.bind]

/-- What a path leads to is the same in a tree that is alike, if its place may not change. -/
theorem stat_alike {changing : Place → Prop} {files other : Files} (h : Alike changing files other) {path : Bytes}
    (hfixed : ∀ spot, files.resolve true path = .ok spot → ¬ changing spot.place) (entry : Entry) :
    files.stat path = .ok entry ↔ other.stat path = .ok entry := by
  constructor
  · intro hstat
    obtain ⟨place, hresolve⟩ := stat_eq_ok hstat
    obtain ⟨spot, hspot, -, hsame⟩ := resolve_taken h hresolve
    rw [hsame (Or.inl (hfixed _ hresolve))] at hspot
    exact stat_of_resolve hspot
  · intro hstat
    obtain ⟨place, hresolve⟩ := stat_eq_ok hstat
    obtain ⟨spot, hspot, rfl, hsame⟩ := resolve_taken h.symm hresolve
    rw [hsame (Or.inl (hfixed spot hspot))] at hspot
    exact stat_of_resolve hspot

end Files

end MobilitySweep
