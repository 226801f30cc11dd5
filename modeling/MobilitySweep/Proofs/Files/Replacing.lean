import MobilitySweep.Proofs.Files.Neighbours

/-! # Files that take names

A file drafted under a temporary name takes the name beside it, whatever bears it but a directory, or nothing changes
but the draft. A name that was taken over leads no path on, so a path that still leads somewhere leads where it did.
-/

namespace MobilitySweep

namespace Files

variable {changing : Place → Prop} {files other : Files} {path ending : Bytes} {place old new : Place}

/-! ## What paths come upon -/

section

variable {follow slash : Bool} {links : Nat} {here : Place} {names : List Bytes} {entry : Entry}

theorem Scans.get? (h : Scans files follow slash here names (.arrived (.taken place entry))) :
    entry = .directory ∨ files.get? place = some entry := by
  generalize harrived : Progress.arrived (Spot.taken place entry) = progress at h
  induction h with
  | long | free | missing | blocked | jump => cases harrived
  | done =>
      cases harrived
      exact Or.inl rfl
  | here _ ih | above _ ih | down _ _ _ ih => exact ih harrived
  | file _ hentry | link _ hentry =>
      cases harrived
      exact Or.inr hentry

theorem Walks.get? (h : Walks files follow links slash here names (.ok (.taken place entry))) :
    entry = .directory ∨ files.get? place = some entry := by
  generalize hresult : Except.ok (Spot.taken place entry) = result at h
  induction h with
  | arrived hscan =>
      cases hresult
      exact hscan.get?
  | stuck | exhausted => cases hresult
  | jump _ _ ih => exact ih hresult

end

/-- What a path comes upon is at its place, or is a directory. -/
theorem get?_of_resolve {follow : Bool} {entry : Entry} (h : files.resolve follow path = .ok (.taken place entry)) :
    entry = .directory ∨ files.get? place = some entry :=
  ((resolve_iff (fits_of_resolve h)).mp h).get?

/-- A path with a plain last name comes upon what is at its place. -/
theorem spot_eq_of_resolve (hfiles : files.WellFormed) {last : Bytes} (hlast : Path.Plain last)
    (hin : Path.EndsIn last path) {spot : Spot} (h : files.resolve false path = .ok spot) :
    spot = files.spotAt spot.place := by
  obtain ⟨parent, -, rfl⟩ := resolve_last hfiles hlast.ne_here hlast.ne_above (hin.getLast?_names hlast)
    (hin.endsWithSlash hlast) h
  rw [place_spotAt]

/-! ## The name beside a draft -/

/-- Whether a path leads to a name beside a place: it ends there, in a directory, and a link there is not followed. -/
structure Aside (files : Files) (path : Bytes) (old new : Place) : Prop where
  resolves : files.resolve false path = .ok (files.spotAt new)
  named : ∃ last, Path.Plain last ∧ Path.EndsIn last path ∧ last.length ≤ nameLimit
  inDirectory : ∃ parent name, new = parent ++ [name] ∧ files.get? parent = some .directory
  other : old ≠ new

theorem Aside.noSlash (h : Aside files path old new) : endsWithSlash path = false := by
  obtain ⟨last, hlast, hin, -⟩ := h.named
  exact hin.endsWithSlash hlast

theorem Aside.ne_nil (h : Aside files path old new) : new ≠ [] := by
  obtain ⟨parent, name, rfl, -⟩ := h.inDirectory
  simp

/-- A path that with an ending leads to a place is a directory or leads to a name beside it. -/
theorem aside_of_resolve (hfiles : files.WellFormed) (hending : Path.Ending ending) (hpath : path ≠ [])
    (h : files.resolve false (path ++ ending) = .ok (files.spotAt old)) :
    files.IsFolder path ∨ ∃ new, Aside files path old new := by
  obtain ⟨parent, last, hparent, hspot, hlength, hfolder | ⟨hlast, hin, hresolve⟩⟩ :=
    resolve_beside hfiles hending hpath h
  · exact Or.inl hfolder
  · have hshort : last.length ≤ nameLimit := le_trans (by simp) hlength
    refine Or.inr ⟨parent ++ [last], hresolve, ⟨last, hlast, hin, hshort⟩, ⟨parent, last, rfl, hparent⟩, fun heq => ?_⟩
    have hplace := congrArg Spot.place hspot
    rw [place_spotAt, place_spotAt, heq] at hplace
    have hsame := congrArg List.length (List.singleton_inj.mp (List.append_cancel_left hplace))
    have hlong := hending.long
    rw [List.length_append] at hsame
    omega

theorem Homed.aside (h : Homed files (path ++ ending) old) (hfiles : files.WellFormed) (hending : Path.Ending ending)
    (hpath : path ≠ []) : files.IsFolder path ∨ ∃ new, Aside files path old new :=
  aside_of_resolve hfiles hending hpath (h.resolves false)

/-- A name beside a place is a home if neither a link bears it nor a file that has other names. -/
theorem Aside.homed (h : Aside files path old new) (hfiles : files.WellFormed)
    (hlink : ∀ target, files.get? new ≠ some (.link target)) (hsole : files.IsSole new) : Homed files path new := by
  obtain ⟨last, hlast, hin, -⟩ := h.named
  have hspot : ∀ place target, files.spotAt new ≠ .taken place (.link target) := by
    intro place target heq
    obtain ⟨-, hentry⟩ := spotAt_eq_taken heq
    exact hlink target hentry
  obtain ⟨parent, hhomed, hsame⟩ := homed_of_resolve hfiles hlast.ne_here hlast.ne_above (hin.getLast?_names hlast)
    h.noSlash h.resolves hspot (by rwa [place_spotAt])
  have hplace := congrArg Spot.place hsame
  rw [place_spotAt, place_spotAt] at hplace
  rwa [← hplace] at hhomed

/-! ## Where paths lead, whatever is said about names

A path is followed in the same way whatever other names files have and whoever may take them away.
-/

/-- The tree without what is said about names. -/
def unmarked (files : Files) : Files := { files with shares := [], pinned := [] }

theorem unmarked_scan (files : Files) : files.unmarked.scan = files.scan := by
  funext follow slash here names
  induction names generalizing here with
  | nil => rfl
  | cons name rest ih =>
      have hget : files.unmarked.get? = files.get? := rfl
      simp only [scan, hget, ih]

theorem unmarked_walk (files : Files) : files.unmarked.walk = files.walk := by
  funext follow links slash here names
  induction links generalizing slash here names with
  | zero =>
      unfold walk
      rw [unmarked_scan]
  | succ links ih =>
      unfold walk
      rw [unmarked_scan]
      simp only [ih]

theorem unmarked_resolve (files : Files) : files.unmarked.resolve = files.resolve := by
  funext follow path
  have hstart : files.unmarked.start path = files.start path := rfl
  rw [resolve, resolve, unmarked_walk, hstart]

theorem WellFormed.unmarked (h : files.WellFormed) : files.unmarked.WellFormed :=
  ⟨h.parent, h.working, by simp [Files.unmarked], by simp [Files.unmarked]⟩

theorem Alike.unmarked (h : Alike changing files other) (hfiles : files.WellFormed) :
    Alike changing files.unmarked other.unmarked :=
  ⟨h.working, rfl, rfl, h.outside, h.shape, iff_of_true hfiles.unmarked (h.wellFormed.mp hfiles).unmarked⟩

theorem unmarked_isSole (files : Files) (place : Place) : files.unmarked.IsSole place := by simp [IsSole, unmarked]

/-- A name beside a place that no link bears is a home as far as paths are concerned. -/
theorem Aside.homed_unmarked (h : Aside files path old new) (hfiles : files.WellFormed)
    (hlink : ∀ target, files.get? new ≠ some (.link target)) : Homed files.unmarked path new := by
  have hresolves : files.unmarked.resolve false path = .ok (files.unmarked.spotAt new) :=
    (congrFun (congrFun files.unmarked_resolve false) path).trans h.resolves
  have haside : Aside files.unmarked path old new := ⟨hresolves, h.named, h.inDirectory, h.other⟩
  exact haside.homed hfiles.unmarked hlink (unmarked_isSole files new)

theorem Moved.alike_unmarked {content : Content} (h : Moved files old new content other) (hfiles : files.WellFormed)
    (hfile : files.get? old = some (.file content)) (hloose : files.IsLoose new) :
    Alike (fun q => q = old ∨ q = new) files.unmarked other.unmarked :=
  ⟨h.same.working, rfl, rfl, fun _ hq => h.same.get? hq, h.shape hfile hloose,
    iff_of_true hfiles.unmarked h.wellFormed.unmarked⟩

/-- A path that ends beside what changes does so afterwards. -/
theorem resolve_spotAt (h : Alike changing files other) (hresolve : files.resolve false path = .ok (files.spotAt place))
    (hplace : ¬ changing place) : other.resolve false path = .ok (other.spotAt place) := by
  have hsame : other.spotAt place = files.spotAt place := by rw [spotAt, spotAt, h.outside place hplace]
  cases hentry : files.get? place with
  | none => exact resolve_alike h hresolve (by simp [hentry]) false
  | some entry =>
      have htaken : files.spotAt place = .taken place entry := by rw [spotAt, hentry]
      rw [htaken] at hresolve
      obtain ⟨spot, hspot, -, hkept⟩ := resolve_taken h hresolve
      rw [hspot, hkept (Or.inl hplace), hsame, htaken]

theorem Aside.alike (h : Aside files path old new) (halike : Alike (· = old) files other) :
    Aside other path old new := by
  obtain ⟨parent, name, hnew, hparent⟩ := h.inDirectory
  exact ⟨resolve_spotAt halike h.resolves h.other.symm, h.named, ⟨parent, name, hnew, halike.directory hparent⟩,
    h.other⟩

/-- A change of a draft makes no difference to where the path beside it leads. -/
theorem Homed.resolve_beside_eq (h : Homed files (path ++ ending) old) (hfiles : files.WellFormed)
    (hending : Path.Ending ending) (halike : Alike (· = old) files other) :
    other.resolve false path = files.resolve false path := by
  by_cases hpath : path = []
  · subst hpath
    rfl
  · rcases h.aside hfiles hending hpath with ⟨place, hdirectory, hresolve⟩ | ⟨new, haside⟩
    · obtain ⟨spot, hspot, -, hkept⟩ := resolve_taken halike (hresolve false)
      rw [hspot, hkept (Or.inr rfl), hresolve]
    · rw [(haside.alike halike).resolves, haside.resolves, spotAt, spotAt, halike.outside new haside.other.symm]

/-- The path beside a draft leads elsewhere. -/
theorem Homed.place_ne (h : Homed files (path ++ ending) old) (hfiles : files.WellFormed)
    (hending : Path.Ending ending) (hloose : files.IsLoose old) {spot : Spot}
    (hresolve : files.resolve false path = .ok spot) : spot.place ≠ old := by
  have hpath : path ≠ [] := by
    rintro rfl
    cases hresolve
  rcases h.aside hfiles hending hpath with ⟨place, hdirectory, hfolder⟩ | ⟨new, haside⟩
  · rw [← Except.ok.inj ((hfolder false).symm.trans hresolve)]
    rintro rfl
    exact hloose.ne_directory hdirectory
  · rw [← Except.ok.inj (haside.resolves.symm.trans hresolve), place_spotAt]
    exact haside.other.symm

/-- A draft takes the name beside it, or nothing changes. -/
theorem Homed.rename_aside (h : Homed files (path ++ ending) old) (hfiles : files.WellFormed)
    (hending : Path.Ending ending) {content : Content} (hfile : files.get? old = some (.file content)) :
    (∃ fault, files.rename (path ++ ending) path = (files, some fault)) ∨
      ∃ new renamed, Aside files path old new ∧ files.get? new ≠ some .directory ∧
        files.rename (path ++ ending) path = (renamed, none) ∧ Moved files old new content renamed := by
  by_cases hpath : path = []
  · subst hpath
    exact Or.inl (h.rename_homeless hfile rfl rfl)
  · rcases h.aside hfiles hending hpath with ⟨place, hdirectory, hresolve⟩ | ⟨new, haside⟩
    · have hne : old ≠ place := by
        rintro rfl
        simp [hfile] at hdirectory
      refine Or.inl ?_
      simp [Files.rename, hresolve, h.resolves, spotAt, hfile, hne]
    · by_cases hdirectory : files.get? new = some .directory
      · refine Or.inl ?_
        simp [Files.rename, haside.resolves, h.resolves, spotAt, hfile, hdirectory, haside.other]
      · rcases h.rename_onto haside.resolves haside.noSlash haside.inDirectory hfiles haside.other hfile hdirectory with
          ⟨-, -, renamed, hrename, hmoved⟩ | ⟨-, hfailed⟩
        · exact Or.inr ⟨new, renamed, haside, hdirectory, hrename, hmoved⟩
        · exact Or.inl hfailed

/-! ## Drafts -/

/-- A path whose temporary name is neither a link nor one of several names of a file has a draft beside it, or none can
be made. -/
theorem exists_lodged (hfiles : files.WellFormed) (hending : Path.Ending ending)
    (hlink : ∀ target, files.linkStat (path ++ ending) ≠ .ok (.link target))
    (hsole : ∀ spot, files.resolve false (path ++ ending) = .ok spot → files.IsSole spot.place) :
    ∃ home, Lodged files (path ++ ending) home := by
  obtain ⟨last, hlast, hin⟩ := Path.exists_endsIn path
  have hplain := hending.plain hlast
  have hslash := (hin.append ending).endsWithSlash hplain
  cases hresolve : files.resolve false (path ++ ending) with
  | error cause =>
      exact ⟨none, by rintro _ ⟨⟩, fun _ follow =>
        resolve_stuck (Alike.refl (fun _ => True) files) hslash hresolve follow, hslash⟩
  | ok spot =>
      have hspot : ∀ place target, spot ≠ .taken place (.link target) := by
        rintro place target rfl
        exact hlink target (by simp [linkStat, hresolve, bind, Except.bind])
      obtain ⟨parent, hhomed, -⟩ := homed_of_resolve hfiles hplain.ne_here hplain.ne_above
        ((hin.append ending).getLast?_names hplain) hslash hresolve hspot (hsole spot hresolve)
      refine ⟨some (parent ++ [last ++ ending]), ?_, by rintro ⟨⟩, hslash⟩
      rintro place ⟨⟩
      exact hhomed

/-- A tree with a draft that holds a text, and otherwise as it was. -/
structure Drafted (files : Files) (path : Bytes) (place : Place) (text : Bytes) (drafted : Files) : Prop where
  homed : Homed drafted path place
  file : drafted.get? place = some (.file (.bytes text))
  alike : Alike (· = place) files drafted
  same : SameBut (· = place) files drafted

theorem Homed.drafted (h : Homed files path place) (hfiles : files.WellFormed) (hloose : files.IsLoose place) :
    Drafted files path place [] (files.put place (.file (.bytes []))) := by
  have hput := h.put_alike hfiles hloose (.bytes [])
  exact ⟨h.alike hput, by rw [get?_put _ h.ne_nil, Function.update_self], hput, put_sameBut h.ne_nil _⟩

theorem Drafted.isLoose {text : Bytes} {drafted : Files} (h : Drafted files path place text drafted) :
    drafted.IsLoose place :=
  (isLoose_iff _ _).mpr (Or.inr ⟨_, h.file⟩)

theorem Drafted.append {text : Bytes} {drafted : Files} (h : Drafted files path place text drafted)
    (hfiles : files.WellFormed) (more : Bytes) :
    Drafted files path place (text ++ more) (drafted.append path more) := by
  have halike := h.homed.put_alike (h.alike.wellFormed.mp hfiles) h.isLoose (.bytes (text ++ more))
  rw [h.homed.append h.file]
  refine ⟨h.homed.alike halike, ?_, h.alike.trans halike, h.same.trans (put_sameBut h.homed.ne_nil _)⟩
  rw [get?_put _ h.homed.ne_nil, Function.update_self]

/-- A draft is removed, or it stays; nothing else changes. -/
theorem Drafted.removed {text : Bytes} {drafted : Files} (h : Drafted files path place text drafted)
    (hfiles : files.WellFormed) :
    Alike (· = place) files (drafted.remove path).1 ∧ SameBut (· = place) files (drafted.remove path).1 := by
  rcases h.homed.remove_cases h.file with ⟨hfree, hremove⟩ | ⟨-, fault, hremove⟩
  · have halike := h.homed.erase_alike (h.alike.wellFormed.mp hfiles) h.isLoose hfree
    rw [hremove]
    exact ⟨h.alike.trans halike, h.same.trans (erase_sameBut h.homed.ne_nil)⟩
  · rw [hremove]
    exact ⟨h.alike, h.same⟩

/-! ## Names that were taken over -/

/-- A tree with the same directories as another one, and no links but its links. -/
structure Thinner (files other : Files) : Prop where
  working : other.workingDirectory = files.workingDirectory
  directory : ∀ place, other.get? place = some .directory ↔ files.get? place = some .directory
  link : ∀ place target, other.get? place = some (.link target) → files.get? place = some (.link target)

theorem Thinner.trans {third : Files} (h : Thinner files other) (h' : Thinner other third) : Thinner files third :=
  ⟨h'.working.trans h.working, fun place => (h'.directory place).trans (h.directory place),
    fun place target hlink => h.link place target (h'.link place target hlink)⟩

theorem Alike.thinner (h : Alike changing files other) : Thinner files other :=
  ⟨h.working, fun _ => ⟨h.symm.directory, h.directory⟩, fun _ _ => h.symm.link⟩

theorem erase_thinner (hplace : place ≠ []) (hentry : files.get? place ≠ some .directory) :
    Thinner files (files.erase place) := by
  have herased := files.get?_erase hplace
  refine ⟨rfl, fun q => ?_, fun q target hlink => ?_⟩
  · rw [herased]
    by_cases hq : q = place
    · subst hq
      simp [hentry]
    · rw [Function.update_of_ne hq]
  · rw [herased] at hlink
    by_cases hq : q = place
    · subst hq
      simp at hlink
    · rwa [Function.update_of_ne hq] at hlink

/-- A tree is thinner after a file has taken a name that no directory bore. -/
theorem Moved.thinner {content : Content} (h : Moved files old new content other)
    (hold : files.get? old = some (.file content)) (hnew : files.get? new ≠ some .directory) : Thinner files other := by
  refine ⟨h.same.working, fun q => ?_, fun q target hlink => ?_⟩
  · rw [h.get?]
    by_cases hq : q = old
    · subst hq
      simp [hold]
    · rw [Function.update_of_ne hq]
      by_cases hq' : q = new
      · subst hq'
        simp [hnew]
      · rw [Function.update_of_ne hq']
  · rw [h.get?] at hlink
    by_cases hq : q = old
    · subst hq
      simp at hlink
    · rw [Function.update_of_ne hq] at hlink
      by_cases hq' : q = new
      · subst hq'
        simp at hlink
      · rwa [Function.update_of_ne hq'] at hlink

theorem Thinner.ways (h : Thinner files other) : Ways other files :=
  ⟨fun place => (h.directory place).mp, h.link⟩

section

variable {links : Nat} {slash slash' : Bool} {here start : Place} {names rest : List Bytes} {spot : Spot}

/-- A scan that arrives in a thinner tree does so at the same place in the other one. -/
theorem Scans.thinner (h : Scans other false false here names (.arrived spot)) (hthinner : Thinner files other) :
    ∃ spot', Scans files false false here names (.arrived spot') ∧ spot'.place = spot.place := by
  generalize harrived : Progress.arrived spot = progress at h
  induction h with
  | long | missing | blocked | jump => cases harrived
  | done =>
      cases harrived
      exact ⟨_, .done, rfl⟩
  | here _ ih => exact (ih harrived).imp fun _ => And.imp_left .here
  | above _ ih => exact (ih harrived).imp fun _ => And.imp_left .above
  | down hname hentry _ ih =>
      exact (ih harrived).imp fun _ => And.imp_left (.down hname (hthinner.ways.directory _ hentry))
  | free hname | file hname | link hname =>
      cases harrived
      exact ⟨_, .name hname _, place_spotAt _ _⟩

theorem Walks.thinner (h : Walks other false links slash here names (.ok spot)) (hslash : slash = false)
    (hthinner : Thinner files other) :
    ∃ spot', Walks files false links slash here names (.ok spot') ∧ spot'.place = spot.place := by
  generalize hresult : Except.ok spot = result at h
  induction h with
  | arrived hscan =>
      cases hresult
      subst hslash
      exact (hscan.thinner hthinner).imp fun _ => And.imp_left .arrived
  | stuck | exhausted => cases hresult
  | jump hscan _ ih =>
      subst hslash
      obtain ⟨rfl, hasked⟩ := hscan.jump_asked hthinner.ways
      exact (ih rfl hresult).imp fun _ => And.imp_left (.jump (hasked false false))

end

/-- A path that leads somewhere in a thinner tree leads to the same place in the other one. -/
theorem resolve_thinner (h : Thinner files other) (hslash : endsWithSlash path = false) {spot : Spot}
    (hresolve : other.resolve false path = .ok spot) :
    ∃ spot', files.resolve false path = .ok spot' ∧ spot'.place = spot.place := by
  have hfits := fits_of_resolve hresolve
  have hstart : other.start path = files.start path := by rw [start, start, h.working]
  simp only [resolve_iff hfits, hstart] at hresolve ⊢
  exact hresolve.thinner hslash h

section

variable {links : Nat} {slash slash' : Bool} {here start : Place} {names rest : List Bytes} {spot : Spot}

/-- A scan to a place where something was comes upon nothing once it is gone. -/
theorem Scans.gone (h : Scans files false false here names (.arrived spot)) (hspot : spot.place = place)
    (hplace : place ≠ []) (hentry : files.get? place ≠ some .directory) (hfiles : files.WellFormed)
    (hdirectory : files.get? here = some .directory) :
    Scans (files.erase place) false false here names (.arrived (.free place false)) := by
  have hgone : (files.erase place).get? place = none := by rw [get?_erase _ hplace, Function.update_self]
  generalize harrived : Progress.arrived spot = progress at h
  induction h with
  | long | missing | blocked | jump => cases harrived
  | done =>
      cases harrived
      exact absurd (hspot ▸ hdirectory) hentry
  | here _ ih => exact .here (ih hdirectory harrived)
  | above _ ih => exact .above (ih (hfiles.dropLast hdirectory) harrived)
  | down hname hfound _ ih =>
      exact .down hname (((erase_thinner hplace hentry).directory _).mpr hfound) (ih hfound harrived)
  | free hname | file hname | link hname =>
      cases harrived
      subst hspot
      exact .free hname hgone

/-- A scan goes on behind the same link once something is gone, unless it was that link. -/
theorem Scans.jump_gone (h : Scans files false false here names (.jump start rest slash))
    (hplace : place ≠ []) (hentry : files.get? place ≠ some .directory) :
    slash = false ∧ (Scans (files.erase place) false false here names (.jump start rest slash) ∨
      Scans (files.erase place) false false here names (.stuck .missing)) := by
  have herased := files.get?_erase hplace
  generalize hjump : Progress.jump start rest slash = progress at h
  induction h with
  | done | long | free | missing | file | blocked | link => cases hjump
  | here _ ih => exact (ih hjump).imp_right (Or.imp .here .here)
  | above _ ih => exact (ih hjump).imp_right (Or.imp .above .above)
  | down hname hfound _ ih =>
      have hkept := ((erase_thinner hplace hentry).directory _).mpr hfound
      exact (ih hjump).imp_right (Or.imp (.down hname hkept) (.down hname hkept))
  | @jump here name target rest hname hfound hmore =>
      cases hjump
      have hrest := hmore.resolve_right (by simp)
      refine ⟨by simp [hrest], ?_⟩
      by_cases hthere : here ++ [name] = place
      · exact Or.inr (.missing hname (by rw [herased, hthere, Function.update_self]) hrest)
      · exact Or.inl (.jump hname (by rw [herased, Function.update_of_ne hthere, hfound]) hmore)

theorem Walks.gone (h : Walks files false links slash here names (.ok spot)) (hslash : slash = false)
    (hspot : spot.place = place) (hplace : place ≠ []) (hentry : files.get? place ≠ some .directory)
    (hfiles : files.WellFormed) (hdirectory : files.get? here = some .directory) :
    Walks (files.erase place) false links slash here names (.ok (.free place false)) ∨
      Walks (files.erase place) false links slash here names (.error .missing) := by
  generalize hresult : Except.ok spot = result at h
  induction h with
  | arrived hscan =>
      cases hresult
      subst hslash
      exact Or.inl (.arrived (hscan.gone hspot hplace hentry hfiles hdirectory))
  | stuck | exhausted => cases hresult
  | jump hscan _ ih =>
      subst hslash
      have hstart := hscan.jump_directory hfiles hdirectory
      obtain ⟨rfl, hkept | hlost⟩ := hscan.jump_gone hplace hentry
      · exact (ih rfl hstart hresult).imp (.jump hkept) (.jump hkept)
      · exact Or.inr (.stuck hlost)

end

/-- Nothing is found under a path once what it named is gone. -/
theorem linkStat_gone (hfiles : files.WellFormed) (hslash : endsWithSlash path = false)
    (hresolve : files.resolve false path = .ok (files.spotAt place)) (hplace : place ≠ [])
    (hentry : files.get? place ≠ some .directory) : (files.erase place).linkStat path = .error .missing := by
  have hfits := fits_of_resolve hresolve
  have hgone := ((resolve_iff hfits).mp hresolve).gone hslash (place_spotAt _ _) hplace hentry hfiles
    (start_directory hfiles path)
  have hstart : (files.erase place).start path = files.start path := rfl
  rw [← hstart, ← resolve_iff hfits, ← resolve_iff hfits] at hgone
  rcases hgone with hgone | hgone <;> rw [linkStat, hgone] <;> rfl

end Files

end MobilitySweep
