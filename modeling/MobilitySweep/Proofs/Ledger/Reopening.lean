import MobilitySweep.Proofs.Files.Confinement
import MobilitySweep.Proofs.Files.Provisioning
import MobilitySweep.Proofs.Ledger.Connecting

/-! # Reopening a ledger

Where the name of a ledger file leads depends on the links of a tree, and on files only in so far as it leads nowhere
behind one. So the name leads to the file that was made when the ledger was opened first, or nowhere: tables that were
put back into their file are those that a later opening finds there.
-/

namespace MobilitySweep

namespace Files

variable {files other made : Files}

/-- A tree with the same links that has files wherever another one has some. -/
structure Fuller (files other : Files) : Prop where
  working : other.workingDirectory = files.workingDirectory
  links : ∀ place target, other.get? place = some (.link target) ↔ files.get? place = some (.link target)
  files : ∀ place content, files.get? place = some (.file content) → ∃ written, other.get? place = some (.file written)

/-- A tree that has directories beside what another one has. -/
structure Furnishes (files made : Files) : Prop where
  wellFormed : made.WellFormed
  keeps : Extends files made
  adds : Furnished files made

theorem WellFormed.furnishes (h : files.WellFormed) : Furnishes files files :=
  ⟨h, Extends.refl files, furnished_refl files⟩

theorem mkdirAll_furnishes (h : files.WellFormed) (path : Bytes) : Furnishes files (files.mkdirAll path).1 := by
  unfold mkdirAll
  split
  next => exact h.furnishes
  next =>
    obtain ⟨hwell, hextends, -⟩ := mkdirChain_extends h (parentTexts (path.length + 1) path)
    exact ⟨hwell, hextends, mkdirChain_furnished files _⟩

theorem mkdirAll_of_stat {path : Bytes} (h : files.stat path = .ok .directory) :
    files.mkdirAll path = (files, none) := by
  have hpath : path.isEmpty = false := by
    cases path with
    | nil => cases h
    | cons b rest => rfl
  simp [mkdirAll, hpath, parentTexts, mkdirChain, h]

/-- Directories that are added change neither links nor files. -/
theorem Furnishes.fuller (h : Furnishes files made) : Fuller files made := by
  refine ⟨h.keeps.working, fun place target => ⟨fun hlink => ?_, h.keeps.entries place _⟩,
    fun place content hfile => ⟨content, h.keeps.entries place _ hfile⟩⟩
  rcases h.adds place _ hlink with hold | hdirectory
  · exact hold
  · cases hdirectory

/-- A file written where there is none, or a file, changes no links. -/
theorem WellFormed.write_fuller (hfiles : files.WellFormed) {place : Place} {content : Content} (hplace : place ≠ [])
    (h : files.get? place = none ∨ ∃ old, files.get? place = some (.file old)) :
    Fuller files (files.write place content) := by
  have hwrite := hfiles.get?_write hplace content
  refine ⟨(write_marks files place content).2.2, fun spot target => ?_, fun spot old hold => ?_⟩
  · cases hone : files.isOneFile place spot with
    | true =>
        rw [hwrite, hfiles.get?_of_isOneFile hone]
        rcases h with hnone | ⟨old, hold⟩
        · simp [hone, hnone]
        · simp [hone, hold]
    | false => simp [hwrite, hone]
  · cases hone : files.isOneFile place spot with
    | true => exact ⟨content, by simp [hwrite, hone]⟩
    | false => exact ⟨old, by simp [hwrite, hone, hold]⟩

/-- A free place has one name. -/
theorem WellFormed.write_free (hfiles : files.WellFormed) {place : Place} (h : files.get? place = none)
    (content : Content) : files.write place content = files.put place (.file content) :=
  (hfiles.isSole (by rw [h]; rfl)).write content

end Files

namespace Ledger

open Files

variable {files other made : Files}

/-! ## Where a name leads -/

/-- Where a name leads in a tree, there it leads in one with fewer files. -/
theorem settle_of_fuller (h : Fuller files other) {links : Nat} {here place : Place} {names : List Bytes} :
    settle other links here names = some place → settle files links here names = some place := by
  -- A file behind which the name would go on is one in the other tree too.
  have hfile : ∀ spot, (∀ content, other.get? spot = some (.file content) → False) →
      ∀ content, files.get? spot = some (.file content) → False := by
    intro spot hnone content hcontent
    obtain ⟨written, hwritten⟩ := h.files spot content hcontent
    exact hnone written hwritten
  fun_induction settle other links here names with
  | case1 links here => simp [settle]
  | case2 links here rest ih => simpa [settle] using ih
  | case3 links here rest habove ih => simpa [settle, habove] using ih
  | case4 => rintro ⟨⟩
  | case5 => rintro ⟨⟩
  | case6 => rintro ⟨⟩
  | case7 here name rest hhere habove hshort target hlink links hnone ih =>
      have hnext : settle files (links + 1) here (name :: rest) =
          settle files links (if Path.isAbsolute target then [] else here) (Path.names target ++ rest) := by
        rw [settle, if_neg hhere, if_neg habove, if_neg hshort, (h.links _ target).mp hlink]
        split
        next content hcontent => exact (hfile here hnone content hcontent).elim
        next heq _ =>
          obtain rfl := Entry.link.inj (Option.some.inj heq)
          rfl
        next hloose => exact (hloose target rfl).elim
      rw [hnext]
      exact ih
  | case8 links here name rest hhere habove hshort hnone hloose ih =>
      rw [settle, if_neg hhere, if_neg habove, if_neg hshort]
      split
      next content hcontent => exact (hfile here hnone content hcontent).elim
      next target hlink _ => exact (hloose target ((h.links _ target).mpr hlink)).elim
      next => exact ih

theorem place?_eq_some {name : Bytes} {place : Place} (h : place? files name = some place) :
    settle files linkLimit (files.start name) (Path.names name) = some place ∧
      ¬pathLimit < (Path.ofComponents true place).length ∧ files.get? place.dropLast = some .directory ∧
      (files.get? place = none ∨ ∃ content, files.get? place = some (.file content)) := by
  unfold place? at h
  cases hsettle : settle files linkLimit (files.start name) (Path.names name) with
  | none => simp [hsettle] at h
  | some found =>
      rw [hsettle] at h
      dsimp only [Option.bind_eq_bind, Option.bind_some] at h
      split at h
      next => cases h
      next hlength =>
        split at h
        next hdirectory hnone =>
          obtain rfl := Option.some.inj h
          exact ⟨rfl, hlength, hdirectory, Or.inl hnone⟩
        next content hdirectory hfile =>
          obtain rfl := Option.some.inj h
          exact ⟨rfl, hlength, hdirectory, Or.inr ⟨content, hfile⟩⟩
        next => cases h

/-- The name of a ledger leads to one file of a tree, or nowhere. -/
structure Keeps (files : Files) (name : Bytes) (place : Place) : Prop where
  wellFormed : files.WellFormed
  leads : ∀ found, settle files linkLimit (files.start name) (Path.names name) = some found → found = place
  file : ∃ content, files.get? place = some (.file content)

section

variable {name : Bytes} {place : Place}

theorem ne_nil_of_file (h : ∃ content, files.get? place = some (.file content)) : place ≠ [] := by
  rintro rfl
  obtain ⟨content, hcontent⟩ := h
  cases hcontent

theorem Keeps.place?_eq (h : Keeps files name place) {found : Place} (hfound : place? files name = some found) :
    found = place :=
  h.leads found (place?_eq_some hfound).1

theorem settle_start_of_fuller (h : Fuller files other) {found : Place}
    (hsettle : settle other linkLimit (other.start name) (Path.names name) = some found) :
    settle files linkLimit (files.start name) (Path.names name) = some found := by
  have hstart : other.start name = files.start name := by simp only [start, h.working]
  rw [hstart] at hsettle
  exact settle_of_fuller h hsettle

theorem ne_nil_of_place? (h : place? files name = some place) : place ≠ [] := by
  obtain ⟨-, -, -, hold⟩ := place?_eq_some h
  rintro rfl
  rcases hold with hnone | ⟨old, hold⟩
  · cases hnone
  · cases hold

theorem get?_write_self (hfiles : files.WellFormed) (hplace : place ≠ []) (content : Content) :
    (files.write place content).get? place = some (.file content) := by
  rw [hfiles.get?_write hplace]
  simp [isOneFile]

/-- A file written where a name leads is there from then on. -/
theorem keeps_write (hfiles : files.WellFormed) (hplace : place? files name = some place) (content : Content) :
    Keeps (files.write place content) name place := by
  obtain ⟨hsettle, -, hdirectory, hold⟩ := place?_eq_some hplace
  have hne := ne_nil_of_place? hplace
  refine ⟨?_, fun found hfound => ?_, content, get?_write_self hfiles hne content⟩
  · rcases hold with hnone | ⟨old, hold⟩
    · obtain ⟨parent, last, rfl⟩ := (List.eq_nil_or_concat' place).resolve_left hne
      rw [hfiles.write_free hnone]
      exact hfiles.put_new (by simpa using hdirectory) hnone _
    · exact hfiles.write hold content
  · have hsame := settle_start_of_fuller (hfiles.write_fuller hne hold) hfound
    exact Option.some.inj (hsame.symm.trans hsettle)

/-- Directories that are added do not change which file a name leads to. -/
theorem Keeps.furnishes (h : Keeps files name place) (hmade : Furnishes files made) : Keeps made name place := by
  obtain ⟨content, hcontent⟩ := h.file
  exact ⟨hmade.wellFormed, fun found hfound => h.leads found (settle_start_of_fuller hmade.fuller hfound),
    content, hmade.keeps.entries place _ hcontent⟩

/-- A name that leads to a file behind added directories leads to it without them. -/
theorem Keeps.place?_of_furnishes (h : Keeps files name place) (hmade : Furnishes files made)
    (hfound : place? made name = some place) : place? files name = some place := by
  obtain ⟨hsettle, hlength, -, -⟩ := place?_eq_some hfound
  obtain ⟨content, hcontent⟩ := h.file
  obtain ⟨parent, last, rfl⟩ := (List.eq_nil_or_concat' place).resolve_left (ne_nil_of_file h.file)
  have hdirectory := h.wellFormed.parent parent last _ hcontent
  unfold place?
  rw [settle_start_of_fuller hmade.fuller hsettle]
  simp [hlength, hdirectory, hcontent]

/-! ## Tables put back and found again -/

/-- The name of the file that the ledger of a path is kept in, if it is kept in one. -/
def fileName? (path : Bytes) : Option Bytes := (Address.ofPath path).toOption >>= (·.file)

theorem leads_of_fileName? {l : Ledger} (hname : fileName? l.path = some name) (files : Files) :
    ((Address.ofPath l.path).toOption >>= (·.file) >>= place? files) = place? files name := by
  rw [show ((Address.ofPath l.path).toOption >>= (·.file)) = some name from hname]
  rfl

/-- Tables are put back into the file that the name of their ledger leads to. -/
theorem save_eq_write {l : Ledger} (hname : fileName? l.path = some name) (hplace : place? files name = some place)
    (hfile : ∃ content, files.get? place = some (.file content)) :
    l.save files = files.write place (.ledger l.tables) := by
  obtain ⟨content, hcontent⟩ := hfile
  simp only [Ledger.save, leads_of_fileName? hname, hplace, hcontent]

/-- Tables that are put back are found wherever the name of the ledger still leads to its file. -/
theorem Keeps.save (h : Keeps files name place) {l : Ledger} (hname : fileName? l.path = some name) :
    Keeps (l.save files) name place ∧
      (place? (l.save files) name = some place → (l.save files).get? place = some (.file (.ledger l.tables))) := by
  cases hfound : place? files name with
  | none =>
      have hsave : l.save files = files := by simp only [Ledger.save, leads_of_fileName? hname, hfound]
      rw [hsave, hfound]
      exact ⟨h, by rintro ⟨⟩⟩
  | some found =>
      obtain rfl := h.place?_eq hfound
      rw [save_eq_write hname hfound h.file]
      exact ⟨keeps_write h.wellFormed hfound _, fun _ => get?_write_self h.wellFormed (ne_nil_of_file h.file) _⟩

theorem put_put (files : Files) (place : Place) (first second : Entry) :
    (files.put place first).put place second = files.put place second := by
  have hset : ∀ entries, setEntry place second (setEntry place first entries) = setEntry place second entries := by
    intro entries
    induction entries with
    | nil => simp [setEntry]
    | cons old rest ih =>
        by_cases hold : old.1 = place
        · simp [setEntry, hold]
        · simp [setEntry, hold, ih]
  simp [put, hset, List.filter_filter]

end

theorem bind_eq_ok {ε α β : Type} {p : Except ε α} {f : α → Except ε β} {b : β} :
    (p >>= f) = .ok b ↔ ∃ a, p = .ok a ∧ f a = .ok b := by
  cases p with
  | error reason => simp [bind, Except.bind]
  | ok a => simp [bind, Except.bind]

/-- Tables that pass the check keep their rows. -/
theorem checked_eq_ok {tables passed : Tables} (h : checked tables = .ok passed) :
    passed.sweeps = tables.sweeps ∧ passed.runs = tables.runs := by
  unfold checked at h
  split at h
  next => exact Except.ok.inj h ▸ ⟨rfl, rfl⟩
  next =>
    split at h
    next => cases h
    next =>
      split at h
      next => cases h
      next => exact Except.ok.inj h ▸ ⟨rfl, rfl⟩

theorem mapError_eq_ok {ε ε' α : Type} {f : ε → ε'} {p : Except ε α} {a : α} : p.mapError f = .ok a ↔ p = .ok a := by
  cases p <;> simp [Except.mapError]

/-- A ledger that is opened is as its connection is set up, and has the tables that are stored, once they passed the
check, or fresh ones if nothing is. -/
theorem ofStored_eq_ok {path : Bytes} {clock : Clock} {scene : Setting.Scene} {l : Ledger}
    (h : ofStored path clock scene = .ok l) : l.path = path ∧
      (∃ c, connect scene = .ok c ∧ l.isStrict = c.strict ∧ l.isReadOnly = scene.forbids c) ∧
      ((∃ kept, scene.found = .tables kept ∧ checked kept = .ok l.tables) ∨
        scene.found = .nothing ∧ ∃ encoding, l.tables = .fresh encoding) := by
  unfold ofStored at h
  obtain ⟨c, hconnect, h⟩ := bind_eq_ok.mp h
  have hconnect := mapError_eq_ok.mp hconnect
  cases hfound : scene.found with
  | nothing =>
      simp only [hfound] at h
      obtain ⟨begun, -, h⟩ := bind_eq_ok.mp h
      split at h
      next => cases h
      next =>
        split at h
        next => cases h
        next =>
          obtain rfl := Except.ok.inj h
          exact ⟨rfl, ⟨c, hconnect, rfl, rfl⟩, Or.inr ⟨rfl, _, rfl⟩⟩
  | foreign =>
      simp only [hfound] at h
      obtain ⟨tables, htables, -⟩ := bind_eq_ok.mp h
      cases htables
  | tables stored =>
      simp only [hfound] at h
      obtain ⟨-, -, h⟩ := bind_eq_ok.mp h
      obtain ⟨tables, htables, h⟩ := bind_eq_ok.mp h
      obtain rfl := Except.ok.inj h
      exact ⟨rfl, ⟨c, hconnect, rfl, rfl⟩, Or.inl ⟨stored, rfl, htables⟩⟩

/-- A ledger that is opened at a plain address is strict and can be written to. -/
theorem ofStored_plain {path : Bytes} {clock : Clock} {scene : Setting.Scene} (haddress : scene.address.IsPlain)
    {l : Ledger} (h : ofStored path clock scene = .ok l) : l.isStrict = true ∧ l.isReadOnly = false := by
  obtain ⟨-, ⟨c, hconnect, hstrict, hreadOnly⟩, hstored⟩ := ofStored_eq_ok h
  have hfound : scene.found ≠ .foreign := by
    rintro hforeign
    rcases hstored with ⟨tables, htables, -⟩ | ⟨hnothing, -⟩
    · cases hforeign.symm.trans htables
    · cases hforeign.symm.trans hnothing
  obtain rfl := Except.ok.inj ((connect_plain haddress hfound).symm.trans hconnect)
  rw [hstrict, hreadOnly]
  exact ⟨rfl, by simp [Setting.Scene.forbids, Connection.fresh, haddress.access, haddress.mutable]⟩

/-- A ledger is opened at a plain address if nothing is stored there, or tables that pass the check. -/
theorem ofStored_succeeds {path : Bytes} {clock : Clock} {scene : Setting.Scene} {tables : Tables}
    (haddress : scene.address.IsPlain) (h : scene.found = .nothing ∧ tables = .fresh .utf8 ∨
      ∃ kept, scene.found = .tables kept ∧ checked kept = .ok tables) :
    ofStored path clock scene = .ok ⟨path, tables, true, true, false, clock⟩ := by
  have hfound : scene.found ≠ .foreign := by
    rcases h with ⟨hfound, -⟩ | ⟨kept, hfound, -⟩ <;> simp [hfound]
  have hwritable : ∀ c : Connection, c.queryOnly = false → scene.forbids c = false := by
    intro c hc
    simp [Setting.Scene.forbids, hc, haddress.access, haddress.mutable]
  unfold ofStored
  rw [connect_plain haddress hfound]
  rcases h with ⟨hnothing, rfl⟩ | ⟨kept, htables, hchecked⟩
  · rw [haddress.locks]
    simp [hnothing, Statement.begin, Connection.inTransaction, Connection.fresh, Connection.isFull, hwritable,
      Except.mapError, bind, Except.bind, pure, Except.pure]
  · have hrecorded : ∀ c : Connection, c.queryOnly = false → c.transaction = .absent →
        recordVersion scene c kept = .ok () := by
      intro c hc habsent
      simp [recordVersion, Statement.begin, haddress.locks, Connection.inTransaction, habsent, hwritable, hc,
        Except.mapError, bind, Except.bind, pure, Except.pure]
    simp [htables, hchecked, hrecorded, hwritable, Connection.fresh, Except.mapError, bind, Except.bind, pure,
      Except.pure]

/-- Opening a ledger adds the directories on the way, and then opens its address. -/
theorem openFile_cases (files : Files) (path : Bytes) (clock : Clock) : ∃ made,
    (files.WellFormed → Furnishes files made) ∧ ((∃ reason, openFile files path clock = (made, .error reason)) ∨
      path ≠ [] ∧ ∃ address, Address.ofPath path = .ok address ∧
        openFile files path clock = openAddress made path clock address) := by
  unfold openFile
  split
  next => exact ⟨files, WellFormed.furnishes, Or.inl ⟨_, rfl⟩⟩
  next hpath =>
    obtain ⟨made, fault, hmade, hfurnishes⟩ : ∃ made fault,
        (if Path.directory path = Path.here then (files, none) else files.mkdirAll (Path.directory path)) =
          (made, fault) ∧ (files.WellFormed → Furnishes files made) := by
      split
      next => exact ⟨files, none, rfl, WellFormed.furnishes⟩
      next => exact ⟨_, _, rfl, fun hfiles => mkdirAll_furnishes hfiles _⟩
    refine ⟨made, hfurnishes, ?_⟩
    simp only [hmade]
    cases fault with
    | some fault => exact Or.inl ⟨_, rfl⟩
    | none =>
        cases haddress : Address.ofPath path with
        | error obstacle => exact Or.inl ⟨_, rfl⟩
        | ok address => exact Or.inr ⟨by simpa using hpath, address, rfl, rfl⟩

/-- Opening an address leaves the tree alone, makes an empty file where there was none, or puts the tables of the ledger
in the file. -/
theorem openAddress_cases {path : Bytes} {clock : Clock} {address : Address} {name : Bytes}
    (hname : address.file = some name) :
    (∃ reason, openAddress files path clock address = (files, .error reason)) ∨
      ∃ place, place? files name = some place ∧
        ((files.get? place = none ∧ ∃ reason,
            openAddress files path clock address = (files.write place (.bytes []), .error reason)) ∨
          ∃ isThere l, ofStored path clock ⟨address, stored (files.get? place), isThere⟩ = .ok l ∧
            openAddress files path clock address = (files.write place (.ledger l.tables), .ok l)) := by
  unfold openAddress
  simp only [hname]
  cases hplace : place? files name with
  | none => exact Or.inl ⟨_, rfl⟩
  | some place =>
      dsimp only
      split
      next => exact Or.inl ⟨_, rfl⟩
      next =>
        split
        next => exact Or.inl ⟨_, rfl⟩
        next =>
          split
          next reason hstored =>
            by_cases hnone : files.get? place = none
            · exact Or.inr ⟨place, rfl, Or.inl ⟨hnone, reason, by simp [hnone]⟩⟩
            · exact Or.inl ⟨reason, by simp [hnone]⟩
          next l hstored => exact Or.inr ⟨place, rfl, Or.inr ⟨_, l, hstored, rfl⟩⟩

theorem openAddress_unkept (files : Files) (path : Bytes) (clock : Clock) {address : Address}
    (hname : address.file = none) :
    ∃ isThere, openAddress files path clock address = (files, ofStored path clock ⟨address, .nothing, isThere⟩) := by
  simp only [openAddress, hname]
  exact ⟨_, rfl⟩

section

variable {path : Bytes} {clock : Clock} {name : Bytes} {place : Place} {l opened : Ledger}

theorem fileName?_eq {address : Address} (h : Address.ofPath path = .ok address) : fileName? path = address.file := by
  rw [fileName?, h]
  rfl

theorem fileName?_plain (hplain : IsPlain path) (hpath : path ≠ []) : fileName? path = plainName? path := by
  obtain ⟨address, haddress, -, hfile⟩ := Address.ofPath_plain hplain hpath
  rw [fileName?_eq haddress, hfile]

/-- A ledger that is opened was stored at its address: in no file, or in the one that its tables are put into. -/
theorem openFile_eq_ok (h : openFile files path clock = (made, .ok l)) : path ≠ [] ∧
    ∃ furnished address found isThere, (files.WellFormed → Furnishes files furnished) ∧
      Address.ofPath path = .ok address ∧ ofStored path clock ⟨address, found, isThere⟩ = .ok l ∧
        (address.file = none ∧ found = .nothing ∨
          ∃ name place, address.file = some name ∧ place? furnished name = some place ∧
            found = stored (furnished.get? place) ∧ made = furnished.write place (.ledger l.tables)) := by
  obtain ⟨furnished, hfurnished, ⟨reason, herror⟩ | ⟨hpath, address, haddress, hopen⟩⟩ :=
    openFile_cases files path clock
  · cases herror.symm.trans h
  · rw [hopen] at h
    refine ⟨hpath, furnished, address, ?_⟩
    cases hname : address.file with
    | none =>
        obtain ⟨isThere, hunkept⟩ := openAddress_unkept furnished path clock hname
        exact ⟨.nothing, isThere, hfurnished, haddress, (Prod.mk.inj (hunkept.symm.trans h)).2, Or.inl ⟨rfl, rfl⟩⟩
    | some name =>
        rcases openAddress_cases hname with ⟨reason, herror⟩ | ⟨place, hplace, ⟨-, reason, herror⟩ |
          ⟨isThere, opened, hstored, hok⟩⟩
        · cases herror.symm.trans h
        · cases herror.symm.trans h
        · obtain ⟨rfl, hopened⟩ := Prod.mk.inj (hok.symm.trans h)
          obtain rfl := Except.ok.inj hopened
          exact ⟨_, isThere, hfurnished, haddress, hstored, Or.inr ⟨name, place, rfl, hplace, rfl, rfl⟩⟩

/-- A ledger that is opened has the path it was opened under. -/
theorem openFile_path (h : openFile files path clock = (made, .ok l)) : l.path = path := by
  obtain ⟨-, _, _, _, _, -, -, hstored, -⟩ := openFile_eq_ok h
  exact (ofStored_eq_ok hstored).1

/-- A ledger at a path without a question mark is strict and can be written to, be the path a URI or not. -/
theorem openFile_unmarked (hmark : ('?' : UInt8) ∉ path) (h : openFile files path clock = (made, .ok l)) :
    l.isStrict = true ∧ l.isReadOnly = false := by
  obtain ⟨hpath, _, address, _, _, -, haddress, hstored, -⟩ := openFile_eq_ok h
  exact ofStored_plain (Address.isPlain_of_ofPath hmark hpath haddress) hstored

/-- A ledger at a plain path is strict and can be written to. -/
theorem openFile_plain (hplain : IsPlain path) (h : openFile files path clock = (made, .ok l)) :
    l.isStrict = true ∧ l.isReadOnly = false := openFile_unmarked hplain.unmarked h

/-- A ledger at a plain path is opened if its directory is there and its name leads to a free place, or to the file of a
ledger that passes the check. -/
theorem openFile_succeeds (hplain : IsPlain path) (hname : plainName? path = some name)
    (hdirectory : files.stat (Path.directory path) = .ok .directory) (hplace : place? files name = some place)
    {tables : Tables} (hstored : files.get? place = none ∧ tables = .fresh .utf8 ∨
      ∃ kept, files.get? place = some (.file (.ledger kept)) ∧ checked kept = .ok tables) (clock : Clock) :
    openFile files path clock =
      (files.write place (.ledger tables), .ok ⟨path, tables, true, true, false, clock⟩) := by
  have hpath : path ≠ [] := by
    rintro rfl
    simp [plainName?] at hname
  obtain ⟨address, haddress, hplain, hfile⟩ := Address.ofPath_plain hplain hpath
  rw [hname] at hfile
  have hmade : (if Path.directory path = Path.here then (files, none) else files.mkdirAll (Path.directory path)) =
      (files, none) := by
    split
    next => rfl
    next => exact mkdirAll_of_stat hdirectory
  simp only [openFile, List.isEmpty_eq_false_iff.mpr hpath, Bool.false_eq_true, if_false, hmade, haddress]
  simp only [openAddress, hfile, hplace, hplain.model, hplain.access, Option.map_none, Option.getD_none, Bool.not_true,
    Bool.false_eq_true, if_false]
  rcases hstored with ⟨hnone, rfl⟩ | ⟨kept, hthere, hchecked⟩
  · have hopen : ∀ isThere, ofStored path clock ⟨address, .nothing, isThere⟩ =
        .ok ⟨path, .fresh .utf8, true, true, false, clock⟩ := fun _ => ofStored_succeeds hplain (Or.inl ⟨rfl, rfl⟩)
    simp [hnone, stored, hopen]
  · have hopen : ∀ isThere, ofStored path clock ⟨address, .tables kept, isThere⟩ =
        .ok ⟨path, tables, true, true, false, clock⟩ := fun _ => ofStored_succeeds hplain (Or.inr ⟨kept, rfl, hchecked⟩)
    simp [hthere, stored, hopen]

/-- The name of a ledger that is opened leads to its file from then on. -/
theorem openFile_keeps (hfiles : files.WellFormed) (h : openFile files path clock = (made, .ok l))
    (hname : fileName? path = some name) : ∃ place, Keeps made name place := by
  obtain ⟨-, furnished, address, _, _, hfurnished, haddress, -, hkept⟩ := openFile_eq_ok h
  rw [fileName?_eq haddress] at hname
  rcases hkept with ⟨hnone, -⟩ | ⟨other, place, hother, hplace, -, rfl⟩
  · cases hnone.symm.trans hname
  · obtain rfl := Option.some.inj (hother.symm.trans hname)
    exact ⟨place, keeps_write (hfurnished hfiles).wellFormed hplace _⟩

/-- A ledger that cannot be opened keeps its file. -/
theorem Keeps.unopened (h : Keeps files name place) (hname : fileName? path = some name) {reason : Unopened}
    (hopen : openFile files path clock = (made, .error reason)) : Keeps made name place := by
  obtain ⟨furnished, hfurnished, ⟨other, herror⟩ | ⟨-, address, haddress, haddressed⟩⟩ :=
    openFile_cases files path clock
  · obtain ⟨rfl, -⟩ := Prod.mk.inj (herror.symm.trans hopen)
    exact h.furnishes (hfurnished h.wellFormed)
  · rw [haddressed] at hopen
    rw [fileName?_eq haddress] at hname
    have hthere := h.furnishes (hfurnished h.wellFormed)
    rcases openAddress_cases hname with ⟨other, herror⟩ | ⟨found, hfound, ⟨hnone, -⟩ | ⟨_, _, -, hok⟩⟩
    · obtain ⟨rfl, -⟩ := Prod.mk.inj (herror.symm.trans hopen)
      exact hthere
    · obtain rfl := hthere.place?_eq hfound
      obtain ⟨content, hcontent⟩ := hthere.file
      cases hnone.symm.trans hcontent
    · cases hok.symm.trans hopen

/-- Tables put back are those that the next opening finds and checks. -/
theorem Keeps.reopened (h : Keeps files name place) (hname : fileName? l.path = some name)
    (hopen : openFile (l.save files) l.path clock = (made, .ok opened)) :
    Keeps made name place ∧ checked l.tables = .ok opened.tables := by
  obtain ⟨hkept, hback⟩ := h.save hname
  obtain ⟨-, furnished, address, found, isThere, hfurnished, haddress, hstored, hcases⟩ := openFile_eq_ok hopen
  have hfurnished := hfurnished hkept.wellFormed
  have hthere := hkept.furnishes hfurnished
  rw [fileName?_eq haddress] at hname
  rcases hcases with ⟨hnone, -⟩ | ⟨other, spot, hother, hspot, rfl, rfl⟩
  · cases hnone.symm.trans hname
  · obtain rfl := Option.some.inj (hother.symm.trans hname)
    obtain rfl := hthere.place?_eq hspot
    have htables := hfurnished.keeps.entries _ _ (hback (hkept.place?_of_furnishes hfurnished hspot))
    refine ⟨keeps_write hthere.wellFormed hspot _, ?_⟩
    obtain ⟨-, -, ⟨kept, hscene, hchecked⟩ | ⟨hscene, -⟩⟩ := ofStored_eq_ok hstored
    · simp only [htables, stored, Stored.tables.injEq] at hscene
      subst hscene
      exact hchecked
    · simp [htables, stored] at hscene

/-- A ledger that is kept in no file has no rows when it is opened. -/
theorem openFile_unkept (hname : fileName? path = none) (hopen : openFile files path clock = (made, .ok opened)) :
    opened.tables.sweeps = [] ∧ opened.tables.runs = [] := by
  obtain ⟨-, _, address, _, _, -, haddress, hstored, ⟨-, rfl⟩ | ⟨name, _, hfile, -⟩⟩ := openFile_eq_ok hopen
  · obtain ⟨-, -, ⟨kept, hscene, -⟩ | ⟨-, encoding, hfresh⟩⟩ := ofStored_eq_ok hstored
    · cases hscene
    · rw [hfresh]
      exact ⟨rfl, rfl⟩
  · rw [fileName?_eq haddress, hfile] at hname
    cases hname

end

end Ledger

end MobilitySweep
