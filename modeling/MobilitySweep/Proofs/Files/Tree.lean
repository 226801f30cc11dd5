import Mathlib
import MobilitySweep.Files.Tree

/-! # Reading a tree back

What is at a place after a change of the tree. Moving takes everything below a place along; in a tree where
every entry lies in a directory there is nothing below a file, so a file moves alone.
-/

namespace MobilitySweep

/-- Whether there is a file. -/
def Entry.isFile : Option Entry → Bool
  | some (.file _) => true
  | _ => false

namespace Files

theorem get?_of_ne_nil (files : Files) {place : Place} (h : place ≠ []) :
    files.get? place = (files.entries.find? (·.1 = place)).map (·.2) := by
  simp [get?, h]

theorem find?_setEntry (place other : Place) (entry : Entry) (entries : List (Place × Entry)) :
    ((setEntry place entry entries).find? (·.1 = other)).map (·.2) =
      if other = place then some entry else (entries.find? (·.1 = other)).map (·.2) := by
  induction entries with
  | nil =>
      by_cases h : other = place
      · simp [setEntry, h]
      · simp [setEntry, h, Ne.symm h]
  | cons old rest ih =>
      simp only [setEntry]
      split
      next hold =>
        by_cases h : other = place
        · simp [h]
        · have hne : old.1 ≠ other := fun heq => h (heq.symm.trans hold)
          simp [h, Ne.symm h, hne]
      next hold =>
        simp only [List.find?_cons]
        by_cases h : old.1 = other
        · have hne : other ≠ place := fun heq => hold (h.trans heq)
          simp [h, hne]
        · simp only [h, decide_false]
          exact ih

theorem get?_put (files : Files) {place : Place} (hplace : place ≠ []) (entry : Entry) :
    (files.put place entry).get? = Function.update files.get? place (some entry) := by
  funext other
  by_cases hother : other = []
  · subst hother
    rw [Function.update_of_ne hplace.symm]
    rfl
  · rw [get?_of_ne_nil _ hother, put, find?_setEntry]
    by_cases h : other = place
    · simp [h]
    · rw [Function.update_of_ne h, if_neg h, get?_of_ne_nil _ hother]

theorem get?_erase (files : Files) {place : Place} (hplace : place ≠ []) :
    (files.erase place).get? = Function.update files.get? place none := by
  funext other
  by_cases hother : other = []
  · subst hother
    rw [Function.update_of_ne hplace.symm]
    rfl
  · rw [get?_of_ne_nil _ hother, erase, List.find?_filter]
    by_cases h : other = place
    · subst h
      rw [Function.update_self]
      simp
    · rw [Function.update_of_ne h, get?_of_ne_nil _ hother]
      congr 2
      funext old
      by_cases hold : old.1 = other
      · simp [hold, h]
      · simp [hold]

/-- Whether a mark is the number of a file that is the same at every place with this number. -/
def IsNumber (files : Files) (mark : Place × Nat) : Prop :=
  files.number? mark.1 = some mark.2 ∧ Entry.isFile (files.get? mark.1) = true ∧
    ∀ other ∈ files.shares, other.2 = mark.2 → files.get? other.1 = files.get? mark.1

instance (files : Files) (mark : Place × Nat) : Decidable (files.IsNumber mark) :=
  inferInstanceAs (Decidable (_ ∧ _ ∧ ∀ other ∈ files.shares, _))

/-- Every entry lies in a directory, and so does the working directory's own name. Numbers are those of files, and what
nobody may take away is there. -/
structure WellFormed (files : Files) : Prop where
  parent : ∀ (place : Place) name entry, files.get? (place ++ [name]) = some entry →
    files.get? place = some .directory
  working : files.get? files.workingDirectory = some .directory
  numbered : ∀ mark ∈ files.shares, files.IsNumber mark
  pinned : ∀ place ∈ files.pinned, (files.get? place).isSome = true

/-- Every entry of a tree is the root or in the list. -/
theorem mem_of_get?_eq_some {files : Files} {place : Place} {entry : Entry} (hplace : place ≠ [])
    (h : files.get? place = some entry) : (place, entry) ∈ files.entries := by
  rw [get?_of_ne_nil _ hplace] at h
  obtain ⟨pair, hpair, rfl⟩ := Option.map_eq_some_iff.mp h
  have hname : pair.1 = place := by simpa using List.find?_some hpair
  exact hname ▸ List.mem_of_find?_eq_some hpair

theorem get?_isSome_of_mem {files : Files} {place : Place} {entry : Entry} (h : (place, entry) ∈ files.entries) :
    (files.get? place).isSome := by
  by_cases hplace : place = []
  · simp [get?, hplace]
  · rw [get?_of_ne_nil _ hplace, Option.isSome_map, List.find?_isSome]
    exact ⟨(place, entry), h, by simp⟩

/-- Whether a tree is well formed can be told from its entries. -/
theorem wellFormed_iff {files : Files} : files.WellFormed ↔
    (∀ pair ∈ files.entries, files.get? pair.1.dropLast = some .directory) ∧
      files.get? files.workingDirectory = some .directory ∧ (∀ mark ∈ files.shares, files.IsNumber mark) ∧
      ∀ place ∈ files.pinned, (files.get? place).isSome = true := by
  constructor
  · intro h
    refine ⟨fun (place, entry) hpair => ?_, h.working, h.numbered, h.pinned⟩
    obtain ⟨found, hfound⟩ := Option.isSome_iff_exists.mp (get?_isSome_of_mem hpair)
    rcases place.eq_nil_or_concat with rfl | ⟨parent, name, rfl⟩
    · rfl
    · rw [List.concat_eq_append] at hfound ⊢
      rw [List.dropLast_concat]
      exact h.parent parent name found hfound
  · rintro ⟨habove, hworking, hnumbered, hpinned⟩
    refine ⟨fun place name entry hentry => ?_, hworking, hnumbered, hpinned⟩
    have hin := habove _ (mem_of_get?_eq_some (by simp) hentry)
    rwa [List.dropLast_concat] at hin

instance (files : Files) : Decidable files.WellFormed := decidable_of_iff _ wellFormed_iff.symm

/-- Whatever lies above an entry is a directory. -/
theorem WellFormed.above {files : Files} (h : files.WellFormed) {place : Place} (rest : List Bytes)
    (hrest : rest ≠ []) (hsome : (files.get? (place ++ rest)).isSome) : files.get? place = some .directory := by
  induction rest generalizing place with
  | nil => exact absurd rfl hrest
  | cons name rest ih =>
      obtain ⟨entry, hentry⟩ := Option.isSome_iff_exists.mp hsome
      by_cases hempty : rest = []
      · subst hempty
        exact h.parent place name entry hentry
      · have hnext : files.get? (place ++ [name]) = some .directory := ih hempty (by simpa using hsome)
        exact h.parent place name .directory hnext

theorem WellFormed.dropLast {files : Files} (h : files.WellFormed) {place : Place}
    (hplace : files.get? place = some .directory) : files.get? place.dropLast = some .directory := by
  rcases List.eq_nil_or_concat' place with rfl | ⟨parent, name, rfl⟩
  · rfl
  · rw [List.dropLast_concat]
    exact h.parent parent name .directory hplace

/-- There is nothing below a place without a directory. -/
theorem WellFormed.alone {files : Files} (h : files.WellFormed) {place : Place}
    (hplace : files.get? place ≠ some .directory) {other : Place} {entry : Entry}
    (hmem : (other, entry) ∈ files.entries) (hbelow : place <+: other) : other = place := by
  obtain ⟨rest, rfl⟩ := hbelow
  by_cases hrest : rest = []
  · simp [hrest]
  · exact absurd (h.above rest hrest (get?_isSome_of_mem hmem)) hplace

theorem WellFormed.hasEntriesBelow {files : Files} (h : files.WellFormed) {place : Place}
    (hplace : files.get? place ≠ some .directory) : files.hasEntriesBelow place = false := by
  simp only [Files.hasEntriesBelow, List.any_eq_false, Bool.and_eq_true, decide_eq_true_eq, not_and]
  rintro ⟨other, entry⟩ hmem hne
  rw [List.isPrefixOf_iff_prefix]
  exact fun hbelow => hne (h.alone hplace hmem hbelow)

/-- A file moved to a free place is alone in moving. -/
theorem WellFormed.get?_move {files : Files} (h : files.WellFormed) {source target : Place}
    (hsource : source ≠ []) (htarget : target ≠ []) (hne : source ≠ target)
    (hfile : files.get? source ≠ some .directory) (hfree : files.get? target = none) :
    (files.move source target).get? =
      Function.update (Function.update files.get? target (files.get? source)) source none := by
  -- Nothing lies below a file, so the move renames one entry.
  have hmoved : (files.move source target).entries =
      files.entries.map fun entry => if entry.1 = source then (target, entry.2) else entry := by
    refine List.map_congr_left fun entry hentry => ?_
    simp only [move.moved, move.goal, List.isPrefixOf_iff_prefix]
    by_cases heq : entry.1 = source
    · simp [heq]
    · rw [if_neg heq, if_neg fun hbelow => heq (h.alone hfile hentry hbelow)]
  have hnone : ∀ entry ∈ files.entries, entry.1 ≠ target := by
    intro entry hentry heq
    have hsome := get?_isSome_of_mem hentry
    rw [heq, hfree] at hsome
    cases hsome
  funext other
  by_cases hother : other = []
  · subst hother
    rw [Function.update_of_ne hsource.symm, Function.update_of_ne htarget.symm]
    rfl
  · rw [get?_of_ne_nil _ hother, hmoved, List.find?_map, Option.map_map]
    by_cases hs : other = source
    · -- What was at the source has gone, and nothing came there.
      subst hs
      rw [Function.update_self, Option.map_eq_none_iff, List.find?_eq_none]
      intro entry hentry
      simp only [Function.comp]
      split
      next => simpa using Ne.symm hne
      next heq => simpa using heq
    · rw [Function.update_of_ne hs]
      by_cases ht : other = target
      · subst ht
        rw [Function.update_self, get?_of_ne_nil _ hsource]
        have hpredicate : ∀ entry ∈ files.entries,
            ((fun moved : Place × Entry => decide (moved.1 = other)) ∘
              fun entry => if entry.1 = source then (other, entry.2) else entry) entry =
              decide (entry.1 = source) := by
          intro entry hentry
          simp only [Function.comp]
          by_cases heq : entry.1 = source
          · simp [heq]
          · simp [heq, hnone entry hentry]
        rw [List.find?_congr hpredicate]
        cases hfound : files.entries.find? fun entry => decide (entry.1 = source) with
        | none => rfl
        | some entry =>
            have heq : entry.1 = source := by simpa using List.find?_some hfound
            simp [heq]
      · rw [Function.update_of_ne ht, get?_of_ne_nil _ hother]
        have hpredicate : ∀ entry ∈ files.entries,
            ((fun moved : Place × Entry => decide (moved.1 = other)) ∘
              fun entry => if entry.1 = source then (target, entry.2) else entry) entry =
              decide (entry.1 = other) := by
          intro entry _
          simp only [Function.comp]
          by_cases heq : entry.1 = source
          · simp [heq, Ne.symm hs, Ne.symm ht]
          · simp [heq]
        rw [List.find?_congr hpredicate]
        cases hfound : files.entries.find? fun entry => decide (entry.1 = other) with
        | none => rfl
        | some entry =>
            have heq : entry.1 = other := by simpa using List.find?_some hfound
            have hns : entry.1 ≠ source := fun h => hs (heq.symm.trans h)
            simp [hns]

end Files

/-! ## What is said about places -/

namespace Files

theorem said?_filter_ne (marks : List (Place × Nat)) {place other : Place} (hother : other ≠ place) :
    said? (marks.filter (·.1 ≠ place)) other = said? marks other := by
  rw [said?, List.find?_filter, said?]
  congr 2
  funext mark
  by_cases heq : mark.1 = other
  · simp [heq, hother]
  · simp [heq]

/-- Whether a place is no name of a file that may have several. -/
def IsSole (files : Files) (place : Place) : Prop := ∀ mark ∈ files.shares, mark.1 ≠ place

instance (files : Files) (place : Place) : Decidable (files.IsSole place) :=
  inferInstanceAs (Decidable (∀ mark ∈ files.shares, mark.1 ≠ place))

section

variable {files changed : Files} {place other parent : Place} {name : Bytes}

theorem number?_eq_none_iff (files : Files) (place : Place) : files.number? place = none ↔ files.IsSole place := by
  simp [number?, said?, IsSole]

theorem mem_shares_of_number? {number : Nat} (h : files.number? place = some number) :
    (place, number) ∈ files.shares := by
  obtain ⟨mark, hmark, rfl⟩ := Option.map_eq_some_iff.mp h
  have hplace : mark.1 = place := by simpa using List.find?_some hmark
  exact hplace ▸ List.mem_of_find?_eq_some hmark

theorem WellFormed.isSole (h : files.WellFormed) (hplace : Entry.isFile (files.get? place) = false) :
    files.IsSole place := by
  rintro mark hmark rfl
  exact absurd (h.numbered mark hmark).2.1 (by simp [hplace])

theorem IsSole.twins (h : files.IsSole place) : files.twins place = [] := by
  rw [Files.twins, (number?_eq_none_iff files place).mpr h]

theorem IsSole.write (h : files.IsSole place) (content : Content) :
    files.write place content = files.put place (.file content) := by
  rw [Files.write, h.twins]
  rfl

theorem IsSole.isOneFile (h : files.IsSole place) (hne : place ≠ other) : files.isOneFile place other = false := by
  simp [Files.isOneFile, (number?_eq_none_iff files place).mpr h, hne]

theorem isOneFile_comm (files : Files) (place other : Place) : files.isOneFile place other = files.isOneFile other place := by
  unfold Files.isOneFile
  by_cases hsame : files.number? place = files.number? other
  · simp [hsame, eq_comm]
  · simp [hsame, Ne.symm hsame, eq_comm (a := place)]

/-- The names of one file are its twins and itself. -/
theorem WellFormed.isOneFile_iff (h : files.WellFormed) :
    files.isOneFile place other = true ↔ other = place ∨ other ∈ files.twins place := by
  unfold Files.isOneFile Files.twins
  cases hnumber : files.number? place with
  | none => simp [eq_comm]
  | some number =>
      have hmarked : files.number? other = some number ↔ (other, number) ∈ files.shares :=
        ⟨mem_shares_of_number?, fun hmark => (h.numbered _ hmark).1⟩
      by_cases hsame : place = other
      · simp [hsame]
      · have hswap : some number = files.number? other ↔ files.number? other = some number := eq_comm
        simp [hsame, Ne.symm hsame, hswap, hmarked]

/-! ## Well-formed changes -/

/-- A tree stays well formed when what is in a directory, no directory itself, changes, as long as numbers are those of
files and what nobody may take away stays. -/
theorem WellFormed.of_update (h : files.WellFormed) (hparent : files.get? parent = some .directory)
    (hplace : files.get? (parent ++ [name]) ≠ some .directory) {entry : Option Entry}
    (hget : changed.get? = Function.update files.get? (parent ++ [name]) entry)
    (hworking : changed.workingDirectory = files.workingDirectory)
    (hnumbered : ∀ mark ∈ changed.shares, changed.IsNumber mark) (hpinned : changed.pinned = files.pinned)
    (hkept : entry = none → parent ++ [name] ∉ files.pinned) : changed.WellFormed := by
  have hother : ∀ place, files.get? place = some .directory → changed.get? place = some .directory := by
    intro place hdirectory
    have hne : place ≠ parent ++ [name] := fun heq => hplace (heq ▸ hdirectory)
    rw [hget, Function.update_of_ne hne]
    exact hdirectory
  refine ⟨fun place last e he => ?_, ?_, hnumbered, fun place hin => ?_⟩
  · by_cases heq : place ++ [last] = parent ++ [name]
    · rw [(List.append_inj_left' heq rfl)]
      exact hother parent hparent
    · rw [hget, Function.update_of_ne heq] at he
      exact hother place (h.parent place last e he)
  · rw [hworking]
    exact hother _ h.working
  · rw [hpinned] at hin
    rw [hget]
    by_cases heq : place = parent ++ [name]
    · rw [heq, Function.update_self, Option.isSome_iff_ne_none]
      exact fun hnone => hkept hnone (heq ▸ hin)
    · rw [Function.update_of_ne heq]
      exact h.pinned place hin

/-- Numbers are still those of files where neither they nor the files that have them have changed. -/
theorem WellFormed.numbered_of_same (h : files.WellFormed) (hshares : changed.shares = files.shares)
    (hget : ∀ mark ∈ files.shares, changed.get? mark.1 = files.get? mark.1) :
    ∀ mark ∈ changed.shares, changed.IsNumber mark := by
  rw [hshares]
  intro mark hmark
  obtain ⟨hnumber, hfile, hsame⟩ := h.numbered mark hmark
  refine ⟨by rwa [number?, hshares], by rwa [hget mark hmark], ?_⟩
  rw [hshares]
  intro other hother hsameNumber
  rw [hget other hother, hget mark hmark]
  exact hsame other hother hsameNumber

/-- Something put where nothing was, in a directory. -/
theorem WellFormed.put_new (h : files.WellFormed) (hparent : files.get? parent = some .directory)
    (hfree : files.get? (parent ++ [name]) = none) (entry : Entry) : (files.put (parent ++ [name]) entry).WellFormed := by
  have hput := files.get?_put (List.concat_ne_nil name parent) entry
  have hsole : files.IsSole (parent ++ [name]) := h.isSole (by rw [hfree]; rfl)
  refine h.of_update hparent (by simp [hfree]) hput rfl (h.numbered_of_same rfl fun mark hmark => ?_) rfl (by rintro ⟨⟩)
  rw [hput, Function.update_of_ne (hsole mark hmark)]

/-- Something that is no directory is taken out of one, if its name may be taken away. -/
theorem WellFormed.erase (h : files.WellFormed) (hparent : files.get? parent = some .directory)
    (hplace : files.get? (parent ++ [name]) ≠ some .directory) (hfree : parent ++ [name] ∉ files.pinned) :
    (files.erase (parent ++ [name])).WellFormed := by
  have herased := files.get?_erase (List.concat_ne_nil name parent)
  have hleft : ∀ mark ∈ (files.erase (parent ++ [name])).shares, mark ∈ files.shares ∧ mark.1 ≠ parent ++ [name] := by
    intro mark hmark
    simpa using List.mem_filter.mp hmark
  have hget : ∀ mark ∈ (files.erase (parent ++ [name])).shares,
      (files.erase (parent ++ [name])).get? mark.1 = files.get? mark.1 := fun mark hmark => by
    rw [herased, Function.update_of_ne (hleft mark hmark).2]
  refine h.of_update hparent hplace herased rfl (fun mark hmark => ?_) rfl fun _ => hfree
  obtain ⟨hin, hne⟩ := hleft mark hmark
  obtain ⟨hnumber, hfile, hsame⟩ := h.numbered mark hin
  refine ⟨?_, by rwa [hget mark hmark], fun other hother hsameNumber => ?_⟩
  · rw [← hnumber]
    exact said?_filter_ne files.shares hne
  · rw [hget other hother, hget mark hmark]
    exact hsame other (hleft other hother).1 hsameNumber

theorem erase_shares (h : files.IsSole place) : (files.erase place).shares = files.shares :=
  List.filter_eq_self.mpr fun mark hmark => by simpa using h mark hmark

end

/-! ## Contents written -/

section

variable {files : Files} {place : Place}

/-- A content put at some places is at all of them, and nothing else has changed. -/
theorem get?_foldl_put (content : Content) (places : List Place) (hplaces : [] ∉ places) (files : Files) :
    (places.foldl (fun files name => files.put name (.file content)) files).get? =
      fun other => if other ∈ places then some (.file content) else files.get? other := by
  induction places generalizing files with
  | nil => simp
  | cons first rest ih =>
      obtain ⟨hfirst, hrest⟩ := not_or.mp (List.mem_cons.not.mp hplaces)
      rw [List.foldl_cons, ih hrest, get?_put _ (Ne.symm hfirst)]
      funext other
      by_cases hother : other = first
      · simp [hother]
      · simp [hother]

theorem foldl_put_marks (content : Content) (places : List Place) (files : Files) :
    let changed := places.foldl (fun files name => files.put name (.file content)) files
    changed.shares = files.shares ∧ changed.pinned = files.pinned ∧ changed.workingDirectory = files.workingDirectory := by
  induction places generalizing files with
  | nil => exact ⟨rfl, rfl, rfl⟩
  | cons first rest ih => exact ih _

theorem write_marks (files : Files) (place : Place) (content : Content) :
    (files.write place content).shares = files.shares ∧ (files.write place content).pinned = files.pinned ∧
      (files.write place content).workingDirectory = files.workingDirectory :=
  foldl_put_marks content _ (files.put place (.file content))

theorem mem_twins {other : Place} (h : other ∈ files.twins place) :
    ∃ number, files.number? place = some number ∧ (other, number) ∈ files.shares ∧ other ≠ place := by
  unfold twins at h
  split at h
  next => simp at h
  next number hnumber =>
    obtain ⟨mark, hmark, rfl⟩ := List.mem_map.mp h
    obtain ⟨hin, hother⟩ := List.mem_filter.mp hmark
    obtain ⟨rfl, hne⟩ : mark.2 = number ∧ mark.1 ≠ place := by simpa using hother
    exact ⟨_, hnumber, hin, hne⟩

theorem WellFormed.nil_notMem_twins (h : files.WellFormed) (place : Place) : [] ∉ files.twins place := by
  intro hin
  obtain ⟨number, -, hmark, -⟩ := mem_twins hin
  exact absurd (h.numbered _ hmark).2.1 (by simp [get?, Entry.isFile])

/-- What is written to a file is under all its names, and nothing else has changed. -/
theorem WellFormed.get?_write (h : files.WellFormed) (hplace : place ≠ []) (content : Content) :
    (files.write place content).get? =
      fun other => if files.isOneFile place other then some (.file content) else files.get? other := by
  rw [write, get?_foldl_put content _ (h.nil_notMem_twins place), get?_put _ hplace]
  funext other
  by_cases hother : other = place
  · have hself : files.isOneFile place other = true := h.isOneFile_iff.mpr (Or.inl hother)
    simp [hother, Files.isOneFile]
  · by_cases htwin : other ∈ files.twins place
    · simp [htwin, h.isOneFile_iff.mpr (Or.inr htwin)]
    · have hnot : files.isOneFile place other = false := by
        rw [Bool.eq_false_iff, ne_eq, h.isOneFile_iff]
        exact not_or.mpr ⟨hother, htwin⟩
      simp [hother, htwin, hnot]

/-- The names of one file hold the same. -/
theorem WellFormed.get?_of_isOneFile (h : files.WellFormed) {other : Place} (hone : files.isOneFile place other = true) :
    files.get? other = files.get? place := by
  rcases h.isOneFile_iff.mp hone with rfl | htwin
  · rfl
  · obtain ⟨number, hnumber, hmark, -⟩ := mem_twins htwin
    exact (h.numbered _ (mem_shares_of_number? hnumber)).2.2 _ hmark rfl

/-- A tree stays well formed when a file is written. -/
theorem WellFormed.write (h : files.WellFormed) {content : Content} (hfile : files.get? place = some (.file content))
    (new : Content) : (files.write place new).WellFormed := by
  have hplace : place ≠ [] := by
    rintro rfl
    cases hfile
  have hget := h.get?_write hplace new
  obtain ⟨hshares, hpinned, hworking⟩ := write_marks files place new
  have hsame : ∀ other, files.isOneFile place other = true → files.get? other = some (.file content) :=
    fun other hone => (h.get?_of_isOneFile hone).trans hfile
  have hother : ∀ there, files.get? there = some .directory → (files.write place new).get? there = some .directory := by
    intro there hdirectory
    have hnot : files.isOneFile place there = false := by
      by_contra hone
      simp [hsame there (by simpa using hone)] at hdirectory
    rw [hget]
    simp [hnot, hdirectory]
  refine ⟨fun there last entry hentry => ?_, ?_, fun mark hmark => ?_, fun there hin => ?_⟩
  · have hsome : ∃ entry, files.get? (there ++ [last]) = some entry := by
      rw [hget] at hentry
      dsimp only at hentry
      split at hentry
      next hone => exact ⟨_, hsame _ hone⟩
      next => exact ⟨_, hentry⟩
    obtain ⟨old, hold⟩ := hsome
    exact hother there (h.parent there last old hold)
  · rw [hworking]
    exact hother _ h.working
  · rw [hshares] at hmark
    obtain ⟨hnumber, hisFile, hclass⟩ := h.numbered mark hmark
    refine ⟨by rwa [number?, hshares], ?_, ?_⟩
    · rw [hget]
      dsimp only
      split
      next => rfl
      next => exact hisFile
    · rw [hshares, hget]
      intro other hin hsameNumber
      -- Both have one number, so both are names of the file or neither is.
      have hboth : files.isOneFile place other.1 = files.isOneFile place mark.1 := by
        have hnumber' := (h.numbered other hin).1
        have hplaces : ∀ there, files.number? there = some mark.2 → (files.isOneFile place there = true ↔
            files.number? place = some mark.2) := by
          intro there hthere
          by_cases heq : place = there
          · simp [Files.isOneFile, heq, hthere]
          · cases hown : files.number? place <;> simp [Files.isOneFile, heq, hthere, hown]
        rw [Bool.eq_iff_iff, hplaces _ (hsameNumber ▸ hnumber'), hplaces _ hnumber]
      simp only [hboth, hclass other hin hsameNumber]
  · rw [hpinned] at hin
    rw [hget]
    dsimp only
    split
    next => rfl
    next => exact h.pinned there hin

end

end Files

/-! ## Nodes

What is at a place together with its permissions and the time at which it was written. An operation on files leaves the
nodes at all other places as they were, whether much or little is said about them.
-/

namespace Files

/-- What is at a place, with its permissions and the time at which it was written. -/
def node? (files : Files) (place : Place) : Option (Entry × Nat × Nat) :=
  (files.get? place).map fun entry => (entry, files.permissionsAt place, files.timeAt place)

/-- Trees that have the same nodes but at some places. -/
structure SameBut (changing : Place → Prop) (files other : Files) : Prop where
  working : other.workingDirectory = files.workingDirectory
  node : ∀ place, ¬ changing place → other.node? place = files.node? place

section

variable {changing changing' : Place → Prop} {files other third : Files}

theorem SameBut.refl (changing : Place → Prop) (files : Files) : SameBut changing files files :=
  ⟨rfl, fun _ _ => rfl⟩

theorem SameBut.trans (h : SameBut changing files other) (h' : SameBut changing other third) :
    SameBut changing files third :=
  ⟨h'.working.trans h.working, fun place hplace => (h'.node place hplace).trans (h.node place hplace)⟩

theorem SameBut.mono (h : SameBut changing files other) (hmono : ∀ place, changing place → changing' place) :
    SameBut changing' files other :=
  ⟨h.working, fun place hplace => h.node place fun hin => hplace (hmono place hin)⟩

theorem SameBut.get? (h : SameBut changing files other) {place : Place} (hplace : ¬ changing place) :
    other.get? place = files.get? place := by
  have hnode := congrArg (Option.map Prod.fst) (h.node place hplace)
  simpa [node?, Option.map_map, Function.comp_def] using hnode

/-- A node is the same if the same is there, and the same is said about it. -/
theorem node?_congr {place : Place} (hget : other.get? place = files.get? place)
    (hpermissions : files.get? place ≠ none → said? other.permissions place = said? files.permissions place)
    (htimes : files.get? place ≠ none → said? other.times place = said? files.times place) :
    other.node? place = files.node? place := by
  by_cases hnone : files.get? place = none
  · simp [node?, hget, hnone]
  · rw [node?, node?, permissionsAt, permissionsAt, timeAt, timeAt, hget, hpermissions hnone, htimes hnone]

theorem put_sameBut {place : Place} (hplace : place ≠ []) (entry : Entry) :
    SameBut (· = place) files (files.put place entry) := by
  refine ⟨rfl, fun other hother => node?_congr ?_ (fun _ => rfl) fun _ => ?_⟩
  · rw [get?_put _ hplace, Function.update_of_ne hother]
  · rw [put, ← said?_filter_ne files.times hother]
    simp [said?, Ne.symm hother]

theorem erase_sameBut {place : Place} (hplace : place ≠ []) : SameBut (· = place) files (files.erase place) := by
  refine ⟨rfl, fun other hother => node?_congr ?_ (fun _ => ?_) fun _ => ?_⟩
  · rw [get?_erase _ hplace, Function.update_of_ne hother]
  · exact said?_filter_ne _ hother
  · exact said?_filter_ne _ hother

/-- Only what is at the source of a move, and below it, goes anywhere. -/
theorem goal_of_not_prefix {source target place : Place} (h : ¬ source <+: place) :
    move.goal source target place = place := by
  rw [move.goal, if_neg (by rwa [List.isPrefixOf_iff_prefix])]

/-- A place is where something has gone in a move of a file that it has no part in only if it was there before. -/
theorem WellFormed.goal_eq_iff (h : files.WellFormed) {source target place : Place}
    (hfile : files.get? source ≠ some .directory) (hfree : files.get? target = none)
    (hplace : files.get? place ≠ none) (hsource : place ≠ source) (old : Place) :
    move.goal source target old = place ↔ old = place := by
  have hsome : (files.get? place).isSome := Option.isSome_iff_ne_none.mpr hplace
  unfold move.goal
  split
  next hbelow =>
    obtain ⟨rest, hrest⟩ := List.isPrefixOf_iff_prefix.mp hbelow
    constructor
    · -- Nothing is at the target, or below it.
      rintro rfl
      by_cases hempty : old.drop source.length = []
      · rw [hempty, List.append_nil] at hplace
        exact absurd hfree hplace
      · rw [h.above _ hempty hsome] at hfree
        cases hfree
    · rintro rfl
      subst hrest
      have hempty : rest ≠ [] := fun hempty => hsource (by simp [hempty])
      exact absurd (h.above rest hempty hsome) hfile
  next => exact Iff.rfl

/-- What is said about an existing place is said about it after a move of a file that it has no part in. -/
theorem WellFormed.said?_moved (h : files.WellFormed) {source target place : Place}
    (hfile : files.get? source ≠ some .directory) (hfree : files.get? target = none)
    (hplace : files.get? place ≠ none) (hsource : place ≠ source) (marks : List (Place × Nat)) :
    said? (marks.map (move.moved source target)) place = said? marks place := by
  rw [said?, List.find?_map, Option.map_map, said?]
  have hsearch : (fun mark : Place × Nat => decide (mark.1 = place)) ∘ move.moved source target =
      fun mark => decide (mark.1 = place) :=
    funext fun mark => decide_eq_decide.mpr (h.goal_eq_iff hfile hfree hplace hsource mark.1)
  rw [hsearch]
  rfl

theorem WellFormed.move_sameBut (h : files.WellFormed) {source target : Place} (hsource : source ≠ [])
    (htarget : target ≠ []) (hne : source ≠ target) (hfile : files.get? source ≠ some .directory)
    (hfree : files.get? target = none) :
    SameBut (fun place => place = source ∨ place = target) files (files.move source target) := by
  refine ⟨rfl, fun place hplace => ?_⟩
  obtain ⟨hplaceSource, hplaceTarget⟩ := not_or.mp hplace
  refine node?_congr ?_ (fun hsome => ?_) fun hsome => ?_
  · rw [h.get?_move hsource htarget hne hfile hfree, Function.update_of_ne hplaceSource,
      Function.update_of_ne hplaceTarget]
  · exact h.said?_moved hfile hfree hsome hplaceSource _
  · exact h.said?_moved hfile hfree hsome hplaceSource _

end

/-! ## Moves of files with one name -/

section

variable {files : Files} {source target : Place}

/-- A move of a file with one name, which may be taken away, changes nothing in what is said about others. -/
theorem WellFormed.move_marks (h : files.WellFormed) (target : Place) (hfile : files.get? source ≠ some .directory)
    (hsole : files.IsSole source) (hfree : source ∉ files.pinned) :
    (files.move source target).shares = files.shares ∧ (files.move source target).pinned = files.pinned := by
  have hstays : ∀ place, (files.get? place).isSome = true → place ≠ source → move.goal source target place = place := by
    intro place hsome hne
    refine goal_of_not_prefix ?_
    rintro ⟨rest, rfl⟩
    exact hfile (h.above rest (fun hempty => hne (by simp [hempty])) hsome)
  constructor
  · have hmarks : ∀ mark ∈ files.shares, move.moved source target mark = id mark := by
      intro mark hmark
      have hsome : (files.get? mark.1).isSome = true := by
        have hnumbered := (h.numbered mark hmark).2.1
        cases hentry : files.get? mark.1 with
        | none => simp [hentry, Entry.isFile] at hnumbered
        | some entry => rfl
      exact Prod.ext (hstays mark.1 hsome (hsole mark hmark)) rfl
    exact (List.map_congr_left hmarks).trans (List.map_id _)
  · have hpins : ∀ place ∈ files.pinned, move.goal source target place = id place :=
      fun place hin => hstays place (h.pinned place hin) fun heq => hfree (heq ▸ hin)
    exact (List.map_congr_left hpins).trans (List.map_id _)

/-- A tree stays well formed when a file with one name moves to a free place in a directory. -/
theorem WellFormed.move (h : files.WellFormed) {content : Content} (hfile : files.get? source = some (.file content))
    (hsole : files.IsSole source) (hfree : source ∉ files.pinned) {parent : Place} {name : Bytes}
    (hparent : files.get? parent = some .directory) (htarget : files.get? (parent ++ [name]) = none) :
    (files.move source (parent ++ [name])).WellFormed := by
  obtain ⟨old, last, rfl⟩ : ∃ old last, source = old ++ [last] := by
    rcases List.eq_nil_or_concat' source with rfl | ⟨old, last, rfl⟩
    · cases hfile
    · exact ⟨old, last, rfl⟩
  have hne : old ++ [last] ≠ parent ++ [name] := by
    intro heq
    rw [heq, htarget] at hfile
    cases hfile
  have hnoDirectory : files.get? (old ++ [last]) ≠ some .directory := by simp [hfile]
  have hput := files.get?_put (List.concat_ne_nil name parent) (.file content)
  have hmoved : (files.move (old ++ [last]) (parent ++ [name])).get? =
      Function.update (files.put (parent ++ [name]) (.file content)).get? (old ++ [last]) none := by
    rw [h.get?_move (by simp) (by simp) hne hnoDirectory htarget, hfile, hput]
  obtain ⟨hshares, hpinned⟩ := h.move_marks (parent ++ [name]) hnoDirectory hsole hfree
  have hsoleTarget : files.IsSole (parent ++ [name]) := h.isSole (by rw [htarget]; rfl)
  have hold : files.get? old = some .directory := h.parent old last _ hfile
  have hneParent : old ≠ parent ++ [name] := fun heq => by simp [heq, htarget] at hold
  refine (h.put_new hparent htarget (.file content)).of_update ?_ ?_ hmoved rfl
    (h.numbered_of_same hshares fun mark hmark => ?_) hpinned fun _ => hfree
  · rw [hput, Function.update_of_ne hneParent, hold]
  · rw [hput, Function.update_of_ne hne, hfile]
    simp
  · rw [hmoved, Function.update_of_ne (hsole mark hmark), hput, Function.update_of_ne (hsoleTarget mark hmark)]

end

end Files

end MobilitySweep
