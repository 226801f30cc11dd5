import MobilitySweep.Proofs.Files.Replacing
import MobilitySweep.Proofs.Files.Reprovisioning

/-! # Files that are appended to

A path that was opened for appending leads to one file from then on, whatever comes into being beside it and whatever is
written. Appended bytes stand at the end of this file, and no other file changes.
-/

namespace MobilitySweep

namespace Files

variable {files other : Files} {path : Bytes} {place : Place}

/-! ## Walks to free places -/

section

variable {follow slash : Bool} {links : Nat} {here : Place} {names : List Bytes} {content : Content}

/-- A scan that finds a free place finds a file there once there is one, unless it asks for a directory. -/
theorem Scans.filled_file (h : Scans files follow slash here names (.arrived (.free place false)))
    (hextends : Extends files other) (hfile : other.get? place = some (.file content)) :
    Scans other follow slash here names (.arrived (.taken place (.file content))) := by
  generalize harrived : Progress.arrived (Spot.free place false) = progress at h
  induction h with
  | done | long | missing | file | blocked | link | jump => cases harrived
  | here _ ih => exact .here (ih harrived)
  | above _ ih => exact .above (ih harrived)
  | down hname hentry _ ih => exact .down hname (hextends.entries _ _ hentry) (ih harrived)
  | free hname =>
      cases harrived
      exact .file hname hfile rfl

theorem Walks.filled_file (h : Walks files follow links slash here names (.ok (.free place false)))
    (hextends : Extends files other) (hfile : other.get? place = some (.file content)) :
    Walks other follow links slash here names (.ok (.taken place (.file content))) := by
  generalize hresult : Except.ok (Spot.free place false) = result at h
  induction h with
  | arrived hscan =>
      cases hresult
      exact .arrived (hscan.filled_file hextends hfile)
  | stuck | exhausted => cases hresult
  | jump hscan _ ih => exact .jump (hscan.jump_along hextends.ways id) (ih hresult)

end

/-- A path to a free place leads to the file that is there in a tree which has grown by one. -/
theorem resolve_free (hfiles : files.WellFormed) {follow slash : Bool}
    (h : files.resolve follow path = .ok (.free place slash)) :
    files.Vacant place ∧ ∀ other content, slash = false → Extends files other →
      other.get? place = some (.file content) → other.resolve follow path = .ok (.taken place (.file content)) := by
  have hfits := fits_of_resolve h
  have hwalk := (resolve_iff hfits).mp h
  refine ⟨hwalk.vacant hfiles (start_directory hfiles path), fun other content hslash hother hfile => ?_⟩
  have hstart : other.start path = files.start path := by rw [start, start, hother.working]
  subst hslash
  rw [resolve_iff hfits, hstart]
  exact hwalk.filled_file hother hfile

/-! ## Paths that lead to files -/

/-- The place of the file that a path leads to, if it leads to one. -/
def filePlace? (files : Files) (path : Bytes) : Option Place :=
  match files.resolve true path with
  | .ok (.taken place (.file _)) => some place
  | _ => none

/-- Whether a path leads to the file at a place, under whatever name of it. -/
def leadsTo (files : Files) (path : Bytes) (place : Place) : Bool :=
  match files.filePlace? path with
  | some there => files.isOneFile there place
  | none => false

/-- A path that leads to a file, and where it is. -/
def Reaches (files : Files) (path : Bytes) (place : Place) : Prop :=
  ∃ content, files.resolve true path = .ok (.taken place (.file content)) ∧ files.get? place = some (.file content)

theorem Reaches.filePlace?_eq (h : files.Reaches path place) : files.filePlace? path = some place := by
  obtain ⟨content, hresolve, -⟩ := h
  rw [filePlace?, hresolve]

theorem Reaches.leadsTo_eq (h : files.Reaches path place) (there : Place) :
    files.leadsTo path there = files.isOneFile place there := by
  rw [leadsTo, h.filePlace?_eq]

theorem isOneFile_congr (h : other.shares = files.shares) (place there : Place) :
    other.isOneFile place there = files.isOneFile place there := by
  rw [isOneFile, isOneFile, number?, number?, number?, number?, h]

theorem Reaches.of_resolve {content : Content} (h : files.resolve true path = .ok (.taken place (.file content))) :
    files.Reaches path place := by
  refine ⟨content, h, (get?_of_resolve h).resolve_left ?_⟩
  rintro ⟨⟩

theorem Reaches.ne_nil (h : files.Reaches path place) : place ≠ [] := by
  rintro rfl
  obtain ⟨content, -, hentry⟩ := h
  cases hentry

theorem Reaches.extends (h : files.Reaches path place) (hother : Extends files other) : other.Reaches path place := by
  obtain ⟨content, hresolve, -⟩ := h
  exact .of_resolve (hother.resolve hresolve)

/-- What is in files is no matter to paths. -/
theorem Reaches.alike {changing : Place → Prop} (h : files.Reaches path place) (halike : Alike changing files other)
    (hother : other.WellFormed) {content : Content} (hfile : other.get? place = some (.file content)) :
    other.Reaches path place := by
  obtain ⟨old, hresolve, -⟩ := h
  obtain ⟨spot, hspot, hplace, -⟩ := resolve_taken halike hresolve
  cases spot with
  | free there slash =>
      obtain rfl : there = place := hplace
      rw [(resolve_free hother hspot).1.free] at hfile
      cases hfile
  | taken there entry =>
      obtain rfl : there = place := hplace
      rcases get?_of_resolve hspot with rfl | hentry
      · obtain ⟨spot, hback, -, hsame⟩ := resolve_taken halike.symm hspot
        rw [hsame (Or.inr rfl), hresolve] at hback
        cases hback
      · obtain rfl := Option.some.inj (hentry.symm.trans hfile)
        exact .of_resolve hspot

/-- A tree in which a file has another content is alike but for the names of this file, and as well formed. -/
theorem write_alike (hfiles : files.WellFormed) (hplace : place ≠ []) {old : Content}
    (hold : files.get? place = some (.file old)) (new : Content) :
    Alike (fun there => files.isOneFile place there = true) files (files.write place new) := by
  have hget := hfiles.get?_write hplace new
  obtain ⟨hshares, hpinned, hworking⟩ := write_marks files place new
  refine ⟨hworking, hshares, hpinned, fun there hthere => ?_, fun there => ?_,
    iff_of_true hfiles (hfiles.write hold new)⟩
  · rw [hget]
    simp [hthere]
  · rw [hget]
    dsimp only
    split
    next hone =>
      rw [hfiles.get?_of_isOneFile hone, hold]
      rfl
    next => rfl

/-! ## Opening and appending -/

/-- The bytes of the file at a place, none where there is no file. -/
def bytesAt (files : Files) (place : Place) : Bytes :=
  match files.get? place with
  | some (.file content) => content.toBytes
  | _ => []

theorem writablePlace_eq_ok (h : files.writablePlace path = .ok place) :
    files.Reaches path place ∨ files.resolve true path = .ok (.free place false) := by
  unfold writablePlace at h
  split at h
  next => cases hresolve : files.resolve false (withoutSlash path) <;> simp [hresolve, bind, Except.bind] at h
  next =>
    cases hresolve : files.resolve true path with
    | error cause => simp [hresolve, bind, Except.bind] at h
    | ok spot =>
        simp only [hresolve, bind, Except.bind] at h
        cases spot with
        | free there slash =>
            cases slash with
            | true => cases h
            | false =>
                cases h
                exact Or.inr rfl
        | taken there entry =>
            cases entry with
            | directory => cases h
            | file content =>
                cases h
                exact Or.inl (.of_resolve hresolve)
            | link target =>
                exact absurd rfl ((resolve_iff (fits_of_resolve hresolve)).mp hresolve).ne_link

/-- Nothing is written where a directory or an empty file comes into being. -/
theorem Vacant.bytesAt_put (h : files.Vacant place) (hfiles : files.WellFormed) {entry : Entry}
    (hentry : entry = .directory ∨ entry = .file (.bytes [])) (there : Place) :
    (files.put place entry).bytesAt there = files.bytesAt there := by
  rw [bytesAt, bytesAt, (h.put hfiles entry).2.2]
  by_cases hthere : there = place
  · rw [hthere, Function.update_self, h.free]
    rcases hentry with rfl | rfl <;> rfl
  · rw [Function.update_of_ne hthere]

theorem bytesAt_mkdir (hfiles : files.WellFormed) {made : Files} (h : files.mkdir path = .ok made) (there : Place) :
    made.bytesAt there = files.bytesAt there := by
  obtain ⟨place, slash, hresolve, rfl⟩ := mkdir_eq_ok h
  exact (resolve_free hfiles hresolve).1.bytesAt_put hfiles (Or.inl rfl) there

/-- Making directories writes nothing. -/
theorem bytesAt_mkdirChain (hfiles : files.WellFormed) (texts : List Bytes) (there : Place) :
    (files.mkdirChain texts).1.bytesAt there = files.bytesAt there := by
  induction texts with
  | nil => rfl
  | cons path parents ih =>
      obtain ⟨hwell, -⟩ := mkdirChain_extends hfiles parents
      unfold mkdirChain
      split
      next => rfl
      next => rfl
      next =>
        split
        next hparents => rw [hparents] at ih; exact ih
        next below hparents =>
          rw [hparents] at hwell ih
          split
          next made hmade => exact (bytesAt_mkdir hwell hmade there).trans ih
          next => split <;> exact ih

/-- A path opened for appending leads to a file, which is empty if there was none. All else stays. -/
theorem openAppend_eq_none {opened : Files} (hfiles : files.WellFormed) (h : files.openAppend path = (opened, none)) :
    opened.WellFormed ∧ Extends files opened ∧ (∃ place, opened.Reaches path place) ∧
      ∀ place, opened.bytesAt place = files.bytesAt place := by
  unfold openAppend at h
  split at h
  next place hplace =>
    rcases writablePlace_eq_ok hplace with hreaches | hfree
    · obtain ⟨content, -, hentry⟩ := id hreaches
      rw [hentry] at h
      cases h
      exact ⟨hfiles, Extends.refl files, ⟨place, hreaches⟩, fun _ => rfl⟩
    · obtain ⟨hvacant, hfilled⟩ := resolve_free hfiles hfree
      obtain ⟨hwell, hextends, hput⟩ := hvacant.put hfiles (.file (.bytes []))
      have hsole : files.IsSole place := hfiles.isSole (by rw [hvacant.free]; rfl)
      rw [hvacant.free, hsole.write] at h
      cases h
      refine ⟨hwell, hextends, ⟨place, ?_⟩, hvacant.bytesAt_put hfiles (Or.inr rfl)⟩
      exact .of_resolve (hfilled _ _ rfl hextends (by rw [hput, Function.update_self]))
  next => cases h

/-- Appended bytes stand at the end of the file that the path leads to, under all its names. Every path leads where it
led. -/
theorem Reaches.append (h : files.Reaches path place) (hfiles : files.WellFormed) (text : Bytes) :
    (files.append path text).WellFormed ∧ (files.append path text).shares = files.shares ∧
      (∀ path' place', files.Reaches path' place' → (files.append path text).Reaches path' place') ∧
        ∀ there, (files.append path text).bytesAt there =
          files.bytesAt there ++ if files.isOneFile place there then text else [] := by
  obtain ⟨content, hresolve, hentry⟩ := id h
  have happend : files.append path text = files.write place (.bytes (content.toBytes ++ text)) := by
    unfold Files.append
    rw [hresolve]
  have hwell := hfiles.write hentry (.bytes (content.toBytes ++ text))
  have halike := write_alike hfiles h.ne_nil hentry (.bytes (content.toBytes ++ text))
  have hget := hfiles.get?_write h.ne_nil (.bytes (content.toBytes ++ text))
  rw [happend]
  refine ⟨hwell, halike.shares, fun path' place' hreaches => ?_, fun there => ?_⟩
  · obtain ⟨content', -, hentry'⟩ := id hreaches
    have hfile : ∃ new, (files.write place (.bytes (content.toBytes ++ text))).get? place' = some (.file new) := by
      rw [hget]
      dsimp only
      split
      next => exact ⟨_, rfl⟩
      next => exact ⟨_, hentry'⟩
    obtain ⟨new, hnew⟩ := hfile
    exact hreaches.alike halike hwell hnew
  · rw [bytesAt, bytesAt, hget]
    by_cases hone : files.isOneFile place there = true
    · simp [hone, hfiles.get?_of_isOneFile hone, hentry, Content.toBytes]
    · simp [hone]

end Files

end MobilitySweep
