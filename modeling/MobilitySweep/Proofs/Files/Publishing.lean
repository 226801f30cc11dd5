import MobilitySweep.Proofs.Concurrency.Ensures
import MobilitySweep.Proofs.Files.Homes
import MobilitySweep.Sweep.Publishing

/-! # Publishing among others

While others change files elsewhere, a text is published at the home of a path completely or not at all, and
a file is replaced by its archive completely or not at all.
-/

namespace MobilitySweep

namespace Files

/-- Others leave some places alone. -/
abbrev Spares (mine : Place → Prop) : Files → Files → Prop := Alike fun place => ¬ mine place

section

variable {mine : Place → Prop}

theorem Spares.refl (mine : Place → Prop) (files : Files) : Spares mine files files := Alike.refl _ files

theorem Spares.get? {files other : Files} (h : Spares mine files other) {place : Place} (hplace : mine place) :
    other.get? place = files.get? place :=
  h.outside place (not_not.mpr hplace)

/-- A place of one's own is as it was unless it is one of those that were changed. -/
theorem Alike.get?_kept {changing : Place → Prop} {files other : Files}
    (h : Alike (fun place => changing place ∨ ¬ mine place) files other) {place : Place} (hplace : mine place)
    (hkept : ¬ changing place) : other.get? place = files.get? place :=
  h.outside place fun hin => hin.elim hkept fun hnot => hnot hplace

/-- Anything may have happened to files since. -/
abbrev Since (files other : Files) : Prop := Alike (fun _ => True) files other

theorem Alike.since {changing : Place → Prop} {files other : Files} (h : Alike changing files other) :
    Since files other :=
  h.mono fun _ _ => trivial

/-- What a program promises among others it also does when it is alone. -/
theorem since_of_ensures {α : Type} {mine changing : Place → Prop} {post : α → Files → Prop} {p : Steps Files α}
    (h : Steps.Ensures (Spares mine) (Alike changing) post p files) : Since files (p.run files).2 := by
  have htracked : Steps.Ensures (Spares mine) (Alike changing) (fun value t => post value t ∧ Since files t) p
      files := by
    refine Steps.Ensures.track ?_ ?_ ?_ h
    · exact fun _ _ _ => Alike.trans
    · exact fun _ _ => Alike.since
    · exact fun _ _ => Alike.since
  exact (htracked.run (Spares.refl mine)).2

theorem ensures_attempt {rely guarantee : Files → Files → Prop} {post : Option Fault → Files → Prop}
    {action : Files → Files × Option Fault} {files : Files}
    (h : ∀ t, rely files t → guarantee t (action t).1 ∧ ∀ u, rely (action t).1 u → post (action t).2 u) :
    Steps.Ensures rely guarantee post (Archive.attempt action) files := h

/-- A new file at a home, or none if there cannot be one. -/
theorem create_ensures {files : Files} {path : Bytes} {home : Option Place} (hfiles : files.WellFormed)
    (hhome : Lodged files path home) (hmine : ∀ place ∈ home, mine place) :
    Steps.Ensures (Spares mine) (Alike (· ∈ home))
      (fun fault t => (fault = none → ∃ place ∈ home, files.IsLoose place ∧ t.get? place = some (.file (.bytes []))) ∧
        (fault ≠ none → ∀ place ∈ home, ¬ files.IsLoose place))
      (Archive.attempt (·.create path)) files := by
  refine ensures_attempt fun t ht => ?_
  rcases (hhome.alike ht).create_cases with ⟨place, hplace, hloose, hcreate⟩ | ⟨hblocked, fault, hcreate⟩
  · have hhomed := (hhome.homed place hplace).alike ht
    rw [hcreate]
    refine ⟨(hhomed.put_alike (ht.wellFormed.mp hfiles) hloose _).mono ?_, fun u hu => ⟨fun _ => ?_, ?_⟩⟩
    · rintro _ rfl
      exact hplace
    · refine ⟨place, hplace, ht.isLoose.mp hloose, ?_⟩
      rw [hu.get? (hmine place hplace), get?_put _ hhomed.ne_nil, Function.update_self]
    · exact fun hfault => absurd rfl hfault
  · rw [hcreate]
    refine ⟨Alike.refl _ t, fun u _ => ⟨by rintro ⟨⟩, fun _ place hplace hloose => ?_⟩⟩
    exact hblocked place hplace (ht.isLoose.mpr hloose)

/-- A file with a text becomes one with a longer text. -/
theorem append_ensures {files : Files} {path : Bytes} {place : Place} (hfiles : files.WellFormed)
    (hhome : Homed files path place) (hmine : mine place) {old : Bytes}
    (hfile : files.get? place = some (.file (.bytes old))) (text : Bytes) :
    Steps.Ensures (Spares mine) (Alike (· = place))
      (fun _ t => t.get? place = some (.file (.bytes (old ++ text))))
      (Steps.change fun (files : Files) => files.append path text) files := by
  refine Steps.ensures_change fun t ht => ?_
  have hhomed := hhome.alike ht
  have hfile' : t.get? place = some (.file (.bytes old)) := (ht.get? hmine).trans hfile
  rw [hhomed.append hfile']
  refine ⟨hhomed.put_alike (ht.wellFormed.mp hfiles) ?_ _, fun u hu => ?_⟩
  · exact (isLoose_iff t place).mpr (Or.inr ⟨_, hfile'⟩)
  · rw [hu.get? hmine, get?_put _ hhomed.ne_nil, Function.update_self]

/-- A file removed, unless its name may not be taken away. -/
theorem remove_ensures {files : Files} {path : Bytes} {place : Place} (hfiles : files.WellFormed)
    (hhome : Homed files path place) (hmine : mine place) {content : Content}
    (hfile : files.get? place = some (.file content)) :
    Steps.Ensures (Spares mine) (Alike (· = place))
      (fun fault t => (fault = none → t.get? place = none) ∧ (fault ≠ none → place ∈ files.pinned))
      (Archive.attempt (·.remove path)) files := by
  refine ensures_attempt fun t ht => ?_
  have hhomed := hhome.alike ht
  have hfile' : t.get? place = some (.file content) := (ht.get? hmine).trans hfile
  rcases hhomed.remove_cases hfile' with ⟨hfree, hremove⟩ | ⟨hpinned, fault, hremove⟩
  · rw [hremove]
    refine ⟨hhomed.erase_alike (ht.wellFormed.mp hfiles) ?_ hfree, fun u hu => ⟨fun _ => ?_, fun h => absurd rfl h⟩⟩
    · exact (isLoose_iff t place).mpr (Or.inr ⟨_, hfile'⟩)
    · rw [hu.get? hmine, get?_erase _ hhomed.ne_nil, Function.update_self]
  · rw [hremove]
    exact ⟨Alike.refl _ t, fun u _ => ⟨by rintro ⟨⟩, fun _ => ht.pinned ▸ hpinned⟩⟩

/-- A file discarded, if it can be. -/
theorem discard_ensures {files : Files} {path : Bytes} {place : Place} (hfiles : files.WellFormed)
    (hhome : Homed files path place) (hmine : mine place) {content : Content}
    (hfile : files.get? place = some (.file content)) :
    Steps.Ensures (Spares mine) (Alike (· = place)) (fun _ _ => True)
      (Steps.change fun (files : Files) => (files.remove path).1) files := by
  refine Steps.ensures_change fun t ht => ?_
  exact ⟨(remove_ensures hfiles hhome hmine hfile t ht).1, fun _ _ => trivial⟩

/-- A file renamed, or left where it is if it cannot be. -/
theorem rename_ensures {files : Files} {source target : Bytes} {old : Place} {home : Option Place}
    (hfiles : files.WellFormed) (hsource : Homed files source old) (htarget : Lodged files target home)
    (hold : mine old) (hmine : ∀ new ∈ home, mine new) (hne : ∀ new ∈ home, old ≠ new) {content : Content}
    (hfile : files.get? old = some (.file content)) :
    Steps.Ensures (Spares mine) (Alike fun place => place = old ∨ place ∈ home)
      (fun fault t =>
        (fault = none → t.get? old = none ∧ ∃ new ∈ home, t.get? new = some (.file content)) ∧
        (fault ≠ none → t.get? old = some (.file content) ∧
          (old ∈ files.pinned ∨ ∀ new ∈ home, ¬ files.IsOpen new) ∧ ∀ new ∈ home, t.get? new = files.get? new))
      (Archive.attempt (·.rename source target)) files := by
  refine ensures_attempt fun t ht => ?_
  have hsource' := hsource.alike ht
  have hfiles' := ht.wellFormed.mp hfiles
  have hfile' : t.get? old = some (.file content) := (ht.get? hold).trans hfile
  rcases hsource'.rename_cases (htarget.alike ht) hfiles' hne hfile' with
    ⟨new, hnew, hopen, renamed, hrename, hmoved⟩ | ⟨hblocked, fault, hrename⟩
  · rw [hrename]
    have halike := hmoved.alike ((htarget.homed new hnew).alike ht) hfiles' hfile' hopen.1
    refine ⟨halike.mono ?_, fun u hu => ⟨fun _ => ⟨?_, new, hnew, ?_⟩, fun hfault => absurd rfl hfault⟩⟩
    · rintro q (rfl | rfl)
      · exact Or.inl rfl
      · exact Or.inr hnew
    · rw [hu.get? hold, hmoved.get?, Function.update_self]
    · rw [hu.get? (hmine new hnew), hmoved.get?, Function.update_of_ne (hne new hnew).symm, Function.update_self]
  · rw [hrename]
    refine ⟨Alike.refl _ t, fun u hu => ⟨by rintro ⟨⟩, fun _ => ⟨?_, ?_, fun new hnew => ?_⟩⟩⟩
    · rw [hu.get? hold, hfile']
    · exact hblocked.imp (fun hin => ht.pinned ▸ hin) fun hnone new hnew hopen => hnone new hnew (ht.isOpen.mpr hopen)
    · rw [hu.get? (hmine new hnew), ht.get? (hmine new hnew)]

/-- What a program on files leaves alone, and others too, is the same at the end. -/
theorem ensures_frame {α : Type} {changing : Place → Prop} {post : α → Files → Prop} {p : Steps Files α}
    {files : Files} (h : Steps.Ensures (Spares mine) (Alike changing) post p files) :
    Steps.Ensures (Spares mine) (Alike changing)
      (fun value t => post value t ∧ Alike (fun place => changing place ∨ ¬ mine place) files t) p files := by
  refine Steps.Ensures.track ?_ ?_ ?_ h
  · exact fun _ _ _ => Alike.trans
  · exact fun _ _ hspares => hspares.mono fun _ => Or.inr
  · exact fun _ _ halike => halike.mono fun _ => Or.inl

/-- Less of the tree may change than is allowed. -/
theorem ensures_within {α : Type} {changing changing' : Place → Prop} {post : α → Files → Prop}
    {p : Steps Files α} {files : Files} (h : Steps.Ensures (Spares mine) (Alike changing) post p files)
    (hwithin : ∀ place, changing place → changing' place) :
    Steps.Ensures (Spares mine) (Alike changing') post p files :=
  h.mono (fun _ _ => id) (fun _ _ halike => halike.mono hwithin) (fun _ _ => id)

/-- A draft is given up with a result: all else is as it was. -/
theorem giveUp_ensures {α : Type} {files : Files} {path : Bytes} {draft : Place} (hfiles : files.WellFormed)
    (hhome : Homed files path draft) (hmine : mine draft) {content : Content}
    (hfile : files.get? draft = some (.file content)) (result : α) :
    Steps.Ensures (Spares mine) (Alike (· = draft))
      (fun value t => value = result ∧ ∀ place, mine place → draft ≠ place → t.get? place = files.get? place)
      ((Steps.change fun (files : Files) => (files.remove path).1) >>= fun _ => pure result) files := by
  refine (ensures_frame (discard_ensures hfiles hhome hmine hfile)).bind (Spares.refl mine) ?_
  rintro _ t ⟨-, ht⟩
  refine Steps.ensures_pure fun u hu => ⟨rfl, fun place hplace hne => ?_⟩
  rw [hu.get? hplace, ht.get?_kept hplace hne.symm]

/-- A file is taken away with a result: it is gone, or may not be taken away, and all else is as it was. -/
theorem retire_ensures {α : Type} {files : Files} {path : Bytes} {place : Place} (hfiles : files.WellFormed)
    (hhome : Homed files path place) (hmine : mine place) {content : Content}
    (hfile : files.get? place = some (.file content)) (failed : Fault → α) (result : α) :
    Steps.Ensures (Spares mine) (Alike (· = place))
      (fun value t => (value = result ∧ t.get? place = none ∨ (∃ fault, value = failed fault) ∧ place ∈ files.pinned) ∧
        ∀ other, mine other → place ≠ other → t.get? other = files.get? other)
      (Archive.attempt (·.remove path) >>= fun fault => match fault with
        | some fault => pure (failed fault)
        | none => pure result) files := by
  refine (ensures_frame (remove_ensures hfiles hhome hmine hfile)).bind (Spares.refl mine) ?_
  rintro fault t ⟨⟨hgone, hpinned⟩, ht⟩
  have hothers : ∀ u, Spares mine t u → ∀ other, mine other → place ≠ other → u.get? other = files.get? other := by
    intro u hu other hother hne
    rw [hu.get? hother, ht.get?_kept hother hne.symm]
  cases fault with
  | none =>
      exact Steps.ensures_pure fun u hu => ⟨Or.inl ⟨rfl, by rw [hu.get? hmine, hgone rfl]⟩, hothers u hu⟩
  | some fault =>
      exact Steps.ensures_pure fun u hu => ⟨Or.inr ⟨⟨fault, rfl⟩, hpinned (by simp)⟩, hothers u hu⟩

/-- An empty file that gets a text and the home of a path has it, or the home is as it was. -/
theorem install_ensures {files : Files} {temporary path : Bytes} {old : Place} {home : Option Place}
    (hfiles : files.WellFormed) (htemporary : Homed files temporary old) (hhome : Lodged files path home)
    (hold : mine old) (hmine : ∀ place ∈ home, mine place) (hne : ∀ new ∈ home, old ≠ new)
    (hempty : files.get? old = some (.file (.bytes []))) (text : Bytes) :
    Steps.Ensures (Spares mine) (Alike fun place => place = old ∨ place ∈ home)
      (fun fault t => (fault = none → ∃ new ∈ home, t.get? new = some (.file (.bytes text))) ∧
        (fault ≠ none → t.get? old = some (.file (.bytes text)) ∧
          (old ∈ files.pinned ∨ ∀ new ∈ home, ¬ files.IsOpen new) ∧ ∀ new ∈ home, t.get? new = files.get? new))
      ((Steps.change fun (files : Files) => files.append temporary text) >>= fun _ =>
        Archive.attempt (·.rename temporary path)) files := by
  refine (ensures_within (ensures_frame (append_ensures hfiles htemporary hold hempty text))
    fun _ => Or.inl).bind (Spares.refl mine) ?_
  rintro _ t ⟨hfile, ht⟩
  refine (rename_ensures (ht.wellFormed.mp hfiles) (htemporary.alike ht) (hhome.alike ht) hold hmine hne
    hfile).weaken ?_
  rintro fault u ⟨hrenamed, hkept⟩
  refine ⟨fun hfault => ?_, fun hfault => ?_⟩
  · exact (hrenamed hfault).2
  · obtain ⟨hfile, hblocked, hhomeKept⟩ := hkept hfault
    refine ⟨hfile, ?_, fun new hnew => ?_⟩
    · exact hblocked.imp (fun hin => ht.pinned ▸ hin) fun hnone new hnew hopen => hnone new hnew (ht.isOpen.mpr hopen)
    · rw [hhomeKept new hnew, ht.get?_kept (hmine new hnew) (hne new hnew).symm]

/-- A text is at the home of its path, or the home is as it was. Nothing is in the way of publishing when
both homes are open. -/
theorem publish_ensures {files : Files} {path text : Bytes} {draft home : Option Place}
    (hfiles : files.WellFormed) (hdraft : Lodged files (path ++ Archive.temporaryEnding) draft)
    (hhome : Lodged files path home) (hne : ∀ old ∈ draft, ∀ new ∈ home, old ≠ new)
    (hmineDraft : ∀ place ∈ draft, mine place) (hmine : ∀ place ∈ home, mine place) :
    Steps.Ensures (Spares mine) (Alike fun place => place ∈ draft ∨ place ∈ home)
      (fun failure t => (failure = none → ∃ place ∈ home, t.get? place = some (.file (.bytes text))) ∧
        (failure ≠ none → (∀ place ∈ home, t.get? place = files.get? place) ∧
          ((∃ place ∈ draft, files.IsOpen place) → ∀ place ∈ home, ¬ files.IsOpen place)))
      (publish path text) files := by
  have hrefl : ∀ files, Spares mine files files := Spares.refl mine
  unfold publish
  refine (ensures_within (ensures_frame (create_ensures hfiles hdraft hmineDraft)) fun _ => Or.inl).bind hrefl ?_
  rintro fault t ⟨⟨hcreated, hblocked⟩, ht⟩
  have hhomeSame : ∀ place ∈ home, t.get? place = files.get? place := fun place hplace =>
    ht.get?_kept (hmine place hplace) fun hin => hne place hin place hplace rfl
  -- Until the draft is installed the home is as it was, so a failure at any stage leaves it so.
  cases fault with
  | some fault =>
      refine Steps.ensures_pure fun u hu => ⟨by rintro ⟨⟩, fun _ => ⟨fun place hplace => ?_, ?_⟩⟩
      · rw [hu.get? (hmine place hplace), hhomeSame place hplace]
      · rintro ⟨place, hplace, hopen⟩
        exact absurd hopen.1 (hblocked (by simp) place hplace)
  | none =>
      obtain ⟨old, hold, -, hempty⟩ := hcreated rfl
      have hfiles' := ht.wellFormed.mp hfiles
      have hhomed : Homed t (path ++ Archive.temporaryEnding) old := (hdraft.homed old hold).alike ht
      refine Steps.ensures_of_eq (Steps.bind_bind _ _ _).symm ((ensures_within (ensures_frame
        (install_ensures hfiles' hhomed (hhome.alike ht) (hmineDraft old hold) hmine (hne old hold) hempty text))
        ?_).bind hrefl ?_)
      · rintro place (rfl | hplace)
        · exact Or.inl hold
        · exact Or.inr hplace
      rintro fault u ⟨⟨hinstalled, hkept⟩, hu⟩
      cases fault with
      | none =>
          obtain ⟨new, hnew, htext⟩ := hinstalled rfl
          refine Steps.ensures_pure fun v hv => ⟨fun _ => ⟨new, hnew, ?_⟩, fun h => absurd rfl h⟩
          rw [hv.get? (hmine new hnew), htext]
      | some fault =>
          obtain ⟨hdraftKept, hblocked, hhomeKept⟩ := hkept (by simp)
          refine (ensures_within (giveUp_ensures (hu.wellFormed.mp hfiles') (hhomed.alike hu) (hmineDraft old hold)
            hdraftKept _) ?_).weaken ?_
          · rintro _ rfl
            exact Or.inl hold
          rintro _ v ⟨rfl, hkept⟩
          refine ⟨by rintro ⟨⟩, fun _ => ⟨fun place hplace => ?_, fun hdraftOpen place hplace hopen => ?_⟩⟩
          · rw [hkept place (hmine place hplace) (hne old hold place hplace), hhomeKept place hplace,
              hhomeSame place hplace]
          · obtain ⟨other, hother, hotherOpen⟩ := hdraftOpen
            obtain rfl := Option.mem_unique hother hold
            rcases hblocked with hpinned | hnone
            · exact hotherOpen.2 (ht.pinned ▸ hpinned)
            · exact hnone place hplace (ht.isOpen.mpr hopen)

/-- What is opened under a path is what is at its home. -/
theorem open_ensures {files : Files} {path : Bytes} {home : Option Place} (hhome : Lodged files path home)
    (hmine : ∀ place ∈ home, mine place) :
    Steps.Ensures (Spares mine) (Alike fun _ => False)
      (fun opened _ => ∀ entry, opened.1 = .ok entry → ∃ place ∈ home, files.get? place = some entry)
      (Steps.look fun files => (files.openFile path, files.timeOf path)) files := by
  refine Steps.ensures_look (fun t => Alike.refl _ t) fun t ht u _ entry hopened => ?_
  cases home with
  | none =>
      obtain ⟨cause, hcause⟩ := (hhome.alike ht).homeless rfl true
      simp [Files.openFile, Files.stat, hcause, bind, Except.bind, Except.mapError] at hopened
  | some place =>
      refine ⟨place, rfl, ?_⟩
      have hhomed := (hhome.homed place rfl).alike ht
      rw [← ht.get? (hmine place rfl)]
      simp only [Files.openFile, hhomed.stat] at hopened
      cases hentry : t.get? place with
      | none => simp [hentry, Except.mapError] at hopened
      | some found => simpa [hentry, Except.mapError] using hopened

theorem Homed.isSameFile {files : Files} {path other : Bytes} {place place' : Place} (h : Homed files path place)
    (h' : Homed files other place') (hne : place ≠ place') : files.isSameFile path other = false := by
  have hapart := h.sole.isOneFile hne
  unfold Files.isSameFile
  rw [h.resolves, h'.resolves, spotAt, spotAt]
  grind

/-- An opened file is left alone when another one is created. -/
theorem remaining_ensures {files : Files} {path created : Bytes} {place place' : Place} (h : Homed files path place)
    (h' : Homed files created place') (hne : place ≠ place') (opened : Entry) (time : Nat) :
    Steps.Ensures (Spares mine) (Alike fun _ => False) (fun left t => left = (opened, time) ∧ Spares mine files t)
      (Steps.look (Archive.remaining path created opened time)) files := by
  refine Steps.ensures_look (fun t => Alike.refl _ t) fun t ht u hu => ⟨?_, ht.trans hu⟩
  rw [Archive.remaining, (h.alike ht).isSameFile (h'.alike ht) hne]
  rfl

theorem packed_eq_ok {path : Bytes} {opened : Entry} {time : Nat} {bytes : Bytes}
    (h : Archive.packed path opened time = .ok bytes) :
    ∃ content, opened = .file content ∧ Archive.pack? (Path.base path) time content.toBytes = some bytes := by
  cases opened with
  | file content =>
      refine ⟨content, rfl, ?_⟩
      simp only [Archive.packed, readOpened, Except.mapError, bind, Except.bind] at h
      split at h
      next heq => rw [heq, Except.ok.inj h]
      next => cases h
  | directory => simp [Archive.packed, readOpened, Except.mapError, bind, Except.bind] at h
  | link target => simp [Archive.packed, readOpened, Except.mapError, bind, Except.bind] at h

theorem Homed.checksum {files : Files} {path : Bytes} {place : Place} (h : Homed files path place)
    {content : Content} (hfile : files.get? place = some (.file content)) :
    Archive.checksum files path = .ok ("sha256:" ++ Sha256.hexDigest content.toBytes) := by
  unfold Archive.checksum
  rw [h.openFile hfile]
  rfl

/-- A file is replaced by its archive and gone then, or the home of the archive is as it was, unless the file may not be
taken away. -/
theorem compress_ensures {files : Files} {path : Bytes} {log archive draft : Option Place}
    (hfiles : files.WellFormed) (hlog : Lodged files path log)
    (harchive : Lodged files (Archive.pathFor path) archive)
    (hdraft : Lodged files (Archive.pathFor path ++ Archive.temporaryEnding) draft)
    (hneDraft : ∀ old ∈ draft, ∀ new ∈ archive, old ≠ new) (hneLog : ∀ old ∈ draft, ∀ new ∈ log, old ≠ new)
    (hneArchive : ∀ old ∈ archive, ∀ new ∈ log, old ≠ new) (hmineLog : ∀ place ∈ log, mine place)
    (hmineArchive : ∀ place ∈ archive, mine place) (hmineDraft : ∀ place ∈ draft, mine place) :
    Steps.Ensures (Spares mine) (Alike fun place => place ∈ log ∨ place ∈ archive ∨ place ∈ draft)
      (fun result t =>
        (result.2 = none → (∀ place ∈ log, t.get? place = none) ∧ result.1 = Archive.pathFor path ∧
          ∃ place ∈ log, ∃ content time bytes, files.get? place = some (.file content) ∧
            Archive.pack? (Path.base path) time content.toBytes = some bytes ∧
            ∃ place ∈ archive, t.get? place = some (.file (.bytes bytes))) ∧
        (result.2 ≠ none → (∀ place ∈ log, place ∉ files.pinned) →
          ∀ place ∈ archive, t.get? place = files.get? place))
      (Archive.compress path) files := by
  have hrefl : ∀ files, Spares mine files files := Spares.refl mine
  unfold Archive.compress
  refine (ensures_within (ensures_frame (open_ensures hlog hmineLog)) fun _ => False.elim).bind hrefl ?_
  rintro ⟨opened, written⟩ t ⟨hopened, ht⟩
  have hsame : ∀ place, mine place → t.get? place = files.get? place := fun place hplace => ht.get?_kept hplace id
  cases opened with
  | error fault =>
      refine Steps.ensures_pure fun u hu => ⟨by rintro ⟨⟩, fun _ _ place hplace => ?_⟩
      rw [hu.get? (hmineArchive place hplace), hsame place (hmineArchive place hplace)]
  | ok entry =>
      obtain ⟨source, hsource, hentry⟩ := hopened entry rfl
      have hfiles' := ht.wellFormed.mp hfiles
      refine (ensures_within (ensures_frame (create_ensures hfiles' (hdraft.alike ht) hmineDraft))
        fun _ => fun hin => Or.inr (Or.inr hin)).bind hrefl ?_
      rintro fault u ⟨⟨hcreated, -⟩, hu⟩
      -- The draft is a place of its own, so neither the file nor the home of its archive has changed.
      have harchiveSame : ∀ place ∈ archive, u.get? place = files.get? place := fun place hplace =>
        (hu.get?_kept (hmineArchive place hplace) fun hin => hneDraft place hin place hplace rfl).trans
          (hsame place (hmineArchive place hplace))
      have hsourceSame : u.get? source = files.get? source :=
        (hu.get?_kept (hmineLog source hsource) fun hin => hneLog source hin source hsource rfl).trans
          (hsame source (hmineLog source hsource))
      cases fault with
      | some fault =>
          refine Steps.ensures_pure fun v hv => ⟨by rintro ⟨⟩, fun _ _ place hplace => ?_⟩
          rw [hv.get? (hmineArchive place hplace), harchiveSame place hplace]
      | none =>
          obtain ⟨old, hold, -, hempty⟩ := hcreated rfl
          have hfiles'' := hu.wellFormed.mp hfiles'
          have hhomed : Homed u (Archive.pathFor path ++ Archive.temporaryEnding) old :=
            ((hdraft.homed old hold).alike ht).alike hu
          have hlogHomed := ((hlog.homed source hsource).alike ht).alike hu
          have hneOld : source ≠ old := fun heq => hneLog old hold source hsource heq.symm
          refine (ensures_within (remaining_ensures hlogHomed hhomed hneOld entry written)
            fun _ => False.elim).bind hrefl ?_
          rintro _ u' ⟨rfl, hu'⟩
          refine Steps.Ensures.stable ?_ ?_ hu'
          · exact fun _ _ _ => Alike.trans
          dsimp only
          cases hpacked : Archive.packed path entry written with
          | error fault =>
              refine (ensures_within (giveUp_ensures hfiles'' hhomed (hmineDraft old hold) hempty _) ?_).weaken ?_
              · rintro _ rfl
                exact Or.inr (Or.inr hold)
              rintro _ v ⟨rfl, hkept⟩
              refine ⟨by rintro ⟨⟩, fun _ _ place hplace => ?_⟩
              rw [hkept place (hmineArchive place hplace) (hneDraft old hold place hplace), harchiveSame place hplace]
          | ok bytes =>
              obtain ⟨content, rfl, hbytes⟩ := packed_eq_ok hpacked
              refine Steps.ensures_of_eq (Steps.bind_bind _ _ _).symm ((ensures_within (ensures_frame
                (install_ensures hfiles'' hhomed ((harchive.alike ht).alike hu) (hmineDraft old hold) hmineArchive
                  (hneDraft old hold) hempty bytes)) ?_).bind hrefl ?_)
              · rintro place (rfl | hplace)
                · exact Or.inr (Or.inr hold)
                · exact Or.inr (Or.inl hplace)
              rintro fault v ⟨⟨hinstalled, hkept⟩, hv⟩
              have hwell := hv.wellFormed.mp hfiles''
              cases fault with
              | some fault =>
                  obtain ⟨hdraftKept, -, harchiveKept⟩ := hkept (by simp)
                  refine (ensures_within (giveUp_ensures hwell (hhomed.alike hv) (hmineDraft old hold) hdraftKept _)
                    ?_).weaken ?_
                  · rintro _ rfl
                    exact Or.inr (Or.inr hold)
                  rintro _ x ⟨rfl, hstill⟩
                  refine ⟨by rintro ⟨⟩, fun _ _ place hplace => ?_⟩
                  rw [hstill place (hmineArchive place hplace) (hneDraft old hold place hplace),
                    harchiveKept place hplace, harchiveSame place hplace]
              | none =>
                  obtain ⟨new, hnew, htext⟩ := hinstalled rfl
                  have hneNew : source ≠ new := fun heq => hneArchive new hnew source hsource heq.symm
                  have hnotInstalled : ¬(source = old ∨ source ∈ archive) := by
                    rintro (heq | hin)
                    · exact hneOld heq
                    · exact hneArchive source hin source hsource rfl
                  have hstill : v.get? source = some (.file content) := by
                    rw [hv.get?_kept (hmineLog source hsource) hnotInstalled, hsourceSame, hentry]
                  refine (ensures_within (retire_ensures hwell (hlogHomed.alike hv) (hmineLog source hsource) hstill _ _)
                    ?_).weaken ?_
                  · rintro _ rfl
                    exact Or.inl hsource
                  rintro _ x ⟨⟨rfl, hgone⟩ | ⟨⟨fault, rfl⟩, hpinned⟩, hkept⟩
                  · refine ⟨fun _ => ⟨fun place hplace => ?_, rfl, source, hsource, content, written, bytes, hentry,
                      hbytes, new, hnew, ?_⟩, fun h => absurd rfl h⟩
                    · exact Option.mem_unique hplace hsource ▸ hgone
                    · rw [hkept new (hmineArchive new hnew) hneNew, htext]
                  · refine ⟨by rintro ⟨⟩, fun _ hfree => absurd ?_ (hfree source hsource)⟩
                    exact ht.pinned ▸ hu.pinned ▸ hv.pinned ▸ hpinned

end

end Files

end MobilitySweep
