import MobilitySweep.Proofs.Files.Homes
import MobilitySweep.Proofs.Files.Names

/-! # Neighbours

A path and the same path with an ending lead side by side: where the second one leads somewhere, the first one leads to
a directory, or to the name without the ending in the same directory.
-/

namespace MobilitySweep

namespace Files

/-! ## Walks with a common front -/

/-- A scan of some names that has more to come, or asks for a directory, gets through the front whatever comes behind
it: it goes on from a directory, behind a link, or is stuck. -/
theorem scan_front {files : Files} (hfiles : files.WellFormed) (front : List Bytes) (here : Place)
    (hhere : files.get? here = some .directory) :
    (∃ parent, files.get? parent = some .directory ∧ ∀ follow slash tail, (tail = [] → slash = true) →
        files.scan follow slash here (front ++ tail) = files.scan follow slash parent tail) ∨
      (∃ place rest, files.get? place = some .directory ∧ ∀ follow slash tail, (tail = [] → slash = true) →
        files.scan follow slash here (front ++ tail) = .jump place (rest ++ tail) slash) ∨
      ∀ follow slash tail, tail ≠ [] → ∃ cause, files.scan follow slash here (front ++ tail) = .stuck cause := by
  induction front generalizing here with
  | nil => exact Or.inl ⟨here, hhere, fun _ _ _ _ => rfl⟩
  | cons name front ih =>
      rcases name_cases name with rfl | rfl | ⟨hdot, hdots, hlong⟩ | ⟨hdot, hdots, hshort⟩
      · simp only [List.cons_append, scan_here]
        exact ih here hhere
      · simp only [List.cons_append, scan_above]
        exact ih here.dropLast (hfiles.dropLast hhere)
      · simp only [List.cons_append, scan_long hdot hdots hlong]
        exact Or.inr (Or.inr fun _ _ _ _ => ⟨_, rfl⟩)
      · simp only [List.cons_append, scan_cons hdot hdots hshort]
        cases hentry : files.get? (here ++ [name]) with
        | none =>
            refine Or.inr (Or.inr fun _ _ tail htail => ⟨.missing, ?_⟩)
            simp [htail]
        | some entry =>
            cases entry with
            | directory => exact ih (here ++ [name]) hentry
            | file content =>
                refine Or.inr (Or.inr fun _ _ tail htail => ⟨.notDirectory, ?_⟩)
                simp [htail]
            | link target =>
                refine Or.inr (Or.inl ⟨if Path.isAbsolute target then [] else here, Path.names target ++ front, ?_,
                  fun follow slash tail htail => ?_⟩)
                · exact directory_behind hhere target
                · -- No more to come means that a directory is asked for, so the link is followed.
                  by_cases hempty : tail = []
                  · simp [htail hempty]
                  · simp [hempty]

/-- Walks with a common front come to the same directory behind it, with as many links left. -/
theorem walk_front {files : Files} (hfiles : files.WellFormed) (links : Nat) (front : List Bytes) (here : Place)
    (hhere : files.get? here = some .directory) {follow : Bool} {name : Bytes} {spot : Spot}
    (h : files.walk follow links false here (front ++ [name]) = .ok spot) :
    ∃ left parent, files.get? parent = some .directory ∧ ∀ follow slash tail, (tail = [] → slash = true) →
      files.walk follow links slash here (front ++ tail) = files.walk follow left slash parent tail := by
  rcases scan_front hfiles front here hhere with ⟨parent, hparent, hscan⟩ | ⟨place, rest, hplace, hscan⟩ | hstuck
  · exact ⟨links, parent, hparent, fun follow slash tail htail => walk_congr (hscan follow slash tail htail) links⟩
  · have hjump := hscan follow false [name] (by simp)
    cases links with
    | zero =>
        rw [walk, hjump] at h
        cases h
    | succ links =>
        rw [walk, hjump] at h
        obtain ⟨left, parent, hparent, hwalk⟩ := walk_front hfiles links rest place hplace h
        refine ⟨left, parent, hparent, fun follow slash tail htail => ?_⟩
        rw [walk, hscan follow slash tail htail]
        exact hwalk follow slash tail htail
  · obtain ⟨cause, hcause⟩ := hstuck follow false [name] (by simp)
    unfold walk at h
    rw [hcause] at h
    cases h

theorem walk_nil {files : Files} (follow : Bool) (links : Nat) (slash : Bool) (here : Place) :
    files.walk follow links slash here [] = .ok (.taken here .directory) :=
  walks_iff.mp (.arrived .done)

theorem walk_here {files : Files} (follow : Bool) (links : Nat) (slash : Bool) (here : Place) :
    files.walk follow links slash here [Path.here] = .ok (.taken here .directory) :=
  walks_iff.mp (.arrived (.here .done))

theorem walk_above {files : Files} (follow : Bool) (links : Nat) (slash : Bool) (here : Place) :
    files.walk follow links slash here [Path.above] = .ok (.taken here.dropLast .directory) :=
  walks_iff.mp (.arrived (.above .done))

/-- A scan of one name comes upon what bears the name. -/
theorem Scans.name {files : Files} {last : Bytes} (hlast : Bearable last) (parent : Place) :
    Scans files false false parent [last] (.arrived (files.spotAt (parent ++ [last]))) := by
  unfold spotAt
  split
  next hentry => exact .free hlast hentry
  next entry hentry =>
    cases entry with
    | directory => exact .down hlast hentry .done
    | file content => exact .file hlast hentry rfl
    | link target => exact .link hlast hentry rfl rfl

theorem walk_name {files : Files} {last : Bytes} (hlast : Bearable last) (links : Nat) (parent : Place) :
    files.walk false links false parent [last] = .ok (files.spotAt (parent ++ [last])) :=
  walks_iff.mp (.arrived (.name hlast parent))

theorem length_of_walk_name {files : Files} {last : Bytes} (hhere : last ≠ Path.here) (habove : last ≠ Path.above)
    {links : Nat} {parent : Place} {spot : Spot} (h : files.walk false links false parent [last] = .ok spot) :
    last.length ≤ nameLimit := by
  by_contra hlong
  have hstuck : files.walk false links false parent [last] = .error .nameTooLong :=
    walks_iff.mp (.stuck (.long hhere habove (Nat.not_le.mp hlong)))
  cases hstuck.symm.trans h

end Files

/-! ## Paths with an ending -/

namespace Path

/-- An ending that makes a plain name of every name. -/
structure Ending (ending : Bytes) : Prop where
  noSlash : ('/' : UInt8) ∉ ending
  long : 2 < ending.length

instance (ending : Bytes) : Decidable (Ending ending) :=
  decidable_of_iff (('/' : UInt8) ∉ ending ∧ 2 < ending.length)
    ⟨fun ⟨hslash, hlong⟩ => ⟨hslash, hlong⟩, fun h => ⟨h.noSlash, h.long⟩⟩

theorem Ending.plain {ending : Bytes} (h : Ending ending) {name : Bytes} (hname : ('/' : UInt8) ∉ name) :
    Plain (name ++ ending) := by
  have hlong : 2 < (name ++ ending).length := h.long.trans_le (by simp)
  refine ⟨fun heq => ?_, fun hslash => ?_, fun heq => ?_, fun heq => ?_⟩
  · rw [heq] at hlong
    cases hlong
  · exact (List.mem_append.mp hslash).elim hname h.noSlash
  · have hshort : here.length ≤ 2 := by decide +kernel
    rw [heq] at hlong
    omega
  · have hshort : above.length ≤ 2 := by decide +kernel
    rw [heq] at hlong
    omega

/-- Every path ends in the text behind its last slash. -/
theorem exists_endsIn (path : Bytes) : ∃ last, ('/' : UInt8) ∉ last ∧ EndsIn last path := by
  induction path with
  | nil => exact ⟨[], by simp, Or.inl rfl⟩
  | cons b path ih =>
      obtain ⟨last, hlast, rfl | ⟨front, rfl⟩⟩ := ih
      · by_cases hslash : b = ('/' : UInt8)
        · exact ⟨path, hlast, Or.inr ⟨[], by simp [hslash]⟩⟩
        · refine ⟨b :: path, ?_, Or.inl rfl⟩
          simp [hlast, Ne.symm hslash]
      · exact ⟨last, hlast, Or.inr ⟨b :: front, rfl⟩⟩

theorem EndsIn.base {last path : Bytes} (h : EndsIn last path) (hlast : Plain last) : base path = last := by
  have hkeep : ∀ b ∈ last.reverse, decide (b ≠ ('/' : UInt8)) = true := fun b hb =>
    decide_eq_true fun hslash => hlast.noSlash (hslash ▸ List.mem_reverse.mp hb)
  have hname : (path.reverse.takeWhile (· ≠ ('/' : UInt8))).reverse = last := by
    rcases h with rfl | ⟨front, rfl⟩
    · rw [List.takeWhile_eq_self_iff.mpr hkeep, List.reverse_reverse]
    · rw [List.reverse_append, List.reverse_cons, List.append_assoc, List.takeWhile_append_of_pos hkeep]
      simp
  have hstripped : (path.reverse.dropWhile (· = ('/' : UInt8))).reverse = path :=
    Files.withoutSlash_eq (h.endsWithSlash hlast)
  have hempty : path.isEmpty = false := by simpa using h.ne_nil hlast
  simp only [Path.base, hstripped, hempty, Bool.false_eq_true, if_false, splitLast, hname]

/-- An ending changes the last one of the names of a path only. -/
theorem EndsIn.names_append {last path : Bytes} (h : EndsIn last path) (hlast : ('/' : UInt8) ∉ last) :
    ∃ front, names path = front ++ [last].filter (!·.isEmpty) ∧
      ∀ ending, Ending ending → names (path ++ ending) = front ++ [last ++ ending] := by
  have hnames {text name : Bytes} (before : List Bytes) (hpieces : Path.pieces text = before ++ [name]) :
      names text = before.filter (!·.isEmpty) ++ [name].filter (!·.isEmpty) := by
    rw [names, hpieces, List.filter_append]
  have hkept {ending : Bytes} (hending : Ending ending) :
      [last ++ ending].filter (!·.isEmpty) = [last ++ ending] := by
    have hne := (hending.plain hlast).ne_nil
    rw [List.filter_singleton, List.isEmpty_eq_false_iff.mpr hne]
    rfl
  rcases h with rfl | ⟨front, rfl⟩
  · refine ⟨_, hnames [] (Bytes.splitOn_piece hlast), fun ending hending => ?_⟩
    rw [hnames [] (Bytes.splitOn_piece (hending.plain hlast).noSlash), hkept hending]
  · refine ⟨_, hnames _ (Bytes.splitOn_append hlast front), fun ending hending => ?_⟩
    have hpieces := Bytes.splitOn_append (hending.plain hlast).noSlash front
    rw [List.append_assoc, List.cons_append, hnames _ hpieces, hkept hending]

end Path

namespace Files

/-- Whether a path leads to a directory, a link at its end followed or not. -/
def IsFolder (files : Files) (path : Bytes) : Prop :=
  ∃ place, files.get? place = some .directory ∧ ∀ follow, files.resolve follow path = .ok (.taken place .directory)

/-- Where a path with an ending leads somewhere, the path itself leads to a directory, or to its own last name in the
same directory. -/
theorem resolve_beside {files : Files} (hfiles : files.WellFormed) {path ending : Bytes}
    (hending : Path.Ending ending) (hpath : path ≠ []) {spot : Spot}
    (h : files.resolve false (path ++ ending) = .ok spot) :
    ∃ parent last, files.get? parent = some .directory ∧ spot = files.spotAt (parent ++ [last ++ ending]) ∧
      (last ++ ending).length ≤ nameLimit ∧ (files.IsFolder path ∨
        Path.Plain last ∧ Path.EndsIn last path ∧ files.resolve false path = .ok (files.spotAt (parent ++ [last]))) := by
  obtain ⟨last, hlast, hin⟩ := Path.exists_endsIn path
  obtain ⟨front, hnames, hnamesEnding⟩ := hin.names_append hlast
  have hplain := hending.plain hlast
  have hfits := fits_of_resolve h
  have hfits' : Fits path := by
    obtain ⟨hnull, -, hlength⟩ := hfits
    refine ⟨?_, by simpa using hpath, ?_⟩
    · simp only [List.contains_eq_mem, List.mem_append, decide_eq_false_iff_not] at hnull ⊢
      exact fun hzero => hnull (Or.inl hzero)
    · rw [List.length_append] at hlength
      omega
  have hstart : files.start (path ++ ending) = files.start path := by
    rw [start, start, Path.isAbsolute, Path.isAbsolute, List.head?_append_of_ne_nil _ hpath]
  rw [resolve_of_fits hfits, (hin.append ending).endsWithSlash hplain, hstart, hnamesEnding ending hending] at h
  -- Both paths walk the same names up to their last one.
  obtain ⟨left, parent, hparent, hwalk⟩ :=
    walk_front hfiles linkLimit front (files.start path) (start_directory hfiles path) h
  rw [hwalk false false [last ++ ending] (by simp)] at h
  have hlength := length_of_walk_name hplain.ne_here hplain.ne_above h
  rw [walk_name ⟨hplain.ne_here, hplain.ne_above, hlength⟩, Except.ok.injEq] at h
  refine ⟨parent, last, hparent, h.symm, hlength, ?_⟩
  have hlead (follow : Bool) {tail : List Bytes} (htail : Path.names path = front ++ tail)
      (hslash : tail = [] → endsWithSlash path = true) :
      files.resolve follow path = files.walk follow left (endsWithSlash path) parent tail := by
    rw [resolve_of_fits hfits', htail, hwalk follow _ tail hslash]
  -- A last name that is empty, here or above leads to a directory; any other one is a name beside.
  by_cases hempty : last = []
  · subst hempty
    refine Or.inl ⟨parent, hparent, fun follow => ?_⟩
    have hslash : endsWithSlash path = true := by
      rcases hin with rfl | ⟨before, rfl⟩
      · exact absurd rfl hpath
      · simp [endsWithSlash]
    rw [hlead follow hnames fun _ => hslash]
    exact walk_nil follow left _ parent
  have hnames' : Path.names path = front ++ [last] := by
    rw [hnames, List.filter_singleton, List.isEmpty_eq_false_iff.mpr hempty]
    rfl
  by_cases hhere : last = Path.here
  · refine Or.inl ⟨parent, hparent, fun follow => ?_⟩
    rw [hlead follow hnames' (by simp), hhere]
    exact walk_here follow left _ parent
  by_cases habove : last = Path.above
  · refine Or.inl ⟨parent.dropLast, hfiles.dropLast hparent, fun follow => ?_⟩
    rw [hlead follow hnames' (by simp), habove]
    exact walk_above follow left _ parent
  have hname : Path.Plain last := ⟨hempty, hlast, hhere, habove⟩
  refine Or.inr ⟨hname, hin, ?_⟩
  have hshort : last.length ≤ nameLimit := le_trans (by simp) hlength
  rw [hlead false hnames' (by simp), hin.endsWithSlash hname]
  exact walk_name ⟨hhere, habove, hshort⟩ left parent

end Files

end MobilitySweep
