import MobilitySweep.Proofs.Files.Confinement

/-! # Enclosure by components

Where there are no links, a path is accepted in a root exactly if the names of the root, as both are spelled out from
the working directory, come first among its own. Which of the directories exist makes no difference.
-/

namespace MobilitySweep

namespace Path

/-! ## Paths spelled out -/

/-- One name of a path taken from a place: a dot stays there, two dots go up, and any other name goes down. -/
def descend (place : Place) (name : Bytes) : Place :=
  if name = here then place else if name = above then place.dropLast else place ++ [name]

theorem here_ne_above : here ≠ above := by decide +kernel

section

variable {absolute : Bool} {base : Place}

theorem descend_plain {name : Bytes} (h : Plain name) (place : Place) : descend place name = place ++ [name] := by
  rw [descend, if_neg h.ne_here, if_neg h.ne_above]

theorem descend_above (place : Place) : descend place above = place.dropLast := by
  rw [descend, if_neg here_ne_above.symm, if_pos rfl]

theorem foldl_descend_plain {plain : List Bytes} (h : ∀ name ∈ plain, Plain name) (place : Place) :
    plain.foldl descend place = place ++ plain := by
  induction plain generalizing place with
  | nil => simp
  | cons name plain ih =>
      rw [List.foldl_cons, descend_plain (h name List.mem_cons_self), ih fun other hother =>
        h other (List.mem_cons_of_mem name hother)]
      simp

theorem foldl_descend_climbs (climbs : Nat) (place : Place) :
    (List.replicate climbs above).foldl descend place = place.take (place.length - climbs) := by
  induction climbs generalizing place with
  | zero => simp
  | succ climbs ih =>
      rw [List.replicate_succ, List.foldl_cons, descend_above, ih, List.length_dropLast, List.dropLast_eq_take,
        List.take_take]
      congr 1
      omega

/-- Normalising goes the same way as the names do, from the root or, for a relative path, from anywhere. -/
theorem push_descend {stack : List Bytes} (hstack : here ∉ stack) (hbase : absolute = true → base = []) {name : Bytes}
    (hname : name ≠ []) :
    here ∉ push absolute stack name ∧
      (push absolute stack name).reverse.foldl descend base = descend (stack.reverse.foldl descend base) name := by
  have hdots := here_ne_above
  by_cases hhere : name = here
  · have hpush : push absolute stack name = stack := by simp [push, hhere]
    rw [hpush, hhere]
    exact ⟨hstack, (if_pos rfl).symm⟩
  by_cases habove : name = above
  · subst habove
    rw [descend_above]
    cases stack with
    | nil =>
        cases absolute with
        | true => simp [push, hbase rfl, Ne.symm hdots, hname]
        | false => simp [push, hdots, Ne.symm hdots, hname, descend_above]
    | cons top rest =>
        simp only [List.mem_cons, not_or] at hstack
        by_cases hclimb : top = above
        · simp [push, hclimb, hdots, Ne.symm hdots, hname, hstack, List.foldl_append, descend_above]
        · have htop : top ≠ here := Ne.symm hstack.1
          simp [push, hclimb, htop, Ne.symm hdots, hname, hstack, List.foldl_append, descend]
  · have hpush : push absolute stack name = name :: stack := by simp [push, hname, hhere, habove]
    rw [hpush, List.reverse_cons, List.foldl_append]
    exact ⟨by simp [Ne.symm hhere, hstack], rfl⟩

/-- The components of a path lead where its names lead. -/
theorem foldl_components (path : Bytes) (hbase : isAbsolute path = true → base = []) :
    (components path).foldl descend base = (names path).foldl descend base := by
  have hfold : ∀ (list stack : List Bytes), here ∉ stack →
      (list.foldl (push (isAbsolute path)) stack).reverse.foldl descend base =
        (list.filter (!·.isEmpty)).foldl descend (stack.reverse.foldl descend base) := by
    intro list
    induction list with
    | nil => exact fun _ _ => rfl
    | cons name list ih =>
        intro stack hstack
        rw [List.foldl_cons]
        by_cases hname : name = []
        · subst hname
          exact ih stack hstack
        · obtain ⟨hpush, hdescend⟩ := push_descend hstack hbase hname
          rw [ih _ hpush, hdescend, List.filter_cons_of_pos (by simpa using hname), List.foldl_cons]
  exact hfold (pieces path) [] List.not_mem_nil

example : (components "site/./new/..//positions/").foldl descend ["work"] = ["work", "site", "positions"] := by
  decide +kernel

end

/-! ## Paths below others -/

theorem joinWith_append {front rest : List Bytes} (hfront : front ≠ []) (hrest : rest ≠ []) :
    Bytes.joinWith "/" (front ++ rest) = Bytes.joinWith "/" front ++ "/" ++ Bytes.joinWith "/" rest := by
  induction front with
  | nil => exact absurd rfl hfront
  | cons name front ih =>
      rcases front with _ | ⟨next, front⟩
      · obtain ⟨first, others, rfl⟩ := List.exists_cons_of_ne_nil hrest
        rfl
      · have hjoin := ih (List.cons_ne_nil next front)
        simp only [List.cons_append, Bytes.joinWith] at hjoin ⊢
        rw [hjoin]
        simp

/-- A path lies below another one just if it has its components in front. -/
theorem isBelow_iff {path root : List Bytes} (hpath : ∀ name ∈ path, IsName name) (hroot : ∀ name ∈ root, IsName name) :
    isBelow (ofComponents true path) (ofComponents true root) = true ↔ root <+: path := by
  refine ⟨prefix_of_isBelow hpath hroot, ?_⟩
  rintro ⟨rest, rfl⟩
  rw [isBelow, Bool.or_eq_true, decide_eq_true_eq]
  by_cases hrest : rest = []
  · exact Or.inl (by rw [hrest, List.append_nil])
  · refine Or.inr (List.isPrefixOf_iff_prefix.mpr ?_)
    by_cases hempty : root = []
    · subst hempty
      have hall : (Bytes.dropSuffix? "/" (ofComponents true [])).getD (ofComponents true []) ++ "/" = "/" := by
        decide +kernel
      rw [hall]
      exact List.prefix_append _ _
    · rw [dropSuffix?_ofComponents hroot hempty, Option.getD_none, ofComponents_true, ofComponents_true,
        joinWith_append hempty hrest, ← List.append_assoc, ← List.append_assoc]
      exact List.prefix_append _ _

end Path

namespace Files

variable {files : Files}

/-! ## Trees without links -/

theorem descend_name {name : Bytes} (h : Bearable name) (place : Place) :
    Path.descend place name = place ++ [name] := by
  rw [Path.descend, if_neg h.ne_here, if_neg h.ne_above]

/-- A scan that arrives has gone where the names lead, dots included. -/
theorem Scans.place_eq {follow slash : Bool} {here : Place} {names : List Bytes} {spot : Spot}
    (h : Scans files follow slash here names (.arrived spot)) : spot.place = names.foldl Path.descend here := by
  generalize harrived : Progress.arrived spot = progress at h
  induction h with
  | long | missing | blocked | jump => cases harrived
  | done =>
      cases harrived
      rfl
  | here _ ih => exact ih harrived
  | above _ ih => rw [List.foldl_cons, Path.descend_above, ih harrived]
  | down hname _ _ ih => rw [List.foldl_cons, descend_name hname, ih harrived]
  | free hname | file hname | link hname =>
      cases harrived
      rw [List.foldl_cons, descend_name hname]
      rfl

theorem Scans.link_of_jump {follow slash slash' : Bool} {here start : Place} {names rest : List Bytes}
    (h : Scans files follow slash here names (.jump start rest slash')) :
    ∃ place target, files.get? place = some (.link target) := by
  generalize hjump : Progress.jump start rest slash' = progress at h
  induction h with
  | done | long | free | missing | file | blocked | link => cases hjump
  | here _ ih | above _ ih | down _ _ _ ih => exact ih hjump
  | jump _ hentry => exact ⟨_, _, hentry⟩

/-- Whether a tree has no link. -/
def LinkFree (files : Files) : Prop := ∀ place target, files.get? place ≠ some (.link target)

section

variable {parts : List Bytes} (hlinks : files.LinkFree)
include hlinks

/-- Without links a walk is a single scan. -/
theorem LinkFree.scans {follow slash : Bool} {links : Nat} {here : Place} {names : List Bytes} {spot : Spot}
    (h : Walks files follow links slash here names (.ok spot)) :
    Scans files follow slash here names (.arrived spot) := by
  cases h with
  | arrived hscan => exact hscan
  | jump hscan _ =>
      obtain ⟨place, target, hlink⟩ := hscan.link_of_jump
      exact absurd hlink (hlinks place target)

theorem LinkFree.evaluate? (hparts : ∀ name ∈ parts, Path.Plain name) {place : Place}
    (h : files.evaluate? parts = some place) : place = parts := by
  unfold Files.evaluate? at h
  split at h
  next there entry hwalk =>
    obtain rfl := Option.some.inj h
    have hplace := (hlinks.scans (walks_iff.mpr hwalk)).place_eq
    rwa [Path.foldl_descend_plain hparts, List.nil_append] at hplace
  next => cases h

/-- Without links nothing of a path is replaced, wherever it ceases to exist. -/
theorem LinkFree.resolveExisting (hparts : ∀ name ∈ parts, Path.Plain name) :
    files.resolveExisting parts.reverse = parts := by
  induction parts using List.reverseRecOn with
  | nil => rfl
  | append_singleton parts name ih =>
      rw [resolveExisting_concat]
      cases heval : files.evaluate? (parts ++ [name]) with
      | some place => exact hlinks.evaluate? hparts heval
      | none => rw [Option.getD_none, ih fun other hother => hparts other (List.mem_append_left _ hother)]

end

/-! ## The check of a path -/

/-- The place that the names of a path spell out from where the path starts. -/
def spelled (files : Files) (path : Bytes) : Place := (Path.names path).foldl Path.descend (files.start path)

/-- The components of the absolute form of a path are what its names spell out. -/
theorem components_absolutePath_eq (hworking : ∀ name ∈ files.workingDirectory, Path.Plain name) (path : Bytes) :
    Path.components (files.absolutePath path) = files.spelled path := by
  obtain ⟨climbs, plain, hcomponents, hplain, habsolute⟩ := components_absolutePath hworking path
  have hstart : Path.isAbsolute path = true → files.start path = [] := fun hroot => if_pos hroot
  rw [spelled, ← Path.foldl_components path hstart, hcomponents, List.foldl_append, Path.foldl_descend_climbs,
    Path.foldl_descend_plain hplain, habsolute, start]
  split
  next => simp
  next => rfl

theorem LinkFree.resolvedRoot (hlinks : files.LinkFree)
    (hworking : ∀ name ∈ files.workingDirectory, Path.Plain name) (root : Bytes) :
    files.resolvedRoot root = Path.ofComponents true (files.spelled root) := by
  rw [Files.resolvedRoot, ← components_absolutePath_eq hworking,
    hlinks.resolveExisting (plain_of_mem_absolutePath hworking root)]

theorem LinkFree.resolvedPath (hlinks : files.LinkFree)
    (hworking : ∀ name ∈ files.workingDirectory, Path.Plain name) (path : Bytes) :
    files.resolvedPath path = Path.ofComponents true (files.spelled path) := by
  have hparts := plain_of_mem_absolutePath hworking path
  rw [Files.resolvedPath, ← components_absolutePath_eq hworking]
  generalize Path.components (files.absolutePath path) = parts at hparts ⊢
  rcases List.eq_nil_or_concat' parts with rfl | ⟨before, name, rfl⟩
  · rfl
  · rw [List.reverse_append, List.reverse_singleton, List.singleton_append]
    dsimp only
    rw [hlinks.resolveExisting fun other hother => hparts other (List.mem_append_left _ hother)]

/-- In a tree without links a path is accepted in a root just if the names of the root come first among its own. -/
theorem LinkFree.validatePath_iff_prefix (hlinks : files.LinkFree)
    (hworking : ∀ name ∈ files.workingDirectory, Path.Plain name) {path root : Bytes} :
    files.validatePath path root = .ok () ↔
      path ≠ [] ∧ root ≠ [] ∧ (0 : UInt8) ∉ path ∧ files.spelled root <+: files.spelled path := by
  have hnames : ∀ path, ∀ name ∈ files.spelled path, Path.IsName name := by
    intro path name hname
    rw [← components_absolutePath_eq hworking] at hname
    exact (plain_of_mem_absolutePath hworking path name hname).isName
  rw [validatePath_eq_ok, hlinks.resolvedPath hworking, hlinks.resolvedRoot hworking,
    Path.isBelow_iff (hnames path) (hnames root)]

/-- In a tree without links a path is accepted in a root just if both are given, the path has no null byte, and the
components of the root's normal form come first among those of the path's, which are spelled out by the names of the
paths. So the whole tree admits every path, and a name that only begins with another one is not below it. -/
theorem validatePath_iff (hlinks : files.LinkFree) (hworking : ∀ name ∈ files.workingDirectory, Path.Plain name) :
    (∀ path, Path.components (files.absolutePath path) = files.spelled path) ∧
    (∀ path root, files.validatePath path root = .ok () ↔
      path ≠ [] ∧ root ≠ [] ∧ (0 : UInt8) ∉ path ∧ files.spelled root <+: files.spelled path) ∧
    (∀ path, path ≠ [] → (0 : UInt8) ∉ path → files.validatePath path "/" = .ok ()) ∧
    ∀ (path root : Bytes) (front rest : Place) (name more : Bytes), more ≠ [] →
      files.spelled root = front ++ [name] → files.spelled path = front ++ (name ++ more) :: rest →
        files.validatePath path root ≠ .ok () := by
  have hiff : ∀ path root, files.validatePath path root = .ok () ↔
      path ≠ [] ∧ root ≠ [] ∧ (0 : UInt8) ∉ path ∧ files.spelled root <+: files.spelled path :=
    fun path root => hlinks.validatePath_iff_prefix hworking
  refine ⟨components_absolutePath_eq hworking, hiff, fun path hpath hnull => ?_, ?_⟩
  · have hroot : files.spelled "/" = [] := rfl
    rw [hiff, hroot]
    exact ⟨hpath, by decide +kernel, hnull, List.nil_prefix⟩
  · intro path root front rest name more hmore hroot hpath hok
    obtain ⟨-, -, -, hprefix⟩ := (hiff path root).mp hok
    rw [hroot, hpath, List.prefix_append_right_inj, List.cons_prefix_cons] at hprefix
    exact hmore (List.self_eq_append_right.mp hprefix.1)

theorem linkFree_of_entries (h : ∀ entry ∈ files.entries, ∀ target, entry.2 ≠ .link target) : files.LinkFree := by
  intro place target hlink
  unfold get? at hlink
  split at hlink
  next => cases hlink
  next =>
    obtain ⟨entry, hfound, hentry⟩ := Option.map_eq_some_iff.mp hlink
    exact h entry (List.mem_of_find?_eq_some hfound) target hentry

/-- A way through a directory that does not exist, with dots and slashes to spare, stays in the root; a directory beside
the root with a longer name is not in it. -/
theorem detour_is_enclosed :
    let files : Files :=
      { entries := [(["work"], .directory), (["work", "site"], .directory), (["work", "site-2"], .directory),
          (["work", "site", "notes"], .file (.bytes "of old"))]
        workingDirectory := ["work"] }
    files.validatePath "site/./new/..//positions/" "../work/site" = .ok () ∧
      files.validatePath "site-2/positions" "site" ≠ .ok () := by
  intro files
  have hlinks : files.LinkFree := by
    refine linkFree_of_entries fun entry hentry => ?_
    simp only [files, List.mem_cons, List.not_mem_nil, or_false] at hentry
    rcases hentry with rfl | rfl | rfl | rfl <;> rintro target ⟨⟩
  have hworking : ∀ name ∈ files.workingDirectory, Path.Plain name := by decide +kernel
  obtain ⟨-, hiff, -, hbeside⟩ := validatePath_iff hlinks hworking
  refine ⟨(hiff _ _).mpr (by decide +kernel), ?_⟩
  exact hbeside _ _ ["work"] ["positions"] "site" "-2" (by decide +kernel) (by decide +kernel) (by decide +kernel)

end Files

end MobilitySweep
