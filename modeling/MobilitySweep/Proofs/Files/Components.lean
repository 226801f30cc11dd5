import MobilitySweep.Files.Confine
import MobilitySweep.Proofs.Files.Names

/-! # Normal forms of paths

A path in normal form is the text of its components and nothing else: the components can be read back from it, and a
path lies below another one exactly if it has its components in front.
-/

namespace MobilitySweep

namespace Path

/-- A component that can stand between slashes. -/
structure IsName (name : Bytes) : Prop where
  ne_nil : name ≠ []
  noSlash : ('/' : UInt8) ∉ name

theorem Plain.isName {name : Bytes} (h : Plain name) : IsName name := ⟨h.ne_nil, h.noSlash⟩

theorem pieces_behind (front rest : Bytes) :
    pieces (front ++ ('/' : UInt8) :: rest) = pieces front ++ pieces rest := by
  simp only [pieces, Bytes.splitOn_eq, List.splitOn_append_cons_self]

theorem noSlash_of_mem_pieces {path name : Bytes} (h : name ∈ pieces path) : ('/' : UInt8) ∉ name := by
  rw [pieces, Bytes.splitOn_eq] at h
  induction path generalizing name with
  | nil => simp_all
  | cons b path ih =>
      rw [List.splitOn_cons_eq_if_modifyHead] at h
      split at h
      next =>
        rcases List.mem_cons.mp h with rfl | h
        · simp
        · exact ih h
      next hb =>
        cases hsplit : List.splitOn ('/' : UInt8) path with
        | nil => exact absurd hsplit (List.splitOn_ne_nil _ _)
        | cons first others =>
            rw [hsplit] at h ih
            rcases List.mem_cons.mp h with rfl | h
            · have hfirst := ih List.mem_cons_self
              have hne : ('/' : UInt8) ≠ b := fun heq => hb (beq_iff_eq.mpr heq.symm)
              simp [hfirst, hne]
            · exact ih (List.mem_cons_of_mem _ h)

theorem isName_of_mem_names {path name : Bytes} (h : name ∈ names path) : IsName name := by
  obtain ⟨hmem, hkept⟩ := List.mem_filter.mp h
  exact ⟨by simpa using hkept, noSlash_of_mem_pieces hmem⟩

section

variable {parts : List Bytes}

theorem pieces_joinWith (h : ∀ name ∈ parts, IsName name) (hparts : parts ≠ []) :
    pieces (Bytes.joinWith "/" parts) = parts := by
  rw [pieces, slash_eq, Bytes.joinWith_eq, Bytes.splitOn_eq]
  exact List.splitOn_intercalate _ (fun name hname => (h name hname).noSlash) hparts

theorem names_joinWith (h : ∀ name ∈ parts, IsName name) : names (Bytes.joinWith "/" parts) = parts := by
  by_cases hparts : parts = []
  · rw [hparts]
    rfl
  · rw [names, pieces_joinWith h hparts, List.filter_eq_self]
    exact fun name hname => by simpa using (h name hname).ne_nil

theorem pieces_absolute (path : Bytes) : pieces ("/" ++ path) = [] :: pieces path := by
  rw [slash_eq]
  exact pieces_behind [] path

theorem names_absolute (path : Bytes) : names ("/" ++ path) = names path := by
  rw [names, pieces_absolute]
  rfl

theorem ofComponents_true (parts : List Bytes) : ofComponents true parts = "/" ++ Bytes.joinWith "/" parts := rfl

theorem names_ofComponents (h : ∀ name ∈ parts, IsName name) : names (ofComponents true parts) = parts := by
  rw [ofComponents_true, names_absolute, names_joinWith h]

/-- Below the root of the tree an absolute path has no slash at its end. -/
theorem dropSuffix?_ofComponents (h : ∀ name ∈ parts, IsName name) (hparts : parts ≠ []) :
    Bytes.dropSuffix? "/" (ofComponents true parts) = none := by
  rw [Bytes.dropSuffix?, if_neg]
  rw [List.isSuffixOf_iff_suffix, slash_eq]
  rintro ⟨front, hfront⟩
  have hpieces := pieces_absolute (Bytes.joinWith "/" parts)
  rw [pieces_joinWith h hparts, ← ofComponents_true, ← hfront, pieces_behind] at hpieces
  have hlast := congrArg List.getLast? hpieces
  rw [List.getLast?_cons_of_ne_nil hparts] at hlast
  exact (h [] (List.mem_of_getLast? (hlast.symm.trans (by simp [pieces, Bytes.splitOn])))).ne_nil rfl

/-- Absolute paths with the same text have the same components. -/
theorem prefix_of_isBelow {path root : List Bytes} (hpath : ∀ name ∈ path, IsName name)
    (hroot : ∀ name ∈ root, IsName name) (h : isBelow (ofComponents true path) (ofComponents true root) = true) :
    root <+: path := by
  simp only [isBelow, Bool.or_eq_true, decide_eq_true_eq] at h
  rcases h with h | h
  · rw [← names_ofComponents hpath, h, names_ofComponents hroot]
  · by_cases hempty : root = []
    · rw [hempty]
      exact List.nil_prefix
    rw [dropSuffix?_ofComponents hroot hempty, Option.getD_none, List.isPrefixOf_iff_prefix, slash_eq] at h
    obtain ⟨rest, hrest⟩ := h
    have hnames := names_ofComponents hpath
    rw [← hrest, List.append_assoc, List.singleton_append, names, pieces_behind, List.filter_append, ← names,
      names_ofComponents hroot] at hnames
    exact ⟨_, hnames⟩

end

/-! ## Normal components -/

/-- Components as they stand in a normal form: those that lead above a relative start, and then plain ones. -/
def Normal (absolute : Bool) (parts : List Bytes) : Prop :=
  ∃ climbs plain, parts = List.replicate climbs above ++ plain ∧ (∀ name ∈ plain, Plain name) ∧
    (absolute = true → climbs = 0)

section

variable {absolute : Bool}

theorem push_plain {name : Bytes} (h : Plain name) (stack : List Bytes) : push absolute stack name = name :: stack := by
  simp [push, h.ne_nil, h.ne_here, h.ne_above]

theorem foldl_push_plain {plain : List Bytes} (h : ∀ name ∈ plain, Plain name) (stack : List Bytes) :
    plain.foldl (push absolute) stack = plain.reverse ++ stack := by
  induction plain generalizing stack with
  | nil => rfl
  | cons name plain ih =>
      rw [List.foldl_cons, push_plain (h name List.mem_cons_self), ih fun other hother =>
        h other (List.mem_cons_of_mem name hother)]
      simp

theorem push_normal {stack : List Bytes} (h : Normal absolute stack.reverse) {name : Bytes}
    (hname : ('/' : UInt8) ∉ name) : Normal absolute (push absolute stack name).reverse := by
  obtain ⟨climbs, plain, hstack, hplain, habsolute⟩ := h
  unfold push
  split
  next => exact ⟨climbs, plain, hstack, hplain, habsolute⟩
  next hkept =>
    split
    next =>
      rcases List.eq_nil_or_concat' plain with rfl | ⟨before, last, rfl⟩
      · -- Nothing but climbs: one more of them, unless the start is the root.
        obtain rfl : stack = List.replicate climbs above := by
          rw [← List.reverse_inj, hstack]
          simp
        cases absolute with
        | true =>
            rw [habsolute rfl]
            exact ⟨0, [], rfl, by simp, fun _ => rfl⟩
        | false =>
            refine ⟨climbs + 1, [], ?_, by simp, by rintro ⟨⟩⟩
            cases climbs with
            | zero => rfl
            | succ count =>
                have hclimbs : (List.replicate (count + 2) above).reverse = List.replicate (count + 2) above := by simp
                simpa [List.replicate_succ] using hclimbs
      · have hlast : Plain last := hplain last (by simp)
        obtain rfl : stack = last :: (List.replicate climbs above ++ before).reverse := by
          rw [← List.reverse_inj, hstack]
          simp
        dsimp only
        rw [if_neg hlast.ne_above]
        exact ⟨climbs, before, by simp, fun name hmem => hplain name (List.mem_append_left _ hmem), habsolute⟩
    next habove =>
      simp only [List.isEmpty_iff, Bool.or_eq_true, decide_eq_true_eq, not_or] at hkept
      refine ⟨climbs, plain ++ [name], by simp [hstack], fun other hother => ?_, habsolute⟩
      rcases List.mem_append.mp hother with hother | hother
      · exact hplain other hother
      · exact List.mem_singleton.mp hother ▸ ⟨hkept.1, hname, hkept.2, habove⟩

theorem components_normal (path : Bytes) : Normal (isAbsolute path) (components path) := by
  have hfold : ∀ (list : List Bytes) (stack : List Bytes), (∀ name ∈ list, ('/' : UInt8) ∉ name) →
      Normal (isAbsolute path) stack.reverse → Normal (isAbsolute path) (list.foldl (push (isAbsolute path)) stack).reverse := by
    intro list
    induction list with
    | nil => exact fun _ _ h => h
    | cons name list ih =>
        intro stack hnames h
        exact ih _ (fun other hother => hnames other (List.mem_cons_of_mem name hother))
          (push_normal h (hnames name List.mem_cons_self))
  exact hfold _ [] (fun name => noSlash_of_mem_pieces) ⟨0, [], rfl, by simp, fun _ => rfl⟩

theorem Normal.isName {parts : List Bytes} (h : Normal absolute parts) : ∀ name ∈ parts, IsName name := by
  obtain ⟨climbs, plain, rfl, hplain, -⟩ := h
  intro name hname
  rcases List.mem_append.mp hname with hname | hname
  · rw [List.eq_of_mem_replicate hname]
    exact ⟨by decide +kernel, by decide +kernel⟩
  · exact (hplain name hname).isName

theorem Normal.plain {parts : List Bytes} (h : Normal true parts) : ∀ name ∈ parts, Plain name := by
  obtain ⟨climbs, plain, rfl, hplain, habsolute⟩ := h
  rw [habsolute rfl]
  simpa using hplain

theorem foldl_push_normal {parts : List Bytes} (h : Normal absolute parts) :
    parts.foldl (push absolute) [] = parts.reverse := by
  obtain ⟨climbs, plain, rfl, hplain, habsolute⟩ := h
  have hclimbs : (List.replicate climbs above).foldl (push absolute) [] = List.replicate climbs above := by
    cases absolute with
    | true =>
        rw [habsolute rfl]
        rfl
    | false =>
        have hpush : ∀ count, push false (List.replicate count above) above = List.replicate (count + 1) above := by
          rintro (_ | count) <;> rfl
        clear habsolute
        induction climbs with
        | zero => rfl
        | succ count ih => rw [List.replicate_succ', List.foldl_append, ih, List.foldl_cons, List.foldl_nil, hpush,
            List.replicate_succ']
  rw [List.foldl_append, hclimbs, foldl_push_plain hplain]
  simp

theorem isAbsolute_ofComponents {parts : List Bytes} (h : ∀ name ∈ parts, IsName name) :
    isAbsolute (ofComponents absolute parts) = absolute := by
  cases absolute with
  | true =>
      rw [ofComponents_true, slash_eq]
      rfl
  | false =>
      cases parts with
      | nil => decide +kernel
      | cons name rest =>
          have hname := h name List.mem_cons_self
          have hhead : (Bytes.joinWith "/" (name :: rest)).head? = name.head? := by
            cases rest with
            | nil => rfl
            | cons next rest =>
                rw [Bytes.joinWith, List.append_assoc, List.head?_append_of_ne_nil _ hname.ne_nil]
                simp
          rw [ofComponents, if_neg (by simp), if_neg (by simp), isAbsolute, hhead, beq_eq_false_iff_ne]
          exact fun hslash => hname.noSlash (List.mem_of_head? hslash)

/-- Empty pieces and single dots, which a text has beside its components, push nothing. -/
theorem foldl_push_pieces {parts : List Bytes} (h : ∀ name ∈ parts, IsName name) (written : Bool) (stack : List Bytes) :
    (pieces (ofComponents written parts)).foldl (push absolute) stack = parts.foldl (push absolute) stack := by
  have hnothing : push absolute stack [] = stack := rfl
  by_cases hparts : parts = []
  · rw [hparts]
    cases written with
    | true => exact congrArg (push absolute · []) hnothing
    | false => rfl
  · cases written with
    | true => rw [ofComponents_true, pieces_absolute, pieces_joinWith h hparts, List.foldl_cons, hnothing]
    | false => rw [ofComponents, if_neg (by simp), if_neg (by simpa using hparts), pieces_joinWith h hparts]

theorem components_ofComponents {parts : List Bytes} (h : Normal absolute parts) :
    components (ofComponents absolute parts) = parts := by
  rw [components, isAbsolute_ofComponents h.isName, foldl_push_pieces h.isName, foldl_push_normal h,
    List.reverse_reverse]

theorem isAbsolute_clean (path : Bytes) : isAbsolute (clean path) = isAbsolute path :=
  isAbsolute_ofComponents (components_normal path).isName

theorem components_clean (path : Bytes) : components (clean path) = components path :=
  components_ofComponents (components_normal path)

theorem clean_clean (path : Bytes) : clean (clean path) = clean path := by
  rw [clean, isAbsolute_clean, components_clean, ← clean]

/-- The names of a normal form. -/
theorem names_clean (path : Bytes) :
    names (clean path) = components path ∨ names (clean path) = [here] ∧ components path = [] := by
  have hnames := (components_normal path).isName
  rw [clean, ofComponents]
  split
  next => exact Or.inl ((names_absolute _).trans (names_joinWith hnames))
  next =>
    split
    next hempty => exact Or.inr ⟨by decide +kernel, List.isEmpty_iff.mp hempty⟩
    next => exact Or.inl (names_joinWith hnames)

end

end Path

namespace Files

variable {files : Files}

/-- Leading above a directory takes its last names away. -/
theorem foldl_push_climbs {base : List Bytes} (h : ∀ name ∈ base, Path.Plain name) (climbs : Nat) :
    (List.replicate climbs Path.above).foldl (Path.push true) base.reverse =
      (base.take (base.length - climbs)).reverse := by
  induction climbs generalizing base with
  | zero => simp
  | succ climbs ih =>
      rw [List.replicate_succ, List.foldl_cons]
      rcases List.eq_nil_or_concat' base with rfl | ⟨before, last, rfl⟩
      · have hroot : Path.push true [] Path.above = [] := by decide +kernel
        rw [List.reverse_nil, hroot]
        simpa using ih h
      · have hlast : Path.Plain last := h last (by simp)
        have hpush : Path.push true (before ++ [last]).reverse Path.above = before.reverse := by
          rw [List.reverse_append, List.reverse_singleton, List.singleton_append, Path.push,
            if_neg (by decide +kernel), if_pos rfl, if_neg hlast.ne_above]
        rw [hpush, ih fun name hname => h name (List.mem_append_left _ hname), List.length_append, List.length_singleton,
          Nat.add_sub_add_right, List.take_append_of_le_length (Nat.sub_le _ _)]

/-- The components of the absolute form of a path. -/
theorem components_absolutePath (hworking : ∀ name ∈ files.workingDirectory, Path.Plain name) (path : Bytes) :
    ∃ climbs plain, Path.components path = List.replicate climbs Path.above ++ plain ∧
      (∀ name ∈ plain, Path.Plain name) ∧
      Path.components (files.absolutePath path) = (if Path.isAbsolute path then [] else
        files.workingDirectory.take (files.workingDirectory.length - climbs)) ++ plain := by
  obtain ⟨climbs, plain, hcomponents, hplain, habsolute⟩ := Path.components_normal path
  refine ⟨climbs, plain, hcomponents, hplain, ?_⟩
  rw [absolutePath, Path.absolute, Path.isAbsolute_clean]
  split
  next hroot =>
    rw [Path.clean_clean, Path.components_clean, hcomponents, habsolute hroot]
    rfl
  next hroot =>
    have hnormal : Path.Normal true files.workingDirectory := ⟨0, files.workingDirectory, rfl, hworking, fun _ => rfl⟩
    have hstart : Path.isAbsolute (Path.ofComponents true files.workingDirectory) = true :=
      Path.isAbsolute_ofComponents hnormal.isName
    have hnonempty : files.workingPath.isEmpty = false := by
      cases hpath : files.workingPath with
      | nil =>
          rw [workingPath] at hpath
          rw [hpath] at hstart
          cases hstart
      | cons => rfl
    have hjoin : Path.join [files.workingPath, Path.clean path] =
        Path.clean (files.workingPath ++ ('/' : UInt8) :: Path.clean path) := by
      rw [Path.join, hnonempty, if_neg (by simp), Bytes.joinWith, Bytes.joinWith, Path.slash_eq, List.append_assoc,
        List.singleton_append]
      rintro ⟨⟩
    have habsolute : Path.isAbsolute (files.workingPath ++ ('/' : UInt8) :: Path.clean path) = true := by
      rw [Path.isAbsolute, List.head?_append_of_ne_nil _ (by simpa using hnonempty)]
      exact hstart
    rw [hjoin, Path.components_clean, Path.components, habsolute, Path.pieces_behind, List.foldl_append, workingPath,
      Path.foldl_push_pieces hnormal.isName, Path.foldl_push_normal hnormal, Path.clean,
      Path.foldl_push_pieces (Path.components_normal path).isName, hcomponents, List.foldl_append,
      foldl_push_climbs hworking, Path.foldl_push_plain hplain, List.reverse_append, List.reverse_reverse,
      List.reverse_reverse]

theorem plain_of_mem_absolutePath (hworking : ∀ name ∈ files.workingDirectory, Path.Plain name) (path : Bytes) :
    ∀ name ∈ Path.components (files.absolutePath path), Path.Plain name := by
  obtain ⟨climbs, plain, -, hplain, habsolute⟩ := components_absolutePath hworking path
  rw [habsolute]
  intro name hname
  rcases List.mem_append.mp hname with hname | hname
  · split at hname
    next => cases hname
    next => exact hworking name (List.mem_of_mem_take hname)
  · exact hplain name hname

end Files

end MobilitySweep
