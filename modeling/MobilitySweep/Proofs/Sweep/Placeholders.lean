import Mathlib
import MobilitySweep.Sweep.CommandLine
import MobilitySweep.Sweep.Template

/-! # Placeholders

A template is divided by its placeholder, an argument of a simulator is marked by its tokens, and both are filled in one
scan. What is filled in takes part in no further replacement, even if it has a placeholder in it or makes up one
together with its neighbours.
-/

namespace MobilitySweep

namespace Bytes

/-! ## Replacement in one scan -/

section

variable {table : List (Bytes × Bytes)} {pattern rest : Bytes} {b : UInt8}

/-- What has been written so far only stands before what is still to come. -/
theorem replaceEachScan_eq (table : List (Bytes × Bytes)) (done : Bytes) (dropped : Nat) (text : Bytes) :
    replaceEachScan table done dropped text = done.reverse ++ replaceEach table (text.drop dropped) := by
  unfold replaceEach
  induction text generalizing done dropped with
  | nil => cases dropped <;> simp [replaceEachScan]
  | cons b rest ih =>
      cases dropped with
      | succ dropped => rw [replaceEachScan, ih, List.drop_succ_cons]
      | zero =>
          rw [List.drop_zero, replaceEachScan, replaceEachScan]
          split
          next entry _ =>
            rw [ih (entry.2.reverse ++ done), ih (entry.2.reverse ++ [])]
            simp
          next =>
            rw [ih (b :: done), ih [b]]
            simp

@[simp]
theorem replaceEach_nil (table : List (Bytes × Bytes)) : replaceEach table [] = [] := rfl

/-- Where no pattern begins a byte stays. -/
theorem replaceEach_cons (h : ∀ entry ∈ table, ¬ entry.1 <+: b :: rest) :
    replaceEach table (b :: rest) = b :: replaceEach table rest := by
  have hnone : table.find? (fun entry => entry.1.isPrefixOf (b :: rest)) = none := by
    rw [List.find?_eq_none]
    intro entry hentry
    rw [List.isPrefixOf_iff_prefix]
    exact h entry hentry
  rw [replaceEach, replaceEachScan, hnone]
  exact replaceEachScan_eq table [b] 0 rest

/-- The first pattern that begins somewhere is replaced there. -/
theorem replaceEach_append (entry : Bytes × Bytes) (hpattern : entry.1 ≠ [])
    (h : table.find? (fun other => other.1.isPrefixOf (entry.1 ++ rest)) = some entry) :
    replaceEach table (entry.1 ++ rest) = entry.2 ++ replaceEach table rest := by
  obtain ⟨pattern, replacement⟩ := entry
  obtain ⟨b, more, rfl⟩ := List.exists_cons_of_ne_nil hpattern
  simp only [List.cons_append] at h ⊢
  rw [replaceEach, replaceEachScan, h]
  dsimp only
  rw [replaceEachScan_eq]
  simp

/-- The replacement of one pattern goes by a table of one entry. -/
theorem replaceAll_eq (pattern replacement text : Bytes) :
    replaceAll pattern replacement text = replaceEach [(pattern, replacement)] text := by
  have hscan : ∀ (done : Bytes) (dropped : Nat), replaceScan pattern replacement done dropped text =
      replaceEachScan [(pattern, replacement)] done dropped text := by
    induction text with
    | nil => intro done dropped; cases dropped <;> rfl
    | cons b rest ih =>
        intro done dropped
        cases dropped with
        | succ dropped => exact ih done dropped
        | zero =>
            rw [replaceScan, replaceEachScan, List.find?_singleton]
            split
            next => exact ih _ _
            next => exact ih _ _
  exact hscan [] 0

theorem occursIn_iff {pattern text : Bytes} : occursIn pattern text = true ↔ pattern <:+: text := by
  induction text with
  | nil => rw [occursIn, List.isEmpty_iff, List.infix_nil]
  | cons b rest ih => rw [occursIn, Bool.or_eq_true, List.isPrefixOf_iff_prefix, ih, List.infix_cons_iff]

end

/-! ## Texts divided by a pattern -/

/-- How a pattern divides a text: the pattern stands between the pieces, the last of which does not contain it, and
behind each of the others it occurs for the first time. -/
structure Division (pattern text : Bytes) (pieces : List Bytes) : Prop where
  text_eq : text = joinWith pattern pieces
  ne_nil : pieces ≠ []
  last : ∀ piece ∈ pieces.getLast?, ¬ pattern <:+: piece
  first : ∀ piece ∈ pieces.dropLast, ∀ front back, piece ++ pattern = front ++ pattern ++ back → back = []

section

variable {pattern text piece : Bytes} {pieces : List Bytes}

theorem joinWith_cons (separator piece : Bytes) (h : pieces ≠ []) :
    joinWith separator (piece :: pieces) = piece ++ separator ++ joinWith separator pieces := by
  obtain ⟨next, others, rfl⟩ := List.exists_cons_of_ne_nil h
  rfl

theorem joinWith_cons_cons (separator : Bytes) (b : UInt8) (piece : Bytes) (pieces : List Bytes) :
    joinWith separator ((b :: piece) :: pieces) = b :: joinWith separator (piece :: pieces) := by
  cases pieces <;> rfl

theorem division_single (h : ¬ pattern <:+: piece) : Division pattern piece [piece] := by
  refine ⟨rfl, List.cons_ne_nil _ _, ?_, by simp⟩
  intro last hlast
  obtain rfl := Option.some.inj hlast
  exact h

/-- A pattern in front of a text divides off an empty piece. -/
theorem Division.pattern_append (h : Division pattern text pieces) : Division pattern (pattern ++ text) ([] :: pieces) := by
  refine ⟨?_, List.cons_ne_nil _ _, ?_, ?_⟩
  · rw [joinWith_cons _ _ h.ne_nil, List.nil_append, ← h.text_eq]
  · rw [List.getLast?_cons_of_ne_nil h.ne_nil]
    exact h.last
  · rw [List.dropLast_cons_of_ne_nil h.ne_nil]
    intro piece hpiece front back heq
    rcases List.mem_cons.mp hpiece with rfl | hpiece
    · have hlength := congrArg List.length heq
      simp only [List.length_append, List.length_nil] at hlength
      exact List.eq_nil_of_length_eq_zero (by omega)
    · exact h.first piece hpiece front back heq

/-- A byte in front of a text belongs to its first piece, unless the pattern begins with it. -/
theorem Division.cons (h : Division pattern text (piece :: pieces)) {b : UInt8} (hbegins : ¬ pattern <+: b :: text) :
    Division pattern (b :: text) ((b :: piece) :: pieces) := by
  refine ⟨by rw [joinWith_cons_cons, ← h.text_eq], List.cons_ne_nil _ _, ?_, ?_⟩
  · cases pieces with
    | nil =>
        have hpiece : ¬ pattern <:+: piece := h.last piece rfl
        have htext : text = piece := h.text_eq
        rw [htext] at hbegins
        have hnot : ¬ pattern <:+: b :: piece := by
          rw [List.infix_cons_iff]
          exact not_or.mpr ⟨hbegins, hpiece⟩
        exact (division_single hnot).last
    | cons next others =>
        have hlast := h.last
        simp only [List.getLast?_cons_cons] at hlast ⊢
        exact hlast
  · cases pieces with
    | nil => simp
    | cons next others =>
        have hfirst := h.first
        simp only [List.dropLast_cons_cons, List.mem_cons, forall_eq_or_imp] at hfirst ⊢
        refine ⟨fun front back heq => ?_, hfirst.2⟩
        cases front with
        | nil =>
            -- The pattern would begin with the byte already.
            refine absurd ?_ hbegins
            rw [h.text_eq, joinWith_cons _ _ (List.cons_ne_nil _ _), ← List.cons_append, ← List.cons_append, heq]
            exact ⟨back ++ joinWith pattern (next :: others), by simp⟩
        | cons c front => exact hfirst.1 front back (List.cons.inj heq).2

/-- Every text is divided by a pattern, and the pieces are what stays when the pattern is replaced. -/
theorem exists_division (hpattern : pattern ≠ []) (text : Bytes) : ∃ pieces, Division pattern text pieces ∧
    ∀ replacement, replaceAll pattern replacement text = joinWith replacement pieces := by
  simp only [replaceAll_eq]
  induction hlength : text.length using Nat.strong_induction_on generalizing text with
  | h length ih =>
      cases text with
      | nil => exact ⟨[[]], division_single (by rwa [List.infix_nil]), fun _ => rfl⟩
      | cons b rest =>
          by_cases hbegins : pattern <+: b :: rest
          · obtain ⟨more, hmore⟩ := hbegins
            have hless : more.length < length := by
              have hsum := congrArg List.length hmore
              have hpos := List.length_pos_of_ne_nil hpattern
              rw [List.length_append] at hsum
              omega
            obtain ⟨pieces, hpieces, hreplaced⟩ := ih more.length hless more rfl
            rw [← hmore]
            refine ⟨[] :: pieces, hpieces.pattern_append, fun replacement => ?_⟩
            have hfound : ([(pattern, replacement)] : List (Bytes × Bytes)).find?
                (fun entry => entry.1.isPrefixOf (pattern ++ more)) = some (pattern, replacement) := by
              rw [List.find?_singleton, if_pos (List.isPrefixOf_iff_prefix.mpr (List.prefix_append _ _))]
            rw [replaceEach_append (pattern, replacement) hpattern hfound, hreplaced,
              joinWith_cons _ _ hpieces.ne_nil, List.nil_append]
          · obtain ⟨pieces, hpieces, hreplaced⟩ := ih rest.length (by rw [← hlength]; exact Nat.lt_succ_self _) rest rfl
            obtain ⟨piece, others, rfl⟩ := List.exists_cons_of_ne_nil hpieces.ne_nil
            refine ⟨(b :: piece) :: others, hpieces.cons hbegins, fun replacement => ?_⟩
            rw [replaceEach_cons (by simpa using hbegins), hreplaced, joinWith_cons_cons]

/-- A piece behind which the pattern occurs for the first time is not longer than one behind which it occurs. -/
theorem length_le_of_first {other rest rest' : Bytes}
    (hfirst : ∀ front back, other ++ pattern = front ++ pattern ++ back → back = [])
    (h : piece ++ pattern ++ rest = other ++ pattern ++ rest') : other.length ≤ piece.length := by
  by_contra hless
  have hprefix : piece ++ pattern <+: other ++ pattern := by
    refine List.prefix_of_prefix_length_le (List.prefix_append _ rest) (h ▸ List.prefix_append _ rest') ?_
    simp only [List.length_append]
    omega
  obtain ⟨back, hback⟩ := hprefix
  have hnil := hfirst piece back hback.symm
  have hlength := congrArg List.length hback
  simp only [hnil, List.length_append, List.length_nil] at hlength
  omega

/-- A text with more than one piece has the pattern in it. -/
theorem Division.isInfix (h : Division pattern text (piece :: pieces)) (hpieces : pieces ≠ []) : pattern <:+: text := by
  rw [h.text_eq, joinWith_cons _ _ hpieces]
  exact ⟨piece, joinWith pattern pieces, rfl⟩

theorem Division.tail (h : Division pattern text (piece :: pieces)) (hpieces : pieces ≠ []) :
    Division pattern (joinWith pattern pieces) pieces := by
  obtain ⟨-, -, hlast, hfirst⟩ := h
  rw [List.getLast?_cons_of_ne_nil hpieces] at hlast
  rw [List.dropLast_cons_of_ne_nil hpieces] at hfirst
  exact ⟨rfl, hpieces, hlast, fun other hother => hfirst other (List.mem_cons_of_mem piece hother)⟩

/-- A pattern divides a text in one way only. -/
theorem Division.unique {other : List Bytes} (h : Division pattern text pieces) (h' : Division pattern text other) :
    other = pieces := by
  induction pieces generalizing text other with
  | nil => exact absurd rfl h.ne_nil
  | cons piece pieces ih =>
      obtain ⟨piece', others, rfl⟩ := List.exists_cons_of_ne_nil h'.ne_nil
      by_cases hpieces : pieces = []
      · subst hpieces
        have htext : text = piece := h.text_eq
        have hnot : ¬ pattern <:+: text := htext ▸ h.last piece rfl
        by_cases hothers : others = []
        · subst hothers
          have htext' : text = piece' := h'.text_eq
          rw [← htext, ← htext']
        · exact absurd (h'.isInfix hothers) hnot
      · have hothers : others ≠ [] := by
          rintro rfl
          have htext' : text = piece' := h'.text_eq
          exact h'.last piece' rfl (htext' ▸ h.isInfix hpieces)
        have heq := h.text_eq.symm.trans h'.text_eq
        rw [joinWith_cons _ _ hpieces, joinWith_cons _ _ hothers] at heq
        have hfirst : ∀ front back, piece ++ pattern = front ++ pattern ++ back → back = [] :=
          h.first piece (by simp [List.dropLast_cons_of_ne_nil hpieces])
        have hfirst' : ∀ front back, piece' ++ pattern = front ++ pattern ++ back → back = [] :=
          h'.first piece' (by simp [List.dropLast_cons_of_ne_nil hothers])
        have hlength : piece.length = piece'.length :=
          Nat.le_antisymm (length_le_of_first hfirst heq.symm) (length_le_of_first hfirst' heq)
        rw [List.append_assoc, List.append_assoc] at heq
        obtain ⟨rfl, hrest⟩ := List.append_inj heq hlength
        have hothers' := h'.tail hothers
        rw [← List.append_cancel_left hrest] at hothers'
        rw [ih (h.tail hpieces) hothers']

/-- A text has more than one piece just if the pattern is in it. -/
theorem Division.two_le_length_iff (h : Division pattern text pieces) : 2 ≤ pieces.length ↔ pattern <:+: text := by
  obtain ⟨piece, others, rfl⟩ := List.exists_cons_of_ne_nil h.ne_nil
  cases others with
  | nil =>
      have htext : text = piece := h.text_eq
      exact iff_of_false (by simp) (htext ▸ h.last piece rfl)
  | cons next others => exact iff_of_true (by simp) (h.isInfix (List.cons_ne_nil _ _))

theorem infix_joinWith (separator : Bytes) (h : 2 ≤ pieces.length) : separator <:+: joinWith separator pieces := by
  match pieces, h with
  | piece :: next :: others, _ => exact ⟨piece, joinWith separator (next :: others), rfl⟩

end

end Bytes

/-! ## Templates -/

namespace Template

theorem create_eq_ok {text placeholder : Bytes} {t : Template} : create text placeholder = .ok t ↔
    placeholder ≠ [] ∧ placeholder <:+: text ∧ t = ⟨text, placeholder⟩ := by
  unfold create
  rw [← Bytes.occursIn_iff]
  cases placeholder with
  | nil => simp
  | cons b rest =>
      cases Bytes.occursIn (b :: rest) text with
      | false => simp
      | true => simp [eq_comm]

/-- A text makes a template just if the placeholder occurs in it. It is divided by the placeholder then, in one way and
with more than one piece, and any name is filled in between the pieces. So the placeholder filled in gives the text
again, and every name that is filled in can be found. -/
theorem render_fills_division (text placeholder : Bytes) (hplaceholder : placeholder ≠ []) :
    ((∃ t, create text placeholder = .ok t) ↔ placeholder <:+: text) ∧
    ∀ t, create text placeholder = .ok t → ∃ pieces, Bytes.Division placeholder text pieces ∧ 2 ≤ pieces.length ∧
      (∀ other, Bytes.Division placeholder text other → other = pieces) ∧
      (∀ name, t.render name = Bytes.joinWith name pieces ∧ name <:+: t.render name) ∧ t.render placeholder = text := by
  constructor
  · constructor
    · rintro ⟨t, ht⟩
      exact (create_eq_ok.mp ht).2.1
    · intro hinfix
      exact ⟨_, create_eq_ok.mpr ⟨hplaceholder, hinfix, rfl⟩⟩
  · intro t ht
    obtain ⟨-, hinfix, rfl⟩ := create_eq_ok.mp ht
    obtain ⟨pieces, hpieces, hreplaced⟩ := Bytes.exists_division hplaceholder text
    have hlength := hpieces.two_le_length_iff.mpr hinfix
    have hrender : ∀ name, (Template.mk text placeholder).render name = Bytes.joinWith name pieces := hreplaced
    refine ⟨pieces, hpieces, hlength, fun other => hpieces.unique, fun name => ⟨hrender name, ?_⟩, ?_⟩
    · rw [hrender]
      exact Bytes.infix_joinWith name hlength
    · rw [hrender, ← hpieces.text_eq]

/-- A placeholder that overlaps itself is taken from the left, and a name that makes it up with its neighbours stays. -/
theorem overlapping_placeholders_are_filled :
    ("aa" : Bytes) ≠ [] ∧ create "aaa-aaaa" "aa" = .ok ⟨"aaa-aaaa", "aa"⟩ ∧
      Bytes.Division "aa" "aaa-aaaa" ["", "a-", "", ""] ∧
      (∀ name, (Template.mk "aaa-aaaa" "aa").render name = Bytes.joinWith name ["", "a-", "", ""]) ∧
      (Template.mk "aaa-aaaa" "aa").render "xa" = "xaa-xaxa" := by
  have hplaceholder : ("aa" : Bytes) ≠ [] := by decide +kernel
  have hcreate : create "aaa-aaaa" "aa" = .ok ⟨"aaa-aaaa", "aa"⟩ := by decide +kernel
  have hend : Bytes.Division "aa" "" [""] := Bytes.division_single (by decide +kernel)
  have hrest : Bytes.Division "aa" "a-aaaa" ["a-", "", ""] :=
    (hend.pattern_append.pattern_append.cons (by decide +kernel)).cons (by decide +kernel)
  have hdivision : Bytes.Division "aa" "aaa-aaaa" ["", "a-", "", ""] := hrest.pattern_append
  obtain ⟨-, hall⟩ := render_fills_division "aaa-aaaa" "aa" hplaceholder
  obtain ⟨pieces, -, -, hunique, hrender, -⟩ := hall _ hcreate
  obtain rfl := hunique _ hdivision
  exact ⟨hplaceholder, hcreate, hdivision, fun name => (hrender name).1, by decide +kernel⟩

end Template

/-! ## Arguments -/

namespace CommandLine

/-- A token of an argument. -/
inductive Token where
  | config
  | log
deriving DecidableEq, Repr

namespace Token

/-- A token as it is written. -/
def text : Token → Bytes
  | config => configToken
  | log => logToken

/-- The path that a token stands for. -/
def path (configPath logPath : Bytes) : Token → Bytes
  | config => configPath
  | log => logPath

end Token

/-- A part of an argument: a byte for itself, or a token. -/
inductive Part where
  | byte (b : UInt8)
  | token (token : Token)
deriving DecidableEq, Repr

namespace Part

/-- A part as it is written. -/
def text : Part → Bytes
  | byte b => [b]
  | token t => t.text

/-- A part with the paths of a configuration and a log for the tokens. -/
def value (config log : Bytes) : Part → Bytes
  | byte b => [b]
  | token t => t.path config log

end Part

/-- An argument as it is marked: a token wherever one begins, and a byte for itself where none does. -/
inductive Marked : Bytes → List Part → Prop where
  | done : Marked [] []
  | token (token : Token) {rest : Bytes} {parts : List Part} (h : Marked rest parts) :
      Marked (token.text ++ rest) (.token token :: parts)
  | byte {b : UInt8} {rest : Bytes} {parts : List Part} (hnone : ∀ token : Token, ¬ token.text <+: b :: rest)
      (h : Marked rest parts) : Marked (b :: rest) (.byte b :: parts)

/-- Parts with a path filled in, byte by byte, for one of the tokens. -/
def fillIn (token : Token) (path : Bytes) (parts : List Part) : List Part :=
  parts.flatMap fun part => if part = .token token then path.map .byte else [part]

section

variable {arg back : Bytes} {parts others : List Part} {t : Token}

theorem Token.text_ne_nil (t : Token) : t.text ≠ [] := by
  cases t <;> decide +kernel

/-- A token has an opening brace at its start and nowhere else. -/
theorem Token.text_eq (t : Token) : ∃ name, t.text = ('\x7b' : UInt8) :: name ∧ ('\x7b' : UInt8) ∉ name := by
  cases t
  · exact ⟨_, rfl, by decide +kernel⟩
  · exact ⟨_, rfl, by decide +kernel⟩

/-- No token is the beginning of another one. -/
theorem Token.eq_of_isPrefixOf {other : Token} (h : List.isPrefixOf other.text (t.text ++ back) = true) : other = t := by
  cases t <;> cases other <;> first | rfl | cases h

theorem Marked.token_inj (h : Marked (t.text ++ back) parts) : ∃ rest, Marked back rest ∧ parts = .token t :: rest := by
  generalize harg : t.text ++ back = arg at h
  cases h with
  | done => exact absurd (List.append_eq_nil_iff.mp harg).1 t.text_ne_nil
  | @token other rest others h =>
      have hbegins : List.isPrefixOf other.text (t.text ++ back) = true := by
        rw [harg]
        exact List.isPrefixOf_iff_prefix.mpr (List.prefix_append _ _)
      obtain rfl := Token.eq_of_isPrefixOf hbegins
      exact ⟨others, List.append_cancel_left harg ▸ h, rfl⟩
  | byte hnone => exact absurd (harg ▸ List.prefix_append _ _) (hnone t)

/-- Every argument is marked. -/
theorem exists_marked (arg : Bytes) : ∃ parts, Marked arg parts := by
  induction hlength : arg.length using Nat.strong_induction_on generalizing arg with
  | h length ih =>
      cases arg with
      | nil => exact ⟨[], .done⟩
      | cons b rest =>
          by_cases hbegins : ∃ token : Token, token.text <+: b :: rest
          · obtain ⟨token, more, hmore⟩ := hbegins
            have hless : more.length < length := by
              have hsum := congrArg List.length hmore
              have hpos := List.length_pos_of_ne_nil token.text_ne_nil
              rw [List.length_append] at hsum
              omega
            obtain ⟨parts, hparts⟩ := ih more.length hless more rfl
            exact ⟨_, hmore ▸ Marked.token token hparts⟩
          · obtain ⟨parts, hparts⟩ := ih rest.length (by rw [← hlength]; exact Nat.lt_succ_self _) rest rfl
            exact ⟨_, .byte (fun token h => hbegins ⟨token, h⟩) hparts⟩

/-- An argument is marked in one way only. -/
theorem Marked.unique (h : Marked arg parts) (h' : Marked arg others) : others = parts := by
  induction h generalizing others with
  | done =>
      generalize harg : ([] : Bytes) = arg at h'
      cases h' with
      | done => rfl
      | token t => exact absurd (List.append_eq_nil_iff.mp harg.symm).1 t.text_ne_nil
      | byte => cases harg
  | token t _ ih =>
      obtain ⟨rest, hrest, rfl⟩ := h'.token_inj
      rw [ih hrest]
  | @byte b rest parts hnone _ ih =>
      generalize harg : b :: rest = arg at h'
      cases h' with
      | done => cases harg
      | token t => exact absurd (harg ▸ List.prefix_append _ _) (hnone t)
      | byte _ h' =>
          obtain ⟨rfl, rfl⟩ := List.cons.inj harg
          rw [ih h']

theorem Marked.written (h : Marked arg parts) : parts.flatMap Part.text = arg := by
  induction h with
  | done => rfl
  | token t _ ih => rw [List.flatMap_cons, ih, Part.text]
  | byte _ _ ih => rw [List.flatMap_cons, ih, Part.text, List.singleton_append]

/-- No token is missed, whatever stands before and behind it. -/
theorem Marked.append_token {front : Bytes} (h : Marked front parts) (t : Token) (h' : Marked back others) :
    Marked (front ++ t.text ++ back) (parts ++ .token t :: others) := by
  induction h with
  | done => exact .token t h'
  | token first _ ih =>
      rw [List.append_assoc, List.append_assoc, ← List.append_assoc _ t.text]
      exact .token first ih
  | @byte b rest parts hnone _ ih =>
      refine .byte (fun token hbegins => ?_) ih
      obtain ⟨name, htext, -⟩ := t.text_eq
      obtain ⟨first, hfirst, hinside⟩ := token.text_eq
      replace hbegins : token.text <+: (b :: rest) ++ (t.text ++ back) := by
        rw [← List.append_assoc]
        exact hbegins
      rcases List.prefix_or_prefix_of_prefix hbegins (List.prefix_append _ _) with hwithin | ⟨tail, htail⟩
      · exact hnone token hwithin
      · -- A token that begins here would have the opening brace of the one behind it inside.
        obtain ⟨c, more, rfl⟩ := List.exists_cons_of_ne_nil (l := tail) (by
          rintro rfl
          exact hnone token (by simp [← htail]))
        rw [← htail, List.prefix_append_right_inj, htext, List.cons_append, List.cons_prefix_cons] at hbegins
        rw [← htail, List.cons_append] at hfirst
        obtain ⟨-, rfl⟩ := List.cons.inj hfirst
        exact hinside (by simp [hbegins.1])

/-- An argument is expanded part by part. -/
theorem Marked.replaceEach (h : Marked arg parts) (config log : Bytes) :
    Bytes.replaceEach [(configToken, config), (logToken, log)] arg = parts.flatMap (Part.value config log) := by
  induction h with
  | done => rfl
  | token t _ ih =>
      rw [List.flatMap_cons, ← ih]
      cases t with
      | config => exact Bytes.replaceEach_append (configToken, config) Token.config.text_ne_nil rfl
      | log => exact Bytes.replaceEach_append (logToken, log) Token.log.text_ne_nil rfl
  | byte hnone _ ih =>
      rw [List.flatMap_cons, ← ih, Bytes.replaceEach_cons]
      · rfl
      · simpa using ⟨hnone .config, hnone .log⟩

end

section

variable (token : Token) (path : Bytes)

/-- Nothing is filled in among bytes. -/
theorem fillIn_bytes (other : Bytes) : fillIn token path (other.map .byte) = other.map .byte := by
  induction other with
  | nil => rfl
  | cons b other ih => exact congrArg (Part.byte b :: ·) ih

theorem flatMap_text_bytes : (path.map Part.byte).flatMap Part.text = path := by
  induction path with
  | nil => rfl
  | cons b path ih => exact congrArg (b :: ·) ih

end

/-- The paths filled in one after the other, in either order, are the paths filled in at once. -/
theorem text_fillIn (config log : Bytes) {first second : Token} (h : first ≠ second) (parts : List Part) :
    (fillIn second (second.path config log) (fillIn first (first.path config log) parts)).flatMap Part.text =
      parts.flatMap (Part.value config log) := by
  have hpart : ∀ part, (fillIn second (second.path config log) (if part = .token first then
      (first.path config log).map .byte else [part])).flatMap Part.text = Part.value config log part := by
    intro part
    split
    next hfirst => rw [fillIn_bytes, flatMap_text_bytes, hfirst, Part.value]
    next hfirst =>
      rw [fillIn, List.flatMap_singleton]
      split
      next hsecond => rw [flatMap_text_bytes, hsecond, Part.value]
      next hsecond =>
        cases part with
        | byte b => rfl
        | token t => cases t <;> cases first <;> cases second <;> simp_all
  calc (fillIn second (second.path config log) (fillIn first (first.path config log) parts)).flatMap Part.text
      = parts.flatMap fun part => (fillIn second (second.path config log) (if part = .token first then
          (first.path config log).map .byte else [part])).flatMap Part.text := by
        simp only [fillIn, List.flatMap_assoc]
    _ = parts.flatMap (Part.value config log) := by simp only [hpart]

/-- Every argument is marked in one way, with all its tokens, and without them it is as it was. Expanding arguments
fills in the paths for the tokens and leaves all other bytes, so it makes no difference whether both tokens are filled
in at once or one after the other. -/
theorem expand_fills_tokens : ∃ mark : Bytes → List Part,
    (∀ arg parts, Marked arg parts ↔ parts = mark arg) ∧ (∀ arg, (mark arg).flatMap Part.text = arg) ∧
    (∀ front token back, mark (front ++ Token.text token ++ back) = mark front ++ .token token :: mark back) ∧
    ∀ args config log, (expand args config log).length = args.length ∧
      expand args config log = args.map (fun arg => (mark arg).flatMap (Part.value config log)) ∧
      ∀ first second : Token, first ≠ second → expand args config log = args.map fun arg =>
        (fillIn second (second.path config log) (fillIn first (first.path config log) (mark arg))).flatMap Part.text := by
  choose mark hmark using exists_marked
  have hexpand : ∀ args config log,
      expand args config log = args.map fun arg => (mark arg).flatMap (Part.value config log) := by
    intro args config log
    exact List.map_congr_left fun arg _ => (hmark arg).replaceEach config log
  refine ⟨mark, fun arg parts => ⟨(hmark arg).unique, ?_⟩, fun arg => (hmark arg).written, ?_, ?_⟩
  · rintro rfl
    exact hmark arg
  · intro front token back
    exact (((hmark front).append_token token (hmark back)).unique (hmark _))
  · intro args config log
    refine ⟨List.length_map _, hexpand args config log, fun first second hother => ?_⟩
    simp only [hexpand, text_fillIn config log hother]

example : expand ["\x7b\x7blog\x7d", "-\x7bconfig\x7dlog\x7d"] "\x7b" "\x7bconfig\x7d" =
    ["\x7b\x7bconfig\x7d", "-\x7blog\x7d"] := by
  decide +kernel

end CommandLine

end MobilitySweep
