import Mathlib
import MobilitySweep.Config.File

/-! # Variables in texts

A text is read as bytes that stand for themselves and names in braces behind a dollar sign. Expanding it replaces the
names by their values. It leaves the other bytes alone unless there are names in braces and, beside them, a dollar sign
that stands before anything that a shell would take for a variable.
-/

namespace MobilitySweep

namespace Environment

/-! ## Texts with names in braces -/

/-- A part of a text: a byte for itself, or a name in braces behind a dollar sign. -/
inductive Piece where
  | plain (b : UInt8)
  | braced (name : Bytes)
deriving DecidableEq, Repr

namespace Piece

/-- A piece as it is written. -/
def text : Piece → Bytes
  | plain b => [b]
  | braced name => ('$' : UInt8) :: '\x7b' :: (name ++ [('\x7d' : UInt8)])

/-- What a piece stands for. -/
def value (env : Environment) : Piece → Bytes
  | plain b => [b]
  | braced name => env.get name

end Piece

/-- Whether a text begins with a name in braces, and how it goes on. -/
structure Opens (text name rest : Bytes) : Prop where
  ne_nil : name ≠ []
  noBrace : ('\x7d' : UInt8) ∉ name
  text_eq : text = (Piece.braced name).text ++ rest

/-- How a text is read: a name in braces wherever one begins, and a plain byte where none does. -/
inductive Reads : Bytes → List Piece → Prop where
  | done : Reads [] []
  | braced {text name rest : Bytes} {pieces : List Piece} (h : Opens text name rest) (hrest : Reads rest pieces) :
      Reads text (.braced name :: pieces)
  | plain {b : UInt8} {rest : Bytes} {pieces : List Piece} (h : ∀ name more, ¬ Opens (b :: rest) name more)
      (hrest : Reads rest pieces) : Reads (b :: rest) (.plain b :: pieces)

section

variable {text name rest : Bytes} {pieces : List Piece}

theorem takeWhile_closed (h : ('\x7d' : UInt8) ∉ name) (rest : Bytes) :
    (name ++ ('\x7d' : UInt8) :: rest).takeWhile (· ≠ ('\x7d' : UInt8)) = name := by
  rw [List.takeWhile_append_of_pos]
  · simp
  · intro b hb
    simpa using (ne_of_mem_of_not_mem hb h : b ≠ '\x7d')

theorem Opens.unique {name' rest' : Bytes} (h : Opens text name rest) (h' : Opens text name' rest') :
    name = name' ∧ rest = rest' := by
  have heq := h.text_eq.symm.trans h'.text_eq
  simp only [Piece.text, List.cons_append, List.append_assoc, List.cons.injEq, true_and, List.nil_append] at heq
  have hsame := takeWhile_closed h.noBrace rest
  rw [heq, takeWhile_closed h'.noBrace] at hsame
  subst hsame
  exact ⟨rfl, (List.cons.inj (List.append_cancel_left heq)).2⟩

theorem Opens.isPrefixOf (h : Opens text name rest) : List.isPrefixOf ("$\x7b" : Bytes) text = true := by
  rw [h.text_eq]
  rfl

theorem Opens.length_lt (h : Opens text name rest) : rest.length < text.length := by
  rw [h.text_eq]
  simp only [Piece.text, List.length_append, List.length_cons]
  omega

/-- Every text can be read. -/
theorem exists_reads (text : Bytes) : ∃ pieces, Reads text pieces := by
  induction hlength : text.length using Nat.strong_induction_on generalizing text with
  | h length ih =>
      cases text with
      | nil => exact ⟨[], .done⟩
      | cons b rest =>
          by_cases hopens : ∃ name more, Opens (b :: rest) name more
          · obtain ⟨name, more, hopens⟩ := hopens
            obtain ⟨pieces, hpieces⟩ := ih more.length (hlength ▸ hopens.length_lt) more rfl
            exact ⟨_, .braced hopens hpieces⟩
          · obtain ⟨pieces, hpieces⟩ := ih rest.length (by rw [← hlength]; exact Nat.lt_succ_self _) rest rfl
            exact ⟨_, .plain (fun name more h => hopens ⟨name, more, h⟩) hpieces⟩

/-- No text can be read in two ways. -/
theorem Reads.unique {other : List Piece} (h : Reads text pieces) (h' : Reads text other) : other = pieces := by
  induction h generalizing other with
  | done =>
      cases h' with
      | done => rfl
      | braced hopens => exact absurd hopens.text_eq (by simp [Piece.text])
  | braced hopens _ ih =>
      cases h' with
      | done => exact absurd hopens.text_eq (by simp [Piece.text])
      | braced hopens' hrest =>
          obtain ⟨rfl, rfl⟩ := hopens.unique hopens'
          rw [ih hrest]
      | plain hplain => exact absurd hopens (hplain _ _)
  | plain hplain _ ih =>
      cases h' with
      | braced hopens => exact absurd hopens (hplain _ _)
      | plain _ hrest => rw [ih hrest]

theorem Reads.text_eq (h : Reads text pieces) : pieces.flatMap Piece.text = text := by
  induction h with
  | done => rfl
  | braced hopens _ ih => rw [List.flatMap_cons, ih, hopens.text_eq]
  | plain _ _ ih => rw [List.flatMap_cons, ih]; rfl

/-- A text without an opening brace behind a dollar sign stands for itself. -/
theorem Reads.value_eq (h : Reads text pieces) (hnone : Bytes.occursIn "$\x7b" text = false) (env : Environment) :
    pieces.flatMap (·.value env) = text := by
  induction h with
  | done => rfl
  | @braced text _ _ _ hopens _ _ =>
      have hsome : Bytes.occursIn "$\x7b" text = true := by
        rw [hopens.text_eq]
        rfl
      rw [hsome] at hnone
      cases hnone
  | plain _ _ ih =>
      rw [Bytes.occursIn, Bool.or_eq_false_iff] at hnone
      rw [List.flatMap_cons, ih hnone.2]
      rfl

end

/-! ## Dollar signs -/

/-- What a shell takes for the start of a variable behind a dollar sign. -/
def stirs (b : UInt8) : Bool := b = '\x7b' || isSpecial b || isNameChar b

section

variable {env : Environment} {name rest more : Bytes} {c : UInt8}

theorem reference_plain (h : c ≠ '\x7b') (more : Bytes) : reference (c :: more) =
    if isSpecial c then ([c], 1) else ((c :: more).takeWhile isNameChar, ((c :: more).takeWhile isNameChar).length) :=
  if_neg h

/-- Braces around a single special character are told apart, but make no difference. -/
theorem reference_brace (more : Bytes) : reference (('\x7b' : UInt8) :: more) = reference.braced more := by
  unfold reference
  dsimp only
  rw [if_pos rfl]
  split
  next c rest =>
    split
    next hspecial =>
      have hc : c ≠ '\x7d' := by
        rintro rfl
        exact absurd hspecial (by decide +kernel)
      have hbrace : (125 : UInt8) = '\x7d' := by decide +kernel
      have hopen : ('\x7d' : UInt8) ∉ [c] := by simpa using Ne.symm hc
      have hname := takeWhile_closed hopen rest
      rw [← hbrace, List.singleton_append] at hname
      rw [reference.braced, ← hbrace, hname]
      simp
    next => rfl
  next => rfl

theorem braced_width (more : Bytes) : (reference.braced more).2 ≠ 0 := by
  unfold reference.braced
  dsimp only
  split
  next => simp
  next => split <;> simp

/-- Behind a dollar sign the name in braces is the one that the text opens with. -/
theorem reference_opens (h : Opens (('$' : UInt8) :: rest) name more) : reference rest = (name, name.length + 2) := by
  have hrest : rest = ('\x7b' : UInt8) :: (name ++ ('\x7d' : UInt8) :: more) := by
    rw [(List.cons.inj h.text_eq).2]
    simp
  rw [hrest, reference_brace, reference.braced, takeWhile_closed h.noBrace]
  simp [h.ne_nil]

theorem reference_calm (h : stirs c = false) (more : Bytes) : reference (c :: more) = ([], 0) := by
  simp only [stirs, Bool.or_eq_false_iff, decide_eq_false_iff_not] at h
  obtain ⟨⟨hbrace, hspecial⟩, hname⟩ := h
  rw [reference_plain hbrace, hspecial]
  simp [hname]

/-- Before what stirs it a dollar sign is never left alone, and only a brace may come without a name. -/
theorem reference_stirring (h : stirs c = true) (more : Bytes) :
    (reference (c :: more)).2 ≠ 0 ∧ ((reference (c :: more)).1 = [] → c = '\x7b') := by
  by_cases hbrace : c = '\x7b'
  · subst hbrace
    rw [reference_brace]
    exact ⟨braced_width more, fun _ => rfl⟩
  · rw [reference_plain hbrace]
    split
    next => simp
    next hspecial =>
      have hname : isNameChar c = true := by simpa [stirs, hbrace, hspecial] using h
      simp [hname]

end

/-! ## The scan -/

section

variable {env : Environment} {rest : Bytes} {b : UInt8}

/-- What has been written so far only stands before what is still to come. -/
theorem expandScan_eq (env : Environment) (done : Bytes) (passed : Nat) (text : Bytes) :
    expandScan env done passed text = done.reverse ++ expandScan env [] 0 (text.drop passed) := by
  induction text generalizing done passed with
  | nil => cases passed <;> simp [expandScan]
  | cons b rest ih =>
      cases passed with
      | succ passed =>
          rw [expandScan, ih, List.drop_succ_cons]
      | zero =>
          -- What is written at once is written in front of the same scan, with and without what was there before.
          have hscan : ∀ (written : Bytes) (width : Nat), expandScan env (written.reverse ++ done) width rest =
              done.reverse ++ expandScan env written.reverse width rest := by
            intro written width
            rw [ih (written.reverse ++ done), ih written.reverse]
            simp
          rw [List.drop_zero, expandScan, expandScan]
          split
          next =>
            dsimp only
            split
            next =>
              split
              next => exact hscan [b] 0
              next => exact hscan [] _
            next =>
              rw [List.append_nil]
              exact hscan (env.get _) _
          next => exact hscan [b] 0

/-- A byte stays unless it is a dollar sign that something stirs. -/
theorem expandScan_plain (h : b = '$' → ∀ c ∈ rest.head?, stirs c = false) :
    expandScan env [] 0 (b :: rest) = b :: expandScan env [] 0 rest := by
  have hstays : expandScan env [b] 0 rest = b :: expandScan env [] 0 rest := by
    rw [expandScan_eq env [b]]
    rfl
  rw [expandScan]
  split
  next hdollar =>
    rw [Bool.and_eq_true, decide_eq_true_eq] at hdollar
    cases rest with
    | nil => exact absurd hdollar.2 (by decide)
    | cons c more =>
        rw [reference_calm (h hdollar.1 c rfl)]
        exact hstays
  next => exact hstays

theorem expandScan_reference {c : UInt8} (h : stirs c = true) (more : Bytes) :
    expandScan env [] 0 (('$' : UInt8) :: c :: more) =
      (if (reference (c :: more)).1 = [] then [] else env.get (reference (c :: more)).1) ++
        expandScan env [] 0 ((c :: more).drop (reference (c :: more)).2) := by
  rw [expandScan, if_pos (by simp)]
  dsimp only
  rw [if_neg (reference_stirring h more).1]
  split
  next hname =>
    rw [expandScan_eq, if_pos (List.isEmpty_iff.mp hname)]
    rfl
  next hname =>
    rw [expandScan_eq, if_neg fun hempty => hname (List.isEmpty_iff.mpr hempty)]
    simp

/-- A text that opens with a name in braces is scanned to the value of the name, and on behind it. -/
theorem expandScan_opens {text name rest : Bytes} (h : Opens text name rest) :
    expandScan env [] 0 text = env.get name ++ expandScan env [] 0 rest := by
  obtain ⟨more, rfl⟩ : ∃ more, text = ('$' : UInt8) :: '\x7b' :: more := ⟨_, h.text_eq⟩
  have hrest : (('\x7b' : UInt8) :: more).drop (name.length + 2) = rest := by
    have hmore : ('\x7b' : UInt8) :: more = ('\x7b' : UInt8) :: (name ++ [('\x7d' : UInt8)]) ++ rest :=
      (List.cons.inj h.text_eq).2
    rw [hmore]
    exact List.drop_left' (by simp)
  rw [expandScan_reference (by decide +kernel), reference_opens h, if_neg h.ne_nil, hrest]

/-- Where no variable is set, the scan never writes an opening brace behind a dollar sign first. -/
theorem not_opening_expandScan (text : Bytes) (more : Bytes) :
    expandScan [] [] 0 text ≠ ('$' : UInt8) :: '\x7b' :: more := by
  induction hlength : text.length using Nat.strong_induction_on generalizing text with
  | h length ih =>
      cases text with
      | nil => exact List.cons_ne_nil _ _ ∘ Eq.symm
      | cons b rest =>
          by_cases hstays : b = '$' → ∀ c ∈ rest.head?, stirs c = false
          · rw [expandScan_plain hstays]
            intro heq
            obtain ⟨rfl, hnext⟩ := List.cons.inj heq
            cases rest with
            | nil => cases hnext
            | cons c others =>
                have hcalm := hstays rfl c rfl
                have hc : c ≠ '$' ∧ c ≠ '\x7b' := by
                  constructor <;> rintro rfl <;> exact absurd hcalm (by decide +kernel)
                rw [expandScan_plain fun h => absurd h hc.1] at hnext
                exact hc.2 (List.cons.inj hnext).1
          · simp only [Classical.not_imp, not_forall, Bool.not_eq_false] at hstays
            obtain ⟨rfl, c, hhead, hstirs⟩ := hstays
            obtain ⟨others, rfl⟩ := List.head?_eq_some_iff.mp hhead
            have hunset : ∀ name : Bytes, (if name = [] then [] else Environment.get [] name) = [] := by
              intro name
              split <;> rfl
            rw [expandScan_reference hstirs, hunset, List.nil_append]
            exact ih _ (by rw [← hlength]; simp) _ rfl

end

/-! ## Expanding texts -/

/-- Whether no dollar sign that stands for itself is followed by what a shell would take for a variable. -/
def Calm (pieces : List Piece) : Prop :=
  ∀ front rest, pieces = front ++ .plain '$' :: rest → ∀ c ∈ (rest.flatMap Piece.text).head?, stirs c = false

section

variable {text : Bytes} {pieces : List Piece}

theorem calm_cons {piece : Piece} : Calm (piece :: pieces) ↔
    (piece = .plain '$' → ∀ c ∈ (pieces.flatMap Piece.text).head?, stirs c = false) ∧ Calm pieces := by
  constructor
  · intro h
    exact ⟨fun hpiece => h [] pieces (by rw [hpiece]; rfl), fun front rest hpieces => h (piece :: front) rest (by
      rw [hpieces]; rfl)⟩
  · rintro ⟨hfirst, hothers⟩ (_ | ⟨other, front⟩) rest hpieces
    · obtain ⟨rfl, rfl⟩ := List.cons.inj hpieces
      exact hfirst rfl
    · obtain ⟨-, hpieces⟩ := List.cons.inj hpieces
      exact hothers front rest hpieces

/-- A dollar sign for itself that is stirred does not always stay: with a value for the name that it seems to refer to,
or without any values if it refers to none. -/
theorem exists_stirred {c : UInt8} {more : Bytes} (hstirs : stirs c = true) (h : Reads (c :: more) pieces) :
    ∃ env : Environment, expandScan env [] 0 (('$' : UInt8) :: c :: more) ≠
      ('$' : UInt8) :: pieces.flatMap (·.value env) := by
  by_cases hname : (reference (c :: more)).1 = []
  · obtain rfl := (reference_stirring hstirs more).2 hname
    refine ⟨[], ?_⟩
    cases h with
    | braced hopens => exact absurd (List.cons.inj hopens.text_eq).1 (by decide +kernel)
    | plain => exact not_opening_expandScan _ _
  · refine ⟨[((reference (c :: more)).1, "0")], ?_⟩
    have hvalue : Environment.get [((reference (c :: more)).1, "0")] (reference (c :: more)).1 = "0" := by
      simp [Environment.get, Environment.lookup?]
    rw [expandScan_reference hstirs, if_neg hname, hvalue]
    exact fun heq => absurd (List.cons.inj heq).1 (by decide +kernel)

/-- The scan replaces the names in braces and nothing else just if all other dollar signs are calm. -/
theorem expandScan_iff (h : Reads text pieces) :
    (∀ env : Environment, expandScan env [] 0 text = pieces.flatMap (·.value env)) ↔ Calm pieces := by
  induction h with
  | done => exact ⟨fun _ front rest hpieces => by simp at hpieces, fun _ _ => rfl⟩
  | braced hopens _ ih =>
      rw [calm_cons, ← ih]
      simp only [expandScan_opens hopens, List.flatMap_cons, Piece.value, List.append_cancel_left_eq]
      simp
  | @plain b rest pieces _ hrest ih =>
      rw [calm_cons, ← ih, hrest.text_eq, Piece.plain.injEq]
      by_cases hstays : b = '$' → ∀ c ∈ rest.head?, stirs c = false
      · simp only [expandScan_plain hstays, List.flatMap_cons, Piece.value, List.singleton_append, List.cons.injEq,
          true_and, and_iff_right hstays]
      · refine iff_of_false (fun hall => ?_) fun hcalm => hstays hcalm.1
        simp only [Classical.not_imp, not_forall, Bool.not_eq_false] at hstays
        obtain ⟨rfl, c, hhead, hstirs⟩ := hstays
        obtain ⟨others, rfl⟩ := List.head?_eq_some_iff.mp hhead
        obtain ⟨env, hdiffers⟩ := exists_stirred hstirs hrest
        exact hdiffers (hall env)

/-- Every text is read in one way. Expanding it replaces the names in braces by their values and leaves all other bytes,
whatever the environment, just if there is no opening brace behind a dollar sign at all or no other dollar sign is
stirred. -/
theorem expand_iff (text : Bytes) :
    ∃ pieces, Reads text pieces ∧ (∀ other, Reads text other → other = pieces) ∧
      ((∀ env : Environment, env.expand text = pieces.flatMap (·.value env)) ↔
        Bytes.occursIn "$\x7b" text = false ∨ Calm pieces) := by
  obtain ⟨pieces, hreads⟩ := exists_reads text
  refine ⟨pieces, hreads, fun other => hreads.unique, ?_⟩
  by_cases hbrace : Bytes.occursIn "$\x7b" text = true
  · have hexpand : ∀ env : Environment, env.expand text = expandScan env [] 0 text := fun env => if_pos hbrace
    simp only [hexpand, expandScan_iff hreads, hbrace, Bool.true_eq_false, false_or]
  · rw [Bool.not_eq_true] at hbrace
    have hexpand : ∀ env : Environment, env.expand text = text := fun env => if_neg (by simp [hbrace])
    simp only [hexpand, hreads.value_eq hbrace, hbrace, true_or, implies_true]

/-- A name in braces sets off a dollar sign far behind it, which without the name would stay. -/
theorem stirred_dollar_is_lost :
    let env : Environment := [("A", "x")]
    let pieces : List Piece := [.braced "A", .plain ' ', .plain '$', .plain '1']
    Reads "$\x7bA\x7d $1" pieces ∧ pieces.flatMap (·.value env) = "x $1" ∧ env.expand "$\x7bA\x7d $1" = "x " ∧
      env.expand "x $1" = "x $1" := by
  intro env pieces
  have hplain : ∀ b (rest name more : Bytes), List.isPrefixOf ("$\x7b" : Bytes) (b :: rest) = false →
      ¬ Opens (b :: rest) name more := by
    intro b rest name more hnone hopens
    rw [hopens.isPrefixOf] at hnone
    cases hnone
  have hopens : Opens "$\x7bA\x7d $1" "A" " $1" := ⟨by decide +kernel, by decide +kernel, by decide +kernel⟩
  refine ⟨.braced hopens ?_, by decide +kernel, by decide +kernel, by decide +kernel⟩
  refine .plain (fun name more => hplain _ _ _ _ (by decide +kernel)) ?_
  refine .plain (fun name more => hplain _ _ _ _ (by decide +kernel)) ?_
  exact .plain (fun name more => hplain _ _ _ _ (by decide +kernel)) .done

end

end Environment

end MobilitySweep
