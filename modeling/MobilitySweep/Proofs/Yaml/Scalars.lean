import MobilitySweep.Proofs.Yaml.Cursors
import MobilitySweep.Yaml.Scalar

/-! # Scalars on one line

A plain scalar is made of words with blanks between them; it ends before a colon that ends a key, or at the end of its
line, where the line break and the indentation of the next line are passed as well. A quoted scalar stands between
quotes, each of its characters written as itself or in some code.
-/

namespace MobilitySweep

namespace Yaml

open Cursor

variable {rest : List Char} {x : Char} {m : Mark} {c : Cursor} {d : Draft} {bound count : Nat}

/-- A character that belongs to neither white space nor the end of a stream. -/
def IsSolid (x : Char) : Prop := isBlankOrEnd x = false

instance (x : Char) : Decidable (IsSolid x) := inferInstanceAs (Decidable (_ = _))

theorem IsSolid.isBlank (h : IsSolid x) : isBlank x = false := by
  simp only [IsSolid, isBlankOrEnd, Bool.or_eq_false_iff] at h
  exact h.1

theorem IsSolid.isBreak (h : IsSolid x) : isBreak x = false := by
  simp only [IsSolid, isBlankOrEnd, isBreakOrEnd, Bool.or_eq_false_iff] at h
  exact h.2.1

theorem IsSolid.isEnd (h : IsSolid x) : isEnd x = false := by
  simp only [IsSolid, isBlankOrEnd, isBreakOrEnd, Bool.or_eq_false_iff] at h
  exact h.2.2

/-- What stands behind the white space before a token: the token itself, or the end of the stream. -/
structure Starts (rest : List Char) : Prop where
  not_blank : isBlank (first rest) = false
  not_break : isBreak (first rest) = false

theorem starts_of_solid (h : IsSolid x) : Starts (x :: rest) := ⟨h.isBlank, h.isBreak⟩

theorem starts_nil : Starts [] := ⟨by decide, by decide⟩

/-- No indicator divides documents at a place: it is within a line, or the characters there are others. -/
def Undivided (m : Mark) (rest : List Char) : Prop := m.column ≠ 0 ∨ first rest ≠ '-' ∧ first rest ≠ '.'

theorem Cursor.At.not_atIndicator (hat : At rest m c) (hm : Undivided m rest) {mark : Char} (hmark : mark = '-' ∨ mark = '.') :
    c.atIndicator mark = false := by
  rw [atIndicator, hat.mark_eq, hat.peek_eq, List.drop_zero]
  rcases hm with hm | ⟨hdash, hdot⟩
  · simp [hm]
  · rcases hmark with rfl | rfl
    · simp [hdash]
    · simp [hdot]

theorem Cursor.At.not_atDocumentIndicator (hat : At rest m c) (hm : Undivided m rest) : c.atDocumentIndicator = false := by
  rw [atDocumentIndicator, hat.not_atIndicator hm (.inl rfl), hat.not_atIndicator hm (.inr rfl), Bool.or_self]

/-! ## Plain scalars -/

/-- A run of characters of a plain scalar: no white space is among them, and no colon at their end. -/
structure IsPlainWord (word : List Char) : Prop where
  ne_nil : word ≠ []
  solid : ∀ x ∈ word, IsSolid x
  no_colon : word.getLast? ≠ some ':'
  no_comment : word.head? ≠ some '#'

theorem IsPlainWord.starts {word : List Char} (h : IsPlainWord word) (rest : List Char) : Starts (word ++ rest) := by
  obtain ⟨x, word, rfl⟩ := List.exists_cons_of_ne_nil h.ne_nil
  exact starts_of_solid (h.solid x List.mem_cons_self)

theorem IsPlainWord.first_ne {word : List Char} (h : IsPlainWord word) (rest : List Char) : first (word ++ rest) ≠ '#' := by
  obtain ⟨x, word, rfl⟩ := List.exists_cons_of_ne_nil h.ne_nil
  exact fun hx => h.no_comment (congrArg some hx)

/-- Plain words with blanks between them. -/
inductive IsPlainText : List Char → Prop where
  | word {word : List Char} (h : IsPlainWord word) : IsPlainText word
  | spaced {word text : List Char} (blanks : Nat) (h : IsPlainWord word) (htext : IsPlainText text) :
      IsPlainText (word ++ (List.replicate (blanks + 1) ' ' ++ text))

theorem IsPlainText.exists_cons {text : List Char} (h : IsPlainText text) : ∃ x more, text = x :: more ∧ IsSolid x := by
  have hword {word : List Char} (hword : IsPlainWord word) (rest : List Char) :
      ∃ x more, word ++ rest = x :: more ∧ IsSolid x := by
    obtain ⟨x, word, rfl⟩ := List.exists_cons_of_ne_nil hword.ne_nil
    exact ⟨x, word ++ rest, rfl, hword.solid x List.mem_cons_self⟩
  cases h with
  | word h => simpa using hword h []
  | spaced blanks h _ => exact hword h _

theorem IsPlainText.starts {text : List Char} (h : IsPlainText text) (rest : List Char) : Starts (text ++ rest) := by
  obtain ⟨x, more, rfl, hx⟩ := h.exists_cons
  exact starts_of_solid hx

/-- What ends a run of characters of a plain scalar outside flow collections. -/
def EndsWord (rest : List Char) : Prop :=
  isBlankOrEnd (first rest) = true ∨ first rest = ':' ∧ isBlankOrEnd (first rest.tail) = true

theorem endsWord_blank (rest : List Char) : EndsWord (' ' :: rest) := .inl (by rw [first_cons]; decide)

theorem endsWord_break (rest : List Char) : EndsWord ('\n' :: rest) := .inl (by rw [first_cons]; decide)

theorem plainEnds_of_endsWord (h : EndsWord rest) (hat : At rest m c) : plainEnds false c = true := by
  rw [plainEnds, hat.head_eq, hat.peek_eq, List.drop_one]
  rcases h with h | ⟨h, h'⟩
  · simp [h]
  · simp [h, h']

theorem not_plainEnds (hsolid : IsSolid x) (hcolon : x = ':' → IsSolid (first rest)) (hat : At (x :: rest) m c) :
    plainEnds false c = false := by
  have hx : isBlankOrEnd x = false := hsolid
  have hnext : x = ':' → isBlankOrEnd (first rest) = false := hcolon
  rw [plainEnds, hat.head_eq, hat.peek_eq, List.drop_one]
  by_cases h : x = ':'
  · rw [h] at hx
    simp [hx, hnext h, h]
  · simp [hx, h]

namespace Draft

/-- A draft with a run of characters put behind the blanks that were pending. -/
def grown (d : Draft) (word : List Char) : Draft :=
  { d with text := word.reverse ++ (d.blanks ++ d.text), blanks := [] }

/-- A draft with more blanks pending. -/
def spaced (d : Draft) (blanks : Nat) : Draft := { d with blanks := List.replicate blanks ' ' ++ d.blanks }

theorem settle_of_unbroken (h : d.broken = false) : d.settle = d.grown [] := by
  simp [settle, grown, h]

theorem grown_grown (d : Draft) (word more : List Char) : (d.grown word).grown more = d.grown (word ++ more) := by
  simp [grown]

theorem spaced_spaced (d : Draft) (blanks more : Nat) : (d.spaced blanks).spaced more = d.spaced (more + blanks) := by
  simp [spaced, ← List.append_assoc, List.replicate_append_replicate]

theorem space_blank (h : d.broken = false) (hhead : c.head = ' ') : d.space c = .ok (d.spaced 1, c.skip) := by
  rw [space, hhead, if_pos (by decide), if_neg (by simp [h])]
  rfl

theorem space_indentation (h : d.broken = true) (hhead : c.head = ' ') : d.space c = .ok (d, c.skip) := by
  rw [space, hhead, if_pos (by decide), if_pos h]
  rfl

theorem space_line (h : d.broken = false) (hat : At ('\n' :: rest) m c) :
    Gives (d.space c) fun r => r.1.text = d.text ∧ r.1.broken = true ∧ At rest m.below r.2 := by
  rw [space, show c.head = '\n' from hat.head_eq, if_neg (by decide)]
  refine (hat.need 2).bind fun c' hat' => ?_
  rw [if_neg (by simp [h])]
  exact .ok ⟨rfl, rfl, hat'.skipLine⟩

end Draft

/-- A run of characters is read up to its end. -/
theorem plainRun_word {word : List Char} (hword : IsPlainWord word) (hends : EndsWord rest) (hd : d.broken = false)
    (hcount : word.length < count) (hat : At (word ++ rest) m c) :
    Gives (plainRun false count d c) fun r => r.1 = d.grown word ∧ At rest (m.ahead word.length) r.2 := by
  obtain ⟨hne, hsolid, hcolon, -⟩ := hword
  obtain ⟨x, word, rfl⟩ := List.exists_cons_of_ne_nil hne
  clear hne
  induction word generalizing x d m c count with
  | nil =>
      obtain ⟨count, rfl⟩ := Nat.exists_eq_add_of_lt hcount
      have hx : x = ':' → IsSolid (first rest) := fun hx => absurd (by rw [hx]; rfl) hcolon
      rw [plainRun, not_plainEnds (hsolid x List.mem_cons_self) hx hat]
      refine (hat.skip.need 2).bind fun c' hat' => ?_
      rw [List.length_singleton, Nat.add_comm, plainRun, plainEnds_of_endsWord hends hat']
      refine .ok ⟨?_, hat'⟩
      rw [Draft.settle_of_unbroken hd, hat.head_eq]
      rfl
  | cons y word ih =>
      obtain ⟨count, rfl⟩ := Nat.exists_eq_add_one_of_ne_zero (Nat.ne_zero_of_lt hcount)
      have hx : x = ':' → IsSolid (first (y :: word ++ rest)) := fun _ => hsolid y (by simp)
      rw [plainRun, not_plainEnds (hsolid x List.mem_cons_self) hx hat]
      refine (hat.skip.need 2).bind fun c' hat' => ?_
      rw [Draft.settle_of_unbroken hd, hat.head_eq]
      have hrest := ih (d := d.grown [x]) hd y (Nat.lt_of_succ_lt_succ hcount) hat'
        (fun z hz => hsolid z (List.mem_cons_of_mem x hz)) (by simpa using hcolon)
      refine hrest.mono fun r hr => ⟨hr.1.trans (d.grown_grown [x] _), ?_⟩
      simpa [Nat.add_comm, Nat.add_assoc] using hr.2

/-- Nothing is passed where a word starts. -/
theorem plainSpace_nothing (indent : Int) (start : Mark) (hrest : Starts rest) (hcount : 0 < count) (hat : At rest m c) :
    Gives (plainSpace indent start count d c) fun r => r.1 = d ∧ At rest m r.2 := by
  obtain ⟨count, rfl⟩ := Nat.exists_eq_add_one_of_ne_zero (Nat.ne_zero_of_lt hcount)
  refine (hat.need 1).bind fun c' hat' => ?_
  rw [hat'.head_eq, hrest.not_blank, hrest.not_break]
  exact .ok ⟨rfl, hat'⟩

/-- Blanks on one line are kept. -/
theorem plainSpace_blanks (indent : Int) (start : Mark) {blanks : Nat} (hrest : Starts rest) (hd : d.broken = false)
    (hcount : blanks < count) (hat : At (List.replicate blanks ' ' ++ rest) m c) :
    Gives (plainSpace indent start count d c) fun r => r.1 = d.spaced blanks ∧ At rest (m.ahead blanks) r.2 := by
  induction blanks generalizing d m c count with
  | zero => exact plainSpace_nothing indent start hrest hcount hat
  | succ blanks ih =>
      obtain ⟨count, rfl⟩ := Nat.exists_eq_add_one_of_ne_zero (Nat.ne_zero_of_lt hcount)
      refine (hat.need 1).bind fun c' hat' => ?_
      have hhead : c'.head = ' ' := hat'.head_eq
      rw [if_pos (by rw [hhead]; decide), if_neg (by simp [hhead]), Draft.space_blank hd hhead]
      refine (ih (d := d.spaced 1) hd (Nat.lt_of_succ_lt_succ hcount) hat'.skip).mono fun r hr => ?_
      exact ⟨hr.1.trans (d.spaced_spaced 1 blanks), by simpa [Nat.add_comm] using hr.2⟩

/-- The indentation behind a line break is passed. -/
theorem plainSpace_indentation (indent : Int) (start : Mark) {blanks : Nat} (hrest : Starts rest)
    (hd : d.broken = true) (hcount : blanks < count) (hat : At (List.replicate blanks ' ' ++ rest) m c) :
    Gives (plainSpace indent start count d c) fun r => r.1 = d ∧ At rest (m.ahead blanks) r.2 := by
  induction blanks generalizing m c count with
  | zero => exact plainSpace_nothing indent start hrest hcount hat
  | succ blanks ih =>
      obtain ⟨count, rfl⟩ := Nat.exists_eq_add_one_of_ne_zero (Nat.ne_zero_of_lt hcount)
      refine (hat.need 1).bind fun c' hat' => ?_
      have hhead : c'.head = ' ' := hat'.head_eq
      rw [if_pos (by rw [hhead]; decide), if_neg (by simp [hhead]), Draft.space_indentation hd hhead]
      refine (ih (Nat.lt_of_succ_lt_succ hcount) hat'.skip).mono fun r hr => ⟨hr.1, ?_⟩
      simpa [Nat.add_comm] using hr.2

/-- A line break and the indentation of the next line are passed. -/
theorem plainSpace_line (indent : Int) (start : Mark) {blanks : Nat} (hrest : Starts rest) (hd : d.broken = false)
    (hcount : blanks + 1 < count) (hat : At ('\n' :: (List.replicate blanks ' ' ++ rest)) m c) :
    Gives (plainSpace indent start count d c) fun r =>
      r.1.text = d.text ∧ r.1.broken = true ∧ At rest (m.below.ahead blanks) r.2 := by
  obtain ⟨count, rfl⟩ := Nat.exists_eq_add_one_of_ne_zero (Nat.ne_zero_of_lt hcount)
  refine (hat.need 1).bind fun c' hat' => ?_
  have hhead : c'.head = '\n' := hat'.head_eq
  rw [if_pos (by rw [hhead]; decide), if_neg (by simp [hd])]
  refine (Draft.space_line hd hat').bind fun r hr => ?_
  obtain ⟨htext, hbroken, hbelow⟩ := hr
  refine (plainSpace_indentation indent start hrest hbroken (Nat.lt_of_succ_lt_succ hcount) hbelow).mono ?_
  rintro ⟨d', c''⟩ ⟨rfl, hnext⟩
  exact ⟨htext, hbroken, hnext⟩

/-- The first word of a plain scalar is read. -/
theorem plainRuns_word {word : List Char} (hword : IsPlainWord word) {indent : Int} {start stop : Mark}
    (hends : EndsWord rest) (hd : d.broken = false) (hm : Undivided m (word ++ rest)) (hbound : word.length < bound)
    (hat : At (word ++ rest) m c) {good : (Draft × Mark) × Cursor → Prop}
    (hnext : ∀ stop' c', At rest (m.ahead word.length) c' →
      Gives (if !(isBlank c'.head || isBreak c'.head) then .ok ((d.grown word, stop'), c')
        else plainSpace indent start bound (d.grown word) c' >>= fun r =>
          if !false && (r.2.mark.column : Int) < indent then .ok ((r.1, stop'), r.2)
          else plainRuns false indent bound start count r.1 stop' r.2) good) :
    Gives (plainRuns false indent bound start (count + 1) d stop c) good := by
  refine (hat.need 4).bind fun c' hat' => ?_
  have hsharp : c'.head ≠ '#' := by rw [hat'.head_eq]; exact hword.first_ne rest
  rw [hat'.not_atDocumentIndicator hm, Bool.false_or, if_neg (by simpa using hsharp)]
  refine (plainRun_word hword hends hd hbound hat').bind ?_
  rintro ⟨d', after⟩ ⟨rfl, hafter⟩
  exact hnext _ after hafter

/-- A plain scalar at the end of its line is read with the line break and the indentation of the next line. -/
theorem plainRuns_line {text : List Char} (htext : IsPlainText text) {indent : Int} (start stop : Mark) {blanks : Nat}
    (hblanks : blanks < indent) (hrest : Starts rest) (hd : d.broken = false) (hindent : indent ≤ m.column)
    (hbound : text.length + blanks + 1 < bound) (hcount : text.length < count)
    (hat : At (text ++ '\n' :: (List.replicate blanks ' ' ++ rest)) m c) :
    Gives (plainRuns false indent bound start count d stop c) fun r =>
      r.1.1.text = text.reverse ++ (d.blanks ++ d.text) ∧ r.1.1.broken = true ∧
        ∃ m' : Mark, m'.column = blanks ∧ At rest m' r.2 := by
  induction htext generalizing d m c count stop with
  | @word word hword =>
      obtain ⟨count, rfl⟩ := Nat.exists_eq_add_one_of_ne_zero (Nat.ne_zero_of_lt hcount)
      refine plainRuns_word hword (endsWord_break _) hd (.inl (by omega)) (by omega) hat fun stop' after hafter => ?_
      rw [hafter.head_eq, first_cons, if_neg (by decide)]
      refine (plainSpace_line (d := d.grown word) indent start hrest hd ?_ hafter).bind ?_
      · omega
      rintro ⟨d', next⟩ ⟨hgrown, hbroken, hnext⟩
      have hcolumn : (next.mark.column : Int) < indent := by
        rw [hnext.mark_eq]
        simpa using hblanks
      -- The next line starts to the left of the scalar, which ends there.
      rw [if_pos (by simpa using hcolumn)]
      exact .ok ⟨hgrown, hbroken, _, by simp, hnext⟩
  | @spaced word text inner hword htext ih =>
      obtain ⟨count, rfl⟩ := Nat.exists_eq_add_one_of_ne_zero (Nat.ne_zero_of_lt hcount)
      have hne := List.length_pos_of_ne_nil hword.ne_nil
      simp only [List.length_append, List.length_replicate] at hbound hcount
      rw [List.append_assoc, List.append_assoc] at hat
      have hends : EndsWord (List.replicate (inner + 1) ' ' ++ (text ++ '\n' :: (List.replicate blanks ' ' ++ rest))) :=
        endsWord_blank _
      refine plainRuns_word hword hends hd (.inl (by omega)) (by omega) hat fun stop' after hafter => ?_
      have hhead : after.head = ' ' := hafter.head_eq
      rw [hhead, if_neg (by decide)]
      refine (plainSpace_blanks (d := d.grown word) indent start (htext.starts _) hd ?_ hafter).bind ?_
      · omega
      rintro ⟨d', next⟩ ⟨rfl, hnext⟩
      have hcolumn : ¬(next.mark.column : Int) < indent := by
        rw [hnext.mark_eq]
        simp only [Mark.column_ahead]
        omega
      rw [if_neg (by simpa using hcolumn)]
      have hlast := ih (d := (d.grown word).spaced (inner + 1)) stop' hd (by simp only [Mark.column_ahead]; omega)
        (by omega) (by omega : text.length < count) hnext
      refine hlast.mono fun r hr => ⟨hr.1.trans ?_, hr.2⟩
      simp [Draft.grown, Draft.spaced]

/-- A plain scalar at the end of its line is read as its text, and a key may start behind it. -/
theorem plainScalar_line {text : List Char} (htext : IsPlainText text) {indent : Int} {blanks : Nat}
    (hblanks : blanks ≤ indent) (hrest : Starts rest) (hindent : indent < m.column)
    (hbound : text.length + blanks + 1 < bound) (hat : At (text ++ '\n' :: (List.replicate blanks ' ' ++ rest)) m c) :
    Gives (plainScalar false indent bound c) fun r =>
      r.1.1.kind = .scalar (Utf8.encode text) .plain ∧ r.1.2 = true ∧ ∃ m' : Mark, m'.column = blanks ∧ At rest m' r.2 := by
  have hruns := plainRuns_line (d := Draft.empty) htext c.mark c.mark (Int.lt_add_one_of_le hblanks) hrest rfl
    (Int.add_one_le_of_lt hindent) hbound (by omega : text.length < bound) hat
  refine hruns.bind ?_
  rintro ⟨⟨d, stop⟩, after⟩ ⟨hwritten, hbroken, hafter⟩
  have hbytes : d.bytes = Utf8.encode text := by
    rw [Draft.bytes, hwritten]
    simp [Draft.empty]
  exact .ok ⟨by rw [hbytes], hbroken, hafter⟩

/-- A key in plain form is read as its text, up to the colon behind it. -/
theorem plainScalar_key {word : List Char} (hword : IsPlainWord word) (hends : EndsWord (':' :: rest)) (indent : Int)
    (hm : Undivided m (word ++ ':' :: rest)) (hbound : word.length < bound) (hat : At (word ++ ':' :: rest) m c) :
    Gives (plainScalar false indent bound c) fun r =>
      r.1.1.kind = .scalar (Utf8.encode word) .plain ∧ r.1.2 = false ∧ At (':' :: rest) (m.ahead word.length) r.2 := by
  obtain ⟨count, rfl⟩ := Nat.exists_eq_add_one_of_ne_zero (Nat.ne_zero_of_lt hbound)
  have hrun : Gives (plainRuns false (indent + 1) (count + 1) c.mark (count + 1) .empty c.mark c) fun r =>
      r.1.1 = Draft.empty.grown word ∧ At (':' :: rest) (m.ahead word.length) r.2 := by
    refine plainRuns_word hword hends rfl hm hbound hat fun stop' after hafter => ?_
    rw [hafter.head_eq, first_cons, if_pos (by decide)]
    exact .ok ⟨rfl, hafter⟩
  refine hrun.bind ?_
  rintro ⟨⟨d, stop⟩, after⟩ ⟨hgrown, hafter⟩
  dsimp only at hgrown hafter ⊢
  rw [hgrown]
  exact .ok ⟨by simp [Draft.bytes, Draft.grown, Draft.empty], rfl, hafter⟩

/-! ## Quoted scalars -/

/-- The quote that encloses a scalar. -/
def quote (single : Bool) : Char := if single then '\'' else '"'

theorem quote_solid (single : Bool) : IsSolid (quote single) := by cases single <;> decide

/-- What stands behind a backslash for a character. -/
inductive Escapes (x : Char) : List Char → Prop where
  | short {letter : Char} (hbreak : isBreak letter = false) (h : simpleEscape? letter = some x) : Escapes x [letter]
  | long {letter : Char} {digits : List Char} (hbreak : isBreak letter = false) (hshort : simpleEscape? letter = none)
      (hlength : escapeLength? letter = some digits.length) (hdigits : hexNumber? 0 digits = some x.toNat) :
      Escapes x (letter :: digits)

/-- How a character is written between quotes. -/
inductive Codes (single : Bool) (x : Char) : List Char → Prop where
  | plain (hsolid : IsSolid x) (hquote : x ≠ quote single) (hescape : single = false → x ≠ '\\') : Codes single x [x]
  | doubled (hsingle : single = true) (hx : x = '\'') : Codes single x ['\'', '\'']
  | escaped {code : List Char} (hdouble : single = false) (hcode : Escapes x code) : Codes single x ('\\' :: code)

variable {single : Bool} {code : Char → List Char} {start : Mark}

theorem Codes.starts {written : List Char} (h : Codes single x written) (rest : List Char) : IsSolid (first (written ++ rest)) := by
  cases h with
  | plain hsolid => exact hsolid
  | doubled => rw [List.cons_append, first_cons]; decide
  | escaped => rw [List.cons_append, first_cons]; decide

theorem map_peek {digits : List Char} (hat : At (digits ++ rest) m c) :
    (List.range digits.length).map c.peek = digits := by
  refine List.ext_getElem (by simp) fun i hi hi' => ?_
  rw [List.getElem_map, List.getElem_range, hat.peek_eq, first, List.headD_eq_head?_getD, List.head?_drop,
    List.getElem?_append_left hi', List.getElem?_eq_getElem hi', Option.getD_some]

/-- An escape is read as the character that it stands for. -/
theorem escape_spec {written : List Char} (h : Escapes x written) (hat : At ('\\' :: written ++ rest) m c) :
    Gives (escape start c) fun r => r.1 = x ∧ At rest (m.ahead (written.length + 1)) r.2 := by
  cases h with
  | @short letter _ hshort =>
      rw [escape, hat.peek_eq]
      simp only [List.cons_append, List.nil_append, List.drop_one, List.tail_cons, first_cons, hshort]
      exact .ok ⟨rfl, hat.skipMany ['\\', letter]⟩
  | @long letter digits _ hshort hlength hdigits =>
      have hbehind : At (digits ++ rest) (m.ahead 2) (c.skipMany 2) := hat.skipMany ['\\', letter]
      have hlt := Utf8.toNat_lt x
      have hcode : ((55296 ≤ x.toNat && x.toNat ≤ 57343) || 1114111 < x.toNat) = false := by
        have hsurrogate := Utf8.toNat_not_surrogate x
        simp only [Bool.or_eq_false_iff, Bool.and_eq_false_iff, decide_eq_false_iff_not]
        omega
      rw [escape, hat.peek_eq]
      simp only [List.cons_append, List.drop_one, List.tail_cons, first_cons, hshort, hlength]
      refine (hbehind.need digits.length).bind fun c' hat' => ?_
      simp only [map_peek hat', hdigits, hcode, Bool.false_eq_true, if_false]
      refine .ok ⟨Char.ofNat_toNat x, ?_⟩
      rw [List.length_cons, show digits.length + 1 + 1 = 2 + digits.length by omega, ← Mark.ahead_ahead]
      exact hat'.skipMany digits

/-- A character between quotes is read from its code. -/
theorem quotedRun_code {written : List Char} (h : Codes single x written) (hat : At (written ++ rest) m c)
    {good : (Draft × Bool) × Cursor → Prop}
    (hnext : ∀ c', At rest (m.ahead written.length) c' →
      Gives (quotedRun single start count { d with text := x :: d.text } c') good) :
    Gives (quotedRun single start (count + 1) d c) good := by
  have hhead : isBlankOrEnd c.head = false := by rw [hat.head_eq]; exact h.starts rest
  rw [quotedRun]
  simp only [hhead, Bool.false_eq_true, if_false]
  cases h with
  | plain _ hquote hescape =>
      have hx : c.head = x := hat.head_eq
      have hdoubled : (single && decide (x = '\'') && decide (c.peek 1 = '\'')) = false := by
        cases single with
        | true => simp [show x ≠ '\'' from hquote]
        | false => rfl
      have hbackslash : (!single && decide (x = '\\')) = false := by
        cases single with
        | true => rfl
        | false => simp [hescape rfl]
      have hlast : ¬x = if single = true then '\'' else '"' := hquote
      simp only [hx, hdoubled, hlast, hbackslash, Bool.false_and, Bool.false_eq_true, if_false]
      exact (hat.skip.need 2).bind hnext
  | doubled hsingle hx =>
      have hx' : c.head = '\'' := hat.head_eq
      have hpeek : c.peek 1 = '\'' := hat.peek_eq 1
      simp only [hx', hpeek, hsingle, decide_true, Bool.and_self, if_true]
      refine ((hat.skipMany ['\'', '\'']).need 2).bind fun c' hat' => ?_
      rw [← hx, ← hsingle]
      exact hnext c' hat'
  | @escaped code hdouble hcode =>
      have hx : c.head = '\\' := hat.head_eq
      have hpeek : isBreak (c.peek 1) = false := by
        rw [hat.peek_eq]
        cases hcode with
        | short hbreak => exact hbreak
        | long hbreak => exact hbreak
      have hlast : '\\' ≠ '"' := by decide
      simp only [hx, hpeek, hdouble, hlast, Bool.not_false, Bool.false_and, Bool.and_false, Bool.true_and, decide_true,
        Bool.false_eq_true, if_false, if_true]
      refine (escape_spec hcode hat).bind ?_
      rintro ⟨y, after⟩ ⟨rfl, hafter⟩
      refine (hafter.need 2).bind fun c' hat' => ?_
      rw [← hdouble]
      exact hnext c' hat'

/-- What ends a run of characters between quotes: a blank, or the closing quote. -/
def EndsRun (single : Bool) (rest : List Char) : Prop :=
  first rest = ' ' ∨ first rest = quote single ∧ first rest.tail ≠ '\''

theorem quotedRun_end (h : EndsRun single rest) (hat : At rest m c) :
    quotedRun single start (count + 1) d c = .ok ((d, false), c) := by
  rw [quotedRun, hat.head_eq, hat.peek_eq, List.drop_one]
  rcases h with h | ⟨h, h'⟩
  · simp only [h]
    rw [if_pos (by decide)]
    rfl
  · have hsolid : isBlankOrEnd (quote single) = false := quote_solid single
    have hquote : quote single = if single = true then '\'' else '"' := rfl
    simp only [h, hsolid, h', decide_false, Bool.and_false, Bool.false_eq_true, if_false]
    rw [if_pos hquote]
    rfl

/-- A run of characters between quotes is read from their codes. -/
theorem quotedRun_word {word : List Char} (hword : ∀ x ∈ word, Codes single x (code x)) (hends : EndsRun single rest)
    (hcount : word.length < count) (hat : At (word.flatMap code ++ rest) m c) :
    Gives (quotedRun single start count d c) fun r =>
      r.1 = ({ d with text := word.reverse ++ d.text }, false) ∧ At rest (m.ahead (word.flatMap code).length) r.2 := by
  induction word generalizing d m c count with
  | nil =>
      obtain ⟨count, rfl⟩ := Nat.exists_eq_add_one_of_ne_zero (Nat.ne_zero_of_lt hcount)
      rw [quotedRun_end hends hat]
      exact .ok ⟨rfl, hat⟩
  | cons x word ih =>
      obtain ⟨count, rfl⟩ := Nat.exists_eq_add_one_of_ne_zero (Nat.ne_zero_of_lt hcount)
      rw [List.flatMap_cons, List.append_assoc] at hat
      refine quotedRun_code (hword x List.mem_cons_self) hat fun c' hat' => ?_
      refine (ih (fun y hy => hword y (List.mem_cons_of_mem x hy)) (Nat.lt_of_succ_lt_succ hcount) hat').mono ?_
      refine fun r hr => ⟨hr.1.trans ?_, ?_⟩
      · simp
      · simpa using hr.2

/-- Blanks between quotes are kept. -/
theorem quotedSpace_blanks {blanks : Nat} (hrest : Starts rest) (hd : d.broken = false) (hcount : blanks < count)
    (hat : At (List.replicate blanks ' ' ++ rest) m c) :
    Gives (quotedSpace count d c) fun r => r.1 = d.spaced blanks ∧ At rest (m.ahead blanks) r.2 := by
  induction blanks generalizing d m c count with
  | zero =>
      obtain ⟨count, rfl⟩ := Nat.exists_eq_add_one_of_ne_zero (Nat.ne_zero_of_lt hcount)
      rw [quotedSpace, hat.head_eq, List.replicate_zero, List.nil_append, hrest.not_blank, hrest.not_break]
      exact .ok ⟨rfl, hat⟩
  | succ blanks ih =>
      obtain ⟨count, rfl⟩ := Nat.exists_eq_add_one_of_ne_zero (Nat.ne_zero_of_lt hcount)
      have hhead : c.head = ' ' := hat.head_eq
      rw [quotedSpace, if_pos (by rw [hhead]; decide), Draft.space_blank hd hhead]
      refine (hat.skip.need 1).bind fun c' hat' => ?_
      refine (ih (d := d.spaced 1) hd (Nat.lt_of_succ_lt_succ hcount) hat').mono fun r hr => ?_
      exact ⟨hr.1.trans (d.spaced_spaced 1 blanks), by simpa [Nat.add_comm] using hr.2⟩

/-- A way to write the characters of a text between quotes, blanks perhaps as they are. -/
def Spells (single : Bool) (code : Char → List Char) (text : List Char) : Prop :=
  ∀ x ∈ text, (x = ' ' ∧ code x = [' ']) ∨ Codes single x (code x)

theorem Spells.of_cons {text : List Char} (h : Spells single code (x :: text)) : Spells single code text :=
  fun y hy => h y (List.mem_cons_of_mem x hy)

theorem Codes.length_pos {written : List Char} (h : Codes single x written) : 0 < written.length := by
  cases h <;> simp

/-- No text is longer than what spells it. -/
theorem Spells.length_le {text : List Char} (h : Spells single code text) :
    text.length ≤ (text.flatMap code).length := by
  induction text with
  | nil => exact Nat.zero_le _
  | cons x text ih =>
      have hpos : 0 < (code x).length := by
        rcases h x List.mem_cons_self with ⟨-, hblank⟩ | hx
        · simp [hblank]
        · exact hx.length_pos
      have hrest := ih h.of_cons
      simp only [List.flatMap_cons, List.length_append, List.length_cons]
      omega

/-- The blanks that a text starts with. -/
theorem Spells.exists_blanks {text : List Char} (h : Spells single code text) : ∃ blanks more,
    text = List.replicate blanks ' ' ++ more ∧ Spells single code more ∧ ∀ x ∈ more.head?, Codes single x (code x) := by
  induction text with
  | nil => exact ⟨0, [], rfl, h, by simp⟩
  | cons x text ih =>
      rcases h x List.mem_cons_self with ⟨rfl, -⟩ | hx
      · obtain ⟨blanks, more, rfl, hmore, hfirst⟩ := ih h.of_cons
        exact ⟨blanks + 1, more, by simp [List.replicate_succ], hmore, hfirst⟩
      · exact ⟨0, x :: text, rfl, h, by simpa using hx⟩

/-- A text starts with a run of characters. If it does not end there, blanks follow, and then a text that starts with
no blank. -/
theorem Spells.split {text : List Char} (h : Spells single code text) : ∃ word, (∀ x ∈ word, Codes single x (code x)) ∧
    (text = word ∨ ∃ blanks more, text = word ++ (List.replicate (blanks + 1) ' ' ++ more) ∧ code ' ' = [' '] ∧
      Spells single code more ∧ ∀ x ∈ more.head?, Codes single x (code x)) := by
  induction text with
  | nil => exact ⟨[], by simp, .inl rfl⟩
  | cons x text ih =>
      rcases h x List.mem_cons_self with ⟨rfl, hblank⟩ | hx
      · obtain ⟨blanks, more, rfl, hmore, hfirst⟩ := h.of_cons.exists_blanks
        exact ⟨[], by simp, .inr ⟨blanks, more, by simp [List.replicate_succ], hblank, hmore, hfirst⟩⟩
      · obtain ⟨word, hword, hrest⟩ := ih h.of_cons
        refine ⟨x :: word, by simpa using ⟨hx, hword⟩, hrest.imp (congrArg _) ?_⟩
        rintro ⟨blanks, more, rfl, hmore⟩
        exact ⟨blanks, more, by simp, hmore⟩

theorem flatMap_replicate_blank (h : code ' ' = [' ']) (blanks : Nat) :
    (List.replicate blanks ' ').flatMap code = List.replicate blanks ' ' := by
  induction blanks with
  | zero => rfl
  | succ blanks ih => rw [List.replicate_succ, List.flatMap_cons, ih, h, List.singleton_append]

theorem starts_flatMap {text : List Char} (htext : ∀ x ∈ text.head?, Codes single x (code x)) :
    IsSolid (first (text.flatMap code ++ quote single :: rest)) := by
  cases text with
  | nil => exact quote_solid single
  | cons x text =>
      rw [List.flatMap_cons, List.append_assoc]
      exact (htext x rfl).starts _

theorem Spells.not_end {text : List Char} (h : Spells single code text) :
    isEnd (first (text.flatMap code ++ quote single :: rest)) = false := by
  cases text with
  | nil => exact (quote_solid single).isEnd
  | cons x text =>
      rw [List.flatMap_cons, List.append_assoc]
      rcases h x List.mem_cons_self with ⟨rfl, hblank⟩ | hx
      · rw [hblank, List.singleton_append, first_cons]
        decide
      · exact (hx.starts _).isEnd

/-- What stands between quotes is read up to the closing quote. -/
theorem quotedRuns_text (start : Mark) {text : List Char} (htext : Spells single code text) (hquote : first rest ≠ '\'')
    (hd : d.broken = false) (hblanks : d.blanks = []) (hm : m.column ≠ 0) (hbound : text.length + 1 < bound)
    (hcount : text.length < count) (hat : At (text.flatMap code ++ quote single :: rest) m c) :
    Gives (quotedRuns single bound start count d c) fun r => r.1.text = text.reverse ++ d.text ∧ ∃ i, At rest (m.ahead i) r.2 := by
  induction count generalizing text d m c with
  | zero => omega
  | succ count ih =>
      refine (hat.need 4).bind fun c' hat' => ?_
      rw [hat'.not_atDocumentIndicator (.inl hm), hat'.head_eq, htext.not_end]
      obtain ⟨word, hword, rfl | ⟨inner, more, rfl, hblank, hmore, hfirst⟩⟩ := htext.split
      · have hends : EndsRun single (quote single :: rest) := .inr ⟨rfl, hquote⟩
        refine (quotedRun_word hword hends (by omega : text.length < bound) hat').bind ?_
        rintro ⟨⟨d', escaped⟩, after⟩ ⟨hd', hafter⟩
        obtain ⟨rfl, rfl⟩ := Prod.mk.inj hd'
        refine (hafter.need 1).bind fun c'' hat'' => ?_
        have hclosed : c''.head = if single = true then '\'' else '"' := hat''.head_eq
        rw [if_pos hclosed]
        refine .ok ⟨rfl, (text.flatMap code).length + 1, ?_⟩
        simpa using hat''.skip
      · simp only [List.length_append, List.length_replicate] at hbound hcount
        rw [List.flatMap_append, List.flatMap_append, flatMap_replicate_blank hblank, List.append_assoc,
          List.append_assoc] at hat'
        have hends : EndsRun single (List.replicate (inner + 1) ' ' ++ (more.flatMap code ++ quote single :: rest)) :=
          .inl rfl
        refine (quotedRun_word hword hends (by omega : word.length < bound) hat').bind ?_
        rintro ⟨⟨d', escaped⟩, after⟩ ⟨hd', hafter⟩
        obtain ⟨rfl, rfl⟩ := Prod.mk.inj hd'
        refine (hafter.need 1).bind fun c'' hat'' => ?_
        have hopen : ¬c''.head = if single = true then '\'' else '"' := by
          rw [show c''.head = ' ' from hat''.head_eq]
          cases single <;> decide
        have hstarts : Starts (more.flatMap code ++ quote single :: rest) :=
          ⟨(starts_flatMap hfirst).isBlank, (starts_flatMap hfirst).isBreak⟩
        have hspace := quotedSpace_blanks (d := { d with text := word.reverse ++ d.text, broken := false }) hstarts rfl
          (by omega : inner + 1 < bound) hat''
        rw [if_neg hopen]
        refine hspace.bind ?_
        rintro ⟨d'', next⟩ ⟨rfl, hnext⟩
        dsimp only
        rw [Draft.settle_of_unbroken rfl]
        refine (ih hmore rfl rfl (by simp only [Mark.column_ahead]; omega) (by omega) (by omega) hnext).mono ?_
        rintro r ⟨hwritten, i, hlast⟩
        refine ⟨hwritten.trans ?_, _, by rwa [Mark.ahead_ahead, Mark.ahead_ahead] at hlast⟩
        simp [Draft.grown, Draft.spaced, hblanks]

/-- A quoted scalar is read as the text that it spells. -/
theorem quotedScalar_text {text : List Char} (htext : Spells single code text) (hquote : first rest ≠ '\'')
    (hbound : text.length + 1 < bound) (hat : At (quote single :: (text.flatMap code ++ quote single :: rest)) m c) :
    Gives (quotedScalar single bound c) fun r =>
      r.1.kind = .scalar (Utf8.encode text) .quoted ∧ ∃ i, At rest (m.ahead i) r.2 := by
  have hruns := quotedRuns_text (d := Draft.empty) c.mark htext hquote rfl rfl (by simp) hbound (by omega : text.length < bound)
    hat.skip
  refine hruns.bind ?_
  rintro ⟨d, after⟩ ⟨hwritten, i, hafter⟩
  have hbytes : d.bytes = Utf8.encode text := by
    rw [Draft.bytes, hwritten]
    simp [Draft.empty]
  exact .ok ⟨by rw [hbytes], _, by rwa [Mark.ahead_ahead] at hafter⟩

end Yaml

end MobilitySweep
