import MobilitySweep.Proofs.Number.Digits
import MobilitySweep.Proofs.Text.Words
import MobilitySweep.Proofs.Yaml.Records
import MobilitySweep.Yaml.Printed

/-! # Spellings of printed texts

A text of one line is printed as a spelling that is read as the text: plainly where its form and its meaning allow it,
and else between quotes.
-/

namespace MobilitySweep

namespace Yaml

open Printed

/-- A character that can stand in a stream. -/
def IsFair (x : Char) : Prop := Source.isAllowed x.toNat = true ∧ isByteOrderMark x = false

instance (x : Char) : Decidable (IsFair x) := inferInstanceAs (Decidable (_ ∧ _))

theorem isFair_of_plainPrintable {x : Char} (h : isPlainPrintable x = true) : IsFair x := by
  have hsurrogate := Utf8.toNat_not_surrogate x
  simp only [isPlainPrintable, Bool.or_eq_true, Bool.and_eq_true, decide_eq_true_eq] at h
  simp only [IsFair, Source.isAllowed, isByteOrderMark, Bool.or_eq_true, Bool.and_eq_true, beq_iff_eq, decide_eq_true_eq,
    decide_eq_false_iff_not]
  omega

theorem isFair_of_ascii {x : Char} (h : 0x20 ≤ x.toNat ∧ x.toNat ≤ 0x7E) : IsFair x := by
  simp only [IsFair, Source.isAllowed, isByteOrderMark, Bool.or_eq_true, Bool.and_eq_true, beq_iff_eq, decide_eq_true_eq,
    decide_eq_false_iff_not]
  omega

/-- A character that needs no escape is a blank, a line break or solid. -/
theorem solid_of_plainPrintable {x : Char} (h : isPlainPrintable x = true) (hblank : x ≠ ' ') (hbreak : isBreak x = false) :
    IsSolid x := by
  simp only [isPlainPrintable, Bool.or_eq_true, Bool.and_eq_true, decide_eq_true_eq] at h
  have htab : x ≠ '\t' := by rintro rfl; revert h; decide
  have hend : x.toNat ≠ 0 := by omega
  simp [IsSolid, isBlankOrEnd, isBreakOrEnd, isBlank, isEnd, hblank, htab, hbreak, hend]

/-! ## Plain form -/

/-- The first word of a text that is not divided any further, with what follows it. -/
structure Divides (word tail : List Char) : Prop where
  ne_nil : word ≠ []
  solid : ∀ x ∈ word, IsSolid x
  no_colon : word.getLast? ≠ some ':'
  tail : tail = [] ∨ ∃ blanks text, tail = List.replicate (blanks + 1) ' ' ++ text ∧ IsPlainText text

theorem Divides.isPlainText {word tail : List Char} (h : Divides word tail) (hcomment : word.head? ≠ some '#') :
    IsPlainText (word ++ tail) := by
  have hword : IsPlainWord word := ⟨h.ne_nil, h.solid, h.no_colon, hcomment⟩
  obtain rfl | ⟨blanks, text, rfl, htext⟩ := h.tail
  · rw [List.append_nil]
    exact .word hword
  · exact .spaced blanks hword htext

theorem Divides.cons {x : Char} {word tail : List Char} (h : Divides word tail) (hx : IsSolid x) : Divides (x :: word) tail := by
  refine ⟨List.cons_ne_nil x word, List.forall_mem_cons.mpr ⟨hx, h.solid⟩, ?_, h.tail⟩
  rw [List.getLast?_cons_of_ne_nil h.ne_nil]
  exact h.no_colon

/-- A colon does not clash only before a character that is no blank. -/
theorem not_colon_of_not_clashes {first : Bool} {before next : Option Char} {x : Char}
    (h : clashes first before x next = false) (hnext : (next.map isBlank).getD true = true) : x ≠ ':' := by
  rintro rfl
  cases first <;> simp [clashes, hnext] at h

/-- A comment does not start behind a blank. -/
theorem not_comment_of_not_clashes {first : Bool} {before next : Option Char} {x : Char}
    (h : clashes first before x next = false) (hbefore : first = true ∨ before = some ' ') : x ≠ '#' := by
  rintro rfl
  rcases hbefore with rfl | rfl
  · exact absurd h (by simp [clashes, isIndicator])
  · cases first <;> simp [clashes, isIndicator, isBlankOrEnd, isBlank] at h

/-- A text that ends in no blank, and in which no character clashes with its neighbours, is divided into words. -/
theorem exists_divides {chars : List Char} (hne : chars ≠ []) (hchars : ∀ x ∈ chars, x = ' ' ∨ IsSolid x)
    (hlast : chars.getLast? ≠ some ' ') {before : Option Char} (hclash : anyClash before chars = false) :
    ∃ blanks word tail, chars = List.replicate blanks ' ' ++ (word ++ tail) ∧ Divides word tail ∧
      (0 < blanks ∨ before = none ∨ before = some ' ' → word.head? ≠ some '#') := by
  induction chars generalizing before with
  | nil => exact absurd rfl hne
  | cons x chars ih =>
      rw [List.forall_mem_cons] at hchars
      rw [anyClash, Bool.or_eq_false_iff] at hclash
      have hcomment (hbefore : before = none ∨ before = some ' ') : x ≠ '#' :=
        not_comment_of_not_clashes hclash.1 (hbefore.imp_left fun h => by rw [h]; rfl)
      rcases List.eq_nil_or_concat chars with rfl | ⟨front, last, hfront⟩
      · have hx : IsSolid x := hchars.1.resolve_left fun hx => hlast (by rw [hx]; rfl)
        have hcolon := not_colon_of_not_clashes hclash.1 rfl
        exact ⟨0, [x], [], rfl, ⟨by simp, by simpa using hx, by simpa using hcolon, .inl rfl⟩,
          fun h => by simpa using hcomment (h.resolve_left (lt_irrefl 0))⟩
      · have hsome : chars ≠ [] := by rw [hfront]; simp
        rw [List.getLast?_cons_of_ne_nil hsome] at hlast
        obtain ⟨blanks, word, tail, hsplit, hdivides, hhead⟩ := ih hsome hchars.2 hlast hclash.2
        rcases hchars.1 with rfl | hx
        · exact ⟨blanks + 1, word, tail, by rw [hsplit]; rfl, hdivides, fun _ => hhead (.inr (.inr rfl))⟩
        · cases blanks with
          | zero =>
              refine ⟨0, x :: word, tail, by rw [hsplit]; rfl, hdivides.cons hx, fun h => ?_⟩
              simpa using hcomment (h.resolve_left (lt_irrefl 0))
          | succ blanks =>
              have htext := hdivides.isPlainText (hhead (.inl (Nat.succ_pos blanks)))
              have hcolon : x ≠ ':' := not_colon_of_not_clashes hclash.1 (by rw [hsplit]; rfl)
              exact ⟨0, [x], chars, rfl, ⟨by simp, by simpa using hx, by simpa using hcolon, .inr ⟨blanks, _, hsplit, htext⟩⟩,
                fun h => by simpa using hcomment (h.resolve_left (lt_irrefl 0))⟩

theorem not_markup_of_not_indicator {x : Char} (h : isIndicator x = false) (hothers : x ≠ '-' ∧ x ≠ '?' ∧ x ≠ ':') :
    isMarkup x = false := by
  have hmarks : ['-', '?', ':', ',', '[', ']', '\x7b', '\x7d', '#', '&', '*', '!', '|', '>', '\'', '"', '%', '@'].all
      fun mark => isIndicator mark || mark = '-' || mark = '?' || mark = ':' := by decide +kernel
  rw [isMarkup, Bool.or_eq_false_iff, List.contains_eq_mem, decide_eq_false_iff_not]
  refine ⟨fun hmem => ?_, (Bool.or_eq_false_iff.mp h).2⟩
  have hmark := List.all_eq_true.mp hmarks x hmem
  simp [h, hothers] at hmark

/-- What the form of a text says of its characters if it can be written plainly. -/
structure Plain (chars : List Char) : Prop where
  printable : ∀ x ∈ chars, isPlainPrintable x = true
  unbroken : ∀ x ∈ chars, isBreak x = false
  first : chars.head? ≠ some ' '
  last : chars.getLast? ≠ some ' '
  calm : anyClash none chars = false

theorem plain_of_form {chars : List Char} (hne : chars ≠ []) (h : (form chars).plain = true) : Plain chars := by
  have hsome : chars.isEmpty = false := by simpa using hne
  rw [form, hsome, if_neg (by simp)] at h
  simp only [Bool.not_eq_true', Bool.or_eq_false_iff] at h
  obtain ⟨⟨⟨⟨⟨⟨⟨⟨hfirst, hlast⟩, -⟩, -⟩, htabs⟩, hspecial⟩, hbreaks⟩, -⟩, hcalm⟩ := h
  rw [List.any_eq_false] at htabs hspecial hbreaks
  refine ⟨fun x hx => ?_, fun x hx => by simpa using hbreaks x hx, ?_, ?_, hcalm⟩
  · have hprintable := hspecial x hx
    have htab := htabs x hx
    simp_all
  · intro hblank
    rw [hblank] at hfirst
    exact absurd hfirst (by decide)
  · intro hblank
    rw [hblank] at hlast
    exact absurd hlast (by decide)

/-- A text that can be written plainly is taken for a plain scalar. -/
theorem Plain.canStart {chars : List Char} (hne : chars ≠ []) (h : Plain chars) : CanStart chars := by
  obtain ⟨x, chars, rfl⟩ := List.exists_cons_of_ne_nil hne
  have hclash := h.calm
  rw [anyClash, Bool.or_eq_false_iff] at hclash
  have hfirst : clashes true none x chars.head? = false := hclash.1
  rw [clashes, if_pos rfl, Bool.or_eq_false_iff] at hfirst
  by_cases hothers : x = '-' ∨ x = '?' ∨ x = ':'
  · refine .inr ⟨hothers, ?_⟩
    cases chars with
    | nil => rcases hothers with rfl | rfl | rfl <;> exact absurd hfirst.2 (by decide)
    | cons y chars =>
        have hblank : isBlank y = false := by
          rcases hothers with rfl | rfl | rfl <;> simpa using hfirst.2
        have hy : y ∈ x :: y :: chars := by simp
        exact solid_of_plainPrintable (h.printable y hy) (by rintro rfl; exact absurd hblank (by decide)) (h.unbroken y hy)
  · rw [not_or, not_or] at hothers
    exact .inl (not_markup_of_not_indicator hfirst.1 hothers)

theorem Plain.isPlainText {chars : List Char} (hne : chars ≠ []) (h : Plain chars) : IsPlainText chars := by
  have hchars : ∀ x ∈ chars, x = ' ' ∨ IsSolid x := fun x hx =>
    or_iff_not_imp_left.mpr fun hblank => solid_of_plainPrintable (h.printable x hx) hblank (h.unbroken x hx)
  obtain ⟨blanks, word, tail, hsplit, hdivides, hhead⟩ := exists_divides hne hchars h.last h.calm
  cases blanks with
  | zero =>
      rw [hsplit]
      exact hdivides.isPlainText (hhead (.inr (.inl rfl)))
  | succ blanks => exact absurd (by rw [hsplit]; rfl) h.first

/-! ## Quoted forms -/

/-- A hexadecimal digit in upper case. -/
def hexChar (n : Nat) : Char := Char.ofNat (upperHexDigit n).toNat

/-- A number in hexadecimal with a fixed number of digits in upper case. -/
def hexChars : Nat → Nat → List Char
  | 0, _ => []
  | width + 1, n => hexChars width (n / 16) ++ [hexChar (n % 16)]

theorem length_hexChars (width n : Nat) : (hexChars width n).length = width := by
  induction width generalizing n with
  | zero => rfl
  | succ width ih => rw [hexChars, List.length_append, ih, List.length_singleton]

theorem hexChar_spec : ∀ n < 16, hexValue? (hexChar n) = some n ∧ String.utf8EncodeChar (hexChar n) = [upperHexDigit n] ∧
    0x20 ≤ (hexChar n).toNat ∧ (hexChar n).toNat ≤ 0x7E := by decide

theorem encode_hexChars (width n : Nat) : Utf8.encode (hexChars width n) = upperHex width n := by
  induction width generalizing n with
  | zero => rfl
  | succ width ih =>
      have hdigit := (hexChar_spec (n % 16) (Nat.mod_lt n (by decide))).2.1
      rw [hexChars, Utf8.encode_append, ih, upperHex, Utf8.encode_cons, hdigit, Utf8.encode_nil, List.append_nil]

theorem hexNumber?_append (value : Nat) (front back : List Char) :
    hexNumber? value (front ++ back) = (hexNumber? value front).bind fun v => hexNumber? v back := by
  induction front generalizing value with
  | nil => rfl
  | cons x front ih =>
      rw [List.cons_append, hexNumber?, hexNumber?]
      cases hexValue? x with
      | none => rfl
      | some d => exact ih _

theorem hexNumber?_hexChars (width value n : Nat) (h : n < 16 ^ width) :
    hexNumber? value (hexChars width n) = some (value * 16 ^ width + n) := by
  induction width generalizing n with
  | zero =>
      obtain rfl : n = 0 := by omega
      simp [hexChars, hexNumber?]
  | succ width ih =>
      have hdigit := (hexChar_spec (n % 16) (Nat.mod_lt n (by decide))).1
      have hhigh : n / 16 < 16 ^ width := by
        rw [Nat.div_lt_iff_lt_mul (by decide)]
        exact h.trans_eq (pow_succ 16 width)
      rw [hexChars, hexNumber?_append, ih _ hhigh, Option.bind_some, hexNumber?, hdigit]
      dsimp only
      rw [hexNumber?, Option.some.injEq, pow_succ]
      have hsum := Nat.div_add_mod' n 16
      nlinarith

/-- The characters behind the backslash of an escape. -/
def escapeCode (c : Char) : List Char :=
  match shortEscape? c.toNat with
  | some letter => [letter]
  | none =>
    if c.toNat ≤ 0xFF then 'x' :: hexChars 2 c.toNat
    else if c.toNat ≤ 0xFFFF then 'u' :: hexChars 4 c.toNat
    else 'U' :: hexChars 8 c.toNat

theorem escape_eq (c : Char) : Printed.escape c = Utf8.encode ('\\' :: escapeCode c) := by
  rw [Printed.escape, escapeCode]
  cases shortEscape? c.toNat with
  | some letter => simp [Utf8.encode]; rfl
  | none =>
      dsimp only
      split
      next => rw [← encode_hexChars]; rfl
      next =>
        split
        next => rw [← encode_hexChars]; rfl
        next => rw [← encode_hexChars]; rfl

theorem shortEscape?_spec {n : Nat} {letter : Char} (h : shortEscape? n = some letter) :
    simpleEscape? letter = some (Char.ofNat n) ∧ isBreak letter = false ∧ 0x20 ≤ letter.toNat ∧ letter.toNat ≤ 0x7E := by
  unfold shortEscape? at h
  split at h <;> first
    | obtain rfl := Option.some.inj h
      decide
    | exact absurd h (by simp)

theorem escapeCode_spec (c : Char) : Escapes c (escapeCode c) ∧ ∀ x ∈ escapeCode c, 0x20 ≤ x.toNat ∧ x.toNat ≤ 0x7E := by
  have hdigits (width : Nat) (n : Nat) : ∀ x ∈ hexChars width n, 0x20 ≤ x.toNat ∧ x.toNat ≤ 0x7E := by
    induction width generalizing n with
    | zero => simp [hexChars]
    | succ width ih =>
        intro x hx
        rcases List.mem_append.mp hx with hx | hx
        · exact ih _ x hx
        · rw [List.mem_singleton.mp hx]
          exact (hexChar_spec (n % 16) (Nat.mod_lt n (by decide))).2.2
  have hlong {letter : Char} {width : Nat} (hbreak : isBreak letter = false) (hshort : simpleEscape? letter = none)
      (hlength : escapeLength? letter = some width) (hletter : 0x20 ≤ letter.toNat ∧ letter.toNat ≤ 0x7E)
      (hwidth : c.toNat < 16 ^ width) :
      Escapes c (letter :: hexChars width c.toNat) ∧ ∀ x ∈ letter :: hexChars width c.toNat, 0x20 ≤ x.toNat ∧ x.toNat ≤ 0x7E := by
    refine ⟨.long hbreak hshort (by rw [length_hexChars, hlength]) ?_, List.forall_mem_cons.mpr ⟨hletter, hdigits _ _⟩⟩
    rw [hexNumber?_hexChars width 0 c.toNat hwidth, Nat.zero_mul, Nat.zero_add]
  have hlt := Utf8.toNat_lt c
  rw [escapeCode]
  split
  next letter hletter =>
    obtain ⟨hsimple, hbreak, hrange⟩ := shortEscape?_spec hletter
    rw [Char.ofNat_toNat] at hsimple
    exact ⟨.short hbreak hsimple, by simpa using hrange⟩
  next =>
    split
    next h => exact hlong (by decide) (by decide) rfl (by decide) (by omega)
    next =>
      split
      next h => exact hlong (by decide) (by decide) rfl (by decide) (by omega)
      next => exact hlong (by decide) (by decide) rfl (by decide) (by omega)

/-- How a character is written between double quotes. -/
def doubleCode (escaping : Bool) (c : Char) : List Char :=
  if !escaping && isPlainPrintable c && !isBreak c && c ≠ '"' && c ≠ '\\' then [c] else '\\' :: escapeCode c

/-- How a character is written between single quotes. -/
def singleCode (c : Char) : List Char := if c = '\'' then ['\'', '\''] else [c]

theorem doubleQuoted_eq (chars : List Char) :
    doubleQuoted chars =
      Utf8.encode (quote false :: (chars.flatMap (doubleCode (chars.head? = some '\ufeff')) ++ [quote false])) := by
  have hchars : chars.flatMap (if chars.head? = some '\ufeff' then Printed.escape else doubleQuotedChar) =
      Utf8.encode (chars.flatMap (doubleCode (chars.head? = some '\ufeff'))) := by
    rw [Utf8.encode, List.flatMap_assoc]
    refine List.flatMap_congr fun c _ => ?_
    split
    next h =>
      rw [escape_eq, doubleCode, decide_eq_true h]
      rfl
    next h =>
      rw [doubleQuotedChar, doubleCode, decide_eq_false h, Bool.not_false, Bool.true_and]
      split
      next => simp
      next => exact escape_eq c
  rw [doubleQuoted, hchars, Utf8.encode_cons, Utf8.encode_append]
  rfl

theorem spells_doubleCode (escaping : Bool) (chars : List Char) : Spells false (doubleCode escaping) chars := by
  intro x _
  rw [doubleCode]
  split
  next h =>
    simp only [Bool.and_eq_true, Bool.not_eq_true', decide_eq_true_eq] at h
    obtain ⟨⟨⟨⟨-, hprintable⟩, hbreak⟩, hquote⟩, hescape⟩ := h
    by_cases hblank : x = ' '
    · exact .inl ⟨hblank, by rw [hblank]⟩
    · exact .inr (.plain (solid_of_plainPrintable hprintable hblank hbreak) hquote fun _ => hescape)
  next => exact .inr (.escaped rfl (escapeCode_spec x).1)

theorem isFair_doubleCode (escaping : Bool) (c : Char) : ∀ x ∈ doubleCode escaping c, IsFair x ∧ isBreak x = false := by
  have hascii {x : Char} (h : 0x20 ≤ x.toNat ∧ x.toNat ≤ 0x7E) : IsFair x ∧ isBreak x = false := by
    refine ⟨isFair_of_ascii h, ?_⟩
    have hline : x ≠ '\n' ∧ x ≠ '\r' := by constructor <;> rintro rfl <;> exact absurd h (by decide)
    simp only [isBreak, Bool.or_eq_false_iff, decide_eq_false_iff_not]
    exact ⟨⟨⟨⟨hline.1, hline.2⟩, by omega⟩, by omega⟩, by omega⟩
  rw [doubleCode]
  split
  next h =>
    simp only [Bool.and_eq_true, Bool.not_eq_true'] at h
    simpa using And.intro (isFair_of_plainPrintable h.1.1.1.2) h.1.1.2
  next =>
    rw [List.forall_mem_cons]
    exact ⟨hascii (by decide), fun x hx => hascii ((escapeCode_spec c).2 x hx)⟩

theorem singleQuotedChars_eq {chars : List Char} (hchars : ∀ x ∈ chars, isBreak x = false) (indent : Nat) :
    singleQuotedChars indent false chars = Utf8.encode (chars.flatMap singleCode) := by
  induction chars with
  | nil => rfl
  | cons c chars ih =>
      rw [List.forall_mem_cons] at hchars
      rw [singleQuotedChars, hchars.1, if_neg (by simp), ih hchars.2, List.flatMap_cons, Utf8.encode_append, singleCode]
      simp only [Bool.false_eq_true, if_false, List.nil_append]
      split
      next => rfl
      next => simp

theorem spells_singleCode {chars : List Char} (hchars : ∀ x ∈ chars, isPlainPrintable x = true ∧ isBreak x = false) :
    Spells true singleCode chars := by
  intro x hx
  obtain ⟨hprintable, hbreak⟩ := hchars x hx
  rw [singleCode]
  split
  next h => exact .inr (.doubled rfl h)
  next h =>
    by_cases hblank : x = ' '
    · exact .inl ⟨hblank, by rw [hblank]⟩
    · exact .inr (.plain (solid_of_plainPrintable hprintable hblank hbreak) h (by simp))

theorem printable_of_form {chars : List Char} (hne : chars ≠ []) (h : (form chars).singleQuoted = true) :
    ∀ x ∈ chars, isPlainPrintable x = true := by
  have hsome : chars.isEmpty = false := by simpa using hne
  rw [form, hsome, if_neg (by simp)] at h
  simp only [Bool.not_eq_true', Bool.or_eq_false_iff] at h
  obtain ⟨⟨-, htabs⟩, hspecial⟩ := h
  rw [List.any_eq_false] at htabs hspecial
  intro x hx
  have hprintable := hspecial x hx
  have htab := htabs x hx
  simp_all

/-! ## Texts -/

/-- A well formed text without line breaks. -/
structure IsLine (text : Bytes) : Prop where
  valid : Utf8.isValid text = true
  unbroken : ∀ x ∈ Utf8.characters text, isBreak x = false

theorem isLine_encode {chars : List Char} (h : ∀ x ∈ chars, isBreak x = false) : IsLine (Utf8.encode chars) :=
  ⟨Utf8.isValid_encode chars, by rwa [Utf8.characters_encode]⟩

theorem IsLine.append {front back : Bytes} (hfront : IsLine front) (hback : IsLine back) : IsLine (front ++ back) := by
  rw [← Utf8.encode_characters hfront.valid, ← Utf8.encode_characters hback.valid, ← Utf8.encode_append]
  exact isLine_encode (List.forall_mem_append.mpr ⟨hfront.unbroken, hback.unbroken⟩)

/-- A spelling that can stand in a document and is written as some bytes. -/
structure Spelling.Writes (s : Spelling) (written : Bytes) : Prop where
  legible : s.Legible
  fair : ∀ x ∈ s.chars, IsFair x ∧ isBreak x = false
  encoded : Utf8.encode s.chars = written

theorem named?_tag {text : Bytes} {value : Value} (h : named? text = some value) : value.tag ≠ Tag.str := by
  unfold named? at h
  split_ifs at h <;>
    · obtain rfl := Option.some.inj h
      decide

theorem number?_tag {text : Bytes} {value : Value} (h : number? text = some value) : value.tag ≠ Tag.str := by
  have hint (n : Int64) : (Value.int n).tag ≠ Tag.str := show Tag.int ≠ Tag.str by decide
  unfold number? at h
  dsimp only at h
  split at h
  next n _ => exact Option.some.inj h ▸ hint n
  next =>
    split at h
    next n _ => exact Option.some.inj h ▸ (show Tag.int ≠ Tag.str by decide)
    next =>
      split at h
      next =>
        split at h
        next x _ => exact Option.some.inj h ▸ (show Tag.float ≠ Tag.str by decide)
        next => exact absurd h (by simp)
      next =>
        obtain ⟨n, -, rfl⟩ := Option.map_eq_some_iff.mp h
        exact hint n

/-- A scalar that is read as a text is read as itself. -/
theorem classify_text {moments : Bool} {text : Bytes} (h : (classify moments text).tag = Tag.str) :
    classify moments text = .text text := by
  unfold classify at h ⊢
  split at h
  next value hvalue => exact absurd h (named?_tag hvalue)
  next =>
    split at h
    next => exact absurd h (show ¬Tag.null = Tag.str by decide)
    next b rest _ =>
      split_ifs at h ⊢
      next =>
        split at h
        next => exact absurd h (show ¬Tag.float = Tag.str by decide)
        next => rfl
      next => exact absurd h (show ¬Tag.timestamp = Tag.str by decide)
      next =>
        cases hnumber : number? (b :: rest) with
        | none => rfl
        | some value =>
            rw [hnumber] at h
            exact absurd h (number?_tag hnumber)
      next => rfl

/-- A text of one line is printed as a spelling that is read as the text. -/
theorem exists_spelling {text : Bytes} (h : IsLine text) (indent : Nat) :
    ∃ s : Spelling, s.Writes (Printed.text indent text) ∧ s.value = text ∧ ∃ tag, tag ≠ Tag.binary ∧ s.Means tag (.text text) := by
  set chars := Utf8.characters text with hchars
  have hencode : Utf8.encode chars = text := Utf8.encode_characters h.valid
  have hunbroken : ∀ x ∈ chars, isBreak x = false := h.unbroken
  have hline : chars.contains '\n' = false := by
    rw [List.contains_eq_mem, decide_eq_false_iff_not]
    exact fun hmem => absurd (hunbroken '\n' hmem) (by decide)
  have hquoted (single : Bool) (code : Char → List Char) (hspells : Spells single code chars)
      (hfair : ∀ x ∈ chars, ∀ y ∈ code x, IsFair y ∧ isBreak y = false) {written : Bytes}
      (hwritten : written = Utf8.encode (quote single :: (chars.flatMap code ++ [quote single]))) :
      ∃ s : Spelling, s.Writes written ∧ s.value = text ∧ ∃ tag, tag ≠ Tag.binary ∧ s.Means tag (.text text) := by
    refine ⟨⟨_, Utf8.encode chars, .quoted⟩, ⟨.quoted hspells, fun x hx => ?_, hwritten.symm⟩, hencode, Tag.str, by decide, ?_⟩
    · have hquote : IsFair (quote single) ∧ isBreak (quote single) = false := by cases single <;> decide
      simp only [List.mem_cons, List.mem_append, List.mem_flatMap, List.not_mem_nil, or_false] at hx
      rcases hx with rfl | ⟨y, hy, hxy⟩ | rfl
      · exact hquote
      · exact hfair y hy x hxy
      · exact hquote
    · rw [← hencode]
      exact means_quoted rfl
  have hdouble : ∃ s : Spelling, s.Writes (doubleQuoted chars) ∧ s.value = text ∧
      ∃ tag, tag ≠ Tag.binary ∧ s.Means tag (.text text) :=
    hquoted false _ (spells_doubleCode _ chars) (fun x _ => isFair_doubleCode _ x) (doubleQuoted_eq chars)
  rw [Printed.text, if_pos h.valid, best, ← hchars, hline, if_neg (by simp)]
  -- What would be read as something other than a text is put in double quotes.
  cases hwanted : readsAsText text with
  | false => exact hdouble
  | true =>
      simp only [readsAsText, Bool.and_eq_true, decide_eq_true_eq] at hwanted
      have hvalue := classify_text hwanted.1.1
      have hne : chars ≠ [] := by
        intro hnil
        rw [← hencode, hnil] at hvalue
        exact absurd hvalue (by simp [classify, named?])
      simp only [Bool.not_true, Bool.false_eq_true, if_false]
      split_ifs with hplain hsingle
      · have hform := plain_of_form hne hplain
        have hlegible := Spelling.Legible.plain (hform.isPlainText hne) (hform.canStart hne)
        rw [hencode] at hlegible
        exact ⟨⟨chars, text, .plain⟩, ⟨hlegible, fun x hx => ⟨isFair_of_plainPrintable (hform.printable x hx), hunbroken x hx⟩,
          rfl⟩, rfl, means_text (s := ⟨chars, text, .plain⟩) rfl hvalue⟩
      · have hprintable := printable_of_form hne hsingle
        refine hquoted true singleCode (spells_singleCode fun x hx => ⟨hprintable x hx, hunbroken x hx⟩) ?_ ?_
        · intro x hx y hy
          rw [singleCode] at hy
          split at hy
          next => simp only [List.mem_cons, List.not_mem_nil, or_false, or_self] at hy; rw [hy]; decide
          next =>
            rw [List.mem_singleton.mp hy]
            exact ⟨isFair_of_plainPrintable (hprintable x hx), hunbroken x hx⟩
        · rw [singleQuoted, singleQuotedChars_eq hunbroken, Utf8.encode_cons, Utf8.encode_append]
          rfl
      · exact hdouble

/-! ## Numbers and truth values -/

/-- A byte of the text of an integer. -/
def IsNumeral (b : UInt8) : Prop := b = 45 ∨ Bytes.isDigit b

instance (b : UInt8) : Decidable (IsNumeral b) := inferInstanceAs (Decidable (_ ∨ _))

theorem isNumeral_of_mem_ofInt64 {n : Int64} {b : UInt8} (hb : b ∈ Decimal.ofInt64 n) : IsNumeral b :=
  Decimal.sign_or_isDigit_of_mem_ofInt64 hb

theorem IsNumeral.lt {b : UInt8} (h : IsNumeral b) : b.toNat < 58 ∧ (b.toNat = 45 ∨ 48 ≤ b.toNat) := by
  rcases h with rfl | h
  · decide
  · have hdigit := Bytes.isDigit_iff.mp h
    omega

/-- The text of an integer is no word with a meaning of its own. -/
theorem named?_numeral {text : Bytes} (h : ∀ b ∈ text, IsNumeral b) (hne : text ≠ []) : named? text = none := by
  have hother (word : Bytes) (hword : (word.all fun b => b = 45 || Bytes.isDigit b) = false) : ¬text = word := by
    rintro rfl
    rw [List.all_eq_false] at hword
    obtain ⟨b, hb, hnot⟩ := hword
    exact hnot (by simpa [IsNumeral] using h b hb)
  have hsome : text.isEmpty = false := by simpa using hne
  rw [named?, hsome, if_neg, if_neg, if_neg, if_neg, if_neg, if_neg] <;>
    (simp only [Bool.false_or, Bool.or_eq_true, decide_eq_true_eq, not_or]
     and_intros <;> exact hother _ (by decide))

/-- The text of an integer is no date: no four digits are followed by a hyphen. -/
theorem isTimestamp_ofInt64 (n : Int64) : isTimestamp (Decimal.ofInt64 n) = false := by
  have hmark (k : Nat) : Instant.byte? '-' ((Decimal.ofNat k).drop 4) = none := by
    cases hrest : (Decimal.ofNat k).drop 4 with
    | nil => rfl
    | cons b rest =>
        have hb : Bytes.isDigit b := Decimal.isDigit_of_mem_ofNat (List.mem_of_mem_drop (hrest ▸ List.mem_cons_self))
        refine if_neg ?_
        rintro rfl
        exact absurd hb (by decide)
  have hdate : date? (Decimal.ofInt64 n) = none := by
    have hsign : Bytes.isDigit '-' = false := by decide
    rw [Decimal.ofInt64, Decimal.ofInt, date?, Instant.digits?]
    split
    next => simp [hsign]
    next =>
      split
      next => simp [hmark]
      next => rfl
  rw [isTimestamp, hdate]

theorem number?_ofInt64 (n : Int64) : number? (Decimal.ofInt64 n) = some (.int n) := by
  have hplain : (Decimal.ofInt64 n).filter (· ≠ ('_' : UInt8)) = Decimal.ofInt64 n := by
    refine List.filter_eq_self.mpr fun b hb => decide_eq_true ?_
    rintro rfl
    exact absurd (isNumeral_of_mem_ofInt64 hb) (by decide)
  rw [number?, hplain, Decimal.readAnyBase_ofInt64]

theorem classify_ofInt64 (moments : Bool) (n : Int64) : classify moments (Decimal.ofInt64 n) = .int n := by
  have hne := Decimal.ofInt64_ne_nil n
  have hnamed := named?_numeral (fun _ => isNumeral_of_mem_ofInt64) hne
  have hmoment := isTimestamp_ofInt64 n
  have hnumber := number?_ofInt64 n
  obtain ⟨b, rest, htext⟩ := List.exists_cons_of_ne_nil hne
  have hb : IsNumeral b := isNumeral_of_mem_ofInt64 (htext ▸ List.mem_cons_self)
  have hpoint : b ≠ ('.' : UInt8) := by rintro rfl; exact absurd hb (by decide)
  have hsign : (b = '+' || b = '-' || Bytes.isDigit b) = true := by
    rcases hb with rfl | hb
    · rfl
    · rw [hb, Bool.or_true]
  rw [htext] at hnamed hmoment hnumber ⊢
  unfold classify
  rw [hnamed]
  dsimp only
  rw [if_neg hpoint, if_pos hsign, hmoment, hnumber, Bool.and_false]
  rfl

/-- A character of a word: a hyphen, a digit or a small letter. -/
def IsWordChar (n : Nat) : Prop := n = 45 ∨ 48 ≤ n ∧ n ≤ 57 ∨ 97 ≤ n ∧ n ≤ 122

instance (n : Nat) : Decidable (IsWordChar n) := inferInstanceAs (Decidable (_ ∨ _))

theorem wordChar_spec {x : Char} (h : IsWordChar x.toNat) : IsFair x ∧ IsSolid x ∧ x ≠ ':' ∧ x ≠ '#' := by
  have hall : ∀ n < 123, IsWordChar n → IsFair (Char.ofNat n) ∧ IsSolid (Char.ofNat n) ∧ Char.ofNat n ≠ ':' ∧
      Char.ofNat n ≠ '#' := by decide
  have hx := hall x.toNat (by rcases h with h | h | h <;> omega) h
  rwa [Char.ofNat_toNat] at hx

/-- A word is written plainly. -/
theorem writes_word {word : List Char} (hne : word ≠ []) (hall : ∀ x ∈ word, IsWordChar x.toNat) (hstart : CanStart word) :
    (⟨word, Utf8.encode word, .plain⟩ : Spelling).Writes (Utf8.encode word) := by
  have hspec : ∀ x ∈ word, IsFair x ∧ IsSolid x ∧ x ≠ ':' ∧ x ≠ '#' := fun x hx => wordChar_spec (hall x hx)
  have hword : IsPlainWord word := by
    refine ⟨hne, fun x hx => (hspec x hx).2.1, fun hlast => ?_, fun hhead => ?_⟩
    · exact (hspec _ (List.mem_of_getLast? hlast)).2.2.1 rfl
    · exact (hspec _ (List.mem_of_head? hhead)).2.2.2 rfl
  exact ⟨.plain (.word hword) hstart, fun x hx => ⟨(hspec x hx).1, (hspec x hx).2.1.isBreak⟩, rfl⟩

/-- An integer is printed as a spelling that is read as the integer. -/
theorem exists_spelling_ofInt64 (n : Int64) :
    ∃ s : Spelling, s.Writes (Decimal.ofInt64 n) ∧ s.Means Tag.int (.int n) := by
  have hascii : ∀ b ∈ Decimal.ofInt64 n, b.toNat < 128 := fun b hb => (isNumeral_of_mem_ofInt64 hb).lt.1.trans (by decide)
  have hencode := Utf8.encode_characters (Utf8.isValid_ascii hascii)
  have hchars := Utf8.characters_ascii hascii
  set chars := Utf8.characters (Decimal.ofInt64 n)
  have hall : ∀ x ∈ chars, IsWordChar x.toNat := by
    intro x hx
    rw [hchars] at hx
    obtain ⟨b, hb, rfl⟩ := List.mem_map.mp hx
    have hrange := (isNumeral_of_mem_ofInt64 hb).lt
    have hvalue : (Char.ofNat b.toNat).toNat = b.toNat := by
      rw [Char.toNat_ofNat, if_pos (.inl (by omega))]
    rw [hvalue, IsWordChar]
    omega
  have hstart : CanStart chars := by
    obtain ⟨d, rest, hdigits⟩ := List.exists_cons_of_ne_nil (Decimal.ofNat_ne_nil n.toInt.natAbs)
    have hd := Bytes.isDigit_iff.mp (Decimal.isDigit_of_mem_ofNat (n := n.toInt.natAbs) (hdigits ▸ List.mem_cons_self))
    rw [Decimal.ofInt64, Decimal.ofInt, hdigits] at hchars
    split at hchars
    next =>
      have hsecond : IsSolid (first chars.tail) := (wordChar_spec (hall _ (by rw [hchars]; simp [first]))).2.1
      exact .inr ⟨by rw [hchars]; exact .inl rfl, hsecond⟩
    next =>
      have hmarkup : ∀ k < 58, 48 ≤ k → isMarkup (Char.ofNat k) = false := by decide
      exact .inl (by rw [hchars]; exact hmarkup d.toNat (by omega) hd.1)
  have hne : chars ≠ [] := by
    intro hnil
    rw [hnil] at hencode
    exact Decimal.ofInt64_ne_nil n hencode.symm
  have hother : Decimal.ofInt64 n ≠ ("<<" : String) := by
    intro hmerge
    have hfirst : ('<' : UInt8) ∈ Decimal.ofInt64 n := hmerge ▸ List.mem_cons_self
    exact absurd (isNumeral_of_mem_ofInt64 hfirst) (by decide)
  have hwrites := writes_word hne hall hstart
  rw [hencode] at hwrites
  have hresolvable : isResolvable Tag.int = true := by decide
  have htag : Tag.int ≠ Tag.str := by decide
  have hmeans : (⟨chars, Decimal.ofInt64 n, .plain⟩ : Spelling).Means (Value.int n).tag (.int n) :=
    means_plain rfl (fun moments => classify_ofInt64 moments n) hresolvable htag hother
  exact ⟨_, hwrites, hmeans⟩

/-- A truth value is printed as a spelling that is read as the truth value. -/
theorem exists_spelling_bool (b : Bool) :
    ∃ s : Spelling, s.Writes (if b then "true" else "false") ∧ s.Means Tag.bool (.bool b) := by
  have hresolvable : isResolvable Tag.bool = true := by decide
  have htag : Tag.bool ≠ Tag.str := by decide
  cases b with
  | false =>
      have hwrites : (⟨['f', 'a', 'l', 's', 'e'], _, .plain⟩ : Spelling).Writes _ :=
        writes_word (by decide) (by simp [IsWordChar]) (.inl rfl)
      have hmeans : (⟨['f', 'a', 'l', 's', 'e'], "false", .plain⟩ : Spelling).Means (Value.bool false).tag (.bool false) :=
        means_plain rfl (fun _ => rfl) hresolvable htag (by decide)
      exact ⟨_, hwrites, hmeans⟩
  | true =>
      have hwrites : (⟨['t', 'r', 'u', 'e'], _, .plain⟩ : Spelling).Writes _ :=
        writes_word (by decide) (by simp [IsWordChar]) (.inl rfl)
      have hmeans : (⟨['t', 'r', 'u', 'e'], "true", .plain⟩ : Spelling).Means (Value.bool true).tag (.bool true) :=
        means_plain rfl (fun _ => rfl) hresolvable htag (by decide)
      exact ⟨_, hwrites, hmeans⟩

end Yaml

end MobilitySweep
