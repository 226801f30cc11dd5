import MobilitySweep.Proofs.Number.Digits
import MobilitySweep.Proofs.Text.Encoding
import MobilitySweep.Proofs.Text.Words
import MobilitySweep.Text.Json

/-! # JSON read back

A reader of JSON that knows nothing of the compact text: it takes blanks between tokens, every escape, and numerals of
all forms. What a value that can be written is written as is read as that value, as long as its texts are well formed,
and it stands on one line. A value with its fields in order is the same value.
-/

namespace MobilitySweep

namespace Json

/-! ## Numerals -/

/-- A byte that numerals are made of. -/
def isNumeralByte (b : UInt8) : Bool :=
  Bytes.isDigit b || b = '-' || b = '+' || b = '.' || b = 'e' || b = 'E'

theorem isNumeralByte_of_isDigit {b : UInt8} (h : Bytes.isDigit b = true) : isNumeralByte b = true := by
  simp [isNumeralByte, h]

/-- A text that begins with bytes of numerals, and what follows them. -/
def Passes (text rest : Bytes) : Prop := ∃ front, text = front ++ rest ∧ ∀ b ∈ front, isNumeralByte b = true

section

variable {text rest more : Bytes}

theorem Passes.refl (text : Bytes) : Passes text text := ⟨[], rfl, by simp⟩

theorem Passes.cons {b : UInt8} (hb : isNumeralByte b = true) (h : Passes text rest) : Passes (b :: text) rest := by
  obtain ⟨front, rfl, hfront⟩ := h
  exact ⟨b :: front, rfl, List.forall_mem_cons.mpr ⟨hb, hfront⟩⟩

theorem Passes.trans (h : Passes text rest) (h' : Passes rest more) : Passes text more := by
  obtain ⟨front, rfl, hfront⟩ := h
  obtain ⟨behind, rfl, hbehind⟩ := h'
  exact ⟨front ++ behind, (List.append_assoc ..).symm, List.forall_mem_append.mpr ⟨hfront, hbehind⟩⟩

theorem passes_of_afterDigits? (h : afterDigits? text = some rest) : Passes text rest := by
  cases text with
  | nil => cases h
  | cons b text =>
      simp only [afterDigits?, Option.ite_none_right_eq_some, Option.some.injEq] at h
      obtain ⟨hb, rfl⟩ := h
      refine Passes.cons (isNumeralByte_of_isDigit hb) ⟨text.takeWhile Bytes.isDigit, ?_, fun c hc => ?_⟩
      · exact List.takeWhile_append_dropWhile.symm
      · exact isNumeralByte_of_isDigit (List.mem_takeWhile_imp hc)

theorem passes_of_afterWhole? (h : afterWhole? text = some rest) : Passes text rest := by
  cases text with
  | nil => cases h
  | cons b text =>
      rw [afterWhole?] at h
      split at h
      next hzero =>
        obtain rfl := Option.some.inj h
        exact Passes.cons (by rw [hzero]; decide) (Passes.refl _)
      next => exact passes_of_afterDigits? h

theorem passes_of_afterFraction? (h : afterFraction? text = some rest) : Passes text rest := by
  cases text with
  | nil => exact Option.some.inj h ▸ Passes.refl _
  | cons b text =>
      rw [afterFraction?] at h
      split at h
      next hpoint => exact Passes.cons (by rw [hpoint]; decide) (passes_of_afterDigits? h)
      next => exact Option.some.inj h ▸ Passes.refl _

theorem passes_splitSign (text : Bytes) : Passes text (Decimal.splitSign text).2 := by
  cases text with
  | nil => exact Passes.refl _
  | cons b text =>
      rw [Decimal.splitSign]
      split
      next hminus => exact Passes.cons (by rw [hminus]; decide) (Passes.refl _)
      next =>
        split
        next hplus => exact Passes.cons (by rw [hplus]; decide) (Passes.refl _)
        next => exact Passes.refl _

theorem passes_of_afterExponent? (h : afterExponent? text = some rest) : Passes text rest := by
  cases text with
  | nil => exact Option.some.inj h ▸ Passes.refl _
  | cons b text =>
      rw [afterExponent?] at h
      split at h
      next hmark =>
        refine Passes.cons ?_ ((passes_splitSign text).trans (passes_of_afterDigits? h))
        rcases Bool.or_eq_true_iff.mp hmark with hmark | hmark <;> rw [of_decide_eq_true hmark] <;> decide
      next => exact Option.some.inj h ▸ Passes.refl _

theorem passes_withoutMinus (text : Bytes) : Passes text (withoutMinus text) := by
  cases text with
  | nil => exact Passes.refl _
  | cons b text =>
      rw [withoutMinus]
      split
      next hminus => exact Passes.cons (by rw [hminus]; decide) (Passes.refl _)
      next => exact Passes.refl _

/-- Numerals consist of certain bytes, at least of one. -/
theorem of_isNumeral (h : isNumeral text = true) : text ≠ [] ∧ ∀ b ∈ text, isNumeralByte b = true := by
  unfold isNumeral at h
  simp only [Option.bind_eq_bind, decide_eq_true_eq, Option.bind_eq_some_iff] at h
  obtain ⟨behind, ⟨rest, hwhole, hfraction⟩, hexponent⟩ := h
  constructor
  · rintro rfl
    cases hwhole
  · obtain ⟨front, hfront, hbytes⟩ := (passes_withoutMinus text).trans ((passes_of_afterWhole? hwhole).trans
      ((passes_of_afterFraction? hfraction).trans (passes_of_afterExponent? hexponent)))
    rw [List.append_nil] at hfront
    exact hfront ▸ hbytes

end

theorem isNumeral_ofInt (n : Int) : isNumeral (Decimal.ofInt n) = true := by
  have hdigits : ∀ b ∈ Decimal.ofNat n.natAbs, Bytes.isDigit b = true := fun b hb => Decimal.isDigit_of_mem_ofNat hb
  have hminus : withoutMinus (Decimal.ofInt n) = Decimal.ofNat n.natAbs := by
    unfold Decimal.ofInt
    split
    next => rw [withoutMinus, if_pos rfl]
    next =>
      cases htext : Decimal.ofNat n.natAbs with
      | nil => rfl
      | cons b rest =>
          rw [withoutMinus, if_neg]
          rintro rfl
          exact absurd (hdigits _ (htext ▸ List.mem_cons_self)) (by decide)
  have hwhole : afterWhole? (Decimal.ofNat n.natAbs) = some [] := by
    obtain ⟨b, rest, htext⟩ := List.exists_cons_of_ne_nil (Decimal.ofNat_ne_nil n.natAbs)
    rw [htext] at hdigits ⊢
    rw [afterWhole?]
    split
    next hzero =>
      rw [hzero] at htext
      rw [(Decimal.eq_nil_of_ofNat_zero htext).2]
    next =>
      rw [afterDigits?, if_pos (hdigits b List.mem_cons_self), List.dropWhile_eq_nil_iff.mpr fun c hc =>
        hdigits c (List.mem_cons_of_mem b hc)]
  rw [isNumeral, hminus, hwhole]
  rfl

@[simp] theorem isEncodable_ofInt (n : Int) : isEncodable (ofInt n) = true := isNumeral_ofInt n

@[simp] theorem isEncodable_ofInt64 (n : Int64) : isEncodable (ofInt64 n) = true := isNumeral_ofInt n.toInt

@[simp] theorem isEncodable_ofNat (n : Nat) : isEncodable (ofNat n) = true := isNumeral_ofInt n

@[simp] theorem isEncodable_text (value : Bytes) : isEncodable (.text value) = true := rfl

@[simp] theorem haveEncodable_nil : haveEncodable [] = true := rfl

@[simp] theorem haveEncodable_cons (name : Bytes) (value : Json) (rest : List (Bytes × Json)) :
    haveEncodable ((name, value) :: rest) = (isEncodable value && haveEncodable rest) := by
  rw [haveEncodable]

/-- A text without control characters, line breaks among them. -/
def Printable (text : Bytes) : Prop := ∀ b ∈ text, 32 ≤ b.toNat

instance instDecidablePrintable (text : Bytes) : Decidable (Printable text) :=
  inferInstanceAs (Decidable (∀ b ∈ text, 32 ≤ b.toNat))

theorem printable_cons {b : UInt8} {rest : Bytes} : Printable (b :: rest) ↔ 32 ≤ b.toNat ∧ Printable rest :=
  List.forall_mem_cons

theorem printable_append {front back : Bytes} : Printable (front ++ back) ↔ Printable front ∧ Printable back :=
  List.forall_mem_append

/-! ## Texts -/

/-- What single letters stand for behind a backslash. -/
def escapes : List (UInt8 × UInt8) :=
  [('"', '"'), ('\\', '\\'), ('/', '/'), ('b', 8), ('f', 12), ('n', 10), ('r', 13), ('t', 9)]

/-- The number that four hexadecimal digits write. -/
def unit? : Bytes → Option Nat
  | a :: b :: c :: d :: _ => do
    let a ← Decimal.digitValue? a
    let b ← Decimal.digitValue? b
    let c ← Decimal.digitValue? c
    let d ← Decimal.digitValue? d
    some (((a * 16 + b) * 16 + c) * 16 + d)
  | _ => none

/-- The second unit of a pair, if a text begins with an escape for one. -/
def lowUnit? : Bytes → Option Nat
  | 92 :: 117 :: rest => (unit? rest).filter fun low => 0xDC00 ≤ low && low ≤ 0xDFFF
  | _ => none

/-- What an escape stands for, and how many bytes it takes behind the backslash. Half a pair of units stands for the
replacement character. -/
def escape? : Bytes → Option (Bytes × Nat)
  | [] => none
  | b :: rest =>
    match escapes.lookup b with
    | some meaning => some ([meaning], 1)
    | none =>
      if b = 'u' then do
        let unit ← unit? rest
        if 0xD800 ≤ unit && unit ≤ 0xDFFF then
          match lowUnit? (rest.drop 4) with
          | some low =>
            if unit ≤ 0xDBFF then
              some (String.utf8EncodeChar (Char.ofNat (0x10000 + (unit - 0xD800) * 0x400 + (low - 0xDC00))), 11)
            else some (String.utf8EncodeChar (Char.ofNat 0xFFFD), 5)
          | none => some (String.utf8EncodeChar (Char.ofNat 0xFFFD), 5)
        else some (String.utf8EncodeChar (Char.ofNat unit), 5)
      else none

/-- A text read up to its closing quote, with what was read in reverse and the number of bytes still to pass over. -/
def textScan : Bytes → Nat → Bytes → Option (Bytes × Bytes)
  | _, _, [] => none
  | done, passed + 1, _ :: rest => textScan done passed rest
  | done, 0, b :: rest =>
    if b = '"' then some (done.reverse, rest)
    else if b = '\\' then
      match escape? rest with
      | some (meaning, count) => textScan (meaning.reverse ++ done) count rest
      | none => none
    else if b < 32 then none
    else textScan (b :: done) 0 rest

/-- How a character is written between quotes: as its bytes, if none of them is a control character, a quote or a
backslash, and otherwise as an escape that stands for it. -/
inductive Spelled (c : Char) : Bytes → Prop where
  | plain (h : ∀ b ∈ String.utf8EncodeChar c, 32 ≤ b.toNat ∧ b ≠ ('"' : UInt8) ∧ b ≠ ('\\' : UInt8)) :
      Spelled c (String.utf8EncodeChar c)
  | escaped (escape : Bytes) (h : Printable escape)
      (hmeaning : ∀ rest, escape? (escape ++ rest) = some (String.utf8EncodeChar c, escape.length)) :
      Spelled c (92 :: escape)

theorem spelled_letter {c : Char} (letter meaning : UInt8) (hletter : escapes.lookup letter = some meaning)
    (hprintable : 32 ≤ letter.toNat) (hc : String.utf8EncodeChar c = [meaning]) : Spelled c [92, letter] := by
  refine .escaped [letter] (printable_cons.mpr ⟨hprintable, List.forall_mem_nil _⟩) fun rest => ?_
  rw [List.singleton_append, escape?, hletter, hc]
  rfl

theorem digitValue?_hexDigit {d : Nat} (h : d < 16) :
    Decimal.digitValue? (Quoted.hexDigit d) = some d ∧ 32 ≤ (Quoted.hexDigit d).toNat := by
  have hall : ∀ d : Fin 16, Decimal.digitValue? (Quoted.hexDigit d) = some d.val ∧
      32 ≤ (Quoted.hexDigit d).toNat := by decide
  exact hall ⟨d, h⟩

theorem spelled_unit {c : Char} (h : c.toNat < 0xD800) : Spelled c (unitEscape c.toNat) := by
  have hhex : Quoted.hex 4 c.toNat = [Quoted.hexDigit (c.toNat / 16 / 16 / 16 % 16),
    Quoted.hexDigit (c.toNat / 16 / 16 % 16), Quoted.hexDigit (c.toNat / 16 % 16), Quoted.hexDigit (c.toNat % 16)] := rfl
  have hmark : (("\\u" : String) : Bytes) = [92, 117] := by decide +kernel
  have hdigit (n : Nat) := digitValue?_hexDigit (Nat.mod_lt n (show 0 < 16 by decide))
  have hunit : ∀ rest, unit? (Quoted.hex 4 c.toNat ++ rest) = some c.toNat := by
    intro rest
    simp only [hhex, List.cons_append, unit?, hdigit, Option.bind_eq_bind, Option.bind_some, Option.some.injEq]
    omega
  rw [unitEscape, hmark]
  refine .escaped (117 :: Quoted.hex 4 c.toNat) (fun b hb => ?_) fun rest => ?_
  · rw [hhex] at hb
    simp only [List.mem_cons, List.not_mem_nil, or_false] at hb
    rcases hb with rfl | rfl | rfl | rfl | rfl
    · decide
    all_goals exact (hdigit _).2
  · have hlookup : escapes.lookup 117 = none := by decide
    have hbound : (decide (0xD800 ≤ c.toNat) && decide (c.toNat ≤ 0xDFFF)) = false := by simp; omega
    rw [List.cons_append, escape?, hlookup]
    dsimp only
    rw [if_pos (by decide), hunit, Option.bind_eq_bind, Option.bind_some, hbound, if_neg (by simp), Char.ofNat_toNat]
    rfl

/-- Bytes below 128 are characters by themselves. -/
theorem toNat_of_mem_encodeChar {c : Char} {b : UInt8} (hb : b ∈ String.utf8EncodeChar c) :
    b.toNat = c.toNat ∨ 128 ≤ b.toNat := by
  have hencoded := Utf8.encodedAs c
  generalize String.utf8EncodeChar c = bytes at hb hencoded
  cases hencoded <;> simp only [List.mem_cons, List.not_mem_nil, or_false] at hb
  case one => exact Or.inl (by rwa [hb])
  case two => rcases hb with rfl | rfl <;> right <;> omega
  case three => rcases hb with rfl | rfl | rfl <;> right <;> omega
  case four => rcases hb with rfl | rfl | rfl | rfl <;> right <;> omega

theorem spelled_plain {c : Char} (hcontrol : 32 ≤ c.toNat) (hquote : c.toNat ≠ 34) (hbackslash : c.toNat ≠ 92) :
    Spelled c (String.utf8EncodeChar c) := by
  refine .plain fun b hb => ?_
  have hbyte := toNat_of_mem_encodeChar hb
  refine ⟨by omega, ?_, ?_⟩
  · rintro rfl
    exact hbyte.elim (fun h => hquote h.symm) (by decide)
  · rintro rfl
    exact hbyte.elim (fun h => hbackslash h.symm) (by decide)

theorem spelled_glyph (c : Char) : Spelled c (glyph (.char c)) := by
  have hchar {n : Nat} (h : c.toNat = n) : c = Char.ofNat n := by rw [← h, Char.ofNat_toNat]
  unfold glyph
  dsimp only
  split
  next h => exact hchar h ▸ spelled_letter 34 34 (by decide) (by decide) (by decide)
  next h => exact hchar h ▸ spelled_letter 92 92 (by decide) (by decide) (by decide)
  next h => exact hchar h ▸ spelled_letter 98 8 (by decide) (by decide) (by decide)
  next h => exact hchar h ▸ spelled_letter 102 12 (by decide) (by decide) (by decide)
  next h => exact hchar h ▸ spelled_letter 110 10 (by decide) (by decide) (by decide)
  next h => exact hchar h ▸ spelled_letter 114 13 (by decide) (by decide) (by decide)
  next h => exact hchar h ▸ spelled_letter 116 9 (by decide) (by decide) (by decide)
  next hquote hbackslash _ _ _ _ _ =>
    split
    next hmarkup =>
      simp only [Bool.or_eq_true, decide_eq_true_eq] at hmarkup
      exact spelled_unit (by omega)
    next hmarkup =>
      simp only [Bool.or_eq_true, decide_eq_true_eq] at hmarkup
      exact spelled_plain (by omega) hquote hbackslash

theorem textScan_passed (done passed rest : Bytes) :
    textScan done passed.length (passed ++ rest) = textScan done 0 rest := by
  induction passed with
  | nil => rfl
  | cons b passed ih => exact ih

/-- A character is read as its bytes, however it is spelled. -/
theorem Spelled.scan {c : Char} {bytes : Bytes} (h : Spelled c bytes) (done rest : Bytes) :
    textScan done 0 (bytes ++ rest) = textScan ((String.utf8EncodeChar c).reverse ++ done) 0 rest := by
  cases h with
  | plain hplain =>
      generalize String.utf8EncodeChar c = bytes at hplain
      induction bytes generalizing done with
      | nil => rfl
      | cons b bytes ih =>
          obtain ⟨⟨hcontrol, hquote, hbackslash⟩, hplain⟩ := List.forall_mem_cons.mp hplain
          have hnot : ¬b < 32 := by
            rw [UInt8.lt_iff_toNat_lt]
            exact Nat.not_lt.mpr hcontrol
          rw [List.cons_append, textScan, if_neg hquote, if_neg hbackslash, if_neg hnot, ih _ hplain]
          simp
  | escaped escape _ hmeaning =>
      rw [List.cons_append, textScan, if_neg (by decide), if_pos (by decide), hmeaning]
      exact textScan_passed _ _ _

theorem Spelled.printable {c : Char} {bytes : Bytes} (h : Spelled c bytes) : Printable bytes := by
  cases h with
  | plain hplain => exact fun b hb => (hplain b hb).1
  | escaped escape hescape _ => exact printable_cons.mpr ⟨by decide, hescape⟩

theorem quote_eq (value : Bytes) : quote value = 34 :: ((Utf8.decode value).flatMap glyph ++ [34]) := by
  have hmark : (("\"" : String) : Bytes) = [34] := by decide +kernel
  rw [quote, hmark, List.append_assoc, List.singleton_append]

/-- A well formed text is read back from between its quotes. -/
theorem textScan_quote {value : Bytes} (h : Utf8.isValid value = true) (rest : Bytes) :
    textScan [] 0 ((Utf8.decode value).flatMap glyph ++ 34 :: rest) = some (value, rest) := by
  have hscan : ∀ (chars : List Char) (done : Bytes),
      textScan done 0 ((chars.map Glyph.char).flatMap glyph ++ 34 :: rest) =
        some (done.reverse ++ Utf8.encode chars, rest) := by
    intro chars
    induction chars with
    | nil =>
        intro done
        rw [Utf8.encode_nil, List.append_nil]
        exact if_pos rfl
    | cons c chars ih =>
        intro done
        rw [List.map_cons, List.flatMap_cons, List.append_assoc, (spelled_glyph c).scan, ih, Utf8.encode_cons]
        simp
  have hvalue := Utf8.encode_characters h
  have hglyphs := Utf8.decode_encode (Utf8.characters value)
  rw [hvalue] at hglyphs
  rw [hglyphs, hscan, hvalue]
  rfl

/-- Between quotes there is no control character, whatever the text. -/
theorem printable_quote (value : Bytes) : Printable (quote value) := by
  have hreplacement (byte : UInt8) : Printable (glyph (.stray byte)) := by
    have hmark : (("\\ufffd" : String) : Bytes) = [92, 117, 102, 102, 102, 100] := by decide +kernel
    rw [glyph, hmark]
    decide +kernel
  rw [quote_eq]
  refine printable_cons.mpr ⟨by decide, printable_append.mpr ⟨fun b hb => ?_, by decide +kernel⟩⟩
  obtain ⟨g, -, hb⟩ := List.mem_flatMap.mp hb
  cases g with
  | char c => exact (spelled_glyph c).printable b hb
  | stray byte => exact hreplacement byte b hb

/-! ## Values -/

/-- White space between tokens. -/
def isSpace (b : UInt8) : Bool := b = 32 || b = 9 || b = 10 || b = 13

/-- What follows the white space in front of a text. -/
def behindSpace (text : Bytes) : Bytes := text.dropWhile isSpace

/-- A literal name or a numeral. -/
def readWord (text : Bytes) : Option (Json × Bytes) :=
  if Bytes.ofString "null" <+: text then some (.null, text.drop 4)
  else if Bytes.ofString "true" <+: text then some (.bool true, text.drop 4)
  else if Bytes.ofString "false" <+: text then some (.bool false, text.drop 5)
  else if isNumeral (text.takeWhile isNumeralByte) then
    some (.number (text.takeWhile isNumeralByte), text.dropWhile isNumeralByte)
  else none

/-- A name with the colon behind it. -/
def readName (text : Bytes) : Option (Bytes × Bytes) :=
  match behindSpace text with
  | 34 :: rest =>
    match textScan [] 0 rest with
    | some (name, rest) =>
      match behindSpace rest with
      | 58 :: rest => some (name, rest)
      | _ => none
    | none => none
  | _ => none

mutual

/-- A value at the start of a text, and what follows it. -/
def readValue : Nat → Bytes → Option (Json × Bytes)
  | 0, _ => none
  | depth + 1, source =>
    match behindSpace source with
    | 34 :: rest => (textScan [] 0 rest).map fun (value, rest) => (.text value, rest)
    | 91 :: rest =>
      match behindSpace rest with
      | 93 :: rest => some (.list [], rest)
      | rest => (readItems depth rest).map fun (items, rest) => (.list items, rest)
    | 123 :: rest =>
      match behindSpace rest with
      | 125 :: rest => some (.object [], rest)
      | rest => (readFields depth rest).map fun (fields, rest) => (.object fields, rest)
    | rest => readWord rest

/-- Items up to the bracket that closes their list. -/
def readItems : Nat → Bytes → Option (List Json × Bytes)
  | 0, _ => none
  | depth + 1, source =>
    match readValue depth source with
    | none => none
    | some (item, rest) =>
      match behindSpace rest with
      | 93 :: rest => some ([item], rest)
      | 44 :: rest => (readItems depth rest).map fun (items, rest) => (item :: items, rest)
      | _ => none

/-- Fields up to the brace that closes their object. -/
def readFields : Nat → Bytes → Option (List (Bytes × Json) × Bytes)
  | 0, _ => none
  | depth + 1, source =>
    match readName source with
    | none => none
    | some (name, rest) =>
      match readValue depth rest with
      | none => none
      | some (value, rest) =>
        match behindSpace rest with
        | 125 :: rest => some ([(name, value)], rest)
        | 44 :: rest => (readFields depth rest).map fun (fields, rest) => ((name, value) :: fields, rest)
        | _ => none

end

/-- The value that a text consists of. -/
def read? (source : Bytes) : Option Json :=
  match readValue (source.length + 1) source with
  | some (value, rest) => if behindSpace rest = [] then some value else none
  | none => none

/-! ## What is written is read back -/

mutual

/-- Whether every text in a value is well formed. -/
def isLegible : Json → Bool
  | .text value => Utf8.isValid value
  | .list items => areLegible items
  | .object fields => haveLegible fields
  | _ => true

/-- Whether all items are of well formed texts. -/
def areLegible : List Json → Bool
  | [] => true
  | item :: rest => isLegible item && areLegible rest

/-- Whether all fields are of well formed texts, their names among them. -/
def haveLegible : List (Bytes × Json) → Bool
  | [] => true
  | (name, value) :: rest => Utf8.isValid name && (isLegible value && haveLegible rest)

end

/-! The bytes of a written value. -/

theorem render_null : render .null = [110, 117, 108, 108] := by decide +kernel

theorem render_true : render (.bool true) = [116, 114, 117, 101] := by decide +kernel

theorem render_false : render (.bool false) = [102, 97, 108, 115, 101] := by decide +kernel

theorem render_list (items : List Json) : render (.list items) = 91 :: (renderItems items ++ [93]) := by
  have hfirst : (("[" : String) : Bytes) = [91] := by decide +kernel
  have hlast : (("]" : String) : Bytes) = [93] := by decide +kernel
  rw [render, hfirst, hlast]
  rfl

theorem render_object (fields : List (Bytes × Json)) :
    render (.object fields) = 123 :: (renderFields fields ++ [125]) := by
  have hfirst : (("\x7b" : String) : Bytes) = [123] := by decide +kernel
  have hlast : (("\x7d" : String) : Bytes) = [125] := by decide +kernel
  rw [render, hfirst, hlast]
  rfl

theorem renderItems_cons_cons (item next : Json) (rest : List Json) :
    renderItems (item :: next :: rest) = render item ++ 44 :: renderItems (next :: rest) := by
  have hcomma : (("," : String) : Bytes) = [44] := by decide +kernel
  rw [renderItems, hcomma, List.append_assoc, List.singleton_append]
  exact List.cons_ne_nil _ _

theorem renderFields_singleton (name : Bytes) (value : Json) :
    renderFields [(name, value)] = quote name ++ 58 :: render value := by
  have hcolon : ((":" : String) : Bytes) = [58] := by decide +kernel
  rw [renderFields, hcolon, List.append_assoc, List.singleton_append]

theorem renderFields_cons_cons (name : Bytes) (value : Json) (next : Bytes × Json) (rest : List (Bytes × Json)) :
    renderFields ((name, value) :: next :: rest) =
      quote name ++ 58 :: (render value ++ 44 :: renderFields (next :: rest)) := by
  have hcolon : ((":" : String) : Bytes) = [58] := by decide +kernel
  have hcomma : (("," : String) : Bytes) = [44] := by decide +kernel
  rw [renderFields, hcolon, hcomma]
  · simp only [List.append_assoc, List.cons_append, List.nil_append]
  · exact List.cons_ne_nil _ _

/-- A text that a numeral in front of it ends at. -/
def Bounds (rest : Bytes) : Prop := ∀ b ∈ rest.head?, isNumeralByte b = false

theorem bounds_nil : Bounds [] := by rintro b ⟨⟩

theorem bounds_cons {b : UInt8} (rest : Bytes) (h : isNumeralByte b = false) : Bounds (b :: rest) := by
  rintro c hc
  exact Option.some.inj hc ▸ h

theorem behindSpace_cons {b : UInt8} (rest : Bytes) (h : isSpace b = false) : behindSpace (b :: rest) = b :: rest :=
  List.dropWhile_cons_of_neg (by simp [h])

/-- A value begins with a byte that neither is white space nor closes a list. -/
theorem exists_render_eq_cons {v : Json} (h : isEncodable v = true) :
    ∃ b more, render v = b :: more ∧ isSpace b = false ∧ b ≠ 93 := by
  have hnumeral : ∀ b : UInt8, isNumeralByte b = true → isSpace b = false ∧ b ≠ 93 := by decide +kernel
  cases v with
  | null => exact ⟨_, _, render_null, by decide, by decide⟩
  | bool value =>
      cases value with
      | true => exact ⟨_, _, render_true, by decide, by decide⟩
      | false => exact ⟨_, _, render_false, by decide, by decide⟩
  | number digits =>
      obtain ⟨hne, hdigits⟩ := of_isNumeral h
      obtain ⟨b, more, rfl⟩ := List.exists_cons_of_ne_nil hne
      exact ⟨b, more, rfl, hnumeral b (hdigits b List.mem_cons_self)⟩
  | text value => exact ⟨_, _, quote_eq value, by decide, by decide⟩
  | list items => exact ⟨_, _, render_list items, by decide, by decide⟩
  | object fields => exact ⟨_, _, render_object fields, by decide, by decide⟩

theorem exists_renderItems_eq_cons {items : List Json} (hne : items ≠ []) (h : areEncodable items = true) :
    ∃ b more, renderItems items = b :: more ∧ isSpace b = false ∧ b ≠ 93 := by
  obtain ⟨item, rest, rfl⟩ := List.exists_cons_of_ne_nil hne
  rw [areEncodable, Bool.and_eq_true] at h
  obtain ⟨b, more, hitem, hb⟩ := exists_render_eq_cons h.1
  cases rest with
  | nil => exact ⟨b, more, hitem, hb⟩
  | cons next rest => exact ⟨b, _, by rw [renderItems_cons_cons, hitem]; rfl, hb⟩

theorem exists_renderFields_eq_cons {fields : List (Bytes × Json)} (hne : fields ≠ []) :
    ∃ more, renderFields fields = 34 :: more := by
  obtain ⟨⟨name, value⟩, rest, rfl⟩ := List.exists_cons_of_ne_nil hne
  cases rest with
  | nil => exact ⟨_, by rw [renderFields_singleton, quote_eq]; rfl⟩
  | cons next rest => exact ⟨_, by rw [renderFields_cons_cons, quote_eq]; rfl⟩

/-! The pieces are read one by one. -/

/-- What begins with no bracket and no quote is read as a word. -/
theorem readValue_word {b : UInt8} (depth : Nat) (rest : Bytes) (hspace : isSpace b = false) (hquote : b ≠ 34)
    (hlist : b ≠ 91) (hobject : b ≠ 123) : readValue (depth + 1) (b :: rest) = readWord (b :: rest) := by
  rw [readValue, behindSpace_cons rest hspace]
  split
  next heq => exact absurd (List.cons.inj heq).1 hquote
  next heq => exact absurd (List.cons.inj heq).1 hlist
  next heq => exact absurd (List.cons.inj heq).1 hobject
  next => rfl

/-- A numeral is read up to the byte that no numeral has. -/
theorem readWord_number {digits rest : Bytes} (h : isNumeral digits = true) (hrest : Bounds rest) :
    readWord (digits ++ rest) = some (.number digits, rest) := by
  obtain ⟨hne, hdigits⟩ := of_isNumeral h
  have htake : (digits ++ rest).takeWhile isNumeralByte = digits := by
    cases rest with
    | nil => rw [List.append_nil, List.takeWhile_eq_self_iff.mpr hdigits]
    | cons b rest =>
        rw [List.takeWhile_append_of_pos hdigits, List.takeWhile_cons_of_neg (by simp [hrest b rfl]), List.append_nil]
  have hdrop : (digits ++ rest).dropWhile isNumeralByte = rest := by
    have hsplit := List.takeWhile_append_dropWhile (p := isNumeralByte) (l := digits ++ rest)
    rw [htake] at hsplit
    exact List.append_cancel_left hsplit
  have hword : ∀ (b : UInt8) (more : Bytes), isNumeralByte b = false → ¬(b :: more) <+: digits ++ rest := by
    intro b more hb hprefix
    obtain ⟨c, digits', rfl⟩ := List.exists_cons_of_ne_nil hne
    obtain ⟨rfl, -⟩ := List.cons_prefix_cons.mp hprefix
    exact absurd (hdigits b List.mem_cons_self) (by simp [hb])
  have hnull : Bytes.ofString "null" = [110, 117, 108, 108] := by decide +kernel
  have htrue : Bytes.ofString "true" = [116, 114, 117, 101] := by decide +kernel
  have hfalse : Bytes.ofString "false" = [102, 97, 108, 115, 101] := by decide +kernel
  rw [readWord, hnull, htrue, hfalse, if_neg (hword _ _ (by decide)), if_neg (hword _ _ (by decide)),
    if_neg (hword _ _ (by decide)), htake, hdrop, if_pos h]

theorem readValue_number {digits rest : Bytes} (depth : Nat) (h : isNumeral digits = true) (hrest : Bounds rest) :
    readValue (depth + 1) (digits ++ rest) = some (.number digits, rest) := by
  have hnumeral : ∀ b : UInt8, isNumeralByte b = true → isSpace b = false ∧ b ≠ 34 ∧ b ≠ 91 ∧ b ≠ 123 := by
    decide +kernel
  obtain ⟨hne, hdigits⟩ := of_isNumeral h
  rw [← readWord_number h hrest]
  obtain ⟨b, digits', rfl⟩ := List.exists_cons_of_ne_nil hne
  obtain ⟨hspace, hquote, hlist, hobject⟩ := hnumeral b (hdigits b List.mem_cons_self)
  exact readValue_word depth _ hspace hquote hlist hobject

/-! What is read behind a bracket, a brace or a quote. -/

section

variable (depth : Nat) (rest : Bytes)

theorem readValue_quote : readValue (depth + 1) (34 :: rest) =
    (textScan [] 0 rest).map fun (value, rest) => (.text value, rest) := rfl

theorem readValue_list_nil : readValue (depth + 1) (91 :: 93 :: rest) = some (.list [], rest) := rfl

theorem readValue_list_cons {b : UInt8} (hspace : isSpace b = false) (hclose : b ≠ 93) :
    readValue (depth + 1) (91 :: b :: rest) =
      (readItems depth (b :: rest)).map fun (items, rest) => (.list items, rest) := by
  have hlist : readValue (depth + 1) (91 :: b :: rest) = match behindSpace (b :: rest) with
      | 93 :: rest => some (.list [], rest)
      | rest => (readItems depth rest).map fun (items, rest) => (.list items, rest) := rfl
  rw [hlist, behindSpace_cons rest hspace]
  split
  next heq => exact absurd (List.cons.inj heq).1 hclose
  next => rfl

theorem readValue_object_nil : readValue (depth + 1) (123 :: 125 :: rest) = some (.object [], rest) := rfl

theorem readValue_object_cons : readValue (depth + 1) (123 :: 34 :: rest) =
    (readFields depth (34 :: rest)).map fun (fields, rest) => (.object fields, rest) := rfl

theorem readName_quote {name : Bytes} (h : Utf8.isValid name = true) :
    readName (quote name ++ 58 :: rest) = some (name, rest) := by
  have hscan := textScan_quote h (58 :: rest)
  rw [quote_eq, List.cons_append, List.append_assoc, List.singleton_append]
  generalize (Utf8.decode name).flatMap glyph ++ 34 :: 58 :: rest = source at hscan ⊢
  have hname : readName (34 :: source) = match textScan [] 0 source with
      | some (name, rest) =>
        match behindSpace rest with
        | 58 :: rest => some (name, rest)
        | _ => none
      | none => none := rfl
  rw [hname, hscan]
  rfl

end

/-! Values are read back by recursion on them, together with lists of items and of fields. -/

mutual

/-- A value that can be written is read back from its text, texts being well formed. -/
theorem readValue_render (v : Json) {depth : Nat} {rest : Bytes} (h : isEncodable v = true)
    (hlegible : isLegible v = true) (hrest : Bounds rest) (hdepth : (render v).length ≤ depth) :
    readValue depth (render v ++ rest) = some (v, rest) := by
  obtain ⟨b, more, hrender, -⟩ := exists_render_eq_cons h
  have hpos : 1 ≤ (render v).length := by rw [hrender]; simp
  obtain ⟨depth, rfl⟩ := Nat.exists_eq_add_of_le' (hpos.trans hdepth)
  match v with
  | .null => rw [render_null]; rfl
  | .bool true => rw [render_true]; rfl
  | .bool false => rw [render_false]; rfl
  | .number digits => exact readValue_number depth h hrest
  | .text value =>
      rw [render, quote_eq, List.cons_append, List.append_assoc, List.singleton_append, readValue_quote,
        textScan_quote hlegible]
      rfl
  | .list items =>
      rw [render_list, List.length_cons, List.length_append, List.length_singleton] at hdepth
      rw [render_list, List.cons_append, List.append_assoc, List.singleton_append]
      by_cases hnil : items = []
      · rw [hnil]
        exact readValue_list_nil depth rest
      · obtain ⟨b, more, hitems, hspace, hclose⟩ := exists_renderItems_eq_cons hnil h
        have hread : readItems depth (renderItems items ++ 93 :: rest) = some (items, rest) :=
          readItems_render items hnil h hlegible (by omega)
        rw [hitems, List.cons_append] at hread ⊢
        rw [readValue_list_cons depth _ hspace hclose, hread]
        rfl
  | .object fields =>
      rw [render_object, List.length_cons, List.length_append, List.length_singleton] at hdepth
      rw [render_object, List.cons_append, List.append_assoc, List.singleton_append]
      by_cases hnil : fields = []
      · rw [hnil]
        exact readValue_object_nil depth rest
      · obtain ⟨more, hfields⟩ := exists_renderFields_eq_cons hnil
        have hread : readFields depth (renderFields fields ++ 125 :: rest) = some (fields, rest) :=
          readFields_render fields hnil h hlegible (by omega)
        rw [hfields, List.cons_append] at hread ⊢
        rw [readValue_object_cons, hread]
        rfl

theorem readItems_render (items : List Json) {depth : Nat} {rest : Bytes} (hne : items ≠ [])
    (h : areEncodable items = true) (hlegible : areLegible items = true) (hdepth : (renderItems items).length < depth) :
    readItems depth (renderItems items ++ 93 :: rest) = some (items, rest) := by
  obtain ⟨depth, rfl⟩ := Nat.exists_eq_add_of_le' (Nat.one_le_of_lt hdepth)
  match items with
  | [item] =>
      rw [areEncodable, Bool.and_eq_true] at h
      rw [areLegible, Bool.and_eq_true] at hlegible
      rw [renderItems] at hdepth ⊢
      rw [readItems, readValue_render item h.1 hlegible.1 (bounds_cons _ (by decide)) (by omega)]
      rfl
  | item :: next :: items =>
      rw [areEncodable, Bool.and_eq_true] at h
      rw [areLegible, Bool.and_eq_true] at hlegible
      rw [renderItems_cons_cons, List.length_append, List.length_cons] at hdepth
      rw [renderItems_cons_cons, List.append_assoc, List.cons_append, readItems,
        readValue_render item h.1 hlegible.1 (bounds_cons _ (by decide)) (by omega)]
      change (readItems depth _).map _ = _
      rw [readItems_render (next :: items) (List.cons_ne_nil _ _) h.2 hlegible.2 (by omega)]
      rfl

theorem readFields_render (fields : List (Bytes × Json)) {depth : Nat} {rest : Bytes} (hne : fields ≠ [])
    (h : haveEncodable fields = true) (hlegible : haveLegible fields = true)
    (hdepth : (renderFields fields).length < depth) :
    readFields depth (renderFields fields ++ 125 :: rest) = some (fields, rest) := by
  obtain ⟨depth, rfl⟩ := Nat.exists_eq_add_of_le' (Nat.one_le_of_lt hdepth)
  match fields with
  | [(name, value)] =>
      rw [haveEncodable, Bool.and_eq_true] at h
      rw [haveLegible, Bool.and_eq_true, Bool.and_eq_true] at hlegible
      rw [renderFields_singleton, List.length_append, List.length_cons] at hdepth
      rw [renderFields_singleton, List.append_assoc, List.cons_append, readFields, readName_quote _ hlegible.1]
      dsimp only
      rw [readValue_render value h.1 hlegible.2.1 (bounds_cons _ (by decide)) (by omega)]
      rfl
  | (name, value) :: next :: fields =>
      rw [haveEncodable, Bool.and_eq_true] at h
      rw [haveLegible, Bool.and_eq_true, Bool.and_eq_true] at hlegible
      rw [renderFields_cons_cons, List.length_append, List.length_cons, List.length_append, List.length_cons] at hdepth
      rw [renderFields_cons_cons, List.append_assoc, List.cons_append, List.append_assoc, List.cons_append, readFields,
        readName_quote _ hlegible.1]
      dsimp only
      rw [readValue_render value h.1 hlegible.2.1 (bounds_cons _ (by decide)) (by omega)]
      change (readFields depth _).map _ = _
      rw [readFields_render (next :: fields) (List.cons_ne_nil _ _) h.2 hlegible.2.2 (by omega)]
      rfl

end

/-- The text of a value that can be written is read as that value. -/
theorem read?_render {v : Json} (h : isEncodable v = true) (hlegible : isLegible v = true) :
    read? (render v) = some v := by
  have hread := readValue_render v h hlegible bounds_nil (Nat.le_succ (render v).length)
  rw [List.append_nil] at hread
  rw [read?, hread]
  rfl

/-! ## One line -/

mutual

/-- A value that can be written is written without control characters. -/
theorem printable_render (v : Json) (h : isEncodable v = true) : Printable (render v) := by
  match v with
  | .null => rw [render_null]; decide +kernel
  | .bool true => rw [render_true]; decide +kernel
  | .bool false => rw [render_false]; decide +kernel
  | .number digits =>
      have hnumeral : ∀ b : UInt8, isNumeralByte b = true → 32 ≤ b.toNat := by decide +kernel
      exact fun b hb => hnumeral b ((of_isNumeral h).2 b hb)
  | .text value => exact printable_quote value
  | .list items =>
      rw [render_list, printable_cons, printable_append]
      exact ⟨by decide, printable_renderItems items h, by decide +kernel⟩
  | .object fields =>
      rw [render_object, printable_cons, printable_append]
      exact ⟨by decide, printable_renderFields fields h, by decide +kernel⟩

theorem printable_renderItems (items : List Json) (h : areEncodable items = true) : Printable (renderItems items) := by
  match items with
  | [] => exact List.forall_mem_nil _
  | [item] =>
      rw [areEncodable, Bool.and_eq_true] at h
      exact printable_render item h.1
  | item :: next :: items =>
      rw [areEncodable, Bool.and_eq_true] at h
      rw [renderItems_cons_cons, printable_append, printable_cons]
      exact ⟨printable_render item h.1, by decide, printable_renderItems (next :: items) h.2⟩

theorem printable_renderFields (fields : List (Bytes × Json)) (h : haveEncodable fields = true) :
    Printable (renderFields fields) := by
  match fields with
  | [] => exact List.forall_mem_nil _
  | [(name, value)] =>
      rw [haveEncodable, Bool.and_eq_true] at h
      rw [renderFields_singleton, printable_append, printable_cons]
      exact ⟨printable_quote name, by decide, printable_render value h.1⟩
  | (name, value) :: next :: fields =>
      rw [haveEncodable, Bool.and_eq_true] at h
      rw [renderFields_cons_cons, printable_append, printable_cons, printable_append, printable_cons]
      exact ⟨printable_quote name, by decide, printable_render value h.1, by decide,
        printable_renderFields (next :: fields) h.2⟩

end

/-! ## Fields in order

In which order the fields of an object stand is no part of a value.
-/

mutual

/-- Two values that differ at most in the order of the fields of objects, at any depth. -/
inductive Same : Json → Json → Prop where
  | null : Same .null .null
  | bool (value : Bool) : Same (.bool value) (.bool value)
  | number (digits : Bytes) : Same (.number digits) (.number digits)
  | text (value : Bytes) : Same (.text value) (.text value)
  | list {items more : List Json} (h : SameItems items more) : Same (.list items) (.list more)
  | object {fields between more : List (Bytes × Json)} (h : SameFields fields between) (horder : between.Perm more) :
      Same (.object fields) (.object more)

/-- The same items. -/
inductive SameItems : List Json → List Json → Prop where
  | nil : SameItems [] []
  | cons {v w : Json} {items more : List Json} (h : Same v w) (hrest : SameItems items more) :
      SameItems (v :: items) (w :: more)

/-- Fields of the same names with the same values. -/
inductive SameFields : List (Bytes × Json) → List (Bytes × Json) → Prop where
  | nil : SameFields [] []
  | cons (name : Bytes) {v w : Json} {fields more : List (Bytes × Json)} (h : Same v w) (hrest : SameFields fields more) :
      SameFields ((name, v) :: fields) ((name, w) :: more)

end

mutual

/-- Putting fields in order leaves a value the same. -/
theorem same_ordered (v : Json) : Same v (ordered v) := by
  match v with
  | .null => exact .null
  | .bool value => exact .bool value
  | .number digits => exact .number digits
  | .text value => exact .text value
  | .list items => exact .list (sameItems_ordered items)
  | .object fields => exact .object (sameFields_ordered fields) (List.mergeSort_perm _ _).symm

theorem sameItems_ordered (items : List Json) : SameItems items (orderedItems items) := by
  match items with
  | [] => exact .nil
  | item :: items => exact .cons (same_ordered item) (sameItems_ordered items)

theorem sameFields_ordered (fields : List (Bytes × Json)) : SameFields fields (orderedFields fields) := by
  match fields with
  | [] => exact .nil
  | (name, value) :: fields => exact .cons name (same_ordered value) (sameFields_ordered fields)

end

theorem haveEncodable_eq_all (fields : List (Bytes × Json)) :
    haveEncodable fields = fields.all fun field => isEncodable field.2 := by
  induction fields with
  | nil => rfl
  | cons field fields ih => rw [haveEncodable, ih, List.all_cons]

theorem haveLegible_eq_all (fields : List (Bytes × Json)) :
    haveLegible fields = fields.all fun field => Utf8.isValid field.1 && isLegible field.2 := by
  induction fields with
  | nil => rfl
  | cons field fields ih => rw [haveLegible, ih, List.all_cons, Bool.and_assoc]

mutual

/-- The same values can be written. -/
theorem Same.isEncodable_eq {v w : Json} (h : Same v w) : isEncodable v = isEncodable w := by
  match h with
  | .null | .bool _ | .number _ | .text _ => rfl
  | .list h => exact h.areEncodable_eq
  | .object h horder =>
      rw [isEncodable, isEncodable, h.haveEncodable_eq, haveEncodable_eq_all, haveEncodable_eq_all, horder.all_eq]

theorem SameItems.areEncodable_eq {items more : List Json} (h : SameItems items more) :
    areEncodable items = areEncodable more := by
  match h with
  | .nil => rfl
  | .cons h hrest => rw [areEncodable, areEncodable, h.isEncodable_eq, hrest.areEncodable_eq]

theorem SameFields.haveEncodable_eq {fields more : List (Bytes × Json)} (h : SameFields fields more) :
    haveEncodable fields = haveEncodable more := by
  match h with
  | .nil => rfl
  | .cons _ h hrest => rw [haveEncodable, haveEncodable, h.isEncodable_eq, hrest.haveEncodable_eq]

end

mutual

/-- The same values consist of well formed texts. -/
theorem Same.isLegible_eq {v w : Json} (h : Same v w) : isLegible v = isLegible w := by
  match h with
  | .null | .bool _ | .number _ | .text _ => rfl
  | .list h => exact h.areLegible_eq
  | .object h horder =>
      rw [isLegible, isLegible, h.haveLegible_eq, haveLegible_eq_all, haveLegible_eq_all, horder.all_eq]

theorem SameItems.areLegible_eq {items more : List Json} (h : SameItems items more) :
    areLegible items = areLegible more := by
  match h with
  | .nil => rfl
  | .cons h hrest => rw [areLegible, areLegible, h.isLegible_eq, hrest.areLegible_eq]

theorem SameFields.haveLegible_eq {fields more : List (Bytes × Json)} (h : SameFields fields more) :
    haveLegible fields = haveLegible more := by
  match h with
  | .nil => rfl
  | .cons _ h hrest => rw [haveLegible, haveLegible, h.isLegible_eq, hrest.haveLegible_eq]

end

theorem haveEncodable_append (front back : List (Bytes × Json)) :
    haveEncodable (front ++ back) = (haveEncodable front && haveEncodable back) := by
  simp only [haveEncodable_eq_all, List.all_append]

theorem haveLegible_append (front back : List (Bytes × Json)) :
    haveLegible (front ++ back) = (haveLegible front && haveLegible back) := by
  simp only [haveLegible_eq_all, List.all_append]

end Json

end MobilitySweep
