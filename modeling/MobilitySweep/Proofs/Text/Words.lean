import MobilitySweep.Proofs.Text.Encoding

/-! # Words of plain text

Graphic characters of one byte each make up a word, and a text of such words with blanks between them consists of
these words. White space of one byte behind a text is trimmed with the rest, as if it had never been there.
-/

namespace MobilitySweep

namespace Bytes

/-- A byte that is a character by itself, and no white space or control character. -/
def IsGraphic (b : UInt8) : Prop := 33 ≤ b.toNat ∧ b.toNat ≤ 126

theorem forall_isGraphic_iff {text : Bytes} :
    (∀ b ∈ text, IsGraphic b) ↔ text.all (fun b => 33 ≤ b.toNat && b.toNat ≤ 126) = true := by
  simp [IsGraphic]

/-- Some graphic characters. -/
structure IsWord (text : Bytes) : Prop where
  ne_nil : text ≠ []
  graphic : ∀ b ∈ text, IsGraphic b

theorem IsWord.ascii {word : Bytes} (h : IsWord word) : ∀ b ∈ word, b.toNat < 128 :=
  fun b hb => (h.graphic b hb).2.trans_lt (by decide)

theorem ascii_append {front back : Bytes} (hfront : ∀ b ∈ front, b.toNat < 128) (hback : ∀ b ∈ back, b.toNat < 128) :
    ∀ b ∈ front ++ 32 :: back, b.toNat < 128 := by
  intro b hb
  rcases List.mem_append.mp hb with hb | hb
  · exact hfront b hb
  · rcases List.mem_cons.mp hb with rfl | hb
    · decide
    · exact hback b hb

end Bytes

namespace Glyph

/-- The character that a byte below 128 stands for. -/
def ofByte (b : UInt8) : Glyph := .char (Char.ofNat b.toNat)

theorem bytes_ofByte {b : UInt8} (hb : b.toNat < 128) : (ofByte b).bytes = [b] := by
  have hall : ∀ n : Fin 128, String.utf8EncodeChar (Char.ofNat n) = [UInt8.ofNat n] := by decide
  exact (hall ⟨b.toNat, hb⟩).trans (by rw [UInt8.ofNat_toNat])

end Glyph

namespace Utf8

theorem decodeScan_ascii {text : Bytes} (htext : ∀ b ∈ text, b.toNat < 128) (done : List Glyph) :
    decodeScan done 0 text = done.reverse ++ text.map Glyph.ofByte := by
  induction text generalizing done with
  | nil => simp [decodeScan]
  | cons b rest ih =>
      have hsequence : sequence b rest = some (Char.ofNat b.toNat, 0) := if_pos (htext b List.mem_cons_self)
      rw [decodeScan, hsequence]
      dsimp only
      rw [ih fun c hc => htext c (List.mem_cons_of_mem b hc)]
      simp [Glyph.ofByte]

/-- Bytes below 128 are characters one by one. -/
theorem decode_ascii {text : Bytes} (htext : ∀ b ∈ text, b.toNat < 128) : decode text = text.map Glyph.ofByte :=
  decodeScan_ascii htext []

theorem characters_ascii {text : Bytes} (htext : ∀ b ∈ text, b.toNat < 128) :
    characters text = text.map fun b => Char.ofNat b.toNat := by
  rw [characters, decode_ascii htext, List.map_map]
  rfl

theorem isValid_ascii {text : Bytes} (htext : ∀ b ∈ text, b.toNat < 128) : isValid text = true := by
  rw [isValid, decode_ascii htext]
  simp [Glyph.ofByte]

/-! ### The last byte

A byte below 128 is a character of its own wherever it stands, so it ends whatever sequence comes before it.
-/

section

variable {last : UInt8} (hlast : last.toNat < 128)

include hlast

/-- What ends a text does not complete a sequence. -/
theorem sequence_concat (b : UInt8) (rest : Bytes) : sequence b (rest ++ [last]) = sequence b rest := by
  have hend : isContinuation last = false :=
    Bool.eq_false_iff.mpr fun hmore => absurd (isContinuation_iff.mp hmore).1 (Nat.not_le.mpr hlast)
  -- A sequence looks at three bytes behind its first one at most.
  unfold sequence
  rcases rest with _ | ⟨b1, _ | ⟨b2, _ | ⟨b3, rest⟩⟩⟩ <;> simp [hend]

theorem decodeScan_concat {passed : Nat} {text : Bytes} (hpassed : passed ≤ text.length) (done : List Glyph) :
    decodeScan done passed (text ++ [last]) = decodeScan done passed text ++ [Glyph.ofByte last] := by
  induction text generalizing done passed with
  | nil =>
      obtain rfl : passed = 0 := Nat.le_zero.mp hpassed
      exact decodeScan_ascii (by simpa using hlast) done |>.trans (by simp [decodeScan])
  | cons b rest ih =>
      cases passed with
      | succ passed => exact ih (Nat.le_of_succ_le_succ hpassed) done
      | zero =>
          rw [List.cons_append, decodeScan, decodeScan, sequence_concat hlast]
          cases hsequence : sequence b rest with
          | none => exact ih (Nat.zero_le _) _
          | some found => exact ih (count_le_of_sequence hsequence) _

/-- The last byte of a text is its last character. -/
theorem decode_concat (text : Bytes) : decode (text ++ [last]) = decode text ++ [Glyph.ofByte last] :=
  decodeScan_concat hlast (Nat.zero_le _) []

end

end Utf8

namespace Blank

open Bytes

theorem isBlankGlyph_ofByte {b : UInt8} (hb : IsGraphic b) : isBlankGlyph (Glyph.ofByte b) = false := by
  have hall : ∀ n : Fin 127, 33 ≤ n.val → isBlank (Char.ofNat n) = false := by decide
  exact hall ⟨b.toNat, Nat.lt_succ_of_le hb.2⟩ hb.1

theorem isBlankGlyph_blank : isBlankGlyph (Glyph.ofByte 32) = true := by decide

theorem bytesOf_ascii {text : Bytes} (htext : ∀ b ∈ text, b.toNat < 128) : bytesOf (text.map Glyph.ofByte) = text := by
  induction text with
  | nil => rfl
  | cons b rest ih =>
      have hrest := ih fun c hc => htext c (List.mem_cons_of_mem b hc)
      rw [bytesOf, List.map_cons, List.flatMap_cons, Glyph.bytes_ofByte (htext b List.mem_cons_self)]
      exact congrArg (b :: ·) hrest

/-! ## Words -/

theorem foldl_words (glyphs run : List Glyph) (found : List Bytes) :
    let last := glyphs.foldl (fun (state : List Glyph × List Bytes) g =>
      if isBlankGlyph g then
        ([], if state.1.isEmpty then state.2 else bytesOf state.1.reverse :: state.2)
      else (g :: state.1, state.2)) (run, found)
    (if last.1.isEmpty then last.2 else bytesOf last.1.reverse :: last.2).reverse =
      found.reverse ++ ((List.splitOnPPrepend isBlankGlyph glyphs run).filter (!·.isEmpty)).map bytesOf := by
  induction glyphs generalizing run found with
  | nil => cases run <;> simp
  | cons g glyphs ih =>
      rw [List.foldl_cons]
      by_cases hblank : isBlankGlyph g = true
      · rw [if_pos hblank, List.splitOnPPrepend_cons_pos hblank]
        refine (ih [] _).trans ?_
        cases run <;> simp
      · rw [if_neg hblank, List.splitOnPPrepend_cons_neg (Bool.eq_false_iff.mpr hblank)]
        exact ih (g :: run) found

/-- Words are what stands between white space. -/
theorem words_eq (text : Bytes) :
    words text = (((Utf8.decode text).splitOnP isBlankGlyph).filter (!·.isEmpty)).map bytesOf :=
  (foldl_words (Utf8.decode text) [] []).trans (List.nil_append _)

theorem isBlankGlyph_of_isWord {word : Bytes} (h : IsWord word) :
    ∀ g ∈ word.map Glyph.ofByte, isBlankGlyph g = false := by
  intro g hg
  obtain ⟨b, hb, rfl⟩ := List.mem_map.mp hg
  exact isBlankGlyph_ofByte (h.graphic b hb)

/-- A word is its only one. -/
theorem words_word {word : Bytes} (h : IsWord word) : words word = [word] := by
  rw [words_eq, Utf8.decode_ascii h.ascii, List.splitOnP_eq_singleton (isBlankGlyph_of_isWord h)]
  simp [h.ne_nil, bytesOf_ascii h.ascii]

/-- A word in front of a blank is the first one. -/
theorem words_append {word rest : Bytes} (h : IsWord word) (hrest : ∀ b ∈ rest, b.toNat < 128) :
    words (word ++ 32 :: rest) = word :: words rest := by
  rw [words_eq, words_eq, Utf8.decode_ascii (ascii_append h.ascii hrest), Utf8.decode_ascii hrest, List.map_append,
    List.map_cons, List.splitOnP_append_cons_of_forall_mem (isBlankGlyph_of_isWord h) _ isBlankGlyph_blank]
  simp [h.ne_nil, bytesOf_ascii h.ascii]

/-! ## Trimming -/

theorem dropWhile_graphic {text : Bytes} (hfirst : ∀ b ∈ text.head?, IsGraphic b) :
    (text.map Glyph.ofByte).dropWhile isBlankGlyph = text.map Glyph.ofByte := by
  cases text with
  | nil => rfl
  | cons b rest =>
      rw [List.map_cons, List.dropWhile_cons_of_neg]
      simp [isBlankGlyph_ofByte (hfirst b rfl)]

/-- A text with graphic ends is trimmed already. -/
theorem trim_graphic {text : Bytes} (htext : ∀ b ∈ text, b.toNat < 128) (hfirst : ∀ b ∈ text.head?, IsGraphic b)
    (hlast : ∀ b ∈ text.getLast?, IsGraphic b) : trim text = text := by
  have hback : (text.reverse.map Glyph.ofByte).dropWhile isBlankGlyph = text.reverse.map Glyph.ofByte :=
    dropWhile_graphic (by rwa [List.head?_reverse])
  rw [trim, Utf8.decode_ascii htext, dropWhile_graphic hfirst, ← List.map_reverse, hback, List.map_reverse,
    List.reverse_reverse, bytesOf_ascii htext]

/-- White space behind a text is trimmed. -/
theorem trim_concat {last : UInt8} (hlast : last.toNat < 128) (hblank : isBlankGlyph (Glyph.ofByte last) = true)
    (text : Bytes) : trim (text ++ [last]) = trim text := by
  simp only [trim, Utf8.decode_concat hlast, List.dropWhile_append]
  split
  next hnone => simp [hblank, List.isEmpty_iff.mp hnone]
  next => simp [hblank]

end Blank

/-! ## Lower case -/

namespace Bytes

theorem lowerByte_ascii {b : UInt8} (hb : b.toNat < 128) : (lowerByte b).toNat < 128 := by
  have hall : ∀ n : Fin 128, (lowerByte (UInt8.ofNat n)).toNat < 128 := by decide
  simpa using hall ⟨b.toNat, hb⟩

theorem IsGraphic.lowerByte {b : UInt8} (h : IsGraphic b) : IsGraphic (Bytes.lowerByte b) := by
  have hall : ∀ n : Fin 128, 33 ≤ n.val → n.val ≤ 126 →
      33 ≤ (Bytes.lowerByte (UInt8.ofNat n)).toNat ∧ (Bytes.lowerByte (UInt8.ofNat n)).toNat ≤ 126 := by decide
  simpa [IsGraphic] using hall ⟨b.toNat, h.2.trans_lt (by decide)⟩ h.1 h.2

end Bytes

/-- Among the characters below 128, those that have small forms are the large letters of one byte. -/
theorem Lower.lowerChar_ascii {b : UInt8} (hb : b.toNat < 128) :
    lowerChar (Char.ofNat b.toNat) = Char.ofNat (Bytes.lowerByte b).toNat := by
  have hall : ∀ n : Fin 128, (Char.ofNat n).toNat = n := by decide
  have hlater : ∀ s ∈ stretches.tail, s.small? b.toNat = none := by
    have hfirst : ∀ s ∈ stretches.tail, 128 ≤ s.first := by decide +kernel
    intro s hs
    have hlarge := hfirst s hs
    rw [Stretch.small?, if_neg]
    simp only [Bool.and_eq_true, decide_eq_true_eq]
    omega
  have hsplit : stretches = ⟨0x41, 0x5A, 1, 0x61⟩ :: stretches.tail := rfl
  rw [lowerChar, hall ⟨b.toNat, hb⟩, hsplit, List.findSome?_cons, List.findSome?_eq_none_iff.mpr hlater]
  by_cases hlarge : 65 ≤ b.toNat ∧ b.toNat ≤ 90
  · have hletter : Bytes.lowerByte b = b + 32 := if_pos (by simpa [UInt8.le_iff_toNat_le] using hlarge)
    have hsmall : (b + 32).toNat = 97 + (b.toNat - 65) := by
      rw [UInt8.toNat_add, show (32 : UInt8).toNat = 32 from rfl]
      omega
    simp [Stretch.small?, hlarge, hletter, hsmall, Nat.mod_one]
  · have hother : Bytes.lowerByte b = b := if_neg (by simpa [UInt8.le_iff_toNat_le] using hlarge)
    have hnone : Stretch.small? ⟨0x41, 0x5A, 1, 0x61⟩ b.toNat = none := if_neg (by simp; omega)
    rw [hnone, hother]
    rfl

/-- A text of bytes below 128 is written in lower case byte by byte. -/
theorem Bytes.lower_ascii {text : Bytes} (htext : ∀ b ∈ text, b.toNat < 128) : text.lower = text.map lowerByte := by
  rw [lower, lowerCharacters, Utf8.characters_ascii htext, List.map_map, Utf8.encode, List.flatMap_map]
  induction text with
  | nil => rfl
  | cons b rest ih =>
      have hb := htext b List.mem_cons_self
      rw [List.flatMap_cons, List.map_cons, ih fun c hc => htext c (List.mem_cons_of_mem b hc), Function.comp_apply,
        Lower.lowerChar_ascii hb]
      exact congrArg (· ++ _) (Glyph.bytes_ofByte (lowerByte_ascii hb))

end MobilitySweep
