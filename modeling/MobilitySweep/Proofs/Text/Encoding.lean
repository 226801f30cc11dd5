import Mathlib
import MobilitySweep.Text.Utf8
import MobilitySweep.Yaml.Source

/-! # Characters read back from their bytes

A well formed text has the bytes of its characters, and what a stream reads from the bytes of characters are these
characters again.
-/

namespace MobilitySweep

namespace Utf8

@[simp] theorem encode_nil : encode [] = [] := rfl

@[simp] theorem encode_cons (c : Char) (rest : List Char) : encode (c :: rest) = String.utf8EncodeChar c ++ encode rest :=
  rfl

@[simp] theorem encode_append (front back : List Char) : encode (front ++ back) = encode front ++ encode back :=
  List.flatMap_append

/-! ## The bytes of a character -/

theorem toNat_lt (c : Char) : c.toNat < 0x110000 := by
  rcases c.valid with h | ⟨-, h⟩
  · exact Nat.lt_trans h (by decide)
  · exact h

theorem toNat_not_surrogate (c : Char) : ¬(0xD800 ≤ c.toNat ∧ c.toNat ≤ 0xDFFF) := by
  rintro ⟨hlow, hhigh⟩
  rcases c.valid with h | ⟨h, -⟩
  · exact absurd hlow (Nat.not_le.mpr h)
  · exact absurd hhigh (Nat.not_le.mpr h)

/-- The bytes of a character, by their number. -/
inductive EncodedAs (n : Nat) : Bytes → Prop where
  | one {b : UInt8} (h : n < 0x80) (hb : b.toNat = n) : EncodedAs n [b]
  | two {b b1 : UInt8} (h : 0x80 ≤ n) (h' : n < 0x800) (hb : b.toNat = n / 64 + 192) (hb1 : b1.toNat = n % 64 + 128) :
      EncodedAs n [b, b1]
  | three {b b1 b2 : UInt8} (h : 0x800 ≤ n) (h' : n < 0x10000) (hb : b.toNat = n / 4096 + 224)
      (hb1 : b1.toNat = n / 64 % 64 + 128) (hb2 : b2.toNat = n % 64 + 128) : EncodedAs n [b, b1, b2]
  | four {b b1 b2 b3 : UInt8} (h : 0x10000 ≤ n) (h' : n < 0x110000) (hb : b.toNat = n / 262144 + 240)
      (hb1 : b1.toNat = n / 4096 % 64 + 128) (hb2 : b2.toNat = n / 64 % 64 + 128) (hb3 : b3.toNat = n % 64 + 128) :
      EncodedAs n [b, b1, b2, b3]

theorem encodedAs (c : Char) : EncodedAs c.toNat (String.utf8EncodeChar c) := by
  have hlt := toNat_lt c
  have hbyte {n : Nat} (h : n < 256) : (UInt8.ofNat n).toNat = n := by simp [Nat.mod_eq_of_lt h]
  have hform : String.utf8EncodeChar c =
      if c.toNat ≤ 127 then [UInt8.ofNat c.toNat]
      else if c.toNat ≤ 2047 then [UInt8.ofNat (c.toNat / 64 % 32 + 192), UInt8.ofNat (c.toNat % 64 + 128)]
      else if c.toNat ≤ 65535 then
        [UInt8.ofNat (c.toNat / 4096 % 16 + 224), UInt8.ofNat (c.toNat / 64 % 64 + 128), UInt8.ofNat (c.toNat % 64 + 128)]
      else
        [UInt8.ofNat (c.toNat / 262144 % 8 + 240), UInt8.ofNat (c.toNat / 4096 % 64 + 128),
          UInt8.ofNat (c.toNat / 64 % 64 + 128), UInt8.ofNat (c.toNat % 64 + 128)] := rfl
  rw [hform]
  split
  next h => exact .one (by omega) (hbyte (by omega))
  next h =>
    split
    next h' => exact .two (by omega) (by omega) (by rw [hbyte] <;> omega) (hbyte (by omega))
    next h' =>
      split
      next h'' =>
        exact .three (by omega) (by omega) (by rw [hbyte] <;> omega) (hbyte (by omega)) (hbyte (by omega))
      next h'' =>
        exact .four (by omega) hlt (by rw [hbyte] <;> omega) (hbyte (by omega)) (hbyte (by omega)) (hbyte (by omega))

/-- Different bytes do not encode the same character. -/
theorem EncodedAs.unique {n : Nat} {bytes more : Bytes} (h : EncodedAs n bytes) (h' : EncodedAs n more) : bytes = more := by
  have heq {b c : UInt8} {k : Nat} (hb : b.toNat = k) (hc : c.toNat = k) : b = c := UInt8.toNat_inj.mp (hb.trans hc.symm)
  cases h with
  | one _ hb => cases h' with
    | one _ hc => rw [heq hb hc]
    | two | three | four => omega
  | two _ _ hb hb1 => cases h' with
    | two _ _ hc hc1 => rw [heq hb hc, heq hb1 hc1]
    | one | three | four => omega
  | three _ _ hb hb1 hb2 => cases h' with
    | three _ _ hc hc1 hc2 => rw [heq hb hc, heq hb1 hc1, heq hb2 hc2]
    | one | two | four => omega
  | four _ _ hb hb1 hb2 hb3 => cases h' with
    | four _ _ hc hc1 hc2 hc3 => rw [heq hb hc, heq hb1 hc1, heq hb2 hc2, heq hb3 hc3]
    | one | two | three => omega

/-- Different characters do not have the same bytes. -/
theorem EncodedAs.injective {n k : Nat} {bytes : Bytes} (h : EncodedAs n bytes) (h' : EncodedAs k bytes) : n = k := by
  cases h <;> cases h' <;> omega

theorem encodeChar_injective : Function.Injective String.utf8EncodeChar := by
  intro c d hcd
  have h : c.toNat = d.toNat := (encodedAs c).injective (hcd ▸ encodedAs d)
  rw [← Char.ofNat_toNat c, h, Char.ofNat_toNat]

theorem isContinuation_iff {b : UInt8} : isContinuation b = true ↔ 128 ≤ b.toNat ∧ b.toNat ≤ 191 := by
  simp [isContinuation, UInt8.le_iff_toNat_le]

/-- A byte behind the first one of a character holds six bits of its number. -/
theorem isContinuation_of_low {b : UInt8} {n : Nat} (h : b.toNat = n % 64 + 128) : isContinuation b = true :=
  isContinuation_iff.mpr (by omega)

/-- Only the bytes behind the first one of a character are continuation bytes. -/
theorem exists_encodeChar (c : Char) : ∃ b more, String.utf8EncodeChar c = b :: more ∧
    isContinuation b = false ∧ ∀ x ∈ more, isContinuation x = true := by
  have hfirst {b : UInt8} (h : ¬(128 ≤ b.toNat ∧ b.toNat ≤ 191)) : isContinuation b = false :=
    Bool.eq_false_iff.mpr (isContinuation_iff.not.mpr h)
  have h := encodedAs c
  generalize String.utf8EncodeChar c = bytes at h
  cases h with
  | one => exact ⟨_, _, rfl, hfirst (by omega), by simp⟩
  | two _ _ _ hb1 => exact ⟨_, _, rfl, hfirst (by omega), by simp [isContinuation_of_low hb1]⟩
  | three _ _ _ hb1 hb2 =>
      exact ⟨_, _, rfl, hfirst (by omega), by simp [isContinuation_of_low hb1, isContinuation_of_low hb2]⟩
  | four _ _ _ hb1 hb2 hb3 =>
      exact ⟨_, _, rfl, hfirst (by omega),
        by simp [isContinuation_of_low hb1, isContinuation_of_low hb2, isContinuation_of_low hb3]⟩

theorem payload_of_low {b : UInt8} {n : Nat} (h : b.toNat = n % 64 + 128) : payload b = n % 64 := by
  rw [payload, h]
  omega

theorem toNat_of_isContinuation {b : UInt8} (h : isContinuation b = true) : b.toNat = payload b + 128 ∧ payload b < 64 := by
  have hrange := isContinuation_iff.mp h
  rw [payload]
  omega

/-! ## Sequences by their first byte -/

section

variable {b b1 b2 b3 : UInt8} {rest : Bytes} {n : Nat}

/-- The first of two bytes holds what is above the six bits of the other one. -/
theorem lead_two (hleast : 0x80 ≤ n) (hmost : n < 0x800) (hb : b.toNat = n / 64 + 192) :
    (0xC2 ≤ b.toNat ∧ b.toNat < 0xE0) ∧ b.toNat % 32 = n / 64 := by
  omega

theorem lead_three (hleast : 0x800 ≤ n) (hmost : n < 0x10000) (hb : b.toNat = n / 4096 + 224) :
    (0xE0 ≤ b.toNat ∧ b.toNat < 0xF0) ∧ b.toNat % 16 = n / 4096 := by
  omega

theorem lead_four (hleast : 0x10000 ≤ n) (hmost : n < 0x110000) (hb : b.toNat = n / 262144 + 240) :
    (0xF0 ≤ b.toNat ∧ b.toNat < 0xF5) ∧ b.toNat % 8 = n / 262144 := by
  omega

/-- A number is made up of its bits six at a time. -/
theorem code_three (n : Nat) : n / 4096 * 4096 + n / 64 % 64 * 64 + n % 64 = n := by
  omega

theorem code_four (n : Nat) : n / 262144 * 262144 + n / 4096 % 64 * 4096 + n / 64 % 64 * 64 + n % 64 = n := by
  omega

theorem sequence_one (h : b.toNat < 0x80) : sequence b rest = some (Char.ofNat b.toNat, 0) := if_pos h

theorem sequence_two (h : 0xC2 ≤ b.toNat ∧ b.toNat < 0xE0) (hmore : isContinuation b1 = true) :
    sequence b (b1 :: rest) = some (Char.ofNat (b.toNat % 32 * 64 + payload b1), 1) := by
  rw [sequence.eq_def, if_neg (by omega), if_neg (by omega), if_pos h.2]
  exact if_pos hmore

theorem sequence_three (h : 0xE0 ≤ b.toNat ∧ b.toNat < 0xF0) (hmore1 : isContinuation b1 = true)
    (hmore2 : isContinuation b2 = true) (hn : b.toNat % 16 * 4096 + payload b1 * 64 + payload b2 = n)
    (hleast : 0x800 ≤ n) (hsurrogate : ¬(0xD800 ≤ n ∧ n ≤ 0xDFFF)) :
    sequence b (b1 :: b2 :: rest) = some (Char.ofNat n, 2) := by
  rw [sequence.eq_def, if_neg (by omega), if_neg (by omega), if_neg (by omega), if_pos h.2]
  simp only [hn]
  exact if_pos (by simp [hmore1, hmore2, hleast]; omega)

theorem sequence_four (h : 0xF0 ≤ b.toNat ∧ b.toNat < 0xF5) (hmore1 : isContinuation b1 = true)
    (hmore2 : isContinuation b2 = true) (hmore3 : isContinuation b3 = true)
    (hn : b.toNat % 8 * 262144 + payload b1 * 4096 + payload b2 * 64 + payload b3 = n) (hleast : 0x10000 ≤ n)
    (hmost : n ≤ 0x10FFFF) : sequence b (b1 :: b2 :: b3 :: rest) = some (Char.ofNat n, 3) := by
  rw [sequence.eq_def, if_neg (by omega), if_neg (by omega), if_neg (by omega), if_neg (by omega), if_pos h.2]
  simp only [hn]
  exact if_pos (by simp [hmore1, hmore2, hmore3, hleast, hmost])

/-- The bytes of a sequence encode the number that their bits make up. -/
theorem EncodedAs.of_two (h : 0xC2 ≤ b.toNat ∧ b.toNat < 0xE0) (hmore : isContinuation b1 = true) :
    EncodedAs (b.toNat % 32 * 64 + payload b1) [b, b1] := by
  obtain ⟨hb1, hlow1⟩ := toNat_of_isContinuation hmore
  exact .two (by omega) (by omega) (by omega) (by omega)

theorem EncodedAs.of_three (h : 0xE0 ≤ b.toNat ∧ b.toNat < 0xF0) (hmore1 : isContinuation b1 = true)
    (hmore2 : isContinuation b2 = true) (hn : b.toNat % 16 * 4096 + payload b1 * 64 + payload b2 = n)
    (hleast : 0x800 ≤ n) : EncodedAs n [b, b1, b2] := by
  obtain ⟨hb1, hlow1⟩ := toNat_of_isContinuation hmore1
  obtain ⟨hb2, hlow2⟩ := toNat_of_isContinuation hmore2
  exact .three hleast (by omega) (by omega) (by omega) (by omega)

theorem EncodedAs.of_four (h : 0xF0 ≤ b.toNat ∧ b.toNat < 0xF5) (hmore1 : isContinuation b1 = true)
    (hmore2 : isContinuation b2 = true) (hmore3 : isContinuation b3 = true)
    (hn : b.toNat % 8 * 262144 + payload b1 * 4096 + payload b2 * 64 + payload b3 = n) (hleast : 0x10000 ≤ n)
    (hmost : n ≤ 0x10FFFF) : EncodedAs n [b, b1, b2, b3] := by
  obtain ⟨hb1, hlow1⟩ := toNat_of_isContinuation hmore1
  obtain ⟨hb2, hlow2⟩ := toNat_of_isContinuation hmore2
  obtain ⟨hb3, hlow3⟩ := toNat_of_isContinuation hmore3
  exact .four hleast (Nat.lt_succ_of_le hmost) (by omega) (by omega) (by omega) (by omega)

end

/-! ## Well formed texts -/

/-- A sequence that is read as a character consists of its bytes. -/
theorem exists_of_sequence {b : UInt8} {rest : Bytes} {c : Char} {count : Nat}
    (h : sequence b rest = some (c, count)) :
    ∃ more tail, rest = more ++ tail ∧ more.length = count ∧ String.utf8EncodeChar c = b :: more := by
  have hcode {n : Nat} {bytes : Bytes} (hn : n.isValidChar) (hbytes : EncodedAs n bytes) :
      String.utf8EncodeChar (Char.ofNat n) = bytes := by
    have hencoded := encodedAs (Char.ofNat n)
    rw [Char.toNat_ofNat, if_pos hn] at hencoded
    exact hencoded.unique hbytes
  unfold sequence at h
  dsimp only at h
  -- One case for each length of a sequence, told by its first byte.
  split at h
  next hone =>
    obtain ⟨rfl, rfl⟩ := by simpa using h
    exact ⟨[], rest, rfl, rfl, hcode (.inl (by omega)) (.one hone rfl)⟩
  next hone =>
    split at h
    next => exact absurd h (by simp)
    next hlead =>
      split at h
      next htwo =>
        split at h
        next b1 tail =>
          split at h
          next hmore =>
            obtain ⟨rfl, rfl⟩ := by simpa using h
            have hlow := (toNat_of_isContinuation hmore).2
            exact ⟨[b1], tail, rfl, rfl, hcode (.inl (by omega)) (.of_two ⟨Nat.le_of_not_lt hlead, htwo⟩ hmore)⟩
          next => exact absurd h (by simp)
        next => exact absurd h (by simp)
      next htwo =>
        split at h
        next hthree =>
          split at h
          next b1 b2 tail =>
            split at h
            next hmore =>
              simp only [Bool.and_eq_true, decide_eq_true_eq] at hmore
              obtain ⟨⟨⟨hmore1, hmore2⟩, hleast⟩, hsurrogate⟩ := hmore
              obtain ⟨rfl, rfl⟩ := by simpa using h
              have hlow1 := (toNat_of_isContinuation hmore1).2
              have hlow2 := (toNat_of_isContinuation hmore2).2
              have hvalid : b.toNat % 16 * 4096 + payload b1 * 64 + payload b2 < 55296 ∨
                  57343 < b.toNat % 16 * 4096 + payload b1 * 64 + payload b2 := by simpa using hsurrogate
              exact ⟨[b1, b2], tail, rfl, rfl, hcode (hvalid.imp_right fun h => ⟨h, by omega⟩)
                (.of_three ⟨Nat.le_of_not_lt htwo, hthree⟩ hmore1 hmore2 rfl hleast)⟩
            next => exact absurd h (by simp)
          next => exact absurd h (by simp)
        next hthree =>
          split at h
          next hfour =>
            split at h
            next b1 b2 b3 tail =>
              split at h
              next hmore =>
                simp only [Bool.and_eq_true, decide_eq_true_eq] at hmore
                obtain ⟨⟨⟨⟨hmore1, hmore2⟩, hmore3⟩, hleast⟩, hmost⟩ := hmore
                obtain ⟨rfl, rfl⟩ := by simpa using h
                exact ⟨[b1, b2, b3], tail, rfl, rfl, hcode (.inr ⟨by omega, Nat.lt_succ_of_le hmost⟩)
                  (.of_four ⟨Nat.le_of_not_lt hthree, hfour⟩ hmore1 hmore2 hmore3 rfl hleast hmost)⟩
              next => exact absurd h (by simp)
            next => exact absurd h (by simp)
          next => exact absurd h (by simp)

theorem encodeChar_of_sequence {b : UInt8} {rest : Bytes} {c : Char} {count : Nat}
    (h : sequence b rest = some (c, count)) : String.utf8EncodeChar c = b :: rest.take count := by
  obtain ⟨more, tail, rfl, rfl, hbytes⟩ := exists_of_sequence h
  rw [hbytes, List.take_left]

theorem count_le_of_sequence {b : UInt8} {rest : Bytes} {c : Char} {count : Nat}
    (h : sequence b rest = some (c, count)) : count ≤ rest.length := by
  obtain ⟨more, tail, rfl, rfl, -⟩ := exists_of_sequence h
  exact (List.prefix_append more tail).length_le

/-- Decoding loses nothing: the glyphs of a text have its bytes. -/
theorem flatMap_bytes_decodeScan (done : List Glyph) (passed : Nat) (text : Bytes) :
    (decodeScan done passed text).flatMap Glyph.bytes = done.reverse.flatMap Glyph.bytes ++ text.drop passed := by
  induction text generalizing done passed with
  | nil => simp [decodeScan]
  | cons b rest ih =>
      cases passed with
      | succ passed => exact ih done passed
      | zero =>
          rw [decodeScan]
          split
          next c more hsequence =>
            have hglyph : Glyph.bytes (.char c) = b :: rest.take more := encodeChar_of_sequence hsequence
            rw [ih, List.reverse_cons, List.flatMap_append, List.flatMap_singleton, hglyph, List.append_assoc,
              List.cons_append, List.take_append_drop, List.drop_zero]
          next => simp [ih, Glyph.bytes]

/-- A well formed text has the bytes of its characters. -/
theorem encode_characters {text : Bytes} (h : isValid text = true) : encode (characters text) = text := by
  have hglyphs : ∀ g ∈ decode text, String.utf8EncodeChar g.toChar = g.bytes := by
    intro g hg
    cases g with
    | char c => rfl
    | stray b => exact absurd (List.all_eq_true.mp h _ hg) (by simp)
  calc encode (characters text) = (decode text).flatMap fun g => String.utf8EncodeChar g.toChar := by
        rw [encode, characters, List.flatMap_map]
    _ = (decode text).flatMap Glyph.bytes := List.flatMap_congr hglyphs
    _ = text := flatMap_bytes_decodeScan [] 0 text

/-- The bytes of a character are read as the character. -/
theorem sequence_encodeChar (c : Char) (rest : Bytes) :
    ∃ b more, String.utf8EncodeChar c = b :: more ∧ sequence b (more ++ rest) = some (c, more.length) := by
  have hsurrogate := toNat_not_surrogate c
  have hencoded := encodedAs c
  generalize String.utf8EncodeChar c = bytes at hencoded
  cases hencoded with
  | @one b hn hb => exact ⟨b, [], rfl, by rw [sequence_one (hb ▸ hn), hb, Char.ofNat_toNat, List.length_nil]⟩
  | @two b b1 hn hn' hb hb1 =>
      obtain ⟨hlead, hhigh⟩ := lead_two hn hn' hb
      have hcode : b.toNat % 32 * 64 + payload b1 = c.toNat := by
        rw [hhigh, payload_of_low hb1, Nat.div_add_mod']
      refine ⟨b, [b1], rfl, ?_⟩
      rw [List.singleton_append, sequence_two hlead (isContinuation_of_low hb1), hcode, Char.ofNat_toNat]
      rfl
  | @three b b1 b2 hn hn' hb hb1 hb2 =>
      obtain ⟨hlead, hhigh⟩ := lead_three hn hn' hb
      have hcode : b.toNat % 16 * 4096 + payload b1 * 64 + payload b2 = c.toNat := by
        rw [hhigh, payload_of_low hb1, payload_of_low hb2, code_three]
      refine ⟨b, [b1, b2], rfl, ?_⟩
      rw [List.cons_append, List.singleton_append, sequence_three hlead (isContinuation_of_low hb1)
        (isContinuation_of_low hb2) hcode hn hsurrogate, Char.ofNat_toNat]
      rfl
  | @four b b1 b2 b3 hn hn' hb hb1 hb2 hb3 =>
      obtain ⟨hlead, hhigh⟩ := lead_four hn hn' hb
      have hcode : b.toNat % 8 * 262144 + payload b1 * 4096 + payload b2 * 64 + payload b3 = c.toNat := by
        rw [hhigh, payload_of_low hb1, payload_of_low hb2, payload_of_low hb3, code_four]
      refine ⟨b, [b1, b2, b3], rfl, ?_⟩
      rw [List.cons_append, List.cons_append, List.singleton_append, sequence_four hlead (isContinuation_of_low hb1)
        (isContinuation_of_low hb2) (isContinuation_of_low hb3) hcode hn (Nat.le_of_lt_succ hn'), Char.ofNat_toNat]
      rfl

theorem decodeScan_append (done : List Glyph) (passed rest : Bytes) :
    decodeScan done passed.length (passed ++ rest) = decodeScan done 0 rest := by
  induction passed with
  | nil => rfl
  | cons b passed ih => exact ih

/-- Characters are read back from their bytes. -/
theorem decode_encode (chars : List Char) : decode (encode chars) = chars.map Glyph.char := by
  have hscan (done : List Glyph) : decodeScan done 0 (encode chars) = done.reverse ++ chars.map Glyph.char := by
    induction chars generalizing done with
    | nil => simp [decodeScan]
    | cons c chars ih =>
        obtain ⟨b, more, hbytes, hsequence⟩ := sequence_encodeChar c (encode chars)
        rw [encode_cons, hbytes, List.cons_append, decodeScan, hsequence]
        dsimp only
        rw [decodeScan_append, ih]
        simp
  exact hscan []

theorem characters_encode (chars : List Char) : characters (encode chars) = chars := by
  rw [characters, decode_encode, List.map_map]
  exact List.map_id chars

theorem isValid_encode (chars : List Char) : isValid (encode chars) = true := by
  rw [isValid, decode_encode]
  simp

/-! ## Endings -/

theorem eq_of_isSuffix_encodeChar {c d : Char} (h : String.utf8EncodeChar c <:+ String.utf8EncodeChar d) : c = d := by
  obtain ⟨b, more, hc, hlead, -⟩ := exists_encodeChar c
  obtain ⟨b', more', hd, -, hmore⟩ := exists_encodeChar d
  obtain ⟨front, hfront⟩ := h
  cases front with
  | nil => exact encodeChar_injective hfront
  | cons x front =>
      rw [hc, hd, List.cons_append, List.cons.injEq] at hfront
      have hb : b ∈ more' := hfront.2 ▸ List.mem_append_right front List.mem_cons_self
      exact absurd (hmore b hb) (by simp [hlead])

/-- A text that ends with the bytes of a character has it as its last character. -/
theorem getLast?_of_isSuffix {chars : List Char} {c : Char} (h : String.utf8EncodeChar c <:+ encode chars) :
    chars.getLast? = some c := by
  rcases List.eq_nil_or_concat chars with rfl | ⟨front, d, rfl⟩
  · obtain ⟨b, more, hc, -⟩ := exists_encodeChar c
    exact absurd (List.suffix_nil.mp (hc ▸ h)) (by simp)
  · rw [List.concat_eq_append] at h ⊢
    have hd : String.utf8EncodeChar d <:+ encode (front ++ [d]) := ⟨encode front, by simp⟩
    rw [List.getLast?_append, List.getLast?_singleton]
    rcases List.suffix_or_suffix_of_suffix h hd with hcd | hdc
    · simp [eq_of_isSuffix_encodeChar hcd]
    · simp [eq_of_isSuffix_encodeChar hdc]

end Utf8

namespace Yaml

namespace Source

open Utf8

/-! ## Reading from a stream -/

theorem octetWidth_two {b : UInt8} (h : 0xC2 ≤ b.toNat ∧ b.toNat < 0xE0) : octetWidth b = 2 := by
  rw [octetWidth, if_neg (by omega), if_pos (by omega)]

theorem octetWidth_three {b : UInt8} (h : 0xE0 ≤ b.toNat ∧ b.toNat < 0xF0) : octetWidth b = 3 := by
  rw [octetWidth, if_neg (by omega), if_neg (by omega), if_pos (by omega)]

theorem octetWidth_four {b : UInt8} (h : 0xF0 ≤ b.toNat ∧ b.toNat < 0xF5) : octetWidth b = 4 := by
  rw [octetWidth, if_neg (by omega), if_neg (by omega), if_neg (by omega), if_pos (by omega)]

theorem trailing_cons {value n : Nat} {b : UInt8} {rest : Bytes} (hb : b.toNat = n % 64 + 128) :
    trailing value (b :: rest) = trailing (value * 64 + n % 64) rest := by
  rw [trailing, if_pos (by omega), show b.toNat % 64 = n % 64 by omega]

/-- A character is read from its bytes. -/
theorem unit8_encodeChar {c : Char} (h : isAllowed c.toNat = true) (rest : Bytes) :
    unit8 (String.utf8EncodeChar c ++ rest) = .char c.toNat (String.utf8EncodeChar c).length := by
  have hsurrogate := toNat_not_surrogate c
  have hlt := toNat_lt c
  have hcode : ((55296 ≤ c.toNat && c.toNat ≤ 57343) || 1114111 < c.toNat) = false := by
    simp only [Bool.or_eq_false_iff, Bool.and_eq_false_iff, decide_eq_false_iff_not]
    omega
  have hencoded := encodedAs c
  generalize String.utf8EncodeChar c = bytes at hencoded
  cases hencoded with
  | @one b hn hb =>
      have hwidth : octetWidth b = 1 := if_pos (hb ▸ hn)
      simp [unit8, hwidth, trailing, hb, hcode, h]
  | @two b b1 hn hn' hb hb1 =>
      obtain ⟨hlead, hhigh⟩ := lead_two hn hn' hb
      have hvalue : trailing (c.toNat / 64) [b1] = some c.toNat := by
        rw [trailing_cons hb1, Nat.div_add_mod', trailing]
      simp [unit8, octetWidth_two hlead, hhigh, hvalue, hcode, h, Nat.not_lt.mpr hn]
  | @three b b1 b2 hn hn' hb hb1 hb2 =>
      obtain ⟨hlead, hhigh⟩ := lead_three hn hn' hb
      have hvalue : trailing (c.toNat / 4096) [b1, b2] = some c.toNat := by
        rw [trailing_cons hb1, trailing_cons hb2, trailing, Nat.add_mul, Nat.mul_assoc, code_three]
      have hlength : ¬min 1 rest.length + 1 + 1 + 1 < 3 := by omega
      simp [unit8, octetWidth_three hlead, hlength, hhigh, hvalue, hcode, h, Nat.not_lt.mpr hn]
  | @four b b1 b2 b3 hn hn' hb hb1 hb2 hb3 =>
      obtain ⟨hlead, hhigh⟩ := lead_four hn hn' hb
      have hvalue : trailing (c.toNat / 262144) [b1, b2, b3] = some c.toNat := by
        rw [trailing_cons hb1, trailing_cons hb2, trailing_cons hb3, trailing]
        simp only [Nat.add_mul, Nat.mul_assoc, Nat.reduceMul, code_four]
      simp [unit8, octetWidth_four hlead, hhigh, hvalue, hcode, h, Nat.not_lt.mpr hn]

/-- The bytes of a character that was read are passed over. -/
theorem readScan_append (encoding : Encoding) (chars : List Char) (sizes : List Nat) (current room : Nat)
    (passed rest : Bytes) :
    readScan encoding chars sizes current room passed.length (passed ++ rest) =
      readScan encoding chars sizes current room 0 rest := by
  induction passed with
  | nil => rfl
  | cons b passed ih => exact ih

/-- The bytes of allowed characters are read as these characters, and nothing is wrong with them. -/
theorem readScan_encode {chars : List Char} (hchars : ∀ c ∈ chars, isAllowed c.toNat = true) (done : List Char)
    (sizes : List Nat) (current room : Nat) :
    ∃ blocks, readScan .utf8 done sizes current room 0 (encode chars) = ⟨done.reverse ++ chars, blocks, 0, none⟩ := by
  induction chars generalizing done sizes current room with
  | nil => exact ⟨_, by rw [encode_nil, readScan, List.append_nil]⟩
  | cons c chars ih =>
      obtain ⟨b, more, hbytes, -⟩ := exists_encodeChar c
      have hunit := unit8_encodeChar (hchars c List.mem_cons_self) (encode chars)
      rw [hbytes, List.cons_append, List.length_cons] at hunit
      rw [encode_cons, hbytes, List.cons_append, readScan]
      simp only [unit, hunit, Nat.add_sub_cancel]
      rw [readScan_append, Char.ofNat_toNat, List.append_cons, ← List.reverse_cons]
      exact ih (fun d hd => hchars d (List.mem_cons_of_mem c hd)) (c :: done) _ _ _

/-- A stream of allowed characters, the first of them in ASCII, holds these characters and can be read throughout. -/
theorem ofBytes_encode {c : Char} {chars : List Char} (hfirst : c.toNat < 0x80)
    (hchars : ∀ d ∈ c :: chars, isAllowed d.toNat = true) :
    (ofBytes (encode (c :: chars))).chars = c :: chars ∧ (ofBytes (encode (c :: chars))).fault = none := by
  obtain ⟨blocks, hread⟩ := readScan_encode hchars [] [] 0 blockSize
  have hencoded := encodedAs c
  have hbytes : ∃ b, String.utf8EncodeChar c = [b] ∧ b.toNat < 0x80 := by
    generalize String.utf8EncodeChar c = bytes at hencoded
    cases hencoded with
    | one _ hb => exact ⟨_, rfl, by omega⟩
    | two | three | four => omega
  obtain ⟨b, hc, hb⟩ := hbytes
  have hform : ofBytes (encode (c :: chars)) = readScan .utf8 [] [] 0 blockSize 0 (encode (c :: chars)) := by
    -- No byte order mark stands in front: all of them start with a byte above 127.
    rw [encode_cons, hc, List.singleton_append, ofBytes]
    all_goals
      intro rest heq
      obtain ⟨rfl, -⟩ := List.cons.inj heq
      exact absurd hb (by decide)
  rw [hform, hread]
  exact ⟨rfl, rfl⟩

end Source

end Yaml

end MobilitySweep
