import Mathlib
import MobilitySweep.Number.Decimal

/-! # Digits

Decimal text consists of digits whose value is the number that was written. Digits are read from the left, so what
readers do is said of digits behind others that they have read.
-/

namespace MobilitySweep

namespace Bytes

theorem isDigit_iff {b : UInt8} : isDigit b = true ↔ 48 ≤ b.toNat ∧ b.toNat ≤ 57 := by
  simp only [isDigit, Bool.and_eq_true, decide_eq_true_eq, UInt8.le_iff_toNat_le]
  rfl

theorem digitsValue_append (front back : Bytes) :
    digitsValue (front ++ back) = digitsValue front * 10 ^ back.length + digitsValue back := by
  induction back using List.reverseRecOn with
  | nil => simp [digitsValue]
  | append_singleton back b ih =>
      rw [← List.append_assoc]
      simp only [digitsValue, List.foldl_append, List.foldl_cons, List.foldl_nil, List.length_append,
        List.length_singleton, pow_succ] at ih ⊢
      rw [ih]
      ring

theorem digitsValue_concat (front : Bytes) (b : UInt8) :
    digitsValue (front ++ [b]) = digitsValue front * 10 + (b.toNat - 48) := by
  simp [digitsValue]

theorem digitsValue_replicate_zero (count : Nat) : digitsValue (List.replicate count 48) = 0 := by
  induction count with
  | zero => rfl
  | succ count ih => simpa [List.replicate_succ, digitsValue] using ih

end Bytes

namespace Decimal

/-- Digits are characters of one byte, so nothing is lost on the way to bytes. -/
theorem toNat_toUInt8_digit {n : Nat} {c : Char} (hc : c ∈ Nat.toDigits 10 n) :
    48 ≤ c.toNat ∧ c.toNat ≤ 57 ∧ c.toUInt8.toNat = c.toNat := by
  have hdigit := Nat.isDigit_of_mem_toDigits (by decide) (by decide) hc
  simp only [Char.isDigit, Bool.and_eq_true, decide_eq_true_eq, ge_iff_le, UInt32.le_iff_toNat_le] at hdigit
  have hlow : 48 ≤ c.toNat := hdigit.1
  have hhigh : c.toNat ≤ 57 := hdigit.2
  have hbyte : c.toUInt8.toNat = c.toNat % 256 := UInt32.toNat_toUInt8 c.val
  exact ⟨hlow, hhigh, by omega⟩

theorem isDigit_of_mem_ofNat {n : Nat} {b : UInt8} (hb : b ∈ ofNat n) : Bytes.isDigit b := by
  obtain ⟨c, hc, rfl⟩ := List.mem_map.mp hb
  obtain ⟨hlow, hhigh, hbyte⟩ := toNat_toUInt8_digit hc
  rw [Bytes.isDigit_iff, hbyte]
  exact ⟨hlow, hhigh⟩

theorem ofNat_ne_nil (n : Nat) : ofNat n ≠ [] := by
  simp [ofNat]

theorem length_ofNat_le {n k : Nat} (hk : 0 < k) : (ofNat n).length ≤ k ↔ n < 10 ^ k := by
  rw [ofNat, List.length_map, Nat.length_toDigits_le_iff (by decide) hk]

theorem length_ofInt64_le (n : Int64) : (ofInt64 n).length ≤ 20 := by
  have hlow := n.le_toInt
  have hhigh := n.toInt_lt
  have hdigits : (ofNat n.toInt.natAbs).length ≤ 19 := (length_ofNat_le (by decide)).mpr (by omega)
  unfold ofInt64 ofInt
  split <;> [rw [List.length_cons]; skip] <;> omega

/-- The digits of a number have its value. -/
theorem digitsValue_ofNat (n : Nat) : Bytes.digitsValue (ofNat n) = n := by
  have hfold : ∀ (chars : List Char) (value : Nat), (∀ c ∈ chars, c.toUInt8.toNat = c.toNat) →
      (chars.map Char.toUInt8).foldl (fun n d => n * 10 + (d.toNat - 48)) value =
        Nat.ofDigitChars 10 chars value := by
    intro chars
    induction chars with
    | nil => simp
    | cons c rest ih =>
        intro value hall
        rw [List.map_cons, List.foldl_cons, ih _ fun d hd => hall d (List.mem_cons_of_mem c hd),
          Nat.ofDigitChars_cons, hall c List.mem_cons_self, Nat.mul_comm]
        rfl
  rw [Bytes.digitsValue, ofNat, hfold _ _ fun c hc => (toNat_toUInt8_digit hc).2.2, Nat.ofDigitChars_ten_toDigits]

theorem ofNat_injective : Function.Injective ofNat :=
  Function.LeftInverse.injective digitsValue_ofNat

/-! ## Numbers of a fixed width -/

theorem isDigit_of_mem_padded {width n : Nat} {b : UInt8} (hb : b ∈ padded width n) : Bytes.isDigit b := by
  rcases List.mem_append.mp hb with hb | hb
  · rw [(List.mem_replicate.mp hb).2]
    decide
  · exact isDigit_of_mem_ofNat hb

theorem digitsValue_padded (width n : Nat) : Bytes.digitsValue (padded width n) = n := by
  rw [padded, Bytes.digitsValue_append, Bytes.digitsValue_replicate_zero, digitsValue_ofNat, Nat.zero_mul, Nat.zero_add]

theorem length_padded {width n : Nat} (hwidth : 0 < width) (hn : n < 10 ^ width) : (padded width n).length = width := by
  have hlength := (length_ofNat_le hwidth).mpr hn
  rw [padded, List.length_append, List.length_replicate]
  omega

/-! ## Reading -/

theorem digitValue?_of_isDigit {b : UInt8} (hb : Bytes.isDigit b) : digitValue? b = some (b.toNat - 48) := by
  unfold digitValue?
  exact if_pos hb

/-- Digits are read as long as their value fits into a word. -/
theorem readDigits_of_isDigit {text : Bytes} (hdigits : ∀ b ∈ text, Bytes.isDigit b) (separators : Bool) (front : Bytes)
    (hbound : Bytes.digitsValue (front ++ text) < wordBound) :
    readDigits 10 separators (Bytes.digitsValue front) text = .ok (Bytes.digitsValue (front ++ text)) := by
  induction text generalizing front with
  | nil => simp [readDigits]
  | cons b rest ih =>
      have hb := hdigits b List.mem_cons_self
      have hrange := Bytes.isDigit_iff.mp hb
      have hsplit : front ++ b :: rest = front ++ [b] ++ rest := by simp
      rw [hsplit] at hbound ⊢
      have hnext := ih (fun c hc => hdigits c (List.mem_cons_of_mem b hc)) (front ++ [b]) hbound
      have hgrows : Bytes.digitsValue (front ++ [b]) ≤ Bytes.digitsValue (front ++ [b] ++ rest) := by
        rw [Bytes.digitsValue_append _ rest]
        exact Nat.le_add_right_of_le (Nat.le_mul_of_pos_right _ (by positivity))
      have hline : b ≠ ('_' : UInt8) := by rintro rfl; revert hrange; decide
      rw [Bytes.digitsValue_concat] at hnext hgrows
      simp only [readDigits, hline, decide_false, Bool.and_false, Bool.false_eq_true, if_false, digitValue?_of_isDigit hb]
      rw [if_neg (by omega), if_neg (by omega)]
      exact hnext

theorem splitSign_of_isDigit {b : UInt8} (hb : Bytes.isDigit b) (rest : Bytes) :
    splitSign (b :: rest) = (false, b :: rest) := by
  have hrange := Bytes.isDigit_iff.mp hb
  have hminus : b ≠ ('-' : UInt8) := by rintro rfl; revert hrange; decide
  have hplus : b ≠ ('+' : UInt8) := by rintro rfl; revert hrange; decide
  simp [splitSign, hminus, hplus]

/-- A word is written as a sign and a magnitude. -/
theorem splitSign_ofInt64 (n : Int64) : splitSign (ofInt64 n) = (decide (n.toInt < 0), ofNat n.toInt.natAbs) := by
  rw [ofInt64, ofInt]
  split
  next hnegative => rw [decide_eq_true hnegative]; rfl
  next hnegative =>
    obtain ⟨b, rest, htext⟩ := List.exists_cons_of_ne_nil (ofNat_ne_nil n.toInt.natAbs)
    have hb : Bytes.isDigit b := isDigit_of_mem_ofNat (htext ▸ List.mem_cons_self)
    rw [decide_eq_false hnegative, htext, splitSign_of_isDigit hb]

theorem signed_natAbs (n : Int64) : signed (decide (n.toInt < 0)) n.toInt.natAbs = .ok n := by
  have hlow := n.le_toInt
  have hhigh := n.toInt_lt
  by_cases hnegative : n.toInt < 0
  · have hvalue : -(n.toInt.natAbs : Int) = n.toInt := by omega
    rw [signed, if_pos (decide_eq_true hnegative), if_pos (by omega), hvalue, Int64.ofInt_toInt]
  · have hvalue : (n.toInt.natAbs : Int) = n.toInt := by omega
    rw [signed, if_neg (by simpa using hnegative), if_pos (by omega), hvalue, Int64.ofInt_toInt]

theorem readDigits_ofNat (n : Int64) (separators : Bool) :
    readDigits 10 separators 0 (ofNat n.toInt.natAbs) = .ok n.toInt.natAbs := by
  have hlow := n.le_toInt
  have hhigh := n.toInt_lt
  have hall : ∀ b ∈ ofNat n.toInt.natAbs, Bytes.isDigit b := fun b => isDigit_of_mem_ofNat
  have hread := readDigits_of_isDigit hall separators [] (by rw [List.nil_append, digitsValue_ofNat, wordBound]; omega)
  rwa [List.nil_append, digitsValue_ofNat] at hread

/-- A word is read back from its text. -/
theorem read_ofInt64 (n : Int64) : read (ofInt64 n) = .ok n := by
  have hsome : (ofNat n.toInt.natAbs).isEmpty = false := by simpa using ofNat_ne_nil n.toInt.natAbs
  rw [read, readIn, splitSign_ofInt64]
  dsimp only
  rw [hsome, readDigits_ofNat]
  exact signed_natAbs n

theorem ofInt64_injective : Function.Injective ofInt64 := by
  intro m n hmn
  have hread := read_ofInt64 m
  rw [hmn, read_ofInt64] at hread
  exact (Except.ok.inj hread).symm

theorem ofInt64_ne_nil (n : Int64) : ofInt64 n ≠ [] := by
  rw [ofInt64, ofInt]
  split
  next => simp
  next => exact ofNat_ne_nil _

theorem sign_or_isDigit_of_mem_ofInt64 {n : Int64} {b : UInt8} (hb : b ∈ ofInt64 n) :
    b = 45 ∨ Bytes.isDigit b := by
  unfold ofInt64 ofInt at hb
  split at hb
  next =>
    rcases List.mem_cons.mp hb with rfl | hb
    · exact Or.inl rfl
    · exact Or.inr (isDigit_of_mem_ofNat hb)
  next => exact Or.inr (isDigit_of_mem_ofNat hb)

/-! ## Bases -/

theorem digitsValue_lt {text : Bytes} (hdigits : ∀ b ∈ text, Bytes.isDigit b) : Bytes.digitsValue text < 10 ^ text.length := by
  induction text using List.reverseRecOn with
  | nil => decide
  | append_singleton front b ih =>
      have hb := Bytes.isDigit_iff.mp (hdigits b (by simp))
      have hfront := ih fun c hc => hdigits c (List.mem_append_left [b] hc)
      rw [Bytes.digitsValue_concat, List.length_append, List.length_singleton, pow_succ]
      omega

/-- No number but zero starts with a zero. -/
theorem eq_nil_of_ofNat_zero {n : Nat} {rest : Bytes} (h : ofNat n = 48 :: rest) : n = 0 ∧ rest = [] := by
  have hvalue : Bytes.digitsValue rest = n := by
    have hall := digitsValue_ofNat n
    rw [h] at hall
    exact hall
  have hlt : Bytes.digitsValue rest < 10 ^ rest.length :=
    digitsValue_lt fun b hb => isDigit_of_mem_ofNat (n := n) (h ▸ List.mem_cons_of_mem 48 hb)
  rcases Nat.eq_zero_or_pos rest.length with hzero | hpos
  · obtain rfl := List.eq_nil_of_length_eq_zero hzero
    exact ⟨hvalue.symm, rfl⟩
  · have hlength := (length_ofNat_le hpos).mpr (hvalue ▸ hlt)
    rw [h, List.length_cons] at hlength
    omega

/-- The text of a word announces no base that would change its value. -/
theorem readAnyBase_ofInt64 (n : Int64) : readAnyBase (ofInt64 n) = .ok n := by
  have hsome : (ofNat n.toInt.natAbs).isEmpty = false := by simpa using ofNat_ne_nil n.toInt.natAbs
  have hread : readMagnitude (ofNat n.toInt.natAbs) = .ok n.toInt.natAbs := by
    have hline : (ofNat n.toInt.natAbs).contains ('_' : UInt8) = false := by
      rw [List.contains_eq_mem, decide_eq_false_iff_not]
      exact fun hmem => absurd (isDigit_of_mem_ofNat hmem) (by decide)
    have hdigits := readDigits_ofNat n true
    obtain ⟨z, rest, htext⟩ := List.exists_cons_of_ne_nil (ofNat_ne_nil n.toInt.natAbs)
    rw [readMagnitude, hsome, if_neg (by simp)]
    by_cases hz : z = ('0' : UInt8)
    · rw [hz] at htext
      obtain ⟨hzero, rfl⟩ := eq_nil_of_ofNat_zero htext
      rw [htext, hzero]
      rfl
    · have hbase : announcedBase (ofNat n.toInt.natAbs) = (10, ofNat n.toInt.natAbs) := by
        rw [htext]
        unfold announcedBase
        exact if_neg hz
      rw [hbase]
      dsimp only
      rw [hdigits, hline]
      rfl
  rw [readAnyBase, splitSign_ofInt64]
  dsimp only
  rw [hsome, hread]
  exact signed_natAbs n

end Decimal

end MobilitySweep
