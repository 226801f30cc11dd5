import MobilitySweep.Number.Reading
import MobilitySweep.Number.Shortest
import MobilitySweep.Proofs.Number.Digits
import MobilitySweep.Proofs.Number.Rounding

/-! # Decimal numerals

What is read from a numeral with a point, and that numbers written with a fixed number of places are such numerals. They
come back as the number nearest to the places that were written, so the same places are written again; and as they were
if the places were exact.
-/

namespace MobilitySweep

namespace Reading

open Bytes

/-- The sign in front of a numeral. -/
def sign (negative : Bool) : Bytes := if negative then [45] else []

theorem digit_ne {b c : UInt8} (hb : isDigit b) (hc : isDigit c = false) : b ≠ c := by
  rintro rfl
  rw [hb] at hc
  cases hc

/-- Digits become part of a mantissa. -/
theorem mantissaScan_digits {text : Bytes} (hdigits : ∀ b ∈ text, isDigit b) (m : Mantissa) (rest : Bytes) :
    mantissaScan 10 m (text ++ rest) =
      mantissaScan 10 ⟨m.value * 10 ^ text.length + digitsValue text,
        if m.pointed then m.places + text.length else m.places, m.pointed, m.anyDigit || !text.isEmpty,
        m.separated⟩ rest := by
  induction text generalizing m with
  | nil => simp [digitsValue]
  | cons b text ih =>
      have hb := hdigits b List.mem_cons_self
      have hrange := isDigit_iff.mp hb
      have hline : b ≠ ('_' : UInt8) := digit_ne hb (by decide)
      have hpoint : b ≠ ('.' : UInt8) := digit_ne hb (by decide)
      have hvalue : digitsValue (b :: text) = (b.toNat - 48) * 10 ^ text.length + digitsValue text := by
        rw [← List.singleton_append, digitsValue_append]
        simp [digitsValue]
      rw [List.cons_append, mantissaScan, if_neg hline, if_neg hpoint, Decimal.digitValue?_of_isDigit hb]
      dsimp only
      rw [if_neg (by omega), ih fun c hc => hdigits c (List.mem_cons_of_mem b hc)]
      congr 1
      rw [Mantissa.mk.injEq, hvalue]
      refine ⟨?_, ?_, rfl, by simp, rfl⟩
      · rw [List.length_cons, pow_succ]
        ring
      · cases m.pointed <;> simp [Nat.add_comm, Nat.add_left_comm]

section

variable {whole fraction : Bytes}

/-- A numeral with a point is read to its end. -/
theorem mantissaScan_pointed (hwhole : ∀ b ∈ whole, isDigit b) (hsome : whole ≠ [])
    (hfraction : ∀ b ∈ fraction, isDigit b) :
    mantissaScan 10 ⟨0, 0, false, false, false⟩ (whole ++ 46 :: fraction) =
      (⟨digitsValue (whole ++ fraction), fraction.length, true, true, false⟩, []) := by
  have hline : (46 : UInt8) ≠ ('_' : UInt8) := by decide
  have hpoint : (46 : UInt8) = ('.' : UInt8) := by decide
  have hempty : whole.isEmpty = false := by simpa using hsome
  rw [mantissaScan_digits hwhole, mantissaScan, if_neg hline, if_pos hpoint]
  have hscan := mantissaScan_digits hfraction
    ⟨digitsValue whole, 0, true, true, false⟩ []
  rw [List.append_nil] at hscan
  simpa [hempty, digitsValue_append, mantissaScan] using hscan

theorem lowerByte_of_isDigit {b : UInt8} (hb : isDigit b) : lowerByte b = b := by
  have hrange := isDigit_iff.mp hb
  have hupper : (65 ≤ b && b ≤ 90) = false := by
    rw [Bool.and_eq_false_imp]
    intro hlow
    have hbound : (65 : UInt8).toNat ≤ b.toNat := UInt8.le_iff_toNat_le.mp (of_decide_eq_true hlow)
    have hletter : (65 : UInt8).toNat = 65 := rfl
    omega
  rw [lowerByte, hupper, if_neg (by decide)]

theorem splitSign_sign {b : UInt8} (hb : isDigit b) (negative : Bool) (rest : Bytes) :
    Decimal.splitSign (sign negative ++ b :: rest) = (negative, b :: rest) := by
  cases negative with
  | false => exact Decimal.splitSign_of_isDigit hb rest
  | true => rfl

/-- What starts with a digit is the name of no special value. -/
theorem special?_of_isDigit {b : UInt8} (hb : isDigit b) (negative : Bool) (rest : Bytes) :
    special? (sign negative ++ b :: rest) = none := by
  have hlower : (sign negative ++ b :: rest).map lowerByte = sign negative ++ b :: rest.map lowerByte := by
    have hsign : (sign negative).map lowerByte = sign negative := by cases negative <;> rfl
    rw [List.map_append, List.map_cons, hsign, lowerByte_of_isDigit hb]
  have hother {c : UInt8} {more : Bytes} (hc : isDigit c = false) : b :: rest.map lowerByte ≠ c :: more :=
    fun heq => digit_ne hb hc (List.cons.inj heq).1
  have hinf : b :: rest.map lowerByte ≠ (("inf" : String) : Bytes) := hother (by decide)
  have hinfinity : b :: rest.map lowerByte ≠ (("infinity" : String) : Bytes) := hother (by decide)
  have hnan : sign negative ++ b :: rest.map lowerByte ≠ (("nan" : String) : Bytes) := by
    cases negative with
    | false => exact hother (by decide)
    | true => exact fun heq => absurd (List.cons.inj heq).1 (by decide)
  simp only [special?, hlower, splitSign_sign hb, hinf, hinfinity, hnan, decide_false, Bool.or_self,
    Bool.false_eq_true, if_false]

/-- What starts with a digit and has no letter behind it is no hexadecimal numeral. -/
theorem radix_of_isDigit {b : UInt8} (hb : isDigit b) (negative : Bool) {rest : Bytes}
    (hrest : ∀ c ∈ rest, isDigit c ∨ c = 46) : radix (sign negative ++ b :: rest) = (negative, false, b :: rest) := by
  have hmark : ∀ c ∈ rest, lowerByte c ≠ ('x' : UInt8) := by
    intro c hc
    rcases hrest c hc with hdigit | rfl
    · rw [lowerByte_of_isDigit hdigit]
      exact digit_ne hdigit (by decide)
    · decide
  rw [radix, splitSign_sign hb]
  rcases rest with _ | ⟨mark, _ | ⟨d, more⟩⟩
  · rfl
  · rfl
  · simp [hmark mark List.mem_cons_self]

/-- A numeral with a point has the value of its digits, scaled down by as many places as follow the point. -/
theorem read_pointed (hwhole : ∀ b ∈ whole, isDigit b) (hsome : whole ≠ []) (hfraction : ∀ b ∈ fraction, isDigit b)
    (negative : Bool) :
    read (sign negative ++ (whole ++ 46 :: fraction)) =
      match decimalValue negative (digitsValue (whole ++ fraction)) (-fraction.length) with
      | .infinite _ => .error .range
      | x => .ok x := by
  obtain ⟨b, rest, rfl⟩ := List.exists_cons_of_ne_nil hsome
  have hb := hwhole b List.mem_cons_self
  have hrest : ∀ c ∈ rest ++ 46 :: fraction, isDigit c ∨ c = 46 := by
    intro c hc
    rcases List.mem_append.mp hc with hc | hc
    · exact Or.inl (hwhole c (List.mem_cons_of_mem b hc))
    · rcases List.mem_cons.mp hc with rfl | hc
      · exact Or.inr rfl
      · exact Or.inl (hfraction c hc)
  have hscan := mantissaScan_pointed hwhole hsome hfraction
  rw [List.cons_append] at hscan ⊢
  simp only [read, special?_of_isDigit hb, radix_of_isDigit hb negative hrest, Bool.false_eq_true, if_false, hscan,
    Bool.not_true, Bool.or_self, Bool.false_and, Int.zero_sub]
  cases decimalValue negative (digitsValue (b :: rest ++ fraction)) (-fraction.length) <;> rfl

end

end Reading

namespace Fixed

open Reading

theorem pointed_eq {places : Nat} (hplaces : 0 < places) (count : Nat) : pointed places count =
    Decimal.ofNat (count / 10 ^ places) ++ 46 :: Decimal.padded places (count % 10 ^ places) := by
  rw [pointed, if_neg (Nat.ne_of_gt hplaces), List.append_assoc, List.singleton_append, Nat.pow_eq]

/-- What is read from a number with places behind the point. -/
theorem read_render {places : Nat} (hplaces : 0 < places) (negative : Bool) (units : Nat) :
    read (render places (.finite negative units)) =
      match decimalValue negative (scaled places units) (-places) with
      | .infinite _ => .error .range
      | x => .ok x := by
  set count := scaled places units
  set power := 10 ^ places with hpower
  have hpos : 0 < power := by positivity
  have hlength : (Decimal.padded places (count % power)).length = places :=
    Decimal.length_padded hplaces (Nat.mod_lt _ hpos)
  have hvalue : Bytes.digitsValue (Decimal.ofNat (count / power) ++ Decimal.padded places (count % power)) = count := by
    rw [Bytes.digitsValue_append, Decimal.digitsValue_ofNat, Decimal.digitsValue_padded, hlength, ← hpower,
      Nat.div_add_mod']
  have hfraction : ∀ b ∈ Decimal.padded places (count % power), Bytes.isDigit b :=
    fun b => Decimal.isDigit_of_mem_padded
  have hread := read_pointed (fun b => Decimal.isDigit_of_mem_ofNat) (Decimal.ofNat_ne_nil (count / power)) hfraction
    negative
  rw [hvalue, hlength] at hread
  rw [render, pointed_eq hplaces]
  exact hread

/-- A whole number is scaled without rounding. -/
theorem scaled_whole (places n : Nat) : scaled places (n * Binary64.one) = n * 10 ^ places := by
  rw [scaled, Nat.mul_right_comm]
  exact Binary64.roundQuotient_mul _ Binary64.one_pos

/-- Decimals far from the ends of the range are rounded once. -/
theorem decimalValue_eq {places count : Nat} (hplaces : 0 < places) (hfew : places ≤ 330)
    (hcount : count ≤ 2 ^ 1024 * 10 ^ places) (negative : Bool) :
    decimalValue negative count (-places) = Binary64.nearest negative (count * Binary64.one) (10 ^ places) := by
  have hpower : 0 < 10 ^ places := by positivity
  unfold decimalValue
  dsimp only
  split
  next hzero =>
    have hheld : Binary64.Held 0 := .of_lt (by decide)
    have hnearest := Binary64.nearest_held hheld (by decide +kernel) hpower negative
    rw [Nat.zero_mul] at hnearest
    rw [hzero, Nat.zero_mul, hnearest]
  next hsome =>
    have hdigits : (Decimal.ofNat count).length ≤ 310 + places := by
      apply (Decimal.length_ofNat_le (by omega)).mpr
      rw [pow_add]
      exact hcount.trans_lt (Nat.mul_lt_mul_of_pos_right (by decide +kernel) hpower)
    rw [if_neg (by omega), if_neg (by omega), assemble, if_pos (by omega), Int.natAbs_neg, Int.natAbs_natCast]
    rfl

/-- The units that are read from a number with places behind the point: those nearest to the places written. -/
def reread (places units : Nat) : Nat := Binary64.nearestUnits (scaled places units * Binary64.one) (10 ^ places)

section

variable {places units : Nat}

/-- The number that is read is at least as near to the places written as the one that they were written for. -/
theorem dist_reread_le (places : Nat) (h : Binary64.Held units) :
    Nat.dist (reread places units * 10 ^ places) (scaled places units * Binary64.one) ≤
      Nat.dist (units * 10 ^ places) (scaled places units * Binary64.one) :=
  Binary64.dist_nearestUnits_le _ (by positivity) h

/-- The number that is read has the places of the one that was written. -/
theorem scaled_reread (h : Binary64.Held units) : scaled places (reread places units) = scaled places units := by
  have hnear := dist_reread_le places h
  have hwritten := (Binary64.roundQuotient_eq_iff Binary64.one_pos).mp (Eq.refl (scaled places units))
  -- It is rounded to places that are so near; if both numbers are half way to others, these are the even ones.
  apply (Binary64.roundQuotient_eq_iff Binary64.one_pos).mpr
  rw [Nat.dist_comm, Nat.dist_comm (units * 10 ^ places)] at hnear
  simp only [Nat.pow_eq] at hwritten ⊢
  omega

/-- The number that is read is written like the one before. -/
theorem render_reread (h : Binary64.Held units) (negative : Bool) :
    render places (.finite negative (reread places units)) = render places (.finite negative units) := by
  rw [render, render, scaled_reread h]

/-- Numbers that the places hold exactly are read back. -/
theorem reread_of_dvd (h : Binary64.Held units) (hexact : Binary64.one ∣ units * 10 ^ places) : reread places units = units := by
  obtain ⟨count, hcount⟩ := hexact
  have hscaled : scaled places units * Binary64.one = units * 10 ^ places := by
    rw [scaled, Nat.pow_eq, hcount, Nat.mul_comm Binary64.one, Binary64.roundQuotient_mul count Binary64.one_pos]
  rw [reread, hscaled]
  exact Binary64.nearestUnits_mul h (by positivity)

theorem reread_le (h : Binary64.Held units) : reread places units ≤ units + Binary64.one := by
  have hpower : 1 ≤ 10 ^ places := Nat.one_le_pow _ _ (by decide)
  have hnear := dist_reread_le places h
  have hwritten : 2 * Nat.dist (scaled places units * Binary64.one) (units * 10 ^ places) ≤ Binary64.one :=
    Binary64.two_mul_dist_roundQuotient_le _ Binary64.one_pos
  have hsum : reread places units * 10 ^ places ≤ (units + Binary64.one) * 10 ^ places := by
    have hone := Nat.le_mul_of_pos_right Binary64.one hpower
    rw [Nat.add_mul]
    simp only [Nat.dist] at hnear hwritten
    omega
  exact Nat.le_of_mul_le_mul_right hsum hpower

/-- What is read stays finite: large numbers are whole, and small ones are far from the bound. -/
theorem reread_lt (places : Nat) (h : Binary64.Held units) (hbound : units < Binary64.unitBound) :
    reread places units < Binary64.unitBound := by
  rcases h.whole_or_small with hwhole | hsmall
  · rwa [reread_of_dvd h (hwhole.mul_right _)]
  · have hfar : 2 ^ 52 * Binary64.one + Binary64.one ≤ Binary64.unitBound := by decide +kernel
    exact (reread_le h).trans_lt (by omega)

theorem scaled_le (hbound : units < Binary64.unitBound) : scaled places units ≤ 2 ^ 1024 * 10 ^ places := by
  have hquotient : units * 10 ^ places / Binary64.one < 2 ^ 1024 * 10 ^ places := by
    rw [Nat.div_lt_iff_lt_mul Binary64.one_pos, Nat.mul_right_comm, ← Binary64.unitBound_eq]
    exact Nat.mul_lt_mul_of_pos_right hbound (by positivity)
  exact (Binary64.roundQuotient_le _ _).trans hquotient

/-- A finite number is read from what is written for it as one that is written alike. -/
theorem read_render_held (hplaces : 0 < places) (hfew : places ≤ 330) (h : Binary64.Held units)
    (hbound : units < Binary64.unitBound) (negative : Bool) :
    read (render places (.finite negative units)) = .ok (.finite negative (reread places units)) := by
  have hunits := reread_lt places h hbound
  rw [read_render hplaces, decimalValue_eq hplaces hfew (scaled_le hbound), Binary64.nearest_eq]
  rw [← reread, if_pos hunits]

end

end Fixed

end MobilitySweep
