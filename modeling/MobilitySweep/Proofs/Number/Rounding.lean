import Mathlib
import MobilitySweep.Number.Binary64

/-! # Rounding to nearest

A quotient is rounded to the nearest whole number, and to the even one of two that are as near. Numbers of 53
significant bits are spaced so that rounding to a multiple of the spacing finds the nearest one of them. The finite
numbers are those below a bound, and just what bit patterns stand for. Square roots that are rounded twice still find
the root of a square.
-/

namespace MobilitySweep

namespace Binary64

/-! ## Quotients -/

section

variable {numerator denominator : Nat}

/-- A quotient is rounded to a whole number that is less than one half away, or one half and even. -/
theorem roundQuotient_eq_iff (h : 0 < denominator) {n : Nat} :
    roundQuotient numerator denominator = n ↔
      2 * Nat.dist (n * denominator) numerator < denominator ∨
        2 * Nat.dist (n * denominator) numerator = denominator ∧ n % 2 = 0 := by
  have hsplit := Nat.div_add_mod' numerator denominator
  have hrest := Nat.mod_lt numerator h
  have hnext : (numerator / denominator + 1) * denominator = numerator / denominator * denominator + denominator :=
    Nat.succ_mul _ _
  simp only [roundQuotient, Nat.dist]
  generalize numerator % denominator = rest at *
  generalize numerator / denominator = quotient at *
  rcases Nat.lt_trichotomy n quotient with hless | rfl | hmore
  · have hfar : (n + 1) * denominator ≤ quotient * denominator := Nat.mul_le_mul_right _ hless
    rw [Nat.succ_mul] at hfar
    split <;> omega
  · split <;> omega
  · rcases Nat.lt_or_eq_of_le hmore with hfar | rfl
    · have hfar : (quotient + 2) * denominator ≤ n * denominator := Nat.mul_le_mul_right _ hfar
      rw [Nat.add_mul] at hfar
      split <;> omega
    · rw [Nat.succ_eq_add_one, hnext]
      split <;> omega

/-- Rounding leads no further than one half. -/
theorem two_mul_dist_roundQuotient_le (numerator : Nat) (h : 0 < denominator) :
    2 * Nat.dist (roundQuotient numerator denominator * denominator) numerator ≤ denominator := by
  rcases (roundQuotient_eq_iff h).mp rfl with hless | ⟨heq, -⟩
  · exact hless.le
  · exact heq.le

/-- No whole number is nearer to a quotient than the one that it is rounded to. -/
theorem dist_roundQuotient_le (numerator : Nat) (h : 0 < denominator) (n : Nat) :
    Nat.dist (roundQuotient numerator denominator * denominator) numerator ≤ Nat.dist (n * denominator) numerator := by
  have hnear := two_mul_dist_roundQuotient_le numerator h
  by_contra hcloser
  -- A nearer one is less than one half away, so it is the one that was found.
  have hsame : roundQuotient numerator denominator = n := (roundQuotient_eq_iff h).mpr (.inl (by omega))
  rw [hsame] at hcloser
  exact hcloser le_rfl

theorem roundQuotient_mul (n : Nat) (h : 0 < denominator) : roundQuotient (n * denominator) denominator = n := by
  apply (roundQuotient_eq_iff h).mpr
  simp [h]

end

theorem roundQuotient_le (numerator denominator : Nat) :
    roundQuotient numerator denominator ≤ numerator / denominator + 1 := by
  unfold roundQuotient
  dsimp only
  split <;> omega

/-! ## Numbers of 53 significant bits -/

/-- A number of at most 53 significant bits. -/
def Held (n : Nat) : Prop := ∃ mantissa exponent, mantissa < 2 ^ 53 ∧ n = mantissa * 2 ^ exponent

theorem Held.of_lt {n : Nat} (h : n < 2 ^ 53) : Held n := ⟨n, 0, h, by simp⟩

theorem held_two_pow (exponent : Nat) : Held (2 ^ exponent) := ⟨1, exponent, by decide, (one_mul _).symm⟩

theorem Held.mul_two_pow {n : Nat} (h : Held n) (more : Nat) : Held (n * 2 ^ more) := by
  obtain ⟨mantissa, exponent, hmantissa, rfl⟩ := h
  exact ⟨mantissa, exponent + more, hmantissa, by rw [Nat.mul_assoc, ← pow_add]⟩

/-- The power of two behind 53 bits divides every number that reaches it. -/
theorem Held.two_pow_dvd {n : Nat} (h : Held n) {exponent : Nat} (hlarge : 2 ^ (52 + exponent) ≤ n) : 2 ^ exponent ∣ n := by
  obtain ⟨mantissa, more, hmantissa, rfl⟩ := h
  have hbits : 2 ^ (52 + exponent) < 2 ^ (53 + more) := by
    rw [pow_add 2 53 more]
    exact hlarge.trans_lt (Nat.mul_lt_mul_of_pos_right hmantissa (Nat.two_pow_pos more))
  have hexponent := (Nat.pow_lt_pow_iff_right (by decide)).mp hbits
  exact (pow_dvd_pow 2 (by omega)).mul_left mantissa

theorem spacing_of_lt {n : Nat} (h : n < 2 ^ 53) : spacing n = 1 := if_pos h

theorem spacing_of_le {n : Nat} (h : 2 ^ 53 ≤ n) : spacing n = 2 ^ (Nat.log2 n - 52) := if_neg (Nat.not_lt.mpr h)

theorem spacing_pos (units : Nat) : 0 < spacing units := by
  unfold spacing
  split
  · exact Nat.one_pos
  · exact Nat.two_pow_pos _

/-- Beyond 53 bits the spacing leaves just 53 of them. -/
theorem log2_spacing {n : Nat} (h : 2 ^ 53 ≤ n) : 53 ≤ Nat.log2 n ∧ 2 ^ Nat.log2 n ≤ n ∧ n < 2 ^ 53 * spacing n := by
  have hlog : 53 ≤ Nat.log2 n := (Nat.le_log2 (by omega)).mpr h
  refine ⟨hlog, Nat.log2_self_le (by omega), ?_⟩
  have hexponent : 53 + (Nat.log2 n - 52) = Nat.log2 n + 1 := by omega
  rw [spacing_of_le h, ← pow_add, hexponent]
  exact Nat.lt_log2_self

/-- The units of the number nearest to a quotient. -/
def nearestUnits (numerator denominator : Nat) : Nat :=
  roundQuotient numerator (denominator * spacing (numerator / denominator)) * spacing (numerator / denominator)

theorem nearest_eq (negative : Bool) (numerator denominator : Nat) : nearest negative numerator denominator =
    if nearestUnits numerator denominator < unitBound then .finite negative (nearestUnits numerator denominator)
    else .infinite negative := rfl

section

variable {numerator denominator : Nat}

/-- The number nearest to a quotient has 53 significant bits. -/
theorem nearestUnits_held (numerator denominator : Nat) : Held (nearestUnits numerator denominator) := by
  set quotient := numerator / denominator with hquotient
  set count := roundQuotient numerator (denominator * spacing quotient) with hcount
  have hunits : nearestUnits numerator denominator = count * spacing quotient := rfl
  have hcount : count ≤ quotient / spacing quotient + 1 := by
    rw [hquotient, Nat.div_div_eq_div_mul]
    exact roundQuotient_le _ _
  obtain ⟨exponent, hspacing, hsmall⟩ :
      ∃ exponent, spacing quotient = 2 ^ exponent ∧ quotient / spacing quotient < 2 ^ 53 := by
    rcases Nat.lt_or_ge quotient (2 ^ 53) with hsmall | hlarge
    · refine ⟨0, spacing_of_lt hsmall, ?_⟩
      rwa [spacing_of_lt hsmall, Nat.div_one]
    · refine ⟨_, spacing_of_le hlarge, ?_⟩
      rw [Nat.div_lt_iff_lt_mul (spacing_pos quotient)]
      exact (log2_spacing hlarge).2.2
  rw [hunits, hspacing]
  -- The count may have been rounded up to the next power of two.
  rcases Nat.lt_or_eq_of_le (hcount.trans hsmall) with hlt | heq
  · exact (Held.of_lt hlt).mul_two_pow exponent
  · rw [heq]
    exact (held_two_pow 53).mul_two_pow exponent

/-- No number of 53 significant bits is nearer to a quotient than the one that it is rounded to. -/
theorem dist_nearestUnits_le (numerator : Nat) (h : 0 < denominator) {units : Nat} (hunits : Held units) :
    Nat.dist (nearestUnits numerator denominator * denominator) numerator ≤ Nat.dist (units * denominator) numerator := by
  set quotient := numerator / denominator with hquotient
  have hgap := spacing_pos quotient
  have hassoc (count : Nat) : count * (denominator * spacing quotient) = count * spacing quotient * denominator := by ring
  have hmultiple (count : Nat) : Nat.dist (nearestUnits numerator denominator * denominator) numerator ≤
      Nat.dist (count * spacing quotient * denominator) numerator := by
    have hcount := dist_roundQuotient_le numerator (Nat.mul_pos h hgap) count
    rwa [hassoc, hassoc] at hcount
  rcases Nat.lt_or_ge quotient (2 ^ 53) with hsmall | hlarge
  · have hcount := hmultiple units
    rwa [spacing_of_lt hsmall, Nat.mul_one] at hcount
  · obtain ⟨hlog, hpower, -⟩ := log2_spacing hlarge
    have hbits : 52 + (Nat.log2 quotient - 52) = Nat.log2 quotient := by omega
    have hspacing := spacing_of_le hlarge
    rcases Nat.lt_or_ge units (2 ^ Nat.log2 quotient) with hbelow | habove
    · -- The power of two in between is a multiple of the spacing, and it is nearer.
      have hcount := hmultiple (2 ^ 52)
      rw [hspacing, ← pow_add, hbits] at hcount
      have hreach : 2 ^ Nat.log2 quotient * denominator ≤ numerator := (Nat.le_div_iff_mul_le h).mp hpower
      have hless : units * denominator ≤ 2 ^ Nat.log2 quotient * denominator := Nat.mul_le_mul_right _ hbelow.le
      simp only [Nat.dist] at hcount ⊢
      omega
    · obtain ⟨count, hcount⟩ : spacing quotient ∣ units := by
        rw [hspacing]
        apply hunits.two_pow_dvd
        rwa [hbits]
      rw [hcount, Nat.mul_comm (spacing quotient)]
      exact hmultiple count

/-- A fraction that comes to a number of 53 significant bits is rounded to that number. -/
theorem nearestUnits_mul {units : Nat} (hunits : Held units) (h : 0 < denominator) :
    nearestUnits (units * denominator) denominator = units := by
  have hnear := dist_nearestUnits_le (units * denominator) h hunits
  rw [Nat.dist_self, Nat.le_zero] at hnear
  exact Nat.eq_of_mul_eq_mul_right h (Nat.eq_of_dist_eq_zero hnear)

theorem nearest_held {units : Nat} (hunits : Held units) (hbound : units < unitBound) (h : 0 < denominator)
    (negative : Bool) : nearest negative (units * denominator) denominator = .finite negative units := by
  rw [nearest_eq, nearestUnits_mul hunits h, if_pos hbound]

end

/-! ## Whole numbers -/

theorem one_eq : one = 2 ^ 1074 := by rw [one, Nat.pow_eq]

theorem one_pos : 0 < one := by
  rw [one_eq]
  exact Nat.two_pow_pos 1074

theorem Held.mul_one {n : Nat} (h : Held n) : Held (n * one) := by
  rw [one_eq]
  exact h.mul_two_pow 1074

theorem unitBound_eq : unitBound = 2 ^ 1024 * one := by
  rw [one_eq, ← pow_add, unitBound, Nat.pow_eq]

theorem mul_one_lt {n : Nat} (h : n < 2 ^ 1024) : n * one < unitBound := by
  rw [unitBound_eq]
  exact Nat.mul_lt_mul_of_pos_right h one_pos

/-- Numbers from two to the power 52 on are whole. -/
theorem Held.whole_or_small {units : Nat} (h : Held units) : one ∣ units ∨ units < 2 ^ 52 * one := by
  rcases Nat.lt_or_ge units (2 ^ 52 * one) with hsmall | hlarge
  · exact .inr hsmall
  · left
    rw [one_eq, ← pow_add] at hlarge
    rw [one_eq]
    exact h.two_pow_dvd hlarge

/-! ## Finite numbers -/

/-- What 64 bits stand for whose exponent field is below the largest one. -/
def IsFinite (x : Binary64) : Prop :=
  ∃ bits : UInt64, bits.toNat / 2 ^ 52 % 2 ^ 11 ≠ 0x7FF ∧ ofBits bits.toNat = x

/-- The units of the finite number with an exponent field and a fraction. -/
def fieldUnits (exponent fraction : Nat) : Nat :=
  if exponent = 0 then fraction else (2 ^ 52 + fraction) * 2 ^ (exponent - 1)

section

variable {exponent fraction units : Nat}

/-- Three fields make a finite number. -/
theorem ofBits_fields (negative : Bool) (hexponent : exponent < 0x7FF) (hfraction : fraction < 2 ^ 52) :
    ofBits (negative.toNat * 2 ^ 63 + exponent * 2 ^ 52 + fraction) = .finite negative (fieldUnits exponent fraction) := by
  have hsign : (negative.toNat * 2 ^ 63 + exponent * 2 ^ 52 + fraction) / 2 ^ 63 % 2 = negative.toNat := by
    cases negative <;> simp only [Bool.toNat_false, Bool.toNat_true] <;> omega
  have hmiddle : (negative.toNat * 2 ^ 63 + exponent * 2 ^ 52 + fraction) / 2 ^ 52 % 2 ^ 11 = exponent := by omega
  have hrest : (negative.toNat * 2 ^ 63 + exponent * 2 ^ 52 + fraction) % 2 ^ 52 = fraction := by omega
  have hnegative : (negative.toNat == 1) = negative := by cases negative <;> rfl
  simp only [ofBits, Nat.pow_eq, hsign, hmiddle, hrest, hnegative, if_neg hexponent.ne]
  rw [fieldUnits, apply_ite (finite negative)]

theorem fieldUnits_held (hfraction : fraction < 2 ^ 52) : Held (fieldUnits exponent fraction) := by
  have hmantissa : 2 ^ 52 + fraction < 2 ^ 53 := by omega
  unfold fieldUnits
  split
  · apply Held.of_lt
    omega
  · exact (Held.of_lt hmantissa).mul_two_pow _

theorem fieldUnits_lt (hexponent : exponent < 0x7FF) (hfraction : fraction < 2 ^ 52) :
    fieldUnits exponent fraction < unitBound := by
  have hmantissa : 2 ^ 52 + fraction < 2 ^ 53 := by omega
  have hbound : unitBound = 2 ^ 53 * 2 ^ 2045 := by decide +kernel
  rw [hbound]
  unfold fieldUnits
  split
  · have hone : 1 ≤ 2 ^ 2045 := Nat.one_le_two_pow
    omega
  · exact Nat.mul_lt_mul_of_lt_of_le hmantissa (Nat.pow_le_pow_right (by decide) (by omega)) (by positivity)

/-- Every number of 53 significant bits below the bound has its fields. -/
theorem exists_fieldUnits (hheld : Held units) (hbound : units < unitBound) :
    ∃ exponent fraction, exponent < 0x7FF ∧ fraction < 2 ^ 52 ∧ fieldUnits exponent fraction = units := by
  rcases Nat.lt_or_ge units (2 ^ 52) with hsmall | hlarge
  · exact ⟨0, units, by decide, hsmall, rfl⟩
  · have hsome : units ≠ 0 := by omega
    obtain ⟨shift, hshift⟩ : ∃ shift, Nat.log2 units = 52 + shift :=
      Nat.exists_eq_add_of_le ((Nat.le_log2 hsome).mpr hlarge)
    have hlast : 52 + shift < 2098 := by
      rw [← hshift, Nat.log2_lt hsome]
      exact hbound
    have hlow : 2 ^ (52 + shift) ≤ units := hshift ▸ Nat.log2_self_le hsome
    have hhigh : units < 2 ^ (52 + shift + 1) := hshift ▸ Nat.lt_log2_self
    obtain ⟨mantissa, rfl⟩ := hheld.two_pow_dvd hlow
    have hleading : 2 ^ 52 ≤ mantissa := by
      apply Nat.le_of_mul_le_mul_left _ (Nat.two_pow_pos shift)
      rwa [← pow_add, Nat.add_comm]
    have hfits : mantissa < 2 ^ 53 := by
      have hbits : 52 + shift + 1 = shift + 53 := by omega
      rw [hbits, pow_add] at hhigh
      exact Nat.lt_of_mul_lt_mul_left hhigh
    -- The leading bit is left out of the fraction, and the exponent field counts from one.
    refine ⟨shift + 1, mantissa - 2 ^ 52, by omega, by omega, ?_⟩
    rw [fieldUnits, if_neg (by omega), Nat.add_sub_cancel' hleading, Nat.add_sub_cancel, Nat.mul_comm]

end

theorem isFinite_iff_fields {x : Binary64} : IsFinite x ↔ ∃ negative exponent fraction,
    exponent < 0x7FF ∧ fraction < 2 ^ 52 ∧ x = .finite negative (fieldUnits exponent fraction) := by
  constructor
  · rintro ⟨bits, hfinite, rfl⟩
    have hbound := bits.toNat_lt
    obtain ⟨negative, hnegative⟩ : ∃ negative : Bool, bits.toNat / 2 ^ 63 = negative.toNat := by
      rcases Nat.lt_or_ge (bits.toNat / 2 ^ 63) 1 with hzero | hone
      · exact ⟨false, by simp only [Bool.toNat_false]; omega⟩
      · exact ⟨true, by simp only [Bool.toNat_true]; omega⟩
    refine ⟨negative, bits.toNat / 2 ^ 52 % 2 ^ 11, bits.toNat % 2 ^ 52, by omega, by omega, ?_⟩
    rw [← ofBits_fields negative (by omega) (by omega)]
    congr 1
    omega
  · rintro ⟨negative, exponent, fraction, hexponent, hfraction, rfl⟩
    have hbits : negative.toNat * 2 ^ 63 + exponent * 2 ^ 52 + fraction < 2 ^ 64 := by
      have hsign := negative.toNat_le
      omega
    refine ⟨UInt64.ofNat (negative.toNat * 2 ^ 63 + exponent * 2 ^ 52 + fraction), ?_, ?_⟩
    · rw [UInt64.toNat_ofNat_of_lt' hbits]
      omega
    · rw [UInt64.toNat_ofNat_of_lt' hbits, ofBits_fields negative hexponent hfraction]

/-- The finite numbers are those of 53 significant bits below the bound. -/
theorem isFinite_iff {x : Binary64} :
    IsFinite x ↔ ∃ negative units, Held units ∧ units < unitBound ∧ x = .finite negative units := by
  rw [isFinite_iff_fields]
  constructor
  · rintro ⟨negative, exponent, fraction, hexponent, hfraction, rfl⟩
    exact ⟨negative, _, fieldUnits_held hfraction, fieldUnits_lt hexponent hfraction, rfl⟩
  · rintro ⟨negative, units, hheld, hbound, rfl⟩
    obtain ⟨exponent, fraction, hexponent, hfraction, rfl⟩ := exists_fieldUnits hheld hbound
    exact ⟨negative, exponent, fraction, hexponent, hfraction, rfl⟩

end Binary64

namespace Root

open Binary64

/-- A whole number is rounded like any quotient. -/
theorem rounded_eq (n : Nat) : rounded n = nearestUnits n 1 := by
  rw [rounded, nearestUnits, Nat.div_one, Nat.one_mul]

theorem rounded_held (n : Nat) : Held (rounded n) := by
  rw [rounded_eq]
  exact nearestUnits_held n 1

theorem rounded_of_held {n : Nat} (h : Held n) : rounded n = n := by
  have hsame := nearestUnits_mul h Nat.one_pos
  rwa [Nat.mul_one, ← rounded_eq] at hsame

/-- Rounding does not lead beyond a number of 53 significant bits. -/
theorem rounded_le_of_held {n bound : Nat} (hbound : Held bound) (h : n ≤ bound) : rounded n ≤ bound := by
  have hnear := dist_nearestUnits_le n Nat.one_pos hbound
  rw [← rounded_eq] at hnear
  simp only [Nat.dist] at hnear
  omega

theorem le_rounded_of_held {n bound : Nat} (hbound : Held bound) (h : bound ≤ n) : bound ≤ rounded n := by
  have hnear := dist_nearestUnits_le n Nat.one_pos hbound
  rw [← rounded_eq] at hnear
  simp only [Nat.dist] at hnear
  omega

/-- Rounding leads no further than half of the spacing. -/
theorem two_mul_dist_rounded_le (n : Nat) : 2 * Nat.dist (rounded n) n ≤ spacing n :=
  two_mul_dist_roundQuotient_le n (spacing_pos n)

/-! ## Square roots

The root of a rounded number is held to 53 bits by rounding it to the nearest place. A square is moved so little when
it is rounded that its root is rounded back to the whole number that was squared.
-/

/-- Digit by digit the integer root is found, given enough digits. -/
theorem digits_eq_sqrt {count n : Nat} (h : n < 4 ^ count) : digits count n = Nat.sqrt n := by
  induction count generalizing n with
  | zero =>
      obtain rfl : n = 0 := by simpa using h
      simp [digits]
  | succ count ih =>
      have hquarter : n / 4 < 4 ^ count := by
        rw [pow_succ] at h
        omega
      have hlow := Nat.sqrt_le (n / 4)
      have hhigh := Nat.succ_le_succ_sqrt (n / 4)
      rw [digits, ih hquarter]
      generalize Nat.sqrt (n / 4) = root at *
      -- One more digit doubles the root of the quarter, and adds one if its square still fits.
      have hdouble : 2 * root * (2 * root) = 4 * (root * root) := by ring
      have hnext : (2 * root + 1 + 1) * (2 * root + 1 + 1) = 4 * ((root + 1) * (root + 1)) := by ring
      apply Nat.eq_sqrt.mpr
      split
      next hfits => omega
      next hfails => omega

theorem floor_eq_sqrt (n : Nat) : floor n = Nat.sqrt n := by
  apply digits_eq_sqrt
  have hpower : (4 : Nat) ^ (Nat.log2 n / 2 + 1) = 2 ^ (2 * (Nat.log2 n / 2 + 1)) := pow_mul 2 2 _ ▸ rfl
  rw [hpower]
  exact Nat.lt_log2_self.trans_le (Nat.pow_le_pow_right (by decide) (by omega))

/-- A count of places is reached by the rounded root if the root lies beyond the half before it. -/
theorem le_nearestScaled_iff {n count : Nat} (h : 0 < count) :
    count ≤ nearestScaled n ↔ count * count < n * (2 ^ places n * 2 ^ places n) + count := by
  rw [← Nat.mul_pow]
  have hlow := Nat.sqrt_le (n * 4 ^ places n)
  have hhigh := Nat.succ_le_succ_sqrt (n * 4 ^ places n)
  simp only [nearestScaled, floor_eq_sqrt, Nat.pow_eq]
  generalize n * 4 ^ places n = scaled at *
  generalize Nat.sqrt scaled = root at *
  have hnext : (root + 1) * (root + 1) = root * root + 2 * root + 1 := by ring
  -- Products of successive numbers grow with them.
  rcases Nat.lt_or_ge root count with hless | hmore
  · obtain ⟨rest, rfl⟩ := Nat.exists_eq_add_of_lt hless
    have hsquare : (root + rest + 1) * (root + rest + 1) =
        root * root + 2 * root + 1 + 2 * (root * rest) + rest * rest + 2 * rest := by ring
    rcases Nat.eq_zero_or_pos rest with rfl | hrest
    · split <;> omega
    · have hgrows := Nat.le_mul_of_pos_right root hrest
      split <;> omega
  · have hsquare : count * count ≤ root * root := Nat.mul_le_mul hmore hmore
    split <;> omega

/-- The root of a number that is near enough to a square is the whole number that was squared. -/
theorem nearestScaled_of_near {n root : Nat} (hnear : Nat.dist n (root * root) * 2 ^ places n < root) :
    nearestScaled n = root * 2 ^ places n := by
  have hpower := Nat.two_pow_pos (places n)
  have hroot : 0 < root * 2 ^ places n := Nat.mul_pos (by omega) hpower
  have hreached := le_nearestScaled_iff (n := n) hroot
  have hpassed := le_nearestScaled_iff (n := n) (show 0 < root * 2 ^ places n + 1 by omega)
  generalize 2 ^ places n = power at *
  have hsquare : root * power * (root * power) = root * root * (power * power) := by ring
  have hnext : (root * power + 1) * (root * power + 1) = root * root * (power * power) + 2 * (root * power) + 1 := by ring
  -- The number is off by less than the root, on either side.
  have hoff : Nat.dist n (root * root) * (power * power) < root * power := by
    rw [← Nat.mul_assoc]
    exact Nat.mul_lt_mul_of_pos_right hnear hpower
  have hbelow : root * root * (power * power) ≤ n * (power * power) + Nat.dist n (root * root) * (power * power) := by
    rw [← Nat.add_mul]
    apply Nat.mul_le_mul_right
    simp only [Nat.dist]
    omega
  have habove : n * (power * power) ≤ root * root * (power * power) + Nat.dist n (root * root) * (power * power) := by
    rw [← Nat.add_mul]
    apply Nat.mul_le_mul_right
    simp only [Nat.dist]
    omega
  omega

/-- The root of a square is exact, though squares beyond 53 bits are rounded first. -/
theorem ofRounded_sq {root : Nat} (hpos : 0 < root) (hbound : root * root < 2 ^ 104) : ofRounded (root * root) = root := by
  set n := root * root with hn
  set bits := Nat.log2 n / 2 with hbits
  have hsome : n ≠ 0 := (Nat.mul_pos hpos hpos).ne'
  have hpower : 2 ^ bits * 2 ^ bits ≤ rounded n := by
    rw [← pow_add]
    apply le_rounded_of_held (held_two_pow _)
    exact (Nat.pow_le_pow_right (by decide) (by omega)).trans (Nat.log2_self_le hsome)
  have hplaces : places (rounded n) ≤ 52 - bits := by
    have hroot : 2 ^ bits ≤ floor (rounded n) := by
      rw [floor_eq_sqrt]
      exact Nat.le_sqrt.mpr hpower
    have hfloor : floor (rounded n) ≠ 0 := by
      have := Nat.two_pow_pos bits
      omega
    have hlog := (Nat.le_log2 hfloor).mpr hroot
    unfold places
    omega
  -- Half a spacing, taken to the places that the root is held to, is less than the root itself.
  have hnear : Nat.dist (rounded n) n * 2 ^ places (rounded n) < root := by
    rcases Nat.lt_or_ge n (2 ^ 53) with hsmall | hlarge
    · rwa [rounded_of_held (.of_lt hsmall), Nat.dist_self, Nat.zero_mul]
    · have hlog : Nat.log2 n < 104 := (Nat.log2_lt hsome).mpr hbound
      have hhalf := two_mul_dist_rounded_le n
      have hmoved : 2 * Nat.dist (rounded n) n * 2 ^ places (rounded n) ≤ 2 ^ (Nat.log2 n - bits) := by
        calc 2 * Nat.dist (rounded n) n * 2 ^ places (rounded n)
            ≤ 2 ^ (Nat.log2 n - 52) * 2 ^ (52 - bits) :=
              Nat.mul_le_mul (spacing_of_le hlarge ▸ hhalf) (Nat.pow_le_pow_right (by decide) hplaces)
          _ = 2 ^ (Nat.log2 n - bits) := by
              have := (log2_spacing hlarge).1
              rw [← pow_add]
              congr 1
              omega
      have hroot : 2 ^ (Nat.log2 n - bits) < 2 * root := by
        apply Nat.mul_self_lt_mul_self_iff.mp
        calc 2 ^ (Nat.log2 n - bits) * 2 ^ (Nat.log2 n - bits)
            ≤ 2 ^ (Nat.log2 n + 1) := by
              rw [← pow_add]
              exact Nat.pow_le_pow_right (by decide) (by omega)
          _ ≤ 2 * n := by
              rw [pow_succ, Nat.mul_comm]
              exact Nat.mul_le_mul_left 2 (Nat.log2_self_le hsome)
          _ < 2 * root * (2 * root) := by
              have hfour : 2 * root * (2 * root) = 4 * n := by
                rw [hn]
                ring
              omega
      rw [Nat.mul_assoc] at hmoved
      omega
  rw [ofRounded, nearestScaled_of_near hnear, Nat.pow_eq, Nat.mul_div_cancel _ (Nat.two_pow_pos _)]

/-- The largest number whose square is below two to the power 63. -/
def largestRoot : Nat := 3037000499

/-- The root of a number of 63 bits is a root whose square takes no more: it is far enough below the next whole
number. -/
theorem ofRounded_le {n : Nat} (h : n < 2 ^ 63) : ofRounded n ≤ largestRoot := by
  have hrounded : rounded n ≤ 2 ^ 63 := rounded_le_of_held (held_two_pow 63) h.le
  have hplaces : 21 ≤ places (rounded n) := by
    have hroot : floor (rounded n) < 2 ^ 32 := by
      rw [floor_eq_sqrt, Nat.sqrt_lt]
      omega
    have hlog : Nat.log2 (floor (rounded n)) < 32 := by
      rcases Nat.eq_zero_or_pos (floor (rounded n)) with hzero | hpos
      · rw [hzero]
        decide
      · exact (Nat.log2_lt hpos.ne').mpr hroot
    unfold places
    omega
  have hpower : 2 ^ 21 ≤ 2 ^ places (rounded n) := Nat.pow_le_pow_right (by decide) hplaces
  have hsome : 0 < (largestRoot + 1) * 2 ^ places (rounded n) := by positivity
  have hreached := le_nearestScaled_iff (n := rounded n) hsome
  rw [ofRounded, Nat.pow_eq, ← Nat.lt_succ_iff, Nat.div_lt_iff_lt_mul (by positivity), ← Nat.not_le, Nat.succ_eq_add_one,
    hreached, Nat.not_lt]
  generalize 2 ^ places (rounded n) = power at *
  -- The next square is so far beyond two to the power 63 that half a place does not make up for it.
  have hscaled : rounded n * (power * power) ≤ 2 ^ 63 * (power * power) := Nat.mul_le_mul_right _ hrounded
  have hgap : power * 2 ^ 21 ≤ power * power := Nat.mul_le_mul_left power hpower
  have hsquare : (largestRoot + 1) * power * ((largestRoot + 1) * power) =
      (largestRoot + 1) * (largestRoot + 1) * (power * power) := by ring
  rw [hsquare]
  unfold largestRoot
  omega

end Root

end MobilitySweep
