import Mathlib
import MobilitySweep.Proofs.Number.Numerals
import MobilitySweep.Time.Duration

/-! # Spans of time read back

A span is written as a sum of terms, each a number with a unit. Every term is read as the nanoseconds that it was
written for: its fraction has at most nine digits, so that no rounding takes place. A span is therefore read back from
its text.
-/

namespace MobilitySweep

namespace Duration

/-! ## Numbers -/

/-- Text that no digit starts. -/
def Ends (text : Bytes) : Prop := ∀ b ∈ text.head?, Bytes.isDigit b = false

theorem leadingDigits_of_ends {text : Bytes} (h : Ends text) (x : Nat) : leadingDigits x text = some (x, text) := by
  cases text with
  | nil => rfl
  | cons b rest => rw [leadingDigits, h b rfl, if_neg (by simp)]

/-- Digits are read up to their end as long as their value is within the limit. -/
theorem leadingDigits_append {text rest : Bytes} (hdigits : ∀ b ∈ text, Bytes.isDigit b) (hrest : Ends rest) (front : Bytes)
    (hbound : Bytes.digitsValue (front ++ text) ≤ limit) :
    leadingDigits (Bytes.digitsValue front) (text ++ rest) = some (Bytes.digitsValue (front ++ text), rest) := by
  induction text generalizing front with
  | nil => rw [List.nil_append, List.append_nil, leadingDigits_of_ends hrest]
  | cons b text ih =>
      rw [List.forall_mem_cons] at hdigits
      have hsplit : front ++ b :: text = front ++ [b] ++ text := by simp
      rw [hsplit] at hbound ⊢
      have hnext := ih hdigits.2 (front ++ [b]) hbound
      have hgrows : Bytes.digitsValue (front ++ [b]) ≤ Bytes.digitsValue (front ++ [b] ++ text) := by
        rw [Bytes.digitsValue_append _ text]
        exact Nat.le_add_right_of_le (Nat.le_mul_of_pos_right _ (by positivity))
      rw [Bytes.digitsValue_concat] at hnext hgrows
      rw [List.cons_append, leadingDigits, if_pos hdigits.1]
      dsimp only
      rw [if_neg (by omega), hnext]

/-- A number is read up to its end. -/
theorem leadingDigits_ofNat {n : Nat} {rest : Bytes} (hrest : Ends rest) (hn : n ≤ limit) :
    leadingDigits 0 (Decimal.ofNat n ++ rest) = some (n, rest) ∧ rest.length < (Decimal.ofNat n ++ rest).length := by
  have hread := leadingDigits_append (fun b (hb : b ∈ Decimal.ofNat n) => Decimal.isDigit_of_mem_ofNat hb) hrest []
  have hsome := List.length_pos_iff.mpr (Decimal.ofNat_ne_nil n)
  rw [List.nil_append, Decimal.digitsValue_ofNat] at hread
  exact ⟨hread hn, by rw [List.length_append]; omega⟩

theorem leadingFraction_of_ends {text : Bytes} (h : Ends text) (x scale : Nat) :
    leadingFraction x scale false text = (x, scale, text) := by
  cases text with
  | nil => rfl
  | cons b rest => rw [leadingFraction, h b rfl, if_neg (by simp)]

/-- The digits of a short fraction are read with their power of ten. -/
theorem leadingFraction_append {text rest : Bytes} (hdigits : ∀ b ∈ text, Bytes.isDigit b) (hrest : Ends rest)
    {front : Bytes} (hfront : ∀ b ∈ front, Bytes.isDigit b) (hlength : (front ++ text).length ≤ 9) :
    leadingFraction (Bytes.digitsValue front) (10 ^ front.length) false (text ++ rest) =
      (Bytes.digitsValue (front ++ text), 10 ^ (front ++ text).length, rest) := by
  induction text generalizing front with
  | nil => rw [List.nil_append, List.append_nil, leadingFraction_of_ends hrest]
  | cons b text ih =>
      rw [List.forall_mem_cons] at hdigits
      have hsplit : front ++ b :: text = front ++ [b] ++ text := by simp
      have hnow : ∀ c ∈ front ++ [b], Bytes.isDigit c := by simpa [or_imp, forall_and] using ⟨hfront, hdigits.1⟩
      rw [hsplit] at hlength ⊢
      have hnext := ih hdigits.2 hnow hlength
      have hlt : Bytes.digitsValue (front ++ [b]) < 10 ^ 9 :=
        (Decimal.digitsValue_lt hnow).trans_le (Nat.pow_le_pow_right (by decide) (by simp at hlength ⊢; omega))
      rw [Bytes.digitsValue_concat] at hnext hlt
      have hfull : ¬(limit - 1) / 10 < Bytes.digitsValue front := by rw [limit]; omega
      have hover : ¬limit < Bytes.digitsValue front * 10 + (b.toNat - 48) := by rw [limit]; omega
      rw [List.cons_append, leadingFraction, if_pos hdigits.1]
      simp only [hfull, hover, decide_false, Bool.or_false, Bool.false_eq_true, if_false]
      rw [List.length_append, List.length_singleton, pow_succ] at hnext
      exact hnext

/-! ## Fractions -/

/-- Small numbers are held exactly. -/
theorem nearest_small {n denominator : Nat} (h : n < 2 ^ 53) (hdenominator : 0 < denominator) :
    Binary64.nearest false (n * Binary64.one * denominator) denominator = .finite false (n * Binary64.one) := by
  have hbound : n < 2 ^ 1024 := h.trans (Nat.pow_lt_pow_right Nat.one_lt_two (by decide))
  exact Binary64.nearest_held (Binary64.Held.of_lt h).mul_one (Binary64.mul_one_lt hbound) hdenominator false

/-- Nine digits are few enough. -/
theorem small_of_le {n k : Nat} (hk : k ≤ 9) (hn : n ≤ 10 ^ k) : n < 2 ^ 53 := by
  have hpow : 10 ^ k ≤ 10 ^ 9 := Nat.pow_le_pow_right (by decide) hk
  have hlt : 10 ^ 9 < 2 ^ 53 := by norm_num
  omega

/-- A fraction of a unit that comes to whole nanoseconds is read as these. -/
theorem fractionNanos_eq {digits places zeros : Nat} (hlength : places + zeros ≤ 9) (hdigits : digits < 10 ^ places) :
    fractionNanos digits (10 ^ places) (10 ^ (places + zeros)) = digits * 10 ^ zeros := by
  have hratio : Binary64.nearest false (10 ^ (places + zeros) * Binary64.one) (10 ^ places) =
      .finite false (10 ^ zeros * Binary64.one) := by
    have hunit : 10 ^ (places + zeros) * Binary64.one = 10 ^ zeros * Binary64.one * 10 ^ places := by
      rw [pow_add, Nat.mul_comm (10 ^ places), Nat.mul_right_comm]
    rw [hunit, nearest_small (small_of_le (by omega) le_rfl) (by positivity)]
  have hwhole : Binary64.ofInt digits = .finite false (digits * Binary64.one) := by
    have hexact := nearest_small (small_of_le (by omega) hdigits.le) Nat.one_pos
    rw [Nat.mul_one] at hexact
    have hsign : decide ((digits : Int) < 0) = false := decide_eq_false (by omega)
    rw [Binary64.ofInt, hsign, Int.natAbs_natCast, hexact]
  have hproduct : Binary64.nearest false (10 ^ zeros * Binary64.one * (digits * Binary64.one)) Binary64.one =
      .finite false (digits * 10 ^ zeros * Binary64.one) := by
    have hbound : digits * 10 ^ zeros ≤ 10 ^ (places + zeros) := by
      rw [pow_add]
      exact Nat.mul_le_mul_right _ hdigits.le
    have hunits : 10 ^ zeros * Binary64.one * (digits * Binary64.one) =
        digits * 10 ^ zeros * Binary64.one * Binary64.one := by
      rw [← Nat.mul_assoc, Nat.mul_right_comm _ Binary64.one, Nat.mul_comm (10 ^ zeros)]
    rw [hunits, nearest_small (small_of_le hlength hbound) Binary64.one_pos]
  have hmul : (Binary64.finite false (10 ^ zeros * Binary64.one)).mul (.finite false (digits * Binary64.one)) =
      .finite false (digits * 10 ^ zeros * Binary64.one) := hproduct
  rw [fractionNanos, hratio, hwhole, hmul, Binary64.toInt, Nat.mul_div_cancel _ Binary64.one_pos]
  exact Int.toNat_natCast _

/-- Digits are split into those that a fraction is written with and the zeros behind them. -/
theorem exists_trailing (text : Bytes) :
    ∃ zeros, text = (text.reverse.dropWhile (· = 48)).reverse ++ List.replicate zeros 48 := by
  have hzeros : ∀ b ∈ text.reverse.takeWhile (· = 48), b = 48 := fun b hb => by simpa using List.mem_takeWhile_imp hb
  refine ⟨(text.reverse.takeWhile (· = 48)).length, ?_⟩
  have hsplit := congrArg List.reverse (List.takeWhile_append_dropWhile (p := (· = 48)) (l := text.reverse))
  rw [List.reverse_append, List.reverse_reverse, List.eq_replicate_of_mem hzeros, List.reverse_replicate] at hsplit
  simpa using hsplit.symm

/-! ## Terms -/

/-- A unit is named by bytes that are neither digits nor points. -/
structure Names (name : Bytes) (unit : Nat) : Prop where
  read : unit? name = some unit
  plain : ∀ b ∈ name, (b ≠ ('.' : UInt8) && !Bytes.isDigit b) = true

variable {name rest : Bytes} {unit : Nat}

theorem Names.ne_nil (h : Names name unit) : name ≠ [] := by
  rintro rfl
  cases h.read

/-- No digit starts the name of a unit, nor does a point. -/
theorem Names.ends (h : Names name unit) (rest : Bytes) :
    Ends (name ++ rest) ∧ ∃ b more, name ++ rest = b :: more ∧ b ≠ ('.' : UInt8) := by
  obtain ⟨b, more, rfl⟩ := List.exists_cons_of_ne_nil h.ne_nil
  have hb := h.plain b (List.mem_cons_self ..)
  rw [Bool.and_eq_true, decide_eq_true_eq] at hb
  exact ⟨fun c hc => by simpa [Option.some.inj hc] using hb.2, b, more ++ rest, rfl, hb.1⟩

/-- A name ends where the next number starts. -/
theorem Names.split (h : Names name unit) (hrest : ∀ b ∈ rest.head?, Bytes.isDigit b) :
    (name ++ rest).takeWhile (fun b => b ≠ ('.' : UInt8) && !Bytes.isDigit b) = name ∧
      (name ++ rest).dropWhile (fun b => b ≠ ('.' : UInt8) && !Bytes.isDigit b) = rest := by
  rw [List.takeWhile_append_of_pos h.plain, List.dropWhile_append_of_pos h.plain]
  cases rest with
  | nil => simp
  | cons b rest => simp [hrest b rfl]

/-- A whole number of units is read. -/
theorem readTerm_whole {n : Nat} (hname : Names name unit) (hunit : 0 < unit) (hrest : ∀ b ∈ rest.head?, Bytes.isDigit b)
    (hn : n * unit ≤ limit) : readTerm (Decimal.ofNat n ++ (name ++ rest)) = some (n * unit, rest) := by
  obtain ⟨hends, b, more, hhead, hpoint⟩ := hname.ends rest
  obtain ⟨htake, hdrop⟩ := hname.split hrest
  obtain ⟨hdigits, hshorter⟩ := leadingDigits_ofNat (n := n) hends ((Nat.le_mul_of_pos_right n hunit).trans hn)
  have hfew : ¬limit / unit < n := Nat.not_lt.mpr ((Nat.le_div_iff_mul_le hunit).mpr hn)
  have hsmall : ¬limit < n * unit := by omega
  rw [readTerm, hdigits]
  simp only [Option.bind_eq_bind, Option.bind_some, hshorter, decide_true, Bool.not_true, Bool.false_and]
  rw [hhead] at htake hdrop ⊢
  simp only [hpoint, if_false, htake, hdrop, hname.read, Option.bind_some, hfew, if_true, hsmall, Bool.false_eq_true,
    Nat.add_zero]

/-- A number of units with a fraction is read. -/
theorem readTerm_pointed {n places zeros : Nat} {digits : Bytes} (hname : Names name (10 ^ places)) (hplaces : places ≤ 9)
    (hrest : ∀ b ∈ rest.head?, Bytes.isDigit b) (hdigits : ∀ b ∈ digits, Bytes.isDigit b)
    (hlength : digits.length + zeros = places)
    (hn : n * 10 ^ places + Bytes.digitsValue digits * 10 ^ zeros ≤ limit) :
    readTerm (Decimal.ofNat n ++ 46 :: (digits ++ (name ++ rest))) =
      some (n * 10 ^ places + Bytes.digitsValue digits * 10 ^ zeros, rest) := by
  obtain ⟨hends, -⟩ := hname.ends rest
  obtain ⟨htake, hdrop⟩ := hname.split hrest
  have hunit : 0 < 10 ^ places := by positivity
  have hfits : n * 10 ^ places ≤ limit := by omega
  have hpoint : Ends (46 :: (digits ++ (name ++ rest))) := fun b hb => by
    rw [← Option.some.inj hb]
    decide
  obtain ⟨hwhole, hshorter⟩ := leadingDigits_ofNat (n := n) hpoint ((Nat.le_mul_of_pos_right n hunit).trans hfits)
  have hfraction : leadingFraction 0 1 false (digits ++ (name ++ rest)) =
      (Bytes.digitsValue digits, 10 ^ digits.length, name ++ rest) :=
    leadingFraction_append hdigits hends (List.forall_mem_nil _) (by simp; omega)
  have hnanos : (if Bytes.digitsValue digits = 0 then 0
      else fractionNanos (Bytes.digitsValue digits) (10 ^ digits.length) (10 ^ places)) =
      Bytes.digitsValue digits * 10 ^ zeros := by
    split
    next hnone => rw [hnone, Nat.zero_mul]
    next => rw [← hlength, fractionNanos_eq (by omega) (Decimal.digitsValue_lt hdigits)]
  have hfew : ¬limit / 10 ^ places < n := Nat.not_lt.mpr ((Nat.le_div_iff_mul_le hunit).mpr hfits)
  have hsmall : ¬limit < n * 10 ^ places + Bytes.digitsValue digits * 10 ^ zeros := by omega
  have hmark : ((46 : UInt8) = ('.' : UInt8)) = True := eq_true rfl
  rw [readTerm, hwhole]
  simp only [Option.bind_eq_bind, Option.bind_some, hshorter, decide_true, Bool.not_true, Bool.false_and, hmark, if_true,
    hfraction, Bool.false_eq_true, if_false, htake, hdrop, hname.read, hfew, hnanos, hsmall]

/-- A fraction of a unit is read as the nanoseconds that it was written for. -/
theorem readTerm_fraction {places value : Nat} (hname : Names name (10 ^ places)) (hplaces : places ≤ 9)
    (hrest : ∀ b ∈ rest.head?, Bytes.isDigit b) (hvalue : value ≤ limit) :
    readTerm (fraction places value ++ (name ++ rest)) = some (value, rest) := by
  have hsplit : value / 10 ^ places * 10 ^ places + value % 10 ^ places = value := Nat.div_add_mod' _ _
  have hpower : Nat.pow 10 places = 10 ^ places := rfl
  unfold fraction
  dsimp only
  rw [hpower]
  obtain ⟨zeros, hzeros⟩ := exists_trailing (Decimal.padded places (value % 10 ^ places))
  set digits := ((Decimal.padded places (value % 10 ^ places)).reverse.dropWhile (· = 48)).reverse
  have hdigits : ∀ b ∈ digits, Bytes.isDigit b := fun b hb =>
    Decimal.isDigit_of_mem_padded (by rw [hzeros]; exact List.mem_append_left _ hb)
  have hrem : Bytes.digitsValue digits * 10 ^ zeros = value % 10 ^ places := by
    have hvalue := Decimal.digitsValue_padded places (value % 10 ^ places)
    rwa [hzeros, Bytes.digitsValue_append, Bytes.digitsValue_replicate_zero, List.length_replicate, Nat.add_zero] at hvalue
  split
  next hnone =>
    have hwhole : value % 10 ^ places = 0 := by
      rcases Bool.or_eq_true_iff.mp hnone with hplaces | hempty
      · rw [of_decide_eq_true hplaces, pow_zero, Nat.mod_one]
      · rw [← hrem, List.isEmpty_iff.mp hempty]
        exact Nat.zero_mul _
    rw [hwhole, Nat.add_zero] at hsplit
    rw [readTerm_whole hname (by positivity) hrest (by omega), hsplit]
  next hsome =>
    rw [Bool.or_eq_true_iff, not_or, decide_eq_true_eq] at hsome
    have hlength : digits.length + zeros = places := by
      have hpadded := Decimal.length_padded (Nat.pos_of_ne_zero hsome.1) (Nat.mod_lt value (by positivity))
      rwa [hzeros, List.length_append, List.length_replicate] at hpadded
    have hread := readTerm_pointed (n := value / 10 ^ places) hname hplaces hrest hdigits hlength
      (by rw [hrem, hsplit]; exact hvalue)
    rw [hrem, hsplit] at hread
    simpa using hread

/-! ## Spans -/

/-- Text that is read as a sum of nanoseconds. -/
def Sums (text : Bytes) (nanos : Nat) : Prop :=
  ∀ count total, text.length ≤ count → total + nanos ≤ limit → readTerms count total text = some (total + nanos)

theorem sums_nil : Sums [] 0 := fun count _ _ _ => by cases count <;> rfl

theorem Sums.term {text : Bytes} {n more : Nat} (h : Sums rest more) (hread : readTerm text = some (n, rest))
    (hshorter : rest.length < text.length) : Sums text (n + more) := by
  intro count total hcount htotal
  cases text with
  | nil => simp at hshorter
  | cons b text =>
      cases count with
      | zero => simp at hcount
      | succ count =>
          have hsum : (total + n) % (2 * limit) = total + n := Nat.mod_eq_of_lt (by rw [limit] at *; omega)
          have hwithin : ¬limit < total + n := by omega
          rw [readTerms.eq_3 _ _ _ (List.cons_ne_nil b text), hread]
          simp only [Option.bind_eq_bind, Option.bind_some, hsum, hwithin, if_false]
          rw [h count (total + n) (by simp at hcount hshorter ⊢; omega) (by omega), Nat.add_assoc]

/-- A text that starts with a number. -/
def Starts (text : Bytes) : Prop := ∃ n tail, text = Decimal.ofNat n ++ tail ∧ tail ≠ []

theorem Starts.head {text : Bytes} (h : Starts text) : ∃ b more, text = b :: more ∧ Bytes.isDigit b ∧ more ≠ [] := by
  obtain ⟨n, tail, rfl, htail⟩ := h
  obtain ⟨b, more, hmore⟩ := List.exists_cons_of_ne_nil (Decimal.ofNat_ne_nil n)
  refine ⟨b, more ++ tail, by rw [hmore, List.cons_append], ?_, by simp [htail]⟩
  exact Decimal.isDigit_of_mem_ofNat (n := n) (by simp [hmore])

theorem sums_fraction {places value : Nat} (hname : Names name (10 ^ places)) (hplaces : places ≤ 9) (hvalue : value ≤ limit) :
    Sums (fraction places value ++ name) value ∧ Starts (fraction places value ++ name) := by
  have hread : readTerm (fraction places value ++ (name ++ [])) = some (value, []) :=
    readTerm_fraction hname hplaces (by simp) hvalue
  rw [List.append_nil] at hread
  refine ⟨sums_nil.term hread (by simp [List.length_pos_iff.mpr hname.ne_nil]), ?_⟩
  unfold fraction
  dsimp only
  split
  · exact ⟨_, name, rfl, hname.ne_nil⟩
  · exact ⟨_, _, by rw [List.append_assoc, List.append_assoc], by simp⟩

theorem Sums.whole {n more : Nat} (h : Sums rest more) (hstarts : Starts rest) (hname : Names name unit) (hunit : 0 < unit)
    (hn : n * unit ≤ limit) :
    Sums (Decimal.ofNat n ++ (name ++ rest)) (n * unit + more) ∧ Starts (Decimal.ofNat n ++ (name ++ rest)) := by
  obtain ⟨b, tail, hrest, hb, -⟩ := hstarts.head
  have hdigit : ∀ c ∈ rest.head?, Bytes.isDigit c := fun c hc => by
    rw [hrest] at hc
    exact Option.some.inj hc ▸ hb
  have hsome := List.length_pos_iff.mpr (Decimal.ofNat_ne_nil n)
  exact ⟨h.term (readTerm_whole hname hunit hdigit hn) (by simp; omega), _, _, rfl, by simp [hname.ne_nil]⟩

theorem names_units : Names "ns" (10 ^ 0) ∧ Names "µs" (10 ^ 3) ∧ Names "ms" (10 ^ 6) ∧ Names "s" (10 ^ 9) ∧
    Names "m" 60000000000 ∧ Names "h" 3600000000000 := by
  refine ⟨?_, ?_, ?_, ?_, ?_, ?_⟩ <;> exact ⟨by decide, by decide +kernel⟩

/-- The text of a magnitude is read as what it was written for. -/
theorem sums_magnitudeText {u : Nat} (hu : u ≤ limit) : Sums (magnitudeText u) u ∧ Starts (magnitudeText u) := by
  obtain ⟨hnanos, hmicros, hmillis, hseconds, hminutes, hhours⟩ := names_units
  unfold magnitudeText
  split
  next hnone =>
    have htext : ("0s" : Bytes) = fraction 9 0 ++ "s" := by decide
    rw [hnone, htext]
    exact sums_fraction hseconds le_rfl (Nat.zero_le limit)
  next =>
    split
    next => exact sums_fraction hnanos (by decide) hu
    next =>
      split
      next => exact sums_fraction hmicros (by decide) hu
      next =>
        split
        next => exact sums_fraction hmillis (by decide) hu
        next =>
          have hrest : Sums _ (u % 60000000000) ∧ _ := sums_fraction hseconds le_rfl ((Nat.mod_le _ _).trans hu)
          dsimp only
          split
          next hnone =>
            rw [Nat.mod_eq_of_lt ((Nat.div_eq_zero_iff_lt (by decide)).mp hnone)] at hrest ⊢
            exact hrest
          next =>
            split
            next =>
              have hall := hrest.1.whole (n := u / 60000000000) hrest.2 hminutes (by decide) (by omega)
              rw [Nat.div_add_mod'] at hall
              rwa [List.append_assoc]
            next =>
              have hmore := hrest.1.whole (n := u / 60000000000 % 60) hrest.2 hminutes (by decide) (by omega)
              have hall := hmore.1.whole (n := u / 60000000000 / 60) hmore.2 hhours (by decide) (by omega)
              have hsum : u / 60000000000 / 60 * 3600000000000 +
                  (u / 60000000000 % 60 * 60000000000 + u % 60000000000) = u := by omega
              rw [hsum] at hall
              simpa only [List.append_assoc] using hall

/-- A span is read back from its text. -/
theorem read_toText (d : Duration) : read? d.toText = some d := by
  have hlow := d.nanos.le_toInt
  have hhigh := d.nanos.toInt_lt
  obtain ⟨hsums, hstarts⟩ := sums_magnitudeText (u := d.nanos.toInt.natAbs) (by rw [limit]; omega)
  obtain ⟨b, more, htext, hb, hmore⟩ := hstarts.head
  have hsome : magnitudeText d.nanos.toInt.natAbs ≠ "0" ∧ (magnitudeText d.nanos.toInt.natAbs).isEmpty = false := by
    rw [htext]
    exact ⟨fun hzero => hmore (List.cons.inj hzero).2, rfl⟩
  have hread : readTerms (magnitudeText d.nanos.toInt.natAbs).length 0 (magnitudeText d.nanos.toInt.natAbs) =
      some d.nanos.toInt.natAbs := by
    rw [hsums _ 0 le_rfl (by rw [limit]; omega), Nat.zero_add]
  have hsplit : Decimal.splitSign d.toText = (decide (d.nanos.toInt < 0), magnitudeText d.nanos.toInt.natAbs) := by
    unfold toText
    dsimp only
    split
    next hnegative => rw [decide_eq_true hnegative]; rfl
    next hnegative => rw [decide_eq_false hnegative, htext, Decimal.splitSign_of_isDigit hb]
  rw [read?, hsplit]
  simp only [hsome.1, if_false, hsome.2, Bool.false_eq_true, hread, Option.bind_eq_bind, Option.bind_some]
  by_cases hnegative : d.nanos.toInt < 0
  · have hvalue : -(d.nanos.toInt.natAbs : Int) = d.nanos.toInt := by omega
    rw [if_pos (decide_eq_true hnegative), hvalue, Int64.ofInt_toInt]
  · have hvalue : (d.nanos.toInt.natAbs : Int) = d.nanos.toInt := by omega
    rw [if_neg (by simpa using hnegative), if_pos (by rw [limit]; omega), hvalue, Int64.ofInt_toInt]

end Duration

end MobilitySweep
