import MobilitySweep.Proofs.Number.Digits
import MobilitySweep.Time.Instant

/-! # The calendar

The calendar view of a moment is that of no other one, and the stored form of a moment of the years 0 to 9999 is read
back as that moment. Stored forms have fixed widths, so that as texts they are in the order of the moments.
-/

namespace MobilitySweep

namespace Civil

/-- The days of a year. -/
def yearLength (year : Int) : Nat := if isLeap year then 366 else 365

/-- The parts of a date that exists. -/
theorem isValid_iff {c : Civil} : c.isValid = true ↔ 1 ≤ c.month ∧ c.month ≤ 12 ∧ 1 ≤ c.day ∧
    c.day ≤ (monthLengths c.year).getD (c.month - 1) 0 ∧ c.hour < 24 ∧ c.minute < 60 ∧ c.second < 60 ∧
      c.nano < 1000000000 := by
  simp only [isValid, Bool.and_eq_true, decide_eq_true_eq]
  tauto

theorem sum_monthLengths (year : Int) : (monthLengths year).sum = yearLength year := by
  unfold monthLengths yearLength
  cases isLeap year <;> rfl

/-- A day in cycles of 400 years, centuries, leap cycles and single years. Only the last year of a leap cycle has a
366th day, and the last leap cycle of a century has none, unless it ends the cycle. -/
theorem yearOfDay_parts (day : Int) : ∃ (cycle : Int) (century quad single rest : Nat),
    yearOfDay day = (400 * cycle + 100 * century + 4 * quad + single + 1, rest) ∧ century ≤ 3 ∧ quad ≤ 24 ∧ single ≤ 3 ∧
      day = 146097 * cycle + (36524 * century + 1461 * quad + 365 * single + rest : Nat) ∧
      (rest < 365 ∨ rest = 365 ∧ single = 3 ∧ (quad < 24 ∨ century = 3)) := by
  obtain ⟨inCycle, hinCycle⟩ : ∃ inCycle, (day % 146097).toNat = inCycle := ⟨_, rfl⟩
  obtain ⟨century, hcentury⟩ : ∃ century, min 3 (inCycle / 36524) = century := ⟨_, rfl⟩
  obtain ⟨inCentury, hinCentury⟩ : ∃ inCentury, inCycle - century * 36524 = inCentury := ⟨_, rfl⟩
  obtain ⟨quad, hquad⟩ : ∃ quad, inCentury / 1461 = quad := ⟨_, rfl⟩
  obtain ⟨inQuad, hinQuad⟩ : ∃ inQuad, inCentury - quad * 1461 = inQuad := ⟨_, rfl⟩
  obtain ⟨single, hsingle⟩ : ∃ single, min 3 (inQuad / 365) = single := ⟨_, rfl⟩
  refine ⟨day / 146097, century, quad, single, inQuad - single * 365, ?_, ?_, ?_, ?_, ?_, ?_⟩
  · simp only [yearOfDay, hinCycle, hcentury, hinCentury, hquad, hinQuad, hsingle]
  all_goals omega

/-- The year of a day is the one that it lies in. -/
theorem yearOfDay_spec (day : Int) :
    daysBeforeYear (yearOfDay day).1 + (yearOfDay day).2 = day ∧ (yearOfDay day).2 < yearLength (yearOfDay day).1 := by
  obtain ⟨cycle, century, quad, single, rest, hyear, hcentury, hquad, hsingle, hday, hrest⟩ := yearOfDay_parts day
  rw [hyear]
  refine ⟨?_, ?_⟩
  · simp only [daysBeforeYear]
    omega
  · simp only [yearLength, isLeap, Bool.and_eq_true, Bool.or_eq_true, decide_eq_true_eq]
    split <;> omega

/-- The month and day of a day are those that it lies in. -/
theorem monthOfDay_spec (first : Nat) (lengths : List Nat) {day : Nat} (h : day < lengths.sum) :
    ∃ passed rest, ∃ hpassed : passed < lengths.length, monthOfDay first lengths day = (first + passed, rest + 1) ∧
      (lengths.take passed).sum + rest = day ∧ rest < lengths[passed] := by
  induction lengths generalizing first day with
  | nil => simp at h
  | cons length lengths ih =>
      unfold monthOfDay
      split
      next hlt => exact ⟨0, day, by simp, rfl, by simp, by simpa using hlt⟩
      next hge =>
        rw [List.sum_cons] at h
        have hless : day - length < lengths.sum := by omega
        obtain ⟨passed, rest, hpassed, hmonth, hday, hrest⟩ := ih (first + 1) hless
        refine ⟨passed + 1, rest, by simpa using hpassed, ?_, ?_, by simpa using hrest⟩
        · rw [hmonth, Nat.add_assoc, Nat.add_comm 1 passed]
        · rw [List.take_succ_cons, List.sum_cons]
          omega

/-- The date of a day is an existing one, and it is that day's. -/
theorem date_spec {day year : Int} {passed month dayOfMonth : Nat} (hyear : yearOfDay day = (year, passed))
    (hmonth : monthOfDay 1 (monthLengths year) passed = (month, dayOfMonth)) :
    1 ≤ month ∧ month ≤ 12 ∧ 1 ≤ dayOfMonth ∧ dayOfMonth ≤ (monthLengths year).getD (month - 1) 0 ∧
      daysBeforeYear year + daysBeforeMonth year month + (dayOfMonth - 1 : Nat) = day := by
  obtain ⟨hday, hinside⟩ := yearOfDay_spec day
  rw [hyear] at hday hinside
  dsimp only at hday hinside
  rw [← sum_monthLengths] at hinside
  obtain ⟨before, rest, hbefore, hdate, hpassed, hrest⟩ := monthOfDay_spec 1 _ hinside
  obtain ⟨rfl, rfl⟩ := Prod.mk.inj (hmonth.symm.trans hdate)
  have htwelve : (monthLengths year).length = 12 := rfl
  have hdays : daysBeforeMonth year (1 + before) = ((monthLengths year).take before).sum := by
    rw [daysBeforeMonth, Nat.add_sub_cancel_left, ← List.sum_eq_foldl]
  have hlength : (monthLengths year).getD before 0 = (monthLengths year)[before] := by
    rw [List.getD_eq_getElem?_getD, List.getElem?_eq_getElem hbefore, Option.getD_some]
  rw [Nat.add_sub_cancel_left, Nat.add_sub_cancel, hlength, hdays]
  exact ⟨by omega, by omega, by omega, hrest, by omega⟩

end Civil

namespace Instant

open Civil

/-- The parts of a moment. -/
theorem civil_eq (t : Instant) : ∃ (day year : Int) (passed month dayOfMonth inDay : Nat),
    yearOfDay day = (year, passed) ∧ monthOfDay 1 (monthLengths year) passed = (month, dayOfMonth) ∧
      inDay < 86400000000000 ∧ t.nanos = day * 86400000000000 + inDay ∧
      t.civil = ⟨year, month, dayOfMonth, inDay / 1000000000 / 3600, inDay / 1000000000 / 60 % 60,
        inDay / 1000000000 % 60, inDay % 1000000000⟩ := by
  refine ⟨t.nanos / dayNanos, _, _, _, _, (t.nanos % dayNanos).toNat, rfl, rfl, ?_, ?_, rfl⟩
  all_goals
    unfold dayNanos
    omega

/-- The calendar view of a moment is an existing one, and it is that moment's. -/
theorem civil_spec (t : Instant) : t.civil.isValid = true ∧ ofCivil t.civil = t := by
  obtain ⟨day, year, passed, month, dayOfMonth, inDay, hyear, hmonth, hbound, hnanos, hcivil⟩ := t.civil_eq
  obtain ⟨hfirst, hlast, hone, hlength, hday⟩ := date_spec hyear hmonth
  rw [hcivil]
  constructor
  · simp only [isValid, Bool.and_eq_true, decide_eq_true_eq]
    refine ⟨⟨⟨⟨⟨⟨⟨hfirst, hlast⟩, hone⟩, hlength⟩, ?_⟩, ?_⟩, ?_⟩, ?_⟩ <;> omega
  · have hclock : ((inDay / 1000000000 / 3600 * 60 + inDay / 1000000000 / 60 % 60) * 60 + inDay / 1000000000 % 60) *
        1000000000 + inDay % 1000000000 = inDay := by omega
    simp only [ofCivil, hday, hclock, dayNanos, ← hnanos]

/-! ## Stored forms -/

/-- A number of fixed width is read from the start of a text. -/
theorem digits?_padded {width n : Nat} (hwidth : 0 < width) (hn : n < 10 ^ width) (rest : Bytes) :
    digits? width (Decimal.padded width n ++ rest) = some (n, rest) := by
  have hlength := Decimal.length_padded hwidth hn
  have htake : (Decimal.padded width n ++ rest).take width = Decimal.padded width n := List.take_left' hlength
  have hdrop : (Decimal.padded width n ++ rest).drop width = rest := List.drop_left' hlength
  have hdigits : (Decimal.padded width n).all Bytes.isDigit = true :=
    List.all_eq_true.mpr fun b hb => Decimal.isDigit_of_mem_padded hb
  simp only [digits?, htake, hdrop, hlength, hdigits, decide_true, Bool.and_self, if_true, Decimal.digitsValue_padded]

theorem byte?_self (b : UInt8) (rest : Bytes) : byte? b (b :: rest) = some rest := if_pos rfl

/-- Moments of the years that are stored with four digits. -/
def IsStorable (t : Instant) : Prop := 0 ≤ t.civil.year ∧ t.civil.year ≤ 9999

/-- The date and the time of day to the second, in front of a text. -/
def timed (c : Civil) (rest : Bytes) : Bytes := Decimal.padded 4 c.year.natAbs ++ ('-' : UInt8) ::
  (Decimal.padded 2 c.month ++ ('-' : UInt8) :: (Decimal.padded 2 c.day ++ ('T' : UInt8) ::
    (Decimal.padded 2 c.hour ++ (':' : UInt8) :: (Decimal.padded 2 c.minute ++ (':' : UInt8) ::
      (Decimal.padded 2 c.second ++ rest)))))

theorem dateText_clockText {c : Civil} (h : 0 ≤ c.year) (rest : Bytes) :
    c.dateText ++ "T" ++ c.clockText ++ rest = timed c rest := by
  have hdash : (("-" : String) : Bytes) = [('-' : UInt8)] := by decide +kernel
  have hcolon : ((":" : String) : Bytes) = [(':' : UInt8)] := by decide +kernel
  have hmark : (("T" : String) : Bytes) = [('T' : UInt8)] := by decide +kernel
  -- The digits are variables here: unfolding them would take the checker long.
  have hjoin (year month day hour minute second : Bytes) (dash mark colon : UInt8) :
      [] ++ year ++ [dash] ++ month ++ [dash] ++ day ++ [mark] ++ (hour ++ [colon] ++ minute ++ [colon] ++ second) ++ rest =
        year ++ dash :: (month ++ dash :: (day ++ mark :: (hour ++ colon :: (minute ++ colon :: (second ++ rest))))) := by
    simp
  rw [dateText, clockText, yearText, hdash, hcolon, hmark, if_neg (Int.not_lt.mpr h)]
  exact hjoin _ _ _ _ _ _ _ _ _

theorem stamp_eq {t : Instant} (h : t.IsStorable) :
    t.stamp = timed t.civil (('.' : UInt8) :: (Decimal.padded 9 t.civil.nano ++ [('Z' : UInt8)])) := by
  have hpoint : (("." : String) : Bytes) = [('.' : UInt8)] := by decide +kernel
  have hzone : (("Z" : String) : Bytes) = [('Z' : UInt8)] := by decide +kernel
  rw [← dateText_clockText h.1, List.append_cons, ← List.append_assoc, stamp, hpoint, hzone]

theorem length_month_le (year : Int) (month : Nat) : (monthLengths year).getD month 0 ≤ 31 := by
  rcases Nat.lt_or_ge month (monthLengths year).length with hmonth | hmonth
  · rw [List.getD_eq_getElem?_getD, List.getElem?_eq_getElem hmonth, Option.getD_some]
    have hall : ∀ length ∈ monthLengths year, length ≤ 31 := by
      unfold monthLengths
      cases isLeap year <;> decide
    exact hall _ (List.getElem_mem hmonth)
  · rw [List.getD_eq_default _ _ hmonth]
    decide

/-- The parts of a date that exists fit the widths of its stored form. -/
theorem fits_of_isValid {c : Civil} (hvalid : c.isValid = true) (h : 0 ≤ c.year ∧ c.year ≤ 9999) :
    c.year.natAbs < 10 ^ 4 ∧ c.month < 10 ^ 2 ∧ c.day < 10 ^ 2 ∧ c.hour < 10 ^ 2 ∧ c.minute < 10 ^ 2 ∧
      c.second < 10 ^ 2 ∧ c.nano < 10 ^ 9 := by
  obtain ⟨-, hmonth, -, hday, hhour, hminute, hsecond, hnano⟩ := Civil.isValid_iff.mp hvalid
  have hlength := length_month_le c.year (c.month - 1)
  omega

/-- The date and the time of day are read from the start of a text. -/
theorem clock?_timed {c : Civil} (hvalid : c.isValid = true) (h : 0 ≤ c.year ∧ c.year ≤ 9999) (rest : Bytes) :
    clock? (timed c rest) = some ({ c with nano := 0 }, rest) := by
  obtain ⟨hyear, hmonth, hday, hhour, hminute, hsecond, -⟩ := fits_of_isValid hvalid h
  have hunsigned : (c.year.natAbs : Int) = c.year := Int.natAbs_of_nonneg h.1
  have hfour : 0 < 4 := by decide
  have htwo : 0 < 2 := by decide
  simp only [timed, clock?, digits?_padded hfour hyear, digits?_padded htwo hmonth, digits?_padded htwo hday,
    digits?_padded htwo hhour, digits?_padded htwo hminute, digits?_padded htwo hsecond, byte?_self,
    Option.bind_eq_bind, Option.bind_some, hunsigned]

/-- A calendar view is read from its stored form as the moment that it is of. -/
theorem ofStamp?_timed {c : Civil} (hvalid : c.isValid = true) (h : 0 ≤ c.year ∧ c.year ≤ 9999) :
    ofStamp? (timed c (('.' : UInt8) :: (Decimal.padded 9 c.nano ++ [('Z' : UInt8)]))) = some (ofCivil c) := by
  obtain ⟨-, -, -, -, -, -, -, hnano⟩ := Civil.isValid_iff.mp hvalid
  have hnine : 0 < 9 := by decide
  simp only [ofStamp?, clock?_timed hvalid h, digits?_padded hnine hnano, byte?_self, Option.bind_eq_bind,
    Option.bind_some]
  simp only [List.isEmpty_nil, hvalid, Bool.and_self, if_true]

/-- A moment is read back from its stored form. -/
theorem ofStamp?_stamp {t : Instant} (h : t.IsStorable) : ofStamp? t.stamp = some t := by
  obtain ⟨hvalid, hback⟩ := t.civil_spec
  rw [stamp_eq h, ofStamp?_timed hvalid h, hback]

/-! ## Exchange forms -/

/-- A text is what is left of it without the zeros at its end, and as many zeros. -/
theorem exists_zeros (text : Bytes) :
    ∃ count, text = text.rdropWhile (fun b => decide (b = 48)) ++ List.replicate count 48 := by
  refine ⟨(text.rtakeWhile fun b => decide (b = 48)).length, ?_⟩
  have hzeros : text.rtakeWhile (fun b => decide (b = 48)) = List.replicate _ 48 :=
    List.eq_replicate_length.mpr fun b hb => by simpa using List.mem_rtakeWhile_imp hb
  rw [← hzeros, List.rdropWhile, List.rtakeWhile, ← List.reverse_append, List.takeWhile_append_dropWhile,
    List.reverse_reverse]

/-- The fraction of a second with nothing but digits that count, in front of a text. -/
def fractioned (nano : Nat) (rest : Bytes) : Bytes :=
  match (Decimal.padded 9 nano).rdropWhile fun b => decide (b = 48) with
  | [] => rest
  | b :: digits => ('.' : UInt8) :: b :: digits ++ rest

theorem exchange?_eq {t : Instant} (h : t.IsStorable) :
    t.exchange? = some (timed t.civil (fractioned t.civil.nano [('Z' : UInt8)])) := by
  have hpoint : (("." : String) : Bytes) = [('.' : UInt8)] := by decide +kernel
  have hzone : (("Z" : String) : Bytes) = [('Z' : UInt8)] := by decide +kernel
  rw [exchange?, if_pos (by simp [h.1, h.2])]
  dsimp only
  rw [List.append_assoc _ _ ("Z" : Bytes), dateText_clockText h.1, fractioned, List.rdropWhile, hpoint, hzone]
  cases ((Decimal.padded 9 t.civil.nano).reverse.dropWhile fun b => decide (b = 48)).reverse <;> rfl

theorem fraction?_fractioned {nano : Nat} (h : nano < 1000000000) :
    fraction? (fractioned nano [('Z' : UInt8)]) = some (nano, [('Z' : UInt8)]) := by
  obtain ⟨count, hzeros⟩ := exists_zeros (Decimal.padded 9 nano)
  have hlength := Decimal.length_padded (show 0 < 9 by decide) h
  have hread := digits?_padded (show 0 < 9 by decide) h []
  rw [List.append_nil] at hread
  have hdigits : ∀ b ∈ (Decimal.padded 9 nano).rdropWhile (fun b => decide (b = 48)), Bytes.isDigit b := fun b hb =>
    Decimal.isDigit_of_mem_padded ((List.rdropWhile_prefix _ _).subset hb)
  unfold fractioned
  split
  next hnil =>
    have hzero : nano = 0 := by
      rw [← Decimal.digitsValue_padded 9 nano, hzeros, hnil, List.nil_append, Bytes.digitsValue_replicate_zero]
    rw [hzero]
    rfl
  next b digits hcons =>
    rw [hcons] at hzeros hdigits
    have hZ : ¬Bytes.isDigit ('Z' : UInt8) = true := by decide
    have hrun : (b :: digits ++ [('Z' : UInt8)]).takeWhile Bytes.isDigit = b :: digits := by
      rw [List.takeWhile_append_of_pos hdigits, List.takeWhile_cons_of_neg hZ, List.append_nil]
    have hrest : (b :: digits ++ [('Z' : UInt8)]).dropWhile Bytes.isDigit = [('Z' : UInt8)] := by
      rw [List.dropWhile_append_of_pos hdigits, List.dropWhile_cons_of_neg hZ]
    have hnine : (b :: digits ++ List.replicate 9 (48 : UInt8)).take 9 = Decimal.padded 9 nano := by
      rw [hzeros, List.length_append, List.length_replicate] at hlength
      rw [List.take_append, List.take_of_length_le (by omega), List.take_replicate, hzeros]
      congr 2
      omega
    rw [List.cons_append, List.cons_append, fraction?, if_pos rfl, ← List.cons_append, hrun, hrest]
    dsimp only
    rw [hnine, hread]
    rfl

/-- A calendar view is read from its exchange form as the moment that it is of. -/
theorem ofExchange?_timed {c : Civil} (hvalid : c.isValid = true) (h : 0 ≤ c.year ∧ c.year ≤ 9999) :
    ofExchange? (timed c (fractioned c.nano [('Z' : UInt8)])) = some (ofCivil c) := by
  obtain ⟨-, -, -, -, -, -, -, hnano⟩ := Civil.isValid_iff.mp hvalid
  have hzone : offset? [('Z' : UInt8)] = some 0 := by decide
  simp only [ofExchange?, clock?_timed hvalid h, fraction?_fractioned hnano, hzone, Option.bind_eq_bind, Option.bind_some]
  simp [hvalid, add]

/-- A moment is read back from its exchange form. -/
theorem ofExchange?_exchange? {t : Instant} (h : t.IsStorable) : t.exchange?.bind ofExchange? = some t := by
  obtain ⟨hvalid, hback⟩ := t.civil_spec
  rw [exchange?_eq h, Option.bind_some, ofExchange?_timed hvalid h, hback]

theorem padded_plain (width n : Nat) : ∀ b ∈ Decimal.padded width n, b.toNat < 128 := fun _ hb =>
  Nat.lt_of_le_of_lt (Bytes.isDigit_iff.mp (Decimal.isDigit_of_mem_padded hb)).2 (by decide)

theorem fractioned_plain (nano : Nat) : (∀ b ∈ fractioned nano [('Z' : UInt8)], b.toNat < 128) ∧
    (fractioned nano [('Z' : UInt8)]).getLast? = some ('Z' : UInt8) := by
  unfold fractioned
  split
  next => decide +kernel
  next b digits hcons =>
    have hsubset : ∀ c ∈ b :: digits, c.toNat < 128 := fun c hc =>
      padded_plain 9 _ c ((List.rdropWhile_prefix _ _).subset (hcons ▸ hc))
    refine ⟨List.forall_mem_cons.mpr ⟨by decide, List.forall_mem_append.mpr ⟨hsubset, by decide +kernel⟩⟩, ?_⟩
    rw [List.getLast?_append]
    rfl

theorem timed_plain {rest : Bytes} (h : ∀ b ∈ rest, b.toNat < 128) (c : Civil) : ∀ b ∈ timed c rest, b.toNat < 128 := by
  have hdash : ('-' : UInt8).toNat < 128 := by decide
  have hmark : ('T' : UInt8).toNat < 128 := by decide
  have hcolon : (':' : UInt8).toNat < 128 := by decide
  simp only [timed, List.forall_mem_append, List.forall_mem_cons]
  exact ⟨padded_plain 4 _, hdash, padded_plain 2 _, hdash, padded_plain 2 _, hmark, padded_plain 2 _, hcolon,
    padded_plain 2 _, hcolon, padded_plain 2 _, h⟩

/-- An exchange form is plain text, and a letter at its end says that it is UTC. -/
theorem exchange?_plain {t : Instant} {text : Bytes} (h : t.IsStorable) (htext : t.exchange? = some text) :
    (∀ b ∈ text, b.toNat < 128) ∧ text.getLast? = some ('Z' : UInt8) := by
  obtain rfl := Option.some.inj ((exchange?_eq h).symm.trans htext)
  generalize t.civil = c
  obtain ⟨hplain, hlast⟩ := fractioned_plain c.nano
  refine ⟨timed_plain hplain c, ?_⟩
  simp only [timed, List.getLast?_append, List.getLast?_cons, hlast, Option.some_or, Option.getD_some]

end Instant

namespace Bytes

/-! ## The bytewise order -/

theorem less_iff {a b : Bytes} : less a b = true ↔ a.map UInt8.toNat < b.map UInt8.toNat := by
  induction a generalizing b with
  | nil => cases b <;> simp [less]
  | cons x a ih =>
      cases b with
      | nil => simp [less]
      | cons y b =>
          simp only [less, List.map_cons, List.cons_lt_cons_iff, ← ih, UInt8.lt_iff_toNat_lt]
          split
          next hlt => simp [hlt]
          next hge =>
            split
            next hgt => simp [hge, hgt.ne']
            next hle => simp [Nat.le_antisymm (Nat.not_lt.mp hle) (Nat.not_lt.mp hge)]

theorem less_eq_false_iff {a b : Bytes} : less a b = false ↔ b.map UInt8.toNat ≤ a.map UInt8.toNat := by
  rw [← Bool.not_eq_true, less_iff, not_lt]

theorem map_toNat_inj {a b : Bytes} : a.map UInt8.toNat = b.map UInt8.toNat ↔ a = b :=
  List.map_inj_right fun _ _ h => UInt8.toNat_inj.mp h

/-- Behind texts of one length the order is that of the texts first, and then that of what follows. -/
theorem append_lt_append_iff {x y : List Nat} (h : x.length = y.length) (z w : List Nat) :
    x ++ z < y ++ w ↔ x < y ∨ x = y ∧ z < w := by
  induction x generalizing y with
  | nil =>
      obtain rfl := List.length_eq_zero_iff.mp h.symm
      simp
  | cons a x ih =>
      cases y with
      | nil => cases h
      | cons b y =>
          simp only [List.cons_append, List.cons_lt_cons_iff, ih (Nat.succ.inj h), List.cons.injEq]
          tauto

theorem digitsValue_cons (b : UInt8) (rest : Bytes) :
    digitsValue (b :: rest) = (b.toNat - 48) * 10 ^ rest.length + digitsValue rest := by
  have h := digitsValue_append [b] rest
  simpa [digitsValue] using h

/-- Numbers of two digits in a radix are ordered by their first digits, and then by their second ones. -/
theorem radix_lt_iff {radix x y r s : Nat} (hr : r < radix) (hs : s < radix) :
    x * radix + r < y * radix + s ↔ x < y ∨ x = y ∧ r < s := by
  rcases Nat.lt_trichotomy x y with hless | rfl | hgreater
  · have hnext : (x + 1) * radix ≤ y * radix := Nat.mul_le_mul_right _ hless
    rw [Nat.succ_mul] at hnext
    exact iff_of_true (by omega) (Or.inl hless)
  · simp
  · have hnext : (y + 1) * radix ≤ x * radix := Nat.mul_le_mul_right _ hgreater
    rw [Nat.succ_mul] at hnext
    exact iff_of_false (by omega) (by omega)

/-- Digits of one length are ordered like their values. -/
theorem digits_lt_iff {a b : Bytes} (ha : ∀ c ∈ a, isDigit c) (hb : ∀ c ∈ b, isDigit c) (h : a.length = b.length) :
    a.map UInt8.toNat < b.map UInt8.toNat ↔ digitsValue a < digitsValue b := by
  induction a generalizing b with
  | nil =>
      obtain rfl := List.length_eq_zero_iff.mp h.symm
      simp
  | cons x a ih =>
      cases b with
      | nil => cases h
      | cons y b =>
          obtain ⟨hx, ha⟩ := List.forall_mem_cons.mp ha
          obtain ⟨hy, hb⟩ := List.forall_mem_cons.mp hb
          have hlength : a.length = b.length := Nat.succ.inj h
          have hrest := Decimal.digitsValue_lt ha
          rw [isDigit_iff] at hx hy
          rw [hlength] at hrest
          rw [List.map_cons, List.map_cons, List.cons_lt_cons_iff, ih ha hb hlength, digitsValue_cons, digitsValue_cons,
            hlength, radix_lt_iff hrest (Decimal.digitsValue_lt hb)]
          omega

end Bytes

namespace Decimal

/-- Texts that begin with numbers of one width and the same byte behind them are ordered by the numbers first, and
then by what follows. -/
theorem padded_lt_iff {width m n : Nat} (hwidth : 0 < width) (hm : m < 10 ^ width) (hn : n < 10 ^ width)
    (separator : UInt8) (z w : Bytes) :
    (padded width m ++ separator :: z).map UInt8.toNat < (padded width n ++ separator :: w).map UInt8.toNat ↔
      m < n ∨ m = n ∧ z.map UInt8.toNat < w.map UInt8.toNat := by
  have hlength : (padded width m).length = (padded width n).length := by
    rw [length_padded hwidth hm, length_padded hwidth hn]
  have hsame : (padded width m).map UInt8.toNat = (padded width n).map UInt8.toNat ↔ m = n := by
    rw [Bytes.map_toNat_inj]
    refine ⟨fun h => ?_, fun h => by rw [h]⟩
    rw [← digitsValue_padded width m, h, digitsValue_padded]
  rw [List.map_append, List.map_append, Bytes.append_lt_append_iff (by simpa using hlength), hsame,
    Bytes.digits_lt_iff (fun _ => isDigit_of_mem_padded) (fun _ => isDigit_of_mem_padded) hlength, digitsValue_padded,
    digitsValue_padded, List.map_cons, List.map_cons, List.cons_lt_cons_iff]
  simp

end Decimal

namespace Civil

/-! ## Dates in order -/

/-- Whether a calendar view comes before another one: the first part in which they differ is less. -/
def Precedes (c d : Civil) : Prop :=
  c.year < d.year ∨ c.year = d.year ∧ (c.month < d.month ∨ c.month = d.month ∧ (c.day < d.day ∨ c.day = d.day ∧
    (c.hour < d.hour ∨ c.hour = d.hour ∧ (c.minute < d.minute ∨ c.minute = d.minute ∧
      (c.second < d.second ∨ c.second = d.second ∧ c.nano < d.nano)))))

theorem daysBeforeYear_le {year later : Int} (h : year < later) :
    daysBeforeYear year + yearLength year ≤ daysBeforeYear later := by
  simp only [daysBeforeYear, yearLength, isLeap, Bool.and_eq_true, Bool.or_eq_true, decide_eq_true_eq]
  split <;> omega

theorem daysBeforeYear_mono {year later : Int} (h : year ≤ later) : daysBeforeYear year ≤ daysBeforeYear later := by
  rcases h.lt_or_eq with hless | rfl
  · have hwhole := daysBeforeYear_le hless
    omega
  · exact le_rfl

theorem daysBeforeMonth_eq (year : Int) (month : Nat) :
    daysBeforeMonth year month = ((monthLengths year).take (month - 1)).sum := by
  rw [daysBeforeMonth, List.sum_eq_foldl]

theorem daysBeforeMonth_le (year : Int) {month later : Nat} (hmonth : 1 ≤ month) (h : month < later) :
    daysBeforeMonth year month + (monthLengths year).getD (month - 1) 0 ≤ daysBeforeMonth year later := by
  have hnext : ((monthLengths year).take (month - 1)).sum + (monthLengths year).getD (month - 1) 0 =
      ((monthLengths year).take (month - 1 + 1)).sum := by
    rw [List.take_add_one, List.sum_append, List.getD_eq_getElem?_getD]
    cases (monthLengths year)[month - 1]? <;> simp
  rw [daysBeforeMonth_eq, daysBeforeMonth_eq, hnext]
  exact (List.take_prefix_take_left (by omega)).sublist.sum_le_sum fun _ _ => Nat.zero_le _

/-- A day of a year lies behind the days of the months before its own, within the year. -/
theorem isValid_day {c : Civil} (h : c.isValid = true) :
    daysBeforeMonth c.year c.month + (c.day - 1) < yearLength c.year := by
  obtain ⟨hmonth, hlast, hday, hlength, -⟩ := isValid_iff.mp h
  have hsum : daysBeforeMonth c.year 13 = yearLength c.year := by
    rw [daysBeforeMonth_eq, ← sum_monthLengths]
    rfl
  have hbefore := daysBeforeMonth_le c.year hmonth (show c.month < 13 by omega)
  omega

/-- Dates are ordered like the days that they name. -/
theorem day_lt_iff {c d : Civil} (hc : c.isValid = true) (hd : d.isValid = true) :
    daysBeforeYear c.year + daysBeforeMonth c.year c.month + (c.day - 1 : Nat) <
        daysBeforeYear d.year + daysBeforeMonth d.year d.month + (d.day - 1 : Nat) ↔
      c.year < d.year ∨ c.year = d.year ∧ (c.month < d.month ∨ c.month = d.month ∧ c.day < d.day) := by
  have hcday := isValid_day hc
  have hdday := isValid_day hd
  obtain ⟨hcmonth, -, hcone, hclength, -⟩ := isValid_iff.mp hc
  obtain ⟨hdmonth, -, hdone, hdlength, -⟩ := isValid_iff.mp hd
  rcases lt_trichotomy c.year d.year with hyear | hyear | hyear
  · have hbefore := daysBeforeYear_le hyear
    exact iff_of_true (by omega) (Or.inl hyear)
  · rw [hyear] at hcday hclength ⊢
    rcases lt_trichotomy c.month d.month with hmonth | hmonth | hmonth
    · have hbefore := daysBeforeMonth_le d.year hcmonth hmonth
      omega
    · rw [hmonth]
      omega
    · have hbefore := daysBeforeMonth_le d.year hdmonth hmonth
      omega
  · have hbefore := daysBeforeYear_le hyear
    exact iff_of_false (by omega) (by omega)

/-- Calendar views are ordered like their moments. -/
theorem ofCivil_lt_iff {c d : Civil} (hc : c.isValid = true) (hd : d.isValid = true) :
    (Instant.ofCivil c).nanos < (Instant.ofCivil d).nanos ↔ c.Precedes d := by
  have hday := day_lt_iff hc hd
  have hday' := day_lt_iff hd hc
  obtain ⟨-, -, hcone, -, hchour, hcminute, hcsecond, hcnano⟩ := isValid_iff.mp hc
  obtain ⟨-, -, hdone, -, hdhour, hdminute, hdsecond, hdnano⟩ := isValid_iff.mp hd
  simp only [Instant.ofCivil, Instant.dayNanos, Precedes]
  generalize daysBeforeYear c.year + daysBeforeMonth c.year c.month + (c.day - 1 : Nat) = cday at hday hday' ⊢
  generalize daysBeforeYear d.year + daysBeforeMonth d.year d.month + (d.day - 1 : Nat) = dday at hday hday' ⊢
  rcases lt_trichotomy cday dday with hless | hsame | hgreater
  · have hdate := hday.mp hless
    exact iff_of_true (by omega) (by omega)
  · have hdate : c.year = d.year ∧ c.month = d.month ∧ c.day = d.day := by
      have hnot := mt hday.mpr (by omega)
      have hnot' := mt hday'.mpr (by omega)
      omega
    simp only [hsame, hdate, lt_self_iff_false, true_and, false_or]
    omega
  · have hdate := hday'.mp hgreater
    exact iff_of_false (by omega) (by omega)

end Civil

namespace Instant

variable {t u : Instant}

/-- The stored forms of moments are ordered like the moments. -/
theorem stamp_less_iff (ht : t.IsStorable) (hu : u.IsStorable) :
    Bytes.less t.stamp u.stamp = true ↔ t.nanos < u.nanos := by
  obtain ⟨htvalid, htback⟩ := t.civil_spec
  obtain ⟨huvalid, huback⟩ := u.civil_spec
  have horder := Civil.ofCivil_lt_iff htvalid huvalid
  rw [htback, huback] at horder
  rw [horder, Bytes.less_iff, stamp_eq ht, stamp_eq hu, timed, timed]
  obtain ⟨hyear, hmonth, hday, hhour, hminute, hsecond, hnano⟩ := fits_of_isValid htvalid ht
  obtain ⟨hyear', hmonth', hday', hhour', hminute', hsecond', hnano'⟩ := fits_of_isValid huvalid hu
  obtain ⟨hzero, -⟩ := ht
  obtain ⟨hzero', -⟩ := hu
  clear htvalid huvalid htback huback horder
  generalize t.civil = c, u.civil = d at *
  have htwo : 0 < 2 := by decide
  rw [Decimal.padded_lt_iff (by decide) hyear hyear', Decimal.padded_lt_iff htwo hmonth hmonth',
    Decimal.padded_lt_iff htwo hday hday', Decimal.padded_lt_iff htwo hhour hhour',
    Decimal.padded_lt_iff htwo hminute hminute', Decimal.padded_lt_iff htwo hsecond hsecond',
    Decimal.padded_lt_iff (by decide) hnano hnano']
  simp only [lt_self_iff_false, and_false, or_false, Civil.Precedes]
  omega

/-- A stored form takes a byte for each digit and separator down to the nanosecond. -/
theorem length_stamp (h : t.IsStorable) : t.stamp.length = 30 := by
  obtain ⟨hvalid, -⟩ := t.civil_spec
  obtain ⟨hyear, hmonth, hday, hhour, hminute, hsecond, hnano⟩ := fits_of_isValid hvalid h
  have htwo : 0 < 2 := by decide
  rw [stamp_eq h, timed]
  simp only [List.length_append, List.length_cons, List.length_nil, Decimal.length_padded (by decide : 0 < 4) hyear,
    Decimal.length_padded htwo hmonth, Decimal.length_padded htwo hday, Decimal.length_padded htwo hhour,
    Decimal.length_padded htwo hminute, Decimal.length_padded htwo hsecond,
    Decimal.length_padded (by decide : 0 < 9) hnano]

/-- The moments that are stored are those from the start of year 0, a leap year, to the end of year 9999. -/
theorem isStorable_iff : t.IsStorable ↔ -31622400000000000 ≤ t.nanos ∧ t.nanos < 315537897600000000000 := by
  obtain ⟨day, year, passed, month, dayOfMonth, inDay, hyear, -, hbound, hnanos, hcivil⟩ := t.civil_eq
  obtain ⟨hday, hinside⟩ := Civil.yearOfDay_spec day
  rw [hyear] at hday hinside
  dsimp only at hday hinside
  have hstored : t.IsStorable ↔ 0 ≤ year ∧ year ≤ 9999 := by rw [IsStorable, hcivil]
  have hfirst : Civil.daysBeforeYear 0 = -366 := by decide
  have hend : Civil.daysBeforeYear 10000 = 3652059 := by decide
  rw [hstored]
  constructor
  · rintro ⟨hzero, hlast⟩
    have hfrom := Civil.daysBeforeYear_mono hzero
    have huntil := Civil.daysBeforeYear_le (show year < 10000 by omega)
    omega
  · rintro ⟨hlow, hhigh⟩
    constructor
    · by_contra hbefore
      have hless := Civil.daysBeforeYear_le (show year < 0 by omega)
      omega
    · by_contra hafter
      have hmore := Civil.daysBeforeYear_mono (show 10000 ≤ year by omega)
      omega

/-- The stored forms of different moments are different. -/
theorem stamp_inj (ht : t.IsStorable) (hu : u.IsStorable) : t.stamp = u.stamp ↔ t = u := by
  refine ⟨fun h => ?_, fun h => by rw [h]⟩
  have hread := ofStamp?_stamp ht
  rw [h, ofStamp?_stamp hu] at hread
  exact (Option.some.inj hread).symm

end Instant

end MobilitySweep
