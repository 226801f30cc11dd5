import MobilitySweep.Proofs.Number.Numerals

/-! # The order and the distances of double precision numbers

Every number but NaN has a place among the integers with an end on either side: a finite number that of its units, the
two zeros the same one, and the infinities the ends. Comparisons compare places, and the larger and the smaller of two
numbers are those of the larger and the smaller place. A difference is exact if no rounding parts it from the distance
of the numbers.
-/

namespace MobilitySweep

namespace Binary64

/-! ## Places -/

/-- Where a number stands among all others. -/
def place : Binary64 → WithBot (WithTop ℤ)
  | nan => ⊥
  | infinite true => ⊥
  | infinite false => (⊤ : WithTop ℤ)
  | finite negative units => ((signedUnits negative units : ℤ) : WithTop ℤ)

theorem coe_lt_top (n : ℤ) : ((n : WithTop ℤ) : WithBot (WithTop ℤ)) < ⊤ :=
  WithBot.coe_lt_coe.mpr (WithTop.coe_lt_top n)

section

variable {x y z : Binary64}

theorem less_iff (hx : x.isNan = false) (hy : y.isNan = false) : less x y = true ↔ place x < place y := by
  rcases x with _ | (_ | _) | ⟨_, _⟩ <;> rcases y with _ | (_ | _) | ⟨_, _⟩ <;>
    simp_all [isNan, less, place, coe_lt_top]

theorem equals_iff (hx : x.isNan = false) (hy : y.isNan = false) : equals x y = true ↔ place x = place y := by
  rcases x with _ | (_ | _) | ⟨_, _⟩ <;> rcases y with _ | (_ | _) | ⟨_, _⟩ <;>
    simp_all [isNan, equals, place, (coe_lt_top _).ne, (coe_lt_top _).ne']

theorem less_eq_false_iff (hx : x.isNan = false) (hy : y.isNan = false) : less x y = false ↔ place y ≤ place x := by
  rw [← Bool.not_eq_true, less_iff hx hy, not_lt]

/-- Only numbers compare. -/
theorem isNan_of_less (h : less x y = true) : x.isNan = false ∧ y.isNan = false := by
  cases x <;> cases y <;> simp_all [less, isNan]

theorem isNan_of_equals (h : equals x y = true) : x.isNan = false ∧ y.isNan = false := by
  cases x <;> cases y <;> simp_all [equals, isNan]

theorem less_asymm (h : less x y = true) : less y x = false := by
  obtain ⟨hx, hy⟩ := isNan_of_less h
  exact (less_eq_false_iff hy hx).mpr ((less_iff hx hy).mp h).le

/-- The larger of two numbers is one of them and has the larger of their places. -/
theorem max_spec (hx : x.isNan = false) (hy : y.isNan = false) :
    (max x y = x ∨ max x y = y) ∧ place (max x y) = place x ⊔ place y := by
  have hless := less_iff hx hy
  have hmore := less_iff hy hx
  unfold max
  split
  next hinfinite =>
    rw [Bool.or_eq_true, decide_eq_true_eq, decide_eq_true_eq] at hinfinite
    rcases hinfinite with rfl | rfl
    · simp [place]
    · simp [place]
  next =>
    simp only [hx, hy, Bool.or_self, Bool.false_eq_true, if_false]
    split
    next h => exact ⟨.inr rfl, (max_eq_right (hless.mp h).le).symm⟩
    next h =>
      split
      next h' => exact ⟨.inl rfl, (max_eq_left (hmore.mp h').le).symm⟩
      next h' =>
        have hsame : place x = place y := le_antisymm (not_lt.mp (mt hmore.mpr h')) (not_lt.mp (mt hless.mpr h))
        split <;> simp [hsame]

end

theorem isNan_max {x y : Binary64} (hx : x.isNan = false) (hy : y.isNan = false) : (max x y).isNan = false := by
  rcases (max_spec hx hy).1 with h | h
  · rw [h, hx]
  · rw [h, hy]

/-! ## Opposites -/

section

variable {x y : Binary64}

@[simp] theorem neg_neg (x : Binary64) : x.neg.neg = x := by
  cases x <;> simp [neg]

@[simp] theorem isNan_neg (x : Binary64) : x.neg.isNan = x.isNan := by
  cases x <;> rfl

theorem neg_eq_iff : x.neg = y ↔ x = y.neg := by
  constructor
  · rintro rfl
    exact (neg_neg x).symm
  · rintro rfl
    exact neg_neg y

theorem less_neg_neg (x y : Binary64) : less x.neg y.neg = less y x := by
  rcases x with _ | (_ | _) | ⟨_ | _, _⟩ <;> rcases y with _ | (_ | _) | ⟨_ | _, _⟩ <;>
    simp [neg, less, signedUnits, neg_lt, lt_neg]

theorem isNegative_neg (hx : x.isNan = false) : x.neg.isNegative = !x.isNegative := by
  cases x <;> simp_all [neg, isNegative, isNan]

/-- The smaller of two numbers is the opposite of the larger of their opposites. -/
theorem min_eq_neg_max (x y : Binary64) : min x y = (max x.neg y.neg).neg := by
  have hinfinite : ∀ z : Binary64, (z.neg = infinite false) = (z = infinite true) := by
    intro z
    rw [neg_eq_iff]
    rfl
  unfold min max
  simp only [hinfinite, isNan_neg, less_neg_neg]
  split
  · rfl
  · split
    · rfl
    next hnan =>
      have hx : x.isNan = false := by
        rw [Bool.or_eq_true, not_or] at hnan
        exact Bool.eq_false_iff.mpr hnan.1
      rw [isNegative_neg hx]
      -- The opposites are compared in the other order first.
      by_cases hless : less x y = true
      · simp [hless, less_asymm hless]
      · cases x.isNegative <;> simp [hless, apply_ite neg]

end

/-! ## The largest and the smallest of some numbers -/

/-- One of some numbers, below none of them. -/
structure IsLargest (x : Binary64) (values : List Binary64) : Prop where
  mem : x ∈ values
  none_above : ∀ v ∈ values, x.less v = false

/-- One of some numbers, above none of them. -/
structure IsSmallest (x : Binary64) (values : List Binary64) : Prop where
  mem : x ∈ values
  none_below : ∀ v ∈ values, v.less x = false

section

variable {x y z : Binary64} {values : List Binary64}

theorem isSmallest_iff_neg : IsSmallest x values ↔ IsLargest x.neg (values.map neg) := by
  have hmem : x.neg ∈ values.map neg ↔ x ∈ values := by
    simp only [List.mem_map, neg_eq_iff, neg_neg, exists_eq_right]
  have hless : (∀ v ∈ values.map neg, x.neg.less v = false) ↔ ∀ v ∈ values, v.less x = false := by
    simp only [List.forall_mem_map, less_neg_neg]
  exact ⟨fun h => ⟨hmem.mpr h.mem, hless.mpr h.none_below⟩, fun h => ⟨hmem.mp h.mem, hless.mp h.none_above⟩⟩

theorem isLargest_singleton (x : Binary64) : IsLargest x [x] := by
  refine ⟨List.mem_singleton_self x, ?_⟩
  intro v hv
  rw [List.mem_singleton.mp hv]
  cases x <;> simp [less]

theorem IsLargest.isNan (h : IsLargest z (x :: values)) (hx : x.isNan = false)
    (hvalues : ∀ v ∈ values, v.isNan = false) : z.isNan = false := by
  rcases List.mem_cons.mp h.mem with rfl | hmem
  · exact hx
  · exact hvalues z hmem

theorem IsLargest.tail (h : IsLargest z (x :: values)) (hx : x ∈ values) : IsLargest z values := by
  refine ⟨?_, fun v hv => h.none_above v (List.mem_cons_of_mem x hv)⟩
  rcases List.mem_cons.mp h.mem with rfl | hmem
  · exact hx
  · exact hmem

theorem IsSmallest.tail (h : IsSmallest z (x :: values)) (hx : x ∈ values) : IsSmallest z values :=
  isSmallest_iff_neg.mpr ((isSmallest_iff_neg.mp h).tail (List.mem_map_of_mem hx))

/-- A largest number among others and the larger of two is one among all of them. -/
theorem IsLargest.of_max (hx : x.isNan = false) (hy : y.isNan = false) (hvalues : ∀ v ∈ values, v.isNan = false)
    (h : IsLargest z (max x y :: values)) : IsLargest z (x :: y :: values) := by
  obtain ⟨hone, hplace⟩ := max_spec hx hy
  have hmax := isNan_max hx hy
  have hz : z.isNan = false := h.isNan hmax hvalues
  have habove := (less_eq_false_iff hz hmax).mp (h.none_above _ List.mem_cons_self)
  rw [hplace, sup_le_iff] at habove
  constructor
  · rcases List.mem_cons.mp h.mem with rfl | hmem
    · rcases hone with hone | hone
      · simp [hone]
      · simp [hone]
    · simp [hmem]
  · intro v hv
    rcases List.mem_cons.mp hv with rfl | hv
    · exact (less_eq_false_iff hz hx).mpr habove.1
    · rcases List.mem_cons.mp hv with rfl | hv
      · exact (less_eq_false_iff hz hy).mpr habove.2
      · exact h.none_above v (List.mem_cons_of_mem _ hv)

/-- The larger of two numbers, taken again and again, is the largest of all. -/
theorem isLargest_foldl (hx : x.isNan = false) (hvalues : ∀ v ∈ values, v.isNan = false) :
    IsLargest (values.foldl max x) (x :: values) := by
  induction values generalizing x with
  | nil => exact isLargest_singleton x
  | cons y rest ih =>
      obtain ⟨hy, hrest⟩ := List.forall_mem_cons.mp hvalues
      exact (ih (isNan_max hx hy) hrest).of_max hx hy hrest

theorem isSmallest_foldl (hx : x.isNan = false) (hvalues : ∀ v ∈ values, v.isNan = false) :
    IsSmallest (values.foldl min x) (x :: values) := by
  have hopposite : (values.map neg).foldl max x.neg = (values.foldl min x).neg := by
    rw [List.foldl_map]
    apply List.foldl_hom
    intro a v
    rw [min_eq_neg_max, neg_neg]
  rw [isSmallest_iff_neg, ← hopposite]
  apply isLargest_foldl
  · rw [isNan_neg, hx]
  · simpa using hvalues

/-- Under a floor the largest of some numbers is one of them just if one of them is not below the floor. -/
theorem IsLargest.attained_iff (hx : x.isNan = false) (hvalues : ∀ v ∈ values, v.isNan = false)
    (h : IsLargest z (x :: values)) : (∃ v ∈ values, v.equals z = true) ↔ ∃ v ∈ values, v.less x = false := by
  have hz : z.isNan = false := h.isNan hx hvalues
  have hfloor := (less_eq_false_iff hz hx).mp (h.none_above x List.mem_cons_self)
  constructor
  · rintro ⟨v, hv, hequals⟩
    have hplace := (equals_iff (hvalues v hv) hz).mp hequals
    exact ⟨v, hv, (less_eq_false_iff (hvalues v hv) hx).mpr (hplace ▸ hfloor)⟩
  · rintro ⟨v, hv, hless⟩
    rcases List.mem_cons.mp h.mem with rfl | hmem
    · have hbelow := (less_eq_false_iff hz (hvalues v hv)).mp (h.none_above v (List.mem_cons_of_mem z hv))
      have habove := (less_eq_false_iff (hvalues v hv) hz).mp hless
      exact ⟨v, hv, (equals_iff (hvalues v hv) hz).mpr (le_antisymm hbelow habove)⟩
    · exact ⟨z, hmem, (equals_iff hz hz).mpr rfl⟩

theorem IsLargest.eq_floor (h : IsLargest z (x :: values)) (hbelow : ∀ v ∈ values, v.less x = true) : z = x := by
  rcases List.mem_cons.mp h.mem with hz | hmem
  · exact hz
  · have hless := h.none_above x List.mem_cons_self
    rw [hbelow z hmem] at hless
    exact Bool.noConfusion hless

end

/-! ## Distances -/

/-- How many units lie between two numbers, without end if one of them is infinite. -/
def distance : Binary64 → Binary64 → ℕ∞
  | finite s u, finite t v => (signedUnits s u - signedUnits t v).natAbs
  | _, _ => ⊤

/-- The positive number of so many units. -/
def ofUnits : ℕ∞ → Binary64
  | none => infinite false
  | some units => finite false units

theorem ofUnits_top : ofUnits ⊤ = infinite false := rfl

theorem ofUnits_coe (units : ℕ) : ofUnits units = finite false units := rfl

theorem max_positive (a b : ℕ) : max (finite false a) (finite false b) = finite false (a ⊔ b) := by
  simp only [max, less, signedUnits, isNan, isNegative, reduceCtorEq, decide_false, Bool.or_self, Bool.false_eq_true,
    if_false, decide_eq_true_eq, Nat.cast_lt]
  rcases Nat.lt_trichotomy a b with hlt | rfl | hlt
  · rw [if_pos hlt, max_eq_right hlt.le]
  · rw [if_neg (Nat.lt_irrefl a), if_neg (Nat.lt_irrefl a), max_self]
  · rw [if_neg hlt.not_gt, if_pos hlt, max_eq_left hlt.le]

theorem max_ofUnits (a b : ℕ∞) : max (ofUnits a) (ofUnits b) = ofUnits (a ⊔ b) := by
  induction a with
  | top => simp [ofUnits_top, max]
  | coe a =>
      induction b with
      | top => simp [ofUnits_top, max]
      | coe b => rw [ofUnits_coe, ofUnits_coe, max_positive, ← ofUnits_coe, Nat.mono_cast.map_max]

/-- The subtraction of two numbers gives their distance, without rounding. -/
def ExactDifference (x y : Binary64) : Prop := (x.sub y).abs = ofUnits (distance x y)

instance (x y : Binary64) : Decidable (ExactDifference x y) := inferInstanceAs (Decidable (_ = _))

theorem signedUnits_not (negative : Bool) (units : Nat) :
    signedUnits (!negative) units = -signedUnits negative units := by
  cases negative <;> simp [signedUnits]

/-- A difference of at most 53 significant bits is exact. -/
theorem exactDifference_of_held {s t : Bool} {u v : Nat} (h : Held (signedUnits s u - signedUnits t v).natAbs)
    (hbound : (signedUnits s u - signedUnits t v).natAbs < unitBound) :
    ExactDifference (finite s u) (finite t v) := by
  have hnearest := nearest_held h hbound Nat.one_pos (decide (signedUnits s u - signedUnits t v < 0))
  rw [Nat.mul_one] at hnearest
  unfold ExactDifference sub neg add distance
  dsimp only
  rw [signedUnits_not, ← sub_eq_add_neg]
  split
  next hzero =>
    rw [hzero, Int.natAbs_zero]
    rfl
  next =>
    rw [hnearest]
    rfl

end Binary64

end MobilitySweep
