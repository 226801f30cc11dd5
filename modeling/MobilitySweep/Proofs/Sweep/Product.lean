import MobilitySweep.Cli.Run
import MobilitySweep.Proofs.Sweep.Agreement

/-! # The plan as a product

A plan lists the product of its axes and repetitions in order: what stands at a position is told by the digits of the
position, written with the lengths of the axes as radices. The number of runs that a sweep reports and the one that a
valid configuration is announced with are the length of this list.
-/

namespace MobilitySweep

namespace Plan

/-! ## Entries -/

/-- An entry of blocks of one length put together is an entry of one block. -/
theorem getElem?_flatMap {α β : Type} {f : α → List β} {n : Nat} (hlength : ∀ item, (f item).length = n)
    (items : List α) (q : Nat) :
    (items.flatMap f)[q]? = items[q / n]?.bind fun item => (f item)[q % n]? := by
  induction items generalizing q with
  | nil => rfl
  | cons item rest ih =>
      rw [List.flatMap_cons]
      rcases Nat.lt_or_ge q n with hlt | hge
      · rw [List.getElem?_append_left (by rwa [hlength]), Nat.div_eq_of_lt hlt, Nat.mod_eq_of_lt hlt]
        rfl
      · rw [List.getElem?_append_right (by rwa [hlength]), hlength, ih]
        rcases Nat.eq_zero_or_pos n with rfl | hpos
        · have hempty : ∀ item, f item = [] := fun item => List.length_eq_zero_iff.mp (hlength item)
          simp [hempty]
        · rw [Nat.div_eq_sub_div hpos hge, List.getElem?_cons_succ, ← Nat.mod_eq_sub_mod hge]

section

variable (s : SweepSettings) (count : Int64)

theorem length_combinations :
    (combinations s).length = (s.nodeDistances.getD []).length * (s.swapCouples.getD []).length *
      (s.shuffleDistances.getD []).length := by
  simp [combinations, List.length_flatMap, Nat.mul_assoc]

/-- Where a combination stands tells where its values stand on the axes. -/
theorem getElem?_combinations (q : Nat) :
    (combinations s)[q]? =
      (s.nodeDistances.getD [])[q / ((s.swapCouples.getD []).length * (s.shuffleDistances.getD []).length)]?.bind
        fun distance =>
          (s.swapCouples.getD [])[q / (s.shuffleDistances.getD []).length % (s.swapCouples.getD []).length]?.bind
            fun couples => (s.shuffleDistances.getD [])[q % (s.shuffleDistances.getD []).length]?.map
              fun shuffle => ⟨distance, couples, shuffle⟩ := by
  have hblock : ∀ distance couples : Int64,
      ((s.shuffleDistances.getD []).map fun shuffle => (⟨distance, couples, shuffle⟩ : Params)).length =
        (s.shuffleDistances.getD []).length := fun _ _ => List.length_map _
  unfold combinations
  rw [getElem?_flatMap (n := (s.swapCouples.getD []).length * (s.shuffleDistances.getD []).length)]
  · simp only [getElem?_flatMap (hblock _), List.getElem?_map, Nat.mod_mul_left_div_self, Nat.mod_mul_left_mod]
  · intro distance
    simp [List.length_flatMap]

theorem pos_of_lt_length_runs {combinations : List Params} {q : Nat} (hq : q < (runs combinations count).length) :
    0 < count.toInt.toNat := by
  rw [length_runs] at hq
  exact Nat.pos_of_mul_pos_left (Nat.zero_lt_of_lt hq)

/-- Where a run stands tells where its values stand on the axes, and which repetition it is. -/
theorem getElem?_runs {q : Nat} (hq : q < (runs (combinations s) count).length) :
    (runs (combinations s) count)[q]? = (combinations s)[q / count.toInt.toNat]?.map
      fun p => ⟨p, Int64.ofNat (q % count.toInt.toNat)⟩ := by
  have hpos := pos_of_lt_length_runs count hq
  unfold runs
  rw [getElem?_flatMap (n := count.toInt.toNat) fun p => by simp [repetitions]]
  simp only [repetitions, List.getElem?_map, List.getElem?_range (Nat.mod_lt q hpos), Option.map_some]
  cases (combinations s)[q / count.toInt.toNat]? <;> rfl

end

/-! ## Positions -/

/-- The digits of a position, one for each axis and one for the repetition. -/
theorem digits_iff {b c n i j k r q : Nat} (hj : j < b) (hk : k < c) (hr : r < n) :
    (q / (n * c * b) = i ∧ q / (n * c) % b = j ∧ q / n % c = k ∧ q % n = r) ↔ q = r + n * (k + c * (j + b * i)) := by
  rw [← Nat.div_div_eq_div_mul, ← Nat.div_div_eq_div_mul]
  constructor
  · rintro ⟨rfl, rfl, rfl, rfl⟩
    simp only [Nat.mod_add_div]
  · intro hq
    obtain ⟨hrest, hlast⟩ := (Nat.div_mod_unique (Nat.zero_lt_of_lt hr)).mpr ⟨hq.symm, hr⟩
    obtain ⟨hpair, hthird⟩ := (Nat.div_mod_unique (Nat.zero_lt_of_lt hk)).mpr ⟨hrest.symm, hk⟩
    obtain ⟨hfirst, hsecond⟩ := (Nat.div_mod_unique (Nat.zero_lt_of_lt hj)).mpr ⟨hpair.symm, hj⟩
    exact ⟨hfirst, hsecond, hthird, hlast⟩

theorem add_mul_lt {i j a b : Nat} (hi : i < a) (hj : j < b) : j + b * i < a * b := by
  calc j + b * i < b * (i + 1) := by rw [Nat.mul_succ]; omega
    _ ≤ b * a := Nat.mul_le_mul_left b hi
    _ = a * b := Nat.mul_comm b a

/-- Whether runs are the product of three axes and a number of repetitions, in order: the last of them varies
fastest. -/
structure ListsProduct (distances couples shuffles : List Int64) (repetitions : Nat) (runs : List Run) : Prop where
  length : runs.length = distances.length * couples.length * shuffles.length * repetitions
  entry : ∀ (q : Nat) (hq : q < runs.length),
    distances[q / (repetitions * shuffles.length * couples.length)]? = some runs[q].params.nodeDistance ∧
      couples[q / (repetitions * shuffles.length) % couples.length]? = some runs[q].params.swapCouples ∧
      shuffles[q / repetitions % shuffles.length]? = some runs[q].params.shuffleDistance ∧
      runs[q].repetition.toInt = (q % repetitions : Nat)
  once : ∀ i < distances.length, ∀ j < couples.length, ∀ k < shuffles.length, ∀ r < repetitions,
    ∃! q, q < runs.length ∧ q / (repetitions * shuffles.length * couples.length) = i ∧
      q / (repetitions * shuffles.length) % couples.length = j ∧ q / repetitions % shuffles.length = k ∧
      q % repetitions = r

/-- A plan is the product of its axes and repetitions, which are none if their number is negative. -/
theorem lists_product (s : SweepSettings) (count : Int64) :
    ListsProduct (s.nodeDistances.getD []) (s.swapCouples.getD []) (s.shuffleDistances.getD []) count.toInt.toNat
      (runs (combinations s) count) where
  length := by rw [length_runs, length_combinations]
  entry := by
    intro q hq
    have hentry := getElem?_runs s count hq
    rw [List.getElem?_eq_getElem hq, getElem?_combinations] at hentry
    generalize (runs (combinations s) count)[q] = run at hentry
    simp only [eq_comm (a := some run), Option.map_eq_some_iff, Option.bind_eq_some_iff] at hentry
    obtain ⟨_, ⟨distance, hdistance, couples, hcouples, shuffle, hshuffle, rfl⟩, rfl⟩ := hentry
    rw [Nat.div_div_eq_div_mul] at hdistance hcouples
    refine ⟨?_, hcouples, hshuffle, ?_⟩
    · rwa [Nat.mul_assoc, Nat.mul_comm (List.length _)]
    · have hbound := Int64.toInt_lt count
      have hdigit := Nat.mod_lt q (pos_of_lt_length_runs count hq)
      exact Int64.toInt_ofNat_of_lt (by omega)
  once := by
    intro i hi j hj k hk r hr
    refine ⟨r + count.toInt.toNat * (k + (s.shuffleDistances.getD []).length *
      (j + (s.swapCouples.getD []).length * i)), ⟨?_, (digits_iff hj hk hr).mpr rfl⟩, ?_⟩
    · rw [length_runs, length_combinations]
      exact add_mul_lt (add_mul_lt (add_mul_lt hi hj) hk) hr
    · rintro q ⟨-, hdigits⟩
      exact (digits_iff hj hk hr).mp hdigits

end Plan

namespace Sweep

/-! ## The runs counted -/

/-- The report at the end of a sweep has the number of its runs as the total. -/
theorem conclude_yields_total {κ : Type} [Recorder κ] (s : Setup) (startedAt : Instant) (fault : Option Fault) :
    (conclude s startedAt fault : Steps (World κ) Report).Yields fun report => report.total = totalRuns s.config := by
  unfold conclude
  refine Steps.yields_bind _ fun _ => Steps.yields_bind _ fun _ => Steps.yields_bind _ fun _ => ?_
  refine Steps.yields_bind _ fun _ => Steps.yields_bind _ fun _ => Steps.yields_bind _ fun _ => ?_
  exact Steps.yields_bind _ fun _ => Steps.yields_pure rfl

/-- Whatever happens to a sweep, its report has the number of its runs as the total. -/
theorem run_yields_total {κ : Type} [Recorder κ] (s : Setup) (schedules : List (List Nat)) :
    (run s schedules : Steps (World κ) (Report × Option Fault)).Yields
      fun result => result.1.total = totalRuns s.config := by
  unfold run
  refine Steps.yields_bind _ fun startedAt => Steps.yields_bind _ fun fault => ?_
  cases fault with
  | some fault => exact Steps.yields_pure rfl
  | none =>
      refine Steps.yields_bind _ fun loaded => ?_
      cases loaded with
      | error fault => exact Steps.yields_pure rfl
      | ok template =>
          refine Steps.yields_bind _ fun _ => Steps.yields_bind _ fun fault => ?_
          refine (conclude_yields_total s startedAt fault).bind fun report hreport => ?_
          exact Steps.yields_pure hreport

/-- The product of the lengths that the check of a configuration takes is the number that a sweep takes of its
combinations. -/
theorem announcedRuns_eq (c : Config) : Cli.announcedRuns c.sweep = totalRuns c := by
  rw [Cli.announcedRuns, totalRuns, Plan.length_combinations, Int64.ofNat_mul, Int64.ofNat_mul]

/-- The plan of a sweep is the product of its axes and repetitions. If its configuration is valid and the runs can be
counted in a word, their number is the total of every report, and what the check of the configuration prints. -/
theorem product_counted :
    (∀ (s : SweepSettings) (count : Int64),
      Plan.ListsProduct (s.nodeDistances.getD []) (s.swapCouples.getD []) (s.shuffleDistances.getD [])
        count.toInt.toNat (Plan.runs (Plan.combinations s) count)) ∧
    ∀ s : Setup, s.config.validate = .ok () → s.runs.length < 2 ^ 63 →
      (∀ (κ : Type) [Recorder κ] (schedules : List (List Nat)) (moment : Nat) (w : World κ),
        ((run s schedules).runStruck World.interrupt moment w).1.1.total.toInt = s.runs.length) ∧
      ∀ (surroundings : Cli.Surroundings) (a : Cli.Arguments) (files : Files),
        Cli.loadConfig surroundings a files = .ok s.config →
          Cli.configValidate surroundings a files =
            if a.exchange then .exchanged (.object [("runs", .ofNat s.runs.length), ("valid", .bool true)])
            else .printed ("Configuration is valid (" ++ Decimal.ofNat s.runs.length ++ " runs).\n") := by
  refine ⟨Plan.lists_product, fun s hvalid hcount => ?_⟩
  have htotal : (totalRuns s.config).toInt = s.runs.length := by
    have hpositive := (Config.accepted hvalid).repetitions
    rw [totalRuns_eq s (by omega), Int64.toInt_ofNat_of_lt hcount]
  refine ⟨fun κ _ schedules moment w => ?_, fun surroundings a files hload => ?_⟩
  · rw [(run_yields_total s schedules).runStruck World.interrupt moment w, htotal]
  · simp only [Cli.configValidate, hload, hvalid, announcedRuns_eq, Json.ofInt64, Json.ofNat, Decimal.ofInt64, htotal]
    rfl

/-- Without a file and an environment the standard configuration is checked: all 27 combinations are repeated 64
times. A sweep of it that is interrupted at its fourth step reports the same number. -/
theorem standard_product_counted :
    Cli.configValidate ⟨[], secondsClock, "sweep", 1, []⟩ ⟨[], []⟩ (Files.fresh [("site" : Bytes)]) =
        .printed "Configuration is valid (1728 runs).\n" ∧
      ((run ⟨Config.standard, none, .ofName [], "sweep", 1⟩ []).runStruck World.interrupt 3
        (World.start (Files.fresh [("site" : Bytes)]) freshLedger none secondsClock)).1.1.total.toInt = 1728 := by
  have hruns : (⟨Config.standard, none, .ofName [], "sweep", 1⟩ : Setup).runs.length = 1728 := by decide +kernel
  obtain ⟨htotal, hprinted⟩ := product_counted.2 ⟨Config.standard, none, .ofName [], "sweep", 1⟩ (by decide +kernel)
    (by rw [hruns]; decide)
  rw [hruns] at htotal hprinted
  refine ⟨?_, htotal Ledger [] 3 _⟩
  rw [hprinted _ _ _ (by decide +kernel)]
  decide +kernel

end Sweep

end MobilitySweep
