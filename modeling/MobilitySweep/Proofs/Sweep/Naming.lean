import MobilitySweep.Proofs.Number.Digits
import MobilitySweep.Sweep.Setup

/-! # Names of runs

Different runs have different identifiers, and a sweep whose axes repeat no value plans every run once.
-/

namespace MobilitySweep

namespace Run

theorem underscore_notMem_ofInt64 (n : Int64) : (95 : UInt8) ∉ Decimal.ofInt64 n := by
  intro hmem
  rcases Decimal.sign_or_isDigit_of_mem_ofInt64 hmem with h | h <;> exact absurd h (by decide)

/-- Texts are determined up to the first separator and beyond. -/
theorem append_separator_inj {c : UInt8} {x y z w : Bytes} (hx : c ∉ x) (hy : c ∉ y)
    (h : x ++ c :: z = y ++ c :: w) : x = y ∧ z = w := by
  induction x generalizing y with
  | nil =>
      cases y with
      | nil => exact ⟨rfl, (List.cons.inj h).2⟩
      | cons b y => exact absurd ((List.cons.inj h).1 ▸ List.mem_cons_self) hy
  | cons a x ih =>
      cases y with
      | nil => exact absurd ((List.cons.inj h).1 ▸ List.mem_cons_self) hx
      | cons b y =>
          obtain ⟨hab, h⟩ := List.cons.inj h
          obtain ⟨hxy, hzw⟩ := ih (fun hc => hx (List.mem_cons_of_mem a hc))
            (fun hc => hy (List.mem_cons_of_mem b hc)) h
          exact ⟨by rw [hab, hxy], hzw⟩

/-- Different runs have different identifiers. -/
theorem id_injective : Function.Injective id := by
  rintro ⟨⟨d, c, h⟩, r⟩ ⟨⟨d', c', h'⟩, r'⟩ heq
  have hseparator : (("_" : String) : Bytes) = [95] := by decide +kernel
  simp only [id, Params.toText, hseparator, List.append_assoc, List.cons_append, List.nil_append] at heq
  obtain ⟨hd, heq⟩ :=
    append_separator_inj (underscore_notMem_ofInt64 d) (underscore_notMem_ofInt64 d') heq
  obtain ⟨hc, heq⟩ :=
    append_separator_inj (underscore_notMem_ofInt64 c) (underscore_notMem_ofInt64 c') heq
  obtain ⟨hh, hr⟩ :=
    append_separator_inj (underscore_notMem_ofInt64 h) (underscore_notMem_ofInt64 h') heq
  rw [Decimal.ofInt64_injective hd, Decimal.ofInt64_injective hc, Decimal.ofInt64_injective hh,
    Decimal.ofInt64_injective hr]

end Run

/-- Whether no axis of a sweep holds a value twice. -/
structure SweepSettings.Distinct (s : SweepSettings) : Prop where
  distances : (s.nodeDistances.getD []).Nodup
  couples : (s.swapCouples.getD []).Nodup
  shuffles : (s.shuffleDistances.getD []).Nodup

instance (s : SweepSettings) : Decidable s.Distinct :=
  decidable_of_iff (_ ∧ _ ∧ _)
    ⟨fun ⟨hdistances, hcouples, hshuffles⟩ => ⟨hdistances, hcouples, hshuffles⟩, fun ⟨hdistances, hcouples, hshuffles⟩ =>
      ⟨hdistances, hcouples, hshuffles⟩⟩

namespace Plan

/-- The repetitions of a combination are all different. -/
theorem repetitions_nodup (p : Params) (count : Int64) : (repetitions p count).Nodup := by
  refine List.Nodup.map_on ?_ List.nodup_range
  intro i hi j hj hij
  have hbound := Int64.toInt_lt count
  have hi := List.mem_range.mp hi
  have hj := List.mem_range.mp hj
  have hvalue := congrArg Int64.toInt (Run.mk.inj hij).2
  rw [Int64.toInt_ofNat_of_lt (by omega), Int64.toInt_ofNat_of_lt (by omega)] at hvalue
  omega

theorem mem_repetitions {p : Params} {count : Int64} {r : Run} (h : r ∈ repetitions p count) :
    r.params = p := by
  obtain ⟨i, -, rfl⟩ := List.mem_map.mp h
  rfl

/-- Axes without repeated values plan every combination once. -/
theorem combinations_nodup (s : SweepSettings) (hdistances : (s.nodeDistances.getD []).Nodup)
    (hcouples : (s.swapCouples.getD []).Nodup) (hshuffles : (s.shuffleDistances.getD []).Nodup) :
    (combinations s).Nodup := by
  refine List.nodup_flatMap.mpr ⟨fun distance _ => List.nodup_flatMap.mpr ⟨fun couples _ => ?_, ?_⟩, ?_⟩
  · exact hshuffles.map fun _ _ h => (Params.mk.inj h).2.2
  · refine hcouples.imp fun {a b} hab => ?_
    intro p hpa hpb
    obtain ⟨_, -, rfl⟩ := List.mem_map.mp hpa
    obtain ⟨_, -, hp⟩ := List.mem_map.mp hpb
    exact hab (Params.mk.inj hp).2.1.symm
  · refine hdistances.imp fun {a b} hab => ?_
    intro p hpa hpb
    obtain ⟨_, -, hpa⟩ := List.mem_flatMap.mp hpa
    obtain ⟨_, -, hpb⟩ := List.mem_flatMap.mp hpb
    obtain ⟨_, -, rfl⟩ := List.mem_map.mp hpa
    obtain ⟨_, -, hp⟩ := List.mem_map.mp hpb
    exact hab (Params.mk.inj hp).1.symm

/-- Items that come to something are different if what they come to is. -/
theorem nodup_of_flatMap {α β : Type} {f : α → List β} {items : List α} (hf : ∀ item ∈ items, f item ≠ [])
    (h : (items.flatMap f).Nodup) : items.Nodup := by
  obtain ⟨-, hdisjoint⟩ := List.nodup_flatMap.mp h
  refine hdisjoint.imp_of_mem ?_
  rintro a b ha - hab rfl
  obtain ⟨c, hc⟩ := List.exists_mem_of_ne_nil _ (hf a ha)
  exact hab hc hc

/-- Axes with values plan every combination once just if they repeat none. -/
theorem combinations_nodup_iff {s : SweepSettings} (hdistances : s.nodeDistances.getD [] ≠ [])
    (hcouples : s.swapCouples.getD [] ≠ []) (hshuffles : s.shuffleDistances.getD [] ≠ []) :
    (combinations s).Nodup ↔ s.Distinct := by
  constructor
  · intro hnodup
    obtain ⟨distance, hdistance⟩ := List.exists_mem_of_ne_nil _ hdistances
    obtain ⟨couples, hcouple⟩ := List.exists_mem_of_ne_nil _ hcouples
    obtain ⟨shuffle, hshuffle⟩ := List.exists_mem_of_ne_nil _ hshuffles
    have hpairs := (List.nodup_flatMap.mp hnodup).1 distance hdistance
    have hlast := (List.nodup_flatMap.mp hpairs).1 couples hcouple
    refine ⟨nodup_of_flatMap (fun _ _ => ?_) hnodup, nodup_of_flatMap (fun _ _ => ?_) hpairs, hlast.of_map _⟩
    · exact List.ne_nil_of_mem (List.mem_flatMap.mpr ⟨couples, hcouple, List.mem_map_of_mem hshuffle⟩)
    · exact List.ne_nil_of_mem (List.mem_map_of_mem hshuffle)
  · intro hdistinct
    exact combinations_nodup s hdistinct.distances hdistinct.couples hdistinct.shuffles

/-- Different combinations plan every run once. -/
theorem runs_nodup {combinations : List Params} (count : Int64) (h : combinations.Nodup) :
    (runs combinations count).Nodup := by
  refine List.nodup_flatMap.mpr ⟨fun p _ => repetitions_nodup p count, h.imp fun {a b} hab => ?_⟩
  intro r hra hrb
  exact hab (mem_repetitions hra ▸ mem_repetitions hrb)

/-- Combinations that are repeated at all plan every run once just if they are different. -/
theorem runs_nodup_iff {combinations : List Params} {count : Int64} (hcount : 1 ≤ count.toInt) :
    (runs combinations count).Nodup ↔ combinations.Nodup := by
  refine ⟨nodup_of_flatMap fun p _ => ?_, runs_nodup count⟩
  simp only [repetitions, ne_eq, List.map_eq_nil_iff, List.range_eq_nil]
  omega

theorem mem_runs {combinations : List Params} {count : Int64} {r : Run} :
    r ∈ runs combinations count ↔ r.params ∈ combinations ∧ r ∈ repetitions r.params count := by
  simp only [runs, List.mem_flatMap]
  constructor
  · rintro ⟨p, hp, hr⟩
    rw [mem_repetitions hr]
    exact ⟨hp, hr⟩
  · rintro ⟨hp, hr⟩
    exact ⟨r.params, hp, hr⟩

theorem length_runs (combinations : List Params) (count : Int64) :
    (runs combinations count).length = combinations.length * count.toInt.toNat := by
  simp [runs, repetitions, List.length_flatMap, Nat.mul_comm]

end Plan

end MobilitySweep
