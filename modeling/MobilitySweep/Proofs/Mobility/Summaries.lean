import MobilitySweep.Mobility.Generator
import MobilitySweep.Mobility.Summary
import MobilitySweep.Proofs.Number.Ordering

/-! # Summaries of ticks

The summary of samples that come tick by tick: each tick counts every node once and replaces the samples of the tick
before it, and the order holds throughout.
-/

namespace MobilitySweep

/-! ## Whole double precision numbers -/

namespace Binary64

/-- A natural number in units. -/
def ofNat (n : Nat) : Binary64 := .finite false (n * one)

theorem less_ofNat (a b : Nat) : less (ofNat a) (ofNat b) = decide (a < b) := by
  have hone : (0 : Int) < one := by exact_mod_cast one_pos
  simp only [less, ofNat, signedUnits, Bool.false_eq_true, if_false, Nat.cast_mul, mul_lt_mul_iff_left₀ hone,
    Nat.cast_lt]

theorem equals_ofNat (a b : Nat) : equals (ofNat a) (ofNat b) = decide (a = b) := by
  have hone : (one : Int) ≠ 0 := by exact_mod_cast one_pos.ne'
  rw [Bool.eq_iff_iff]
  simp only [equals, ofNat, signedUnits, Bool.false_eq_true, if_false, Nat.cast_mul, beq_iff_eq,
    mul_left_inj' hone, Nat.cast_inj, decide_eq_true_eq]

theorem max_ofNat (a b : Nat) : max (ofNat a) (ofNat b) = ofNat (a ⊔ b) := by
  rw [ofNat, ofNat, max_positive, ofNat, max_mul_of_nonneg a b (Nat.zero_le one)]

end Binary64

namespace Coordinate

open Binary64

theorem toBinary64_natCast (n : Nat) : toBinary64 n = ofNat n := by
  rw [toBinary64, ofNat, Int.natAbs_natCast, decide_eq_false (Int.natCast_nonneg n).not_gt]

theorem signedUnits_coordinate (c : Int) : signedUnits (decide (c < 0)) (c.natAbs * one) = c * one := by
  unfold signedUnits
  push_cast
  by_cases hc : c < 0
  · rw [decide_eq_true hc, if_pos rfl, abs_of_neg hc]
    ring
  · rw [decide_eq_false hc, if_neg Bool.false_ne_true, abs_of_nonneg (not_lt.mp hc)]

/-- The distance of two coordinates. -/
theorem abs_sub_toBinary64 {a b : Int} (h : Held (a - b).natAbs) (hbound : (a - b).natAbs < 2 ^ 1024) :
    ((toBinary64 a).sub (toBinary64 b)).abs = ofNat (a - b).natAbs := by
  have hunits : (signedUnits (decide (a < 0)) (a.natAbs * one) - signedUnits (decide (b < 0)) (b.natAbs * one)).natAbs =
      (a - b).natAbs * one := by
    rw [signedUnits_coordinate, signedUnits_coordinate, ← sub_mul, Int.natAbs_mul, Int.natAbs_natCast]
  have hexact : ExactDifference (toBinary64 a) (toBinary64 b) :=
    exactDifference_of_held (by rw [hunits]; exact h.mul_one) (by rw [hunits]; exact mul_one_lt hbound)
  calc ((toBinary64 a).sub (toBinary64 b)).abs
      = ofUnits (distance (toBinary64 a) (toBinary64 b)) := hexact
    _ = ofUnits ((a - b).natAbs * one : Nat) := by rw [toBinary64, toBinary64, distance, hunits]
    _ = ofNat (a - b).natAbs := rfl

end Coordinate

/-! ## Summaries of ticks -/

namespace Summary

open Binary64

/-- The summary of some samples more, after a given previous one. -/
def counted : Option Sample → Summary → List Sample → Summary
  | _, s, [] => s
  | previous, s, sample :: rest => counted (some sample) (count previous s sample) rest

theorem countAll_eq (previous : Option Sample) (s : Summary) (samples : List Sample) :
    countAll previous s samples =
      { counted previous s samples with nodes := (counted previous s samples).final.length } := by
  induction samples generalizing previous s with
  | nil => rfl
  | cons sample rest ih => exact ih _ _

theorem counted_append (previous : Option Sample) (s : Summary) (first second : List Sample) :
    counted previous s (first ++ second) = counted (first.getLast?.or previous) (counted previous s first) second := by
  induction first generalizing previous s with
  | nil => rfl
  | cons sample rest ih =>
      rw [List.cons_append, counted, ih, counted, List.getLast?_cons]
      cases rest.getLast? <;> rfl

/-! ## The last samples -/

section

variable {sample other : Sample} {done later : List Sample}

/-- Behind samples of smaller nodes a sample takes the place of the one of its node. -/
theorem record_replace (hdone : ∀ d ∈ done, d.node < sample.node) (hnode : other.node = sample.node) :
    record sample (done ++ other :: later) = done ++ sample :: later := by
  induction done with
  | nil => simp [record, hnode]
  | cons d done ih =>
      have hd := hdone d List.mem_cons_self
      have hasymm : ¬ sample.node < d.node := Int64.lt_asymm hd
      have hne : sample.node ≠ d.node := (Int64.ne_of_lt hd).symm
      have hrest := ih fun e he => hdone e (List.mem_cons_of_mem d he)
      simp [record, hasymm, hne, hrest]

/-- Behind samples of smaller nodes a sample of a new node is appended. -/
theorem record_append (hdone : ∀ d ∈ done, d.node < sample.node) : record sample done = done ++ [sample] := by
  induction done with
  | nil => rfl
  | cons d done ih =>
      have hd := hdone d List.mem_cons_self
      have hasymm : ¬ sample.node < d.node := Int64.lt_asymm hd
      have hne : sample.node ≠ d.node := (Int64.ne_of_lt hd).symm
      have hrest := ih fun e he => hdone e (List.mem_cons_of_mem d he)
      simp [record, hasymm, hne, hrest]

theorem find?_done (hdone : ∀ d ∈ done, d.node < sample.node) (later : List Sample) :
    (done ++ later).find? (·.node = sample.node) = later.find? (·.node = sample.node) := by
  rw [List.find?_append, List.find?_eq_none.mpr, Option.none_or]
  intro d hd
  simpa using Int64.ne_of_lt (hdone d hd)

end

/-! ## One sample after another -/

/-- A later sample of the same node, not far away. -/
structure Moved (limit : Nat) (earlier later : Sample) : Prop where
  node : earlier.node = later.node
  step : ∃ move ≤ limit, stepBetween earlier later = ofNat move

/-- Samples that replace those of the same nodes, if there were any. -/
def Supersedes (limit : Nat) (old new : List Sample) : Prop := old = [] ∨ List.Forall₂ (Moved limit) old new

theorem Supersedes.tail {limit : Nat} {old new : List Sample} {sample : Sample}
    (h : Supersedes limit old (sample :: new)) : Supersedes limit old.tail new := by
  rcases h with rfl | h
  · exact Or.inl rfl
  · obtain ⟨_, _, -, hrest, rfl⟩ := List.forall₂_cons_right_iff.mp h
    exact Or.inr hrest

theorem Supersedes.nil {limit : Nat} {old : List Sample} (h : Supersedes limit old []) : old = [] :=
  h.elim id List.forall₂_nil_right_iff.mp

/-- Whether a sample starts a tick. -/
def opens (previous : Option Sample) (sample : Sample) : Bool :=
  match previous with
  | none => true
  | some p => !sample.time.equals p.time

/-- Whether a sample is in order. -/
def inOrder (previous : Option Sample) (sample : Sample) : Bool :=
  match previous with
  | none => true
  | some p => follows p sample

/-- A summary up to a time, with the number of ticks and of samples so far and the last sample of every node. No node
moved further than the limit between two of its samples. -/
structure Reckoned (limit time ticks samples : Nat) (final : List Sample) (s : Summary) : Prop where
  samples : s.samples = samples
  ticks : s.sampledTicks = ticks
  ordered : s.ordered = true
  first : s.firstTime = .zero
  last : s.lastTime = ofNat time
  step : ∃ move ≤ limit, s.maxStep = ofNat move
  final : s.final = final

section

variable {limit time now ticks samples : Nat} {previous : Option Sample} {sample : Sample} {done old rest : List Sample}
  {s : Summary}

theorem Reckoned.count (h : Reckoned limit time ticks samples (done ++ old) s) (horder : inOrder previous sample = true)
    (htime : sample.time = ofNat now) (hnow : time ≤ now) (hdone : ∀ d ∈ done, d.node < sample.node)
    (hold : Supersedes limit old (sample :: rest)) :
    Reckoned limit now (if opens previous sample then ticks + 1 else ticks) (samples + 1) (done ++ sample :: old.tail)
      (Summary.count previous s sample) := by
  obtain ⟨move, hmove, hstep⟩ := h.step
  refine ⟨congrArg (· + 1) h.samples, ?_, ?_, h.first, ?_, ?_, ?_⟩
  · exact congrArg (fun count => if opens previous sample then count + 1 else count) h.ticks
  · exact Bool.and_eq_true_iff.mpr ⟨h.ordered, horder⟩
  · have hlast : (Summary.count previous s sample).lastTime = Binary64.max s.lastTime sample.time := rfl
    rw [hlast, h.last, htime, max_ofNat, max_eq_right hnow]
  · have hseen : (Summary.count previous s sample).maxStep =
        match s.final.find? (·.node = sample.node) with
        | none => s.maxStep
        | some seen => Binary64.max s.maxStep (stepBetween seen sample) := rfl
    rw [hseen, h.final, find?_done hdone]
    rcases hold with rfl | hold
    · exact ⟨move, hmove, hstep⟩
    · obtain ⟨other, later, hmoved, -, rfl⟩ := List.forall₂_cons_right_iff.mp hold
      obtain ⟨way, hway, hbetween⟩ := hmoved.step
      rw [List.find?_cons_of_pos (by simpa using hmoved.node)]
      dsimp only
      rw [hstep, hbetween, max_ofNat]
      exact ⟨_, max_le hmove hway, rfl⟩
  · have hfinal : (Summary.count previous s sample).final = record sample s.final := rfl
    rw [hfinal, h.final]
    rcases hold with rfl | hold
    · rw [List.append_nil]
      exact record_append hdone
    · obtain ⟨other, later, hmoved, -, rfl⟩ := List.forall₂_cons_right_iff.mp hold
      exact record_replace hdone hmoved.node

theorem equals_time {p : Sample} (hp : p.time = ofNat time) (htime : sample.time = ofNat now) :
    sample.time.equals p.time = decide (now = time) := by
  rw [hp, htime, equals_ofNat]

/-- Time passes. -/
theorem follows_of_time {p : Sample} (hp : p.time = ofNat time) (htime : sample.time = ofNat now) (hnow : time < now) :
    follows p sample = true := by
  have hback : ¬ now < time := by omega
  have hsame : now ≠ time := by omega
  simp [follows, hp, htime, less_ofNat, equals_ofNat, hback, hsame]

/-- At one time nodes come in ascending order. -/
theorem follows_of_node {p : Sample} (hp : p.time = ofNat time) (htime : sample.time = ofNat time)
    (hnode : p.node < sample.node) : follows p sample = true := by
  have hafter : ¬ sample.node ≤ p.node := Int64.not_le.mpr hnode
  simp [follows, hp, htime, less_ofNat, equals_ofNat, hafter]

/-! ## One tick after another -/

/-- The rest of a tick replaces the rest of the samples of the tick before. -/
theorem Reckoned.finishTick {p : Sample} (hsorted : rest.Pairwise fun x y => x.node < y.node)
    (htimes : ∀ x ∈ rest, x.time = ofNat time) (hp : p.time = ofNat time)
    (hdone : ∀ d ∈ done ++ [p], ∀ x ∈ rest, d.node < x.node) (hold : Supersedes limit old rest)
    (h : Reckoned limit time ticks samples (done ++ [p] ++ old) s) :
    Reckoned limit time ticks (samples + rest.length) (done ++ p :: rest) (counted (some p) s rest) := by
  induction rest generalizing p done old s samples with
  | nil =>
      rw [hold.nil] at h
      simpa [counted] using h
  | cons sample rest ih =>
      obtain ⟨hbehind, hrest⟩ := List.pairwise_cons.mp hsorted
      have htime := htimes sample List.mem_cons_self
      have hsmaller : ∀ d ∈ done ++ [p], d.node < sample.node := fun d hd => hdone d hd sample List.mem_cons_self
      have hnode : p.node < sample.node := hsmaller p (by simp)
      have hsame : opens (some p) sample = false := by simp [opens, equals_time hp htime]
      have horder : inOrder (some p) sample = true := follows_of_node hp htime hnode
      have hnext := h.count horder htime le_rfl hsmaller hold
      rw [hsame, if_neg Bool.false_ne_true, List.append_cons] at hnext
      have hall := ih hrest (fun x hx => htimes x (List.mem_cons_of_mem sample hx)) htime (fun d hd x hx => ?_)
        hold.tail hnext
      · rw [List.length_cons, List.append_cons]
        exact (by omega : samples + 1 + rest.length = samples + (rest.length + 1)) ▸ hall
      · rcases List.mem_append.mp hd with hd | hd
        · exact hdone d hd x (List.mem_cons_of_mem sample hx)
        · exact List.mem_singleton.mp hd ▸ hbehind x hx

/-- The samples of one tick: one of every node, in ascending order. -/
structure IsTick (size time : Nat) (samples : List Sample) : Prop where
  size : samples.length = size
  sorted : samples.Pairwise fun x y => x.node < y.node
  time : ∀ x ∈ samples, x.time = ofNat time

/-- A tick replaces all samples of the tick before. -/
theorem Reckoned.tick {size : Nat} {block : List Sample} (hblock : IsTick size now block) (hsize : 0 < size)
    (hprevious : ∀ p ∈ previous, p.time = ofNat time ∧ time < now) (hnow : time ≤ now)
    (hold : Supersedes limit old block) (h : Reckoned limit time ticks samples old s) :
    Reckoned limit now (ticks + 1) (samples + size) block (counted previous s block) := by
  cases block with
  | nil =>
      rw [← hblock.size] at hsize
      exact absurd hsize (Nat.lt_irrefl 0)
  | cons sample rest =>
      obtain ⟨hbehind, hrest⟩ := List.pairwise_cons.mp hblock.sorted
      have htime := hblock.time sample List.mem_cons_self
      have hopens : opens previous sample = true := by
        cases previous with
        | none => rfl
        | some p =>
            obtain ⟨hp, hlater⟩ := hprevious p rfl
            simp [opens, equals_time hp htime, hlater.ne']
      have horder : inOrder previous sample = true := by
        cases previous with
        | none => rfl
        | some p =>
            obtain ⟨hp, hlater⟩ := hprevious p rfl
            exact follows_of_time hp htime hlater
      have hstart : Reckoned limit time ticks samples ([] ++ old) s := h
      have hnext := hstart.count horder htime hnow (by simp) hold
      rw [hopens, if_pos rfl] at hnext
      have hsmaller : ∀ d ∈ [] ++ [sample], ∀ x ∈ rest, d.node < x.node := by simpa using hbehind
      have hall := Reckoned.finishTick hrest (fun x hx => hblock.time x (List.mem_cons_of_mem sample hx)) htime hsmaller
        hold.tail hnext
      have hcount : samples + size = samples + 1 + rest.length := by
        rw [← hblock.size, List.length_cons]
        omega
      exact hcount ▸ hall

end

/-- The summary of ticks at ascending times, none of which leads a node too far from where the one before left it. -/
theorem reckoned_ticks {limit size last : Nat} (hsize : 0 < size) {times : Nat → Nat} {blocks : Nat → List Sample}
    (hblocks : ∀ k ≤ last, IsTick size (times k) (blocks k)) (htimes : ∀ k < last, times k < times (k + 1))
    (hmoves : ∀ k < last, List.Forall₂ (Moved limit) (blocks k) (blocks (k + 1))) {s : Summary}
    (h : Reckoned limit (times 0) 0 0 [] s) :
    Reckoned limit (times last) (last + 1) ((last + 1) * size) (blocks last)
      (counted none s ((List.range (last + 1)).flatMap blocks)) := by
  induction last with
  | zero =>
      have hnone : ∀ p ∈ (none : Option Sample), p.time = ofNat (times 0) ∧ times 0 < times 0 := by simp
      simpa using h.tick (hblocks 0 le_rfl) hsize hnone le_rfl (Or.inl rfl)
  | succ last ih =>
      have hearlier := ih (fun k hk => hblocks k (by omega)) (fun k hk => htimes k (by omega))
        (fun k hk => hmoves k (by omega))
      have hnow := htimes last last.lt_succ_self
      have hprevious : ∀ p ∈ ((List.range (last + 1)).flatMap blocks).getLast?.or none,
          p.time = ofNat (times last) ∧ times last < times (last + 1) := by
        intro p hp
        have hsome : blocks last ≠ [] := List.ne_nil_of_length_pos ((hblocks last (by omega)).size ▸ hsize)
        rw [Option.or_none, List.range_succ, List.flatMap_append, List.flatMap_singleton,
          List.getLast?_append_of_ne_nil _ hsome] at hp
        exact ⟨(hblocks last (by omega)).time p (List.mem_of_getLast? hp), hnow⟩
      rw [List.range_succ, List.flatMap_append, counted_append]
      have hnext := hearlier.tick (hblocks (last + 1) le_rfl) hsize hprevious hnow.le
        (Or.inr (hmoves last last.lt_succ_self))
      rw [List.flatMap_singleton, Nat.succ_mul (last + 1) size]
      exact hnext

/-- The summary of all samples of such ticks. -/
theorem ofSamples_ticks {limit size last : Nat} (hsize : 0 < size) {times : Nat → Nat} {blocks : Nat → List Sample}
    (hblocks : ∀ k ≤ last, IsTick size (times k) (blocks k)) (hzero : times 0 = 0)
    (htimes : ∀ k < last, times k < times (k + 1))
    (hmoves : ∀ k < last, List.Forall₂ (Moved limit) (blocks k) (blocks (k + 1))) :
    Reckoned limit (times last) (last + 1) ((last + 1) * size) (blocks last)
        (ofSamples ((List.range (last + 1)).flatMap blocks)) ∧
      (ofSamples ((List.range (last + 1)).flatMap blocks)).nodes = size := by
  have hblock := hblocks 0 (Nat.zero_le last)
  obtain ⟨first, more, hfirst⟩ := List.exists_cons_of_length_pos (hblock.size ▸ hsize)
  obtain ⟨rest, hall⟩ : ∃ rest, (List.range (last + 1)).flatMap blocks = first :: rest :=
    ⟨_, by rw [List.range_succ_eq_map, List.flatMap_cons, hfirst, List.cons_append]⟩
  have htime : first.time = ofNat 0 := hzero ▸ hblock.time first (hfirst ▸ List.mem_cons_self)
  have hnone : ofNat 0 = .zero := by rw [ofNat, Nat.zero_mul, Binary64.zero]
  have hstart : Reckoned limit (times 0) 0 0 [] (start first) := by
    refine ⟨rfl, rfl, rfl, htime.trans hnone, ?_, ⟨0, Nat.zero_le limit, hnone.symm⟩, rfl⟩
    rw [hzero, hnone]
    rfl
  have hcounted := reckoned_ticks hsize hblocks htimes hmoves hstart
  have hsummary : ofSamples ((List.range (last + 1)).flatMap blocks) =
      { counted none (start first) ((List.range (last + 1)).flatMap blocks) with
        nodes := (counted none (start first) ((List.range (last + 1)).flatMap blocks)).final.length } := by
    rw [hall, ofSamples, countAll_eq]
  rw [hsummary]
  refine ⟨⟨hcounted.samples, hcounted.ticks, hcounted.ordered, hcounted.first, hcounted.last, hcounted.step,
    hcounted.final⟩, ?_⟩
  rw [hcounted.final]
  exact (hblocks last le_rfl).size

end Summary

end MobilitySweep
