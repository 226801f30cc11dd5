import MobilitySweep.Proofs.Mobility.Course
import MobilitySweep.Proofs.Mobility.Summaries

/-! # Inspecting traces

The summary of a whole trace: the sampled ticks are the multiples of the sample interval, every one of them samples the
whole herd, and no node gets further than the interval from one to the next.
-/

namespace MobilitySweep

/-! ## How far nodes get -/

namespace Coordinate

/-- A coordinate of either sign within the exact bound. -/
def IsBounded (c : Int) : Prop := |c| ≤ exactBound

theorem ofInt_of_isBounded {n : Int} (h : IsBounded n) : ofInt n = n := by
  simp only [IsBounded, exactBound, abs_le] at h
  have hround : Root.rounded n.natAbs = n.natAbs := rounded_of_le (by omega)
  unfold ofInt Coordinate
  rw [hround]
  split <;> omega

/-- A tick closes a gap by at most one unit. -/
theorem approach_isBounded {position destination : Int} (h : IsBounded position) :
    IsBounded (approach position destination) ∧ |approach position destination - position| ≤ 1 := by
  simp only [IsBounded, exactBound, abs_le] at h
  unfold approach Coordinate
  split
  next hlt =>
    by_cases hlast : position = 9007199254740992
    · have hstuck : ofInt (position + 1) = position := by
        rw [hlast]
        decide +kernel
      rw [hstuck, min_eq_left (le_of_lt hlt)]
      simpa [IsBounded, exactBound, abs_le] using h
    · have hnext : ofInt (position + 1) = position + 1 := by
        apply ofInt_of_isBounded
        simp only [IsBounded, exactBound, abs_le]
        omega
      rw [hnext, min_eq_left (by omega)]
      simp only [IsBounded, exactBound, abs_le]
      omega
  next =>
    split
    next hlt =>
      by_cases hlast : position = -9007199254740992
      · have hstuck : ofInt (position - 1) = position := by
          rw [hlast]
          decide +kernel
        rw [hstuck, max_eq_left (le_of_lt hlt)]
        simpa [IsBounded, exactBound, abs_le] using h
      · have hnext : ofInt (position - 1) = position - 1 := by
          apply ofInt_of_isBounded
          simp only [IsBounded, exactBound, abs_le]
          omega
        rw [hnext, max_eq_left (by omega)]
        simp only [IsBounded, exactBound, abs_le]
        omega
    next => simpa [IsBounded, exactBound, abs_le] using h

end Coordinate

namespace Node

/-- A node that stands within the exact bound. -/
structure IsBounded (n : Node) : Prop where
  x : Coordinate.IsBounded n.x
  y : Coordinate.IsBounded n.y

theorem advance_isBounded {n : Node} (h : n.IsBounded) : n.advance.IsBounded :=
  ⟨(Coordinate.approach_isBounded h.x).1, (Coordinate.approach_isBounded h.y).1⟩

/-- The same node at a distance along each axis of at most so many units. -/
structure Near (units : Int) (n m : Node) : Prop where
  index : m.index = n.index
  x : |m.x - n.x| ≤ units
  y : |m.y - n.y| ≤ units

/-- The node where it stands, heading nowhere. -/
def stopped (n : Node) : Node := resting n.index n.x n.y

theorem Near.trans {units more : Int} {n m k : Node} (h : Near units n m) (h' : Near more m k) :
    Near (units + more) n k :=
  ⟨h'.index.trans h.index, by linarith [abs_sub_le k.x m.x n.x, h.x, h'.x],
    by linarith [abs_sub_le k.y m.y n.y, h.y, h'.y]⟩

theorem advance_near {n : Node} (h : n.IsBounded) : Near 1 n n.advance :=
  ⟨rfl, (Coordinate.approach_isBounded h.x).2, (Coordinate.approach_isBounded h.y).2⟩

end Node

namespace Generator

open Node

variable {γ : Type} [DrawSource γ]

theorem forall₂_near_trans {units more : Int} {first second third : List Node}
    (h : List.Forall₂ (Near units) first second) (h' : List.Forall₂ (Near more) second third) :
    List.Forall₂ (Near (units + more)) first third := by
  induction h generalizing third with
  | nil =>
      rw [List.forall₂_nil_left_iff.mp h']
      exact .nil
  | cons hnear _ ih =>
      obtain ⟨k, rest, hk, hrest, rfl⟩ := List.forall₂_cons_left_iff.mp h'
      exact .cons (hnear.trans hk) (ih hrest)

theorem step_near {g next : Generator γ} {result : StepResult} (hbounded : ∀ n ∈ g.nodes, n.IsBounded)
    (hstep : g.step = some (result, next)) : List.Forall₂ (Near 1) g.nodes next.nodes := by
  -- Where a node stands is all that matters, and a reshuffle does not change it.
  have hplaces := step_map (f := stopped) (fun _ _ => rfl) (fun _ _ => rfl) hstep
  have hmoved : List.Forall₂ (Near 1) g.nodes (next.nodes.map stopped) := by
    rw [hplaces, List.forall₂_map_right_iff, List.forall₂_same]
    intro n hn
    have hnear := advance_near (hbounded n hn)
    exact ⟨hnear.index, hnear.x, hnear.y⟩
  exact (List.forall₂_map_right_iff.mp hmoved).imp fun n m h => ⟨h.index, h.x, h.y⟩

theorem steps_isBounded {g : Generator γ} (hbounded : ∀ n ∈ g.nodes, n.IsBounded) (count : Nat) :
    ∀ n ∈ g.herd count, n.IsBounded :=
  steps_forall (fun _ hn => advance_isBounded hn) (fun _ hn => ⟨hn.x, hn.y⟩) (fun _ _ hn _ => ⟨hn.x, hn.y⟩) hbounded
    count

/-- Ticks lead no node further than there are ticks. -/
theorem herd_near {g : Generator γ} (hbounded : ∀ n ∈ g.nodes, n.IsBounded) (first more : Nat) :
    List.Forall₂ (Near more) (g.herd first) (g.herd (first + more)) := by
  induction more with
  | zero => exact List.forall₂_same.mpr fun n _ => ⟨rfl, by simp, by simp⟩
  | succ more ih =>
      have hnodes := steps_isBounded hbounded (first + more)
      have hlast : List.Forall₂ (Near 1) (g.herd (first + more)) (g.herd (first + more + 1)) := by
        unfold herd at hnodes ⊢
        rw [steps_add (first + more) 1]
        cases hstep : (steps (first + more) [] g).2.step with
        | none =>
            rw [steps_of_none hstep]
            exact List.forall₂_same.mpr fun n _ => ⟨rfl, by simp, by simp⟩
        | some outcome =>
            rw [steps_of_step hstep]
            exact step_near hnodes hstep
      exact_mod_cast forall₂_near_trans ih hlast

end Generator

namespace Generator

open Binary64 Summary

/-! ## The ticks of a run -/

/-- The multiples of an interval below a number. -/
theorem filter_multiples {interval : Nat} (h : 0 < interval) (ticks : Nat) :
    ((List.range ticks).filter fun tick => tick % interval = 0) =
      (List.range ((ticks + interval - 1) / interval)).map (· * interval) := by
  induction ticks with
  | zero =>
      have hnone : (0 + interval - 1) / interval = 0 := Nat.div_eq_of_lt (by omega)
      rw [hnone]
      rfl
  | succ tick ih =>
      rw [List.range_succ, List.filter_append, ih, ceil_div_succ h]
      by_cases hmultiple : tick % interval = 0
      · have hquotient : (tick + interval - 1) / interval * interval = tick := by
          obtain ⟨k, rfl⟩ := Nat.dvd_of_mod_eq_zero hmultiple
          have hceil : (interval * k + interval - 1) / interval = k := by
            have hsum : interval * k + interval - 1 = interval - 1 + interval * k := by omega
            rw [hsum, Nat.add_mul_div_left _ _ h, Nat.div_eq_of_lt (by omega), Nat.zero_add]
          rw [hceil, Nat.mul_comm]
        rw [if_pos hmultiple, List.range_succ, List.map_append, List.map_singleton, hquotient]
        simp [hmultiple]
      · simp [hmultiple]

theorem held_of_le {n : Nat} (h : n ≤ 9007199254740992) : Held n := by
  rcases Nat.lt_or_eq_of_le h with hlt | rfl
  · exact .of_lt (by simpa using hlt)
  · exact held_two_pow 53

/-- A node that gets not too far moves not too far in the trace. -/
theorem moved_of_near {units : Nat} (hunits : units ≤ 9007199254740992) {n m : Node} (h : Node.Near units n m)
    (tick later : Nat) : Moved units (n.sample tick) (m.sample later) := by
  have hx := h.x
  have hy := h.y
  rw [Int.abs_eq_natAbs, Nat.cast_le] at hx hy
  have hbound {way : Nat} (hway : way ≤ units) : Held way ∧ way < 2 ^ 1024 :=
    ⟨held_of_le (hway.trans hunits), (hway.trans hunits).trans_lt (by decide +kernel)⟩
  refine ⟨congrArg Int64.ofNat h.index.symm, _, max_le hx hy, ?_⟩
  have hwayX := Coordinate.abs_sub_toBinary64 (hbound hx).1 (hbound hx).2
  have hwayY := Coordinate.abs_sub_toBinary64 (hbound hy).1 (hbound hy).2
  simp only [stepBetween, Node.sample, hwayX, hwayY, max_ofNat]

variable {γ : Type} [DrawSource γ]

omit [DrawSource γ] in
/-- The samples of a herd at one time. -/
theorem isTick_of_indices {nodes : List Node} {size tick : Nat} (hindices : nodes.map Node.index = List.range size)
    (hsize : size < 2 ^ 63) (htick : tick ≤ 9007199254740992) : IsTick size tick (nodes.map (Node.sample tick)) := by
  have hlength := congrArg List.length hindices
  rw [List.length_map, List.length_range] at hlength
  have hbound {n : Node} (hn : n ∈ nodes) : n.index < size :=
    List.mem_range.mp (hindices ▸ List.mem_map_of_mem hn)
  have hsorted : nodes.Pairwise fun n m => n.index < m.index := by
    rw [← List.pairwise_map, hindices]
    exact List.pairwise_lt_range
  refine ⟨by rw [List.length_map, hlength], ?_, fun s hs => ?_⟩
  · rw [List.pairwise_map]
    refine hsorted.imp_of_mem fun {n m} hn hm hlt => ?_
    have hfirst := hbound hn
    have hsecond := hbound hm
    simp only [Node.sample, Int64.lt_iff_toInt_lt]
    rw [Int64.toInt_ofNat_of_lt (by omega), Int64.toInt_ofNat_of_lt (by omega)]
    omega
  · obtain ⟨n, -, rfl⟩ := List.mem_map.mp hs
    have hexact : Coordinate.IsExact tick := by
      simp only [Coordinate.IsExact, Coordinate.exactBound]
      omega
    simp only [Node.sample, Coordinate.ofInt_of_isExact hexact, Coordinate.toBinary64_natCast]

omit [DrawSource γ] in
/-- A grid whose last cell is held exactly. -/
theorem create_isBounded {p : Params} {o : Options} {source : γ} {start : Generator γ}
    (h : create p o source = .ok start)
    (hgrid : ((Nat.sqrt o.nodes.toInt.toNat : Int) - 1) * p.nodeDistance.toInt ≤ Coordinate.exactBound) :
    ∀ n ∈ start.nodes, n.IsBounded := by
  obtain ⟨hparams, hoptions, rfl⟩ := create_eq h
  obtain ⟨hdistance, -, -, -⟩ := Params.of_validate hparams
  have hsquare := Options.gridSide_sq hoptions
  have hnodes := o.nodes.toInt_lt
  set side := (Options.gridSide o.nodes).toInt.toNat
  have hroot : Nat.sqrt o.nodes.toInt.toNat = side := by rw [← hsquare, Nat.sqrt_eq]
  have hside : side ≤ 2 ^ 32 := by
    have hsmall : side * side < 2 ^ 32 * 2 ^ 32 := by omega
    exact (Nat.mul_self_lt_mul_self_iff.mp hsmall).le
  rw [hroot] at hgrid
  intro n hn
  obtain ⟨index, hindex, rfl⟩ := List.mem_map.mp hn
  have hcell {cell : Nat} (hcell : cell < side) :
      Coordinate.IsBounded (Coordinate.ofInt (Int64.ofNat cell * p.nodeDistance).toInt) := by
    obtain ⟨hvalue, hlow, hhigh⟩ := cell_toInt hdistance hside hgrid hcell
    rw [hvalue, Coordinate.IsBounded, abs_of_nonneg hlow]
    exact hhigh
  have hinside := List.mem_range.mp hindex
  have hpos : 0 < side := Nat.pos_of_mul_pos_left (by omega : 0 < side * side)
  exact ⟨hcell (Nat.div_lt_of_lt_mul hinside), hcell (Nat.mod_lt _ hpos)⟩

/-- Every tick of a trace samples the whole herd. -/
theorem herd_isTick {p : Params} {o : Options} {source : γ} {start : Generator γ}
    (hcreate : create p o source = .ok start) {tick : Nat} (hinside : tick < start.remaining)
    (hexact : tick ≤ 9007199254740992) :
    IsTick o.nodes.toInt.toNat tick ((start.herd (tick + 1)).map (Node.sample tick)) := by
  have hnodes := o.nodes.toInt_lt
  exact isTick_of_indices ((herd_indices hinside).trans (create_indices hcreate)) (by omega) hexact

/-- From one tick to a later one no node moves further than there are ticks between them. -/
theorem herd_moved {start : Generator γ} (hbounded : ∀ n ∈ start.nodes, n.IsBounded) (tick : Nat) {interval : Nat}
    (hinterval : interval ≤ 9007199254740992) :
    List.Forall₂ (Moved interval) ((start.herd (tick + 1)).map (Node.sample tick))
      ((start.herd (tick + interval + 1)).map (Node.sample (tick + interval))) := by
  have hnear := herd_near hbounded (tick + 1) interval
  rw [Nat.add_right_comm] at hnear
  rw [List.forall₂_map_left_iff, List.forall₂_map_right_iff]
  exact hnear.imp fun n m h => moved_of_near hinterval h _ _

/-- The sampled ticks of a whole trace, each with the herd behind it. -/
theorem samples_blocks {p : Params} {o : Options} {source : γ} {start : Generator γ}
    (hcreate : create p o source = .ok start) {ticks : Nat} (hticks : p.ticks o.duration = ticks) (hsome : 0 < ticks)
    (hbound : ticks < 2 ^ 63) :
    start.samples = (List.range ((ticks - 1) / o.sampleInterval.toInt.toNat + 1)).flatMap fun k =>
      (start.herd (k * o.sampleInterval.toInt.toNat + 1)).map (Node.sample (k * o.sampleInterval.toInt.toNat)) := by
  have hremaining := create_remaining hcreate hticks hbound
  have hcounted := create_counted hcreate
  obtain ⟨-, hoptions, hstart⟩ := create_eq hcreate
  obtain ⟨-, -, -, hinterval⟩ := Options.of_validate_ok hoptions
  have htick : start.tick = 0 := hstart ▸ rfl
  have hkept : start.options = o := hstart ▸ rfl
  have hceil := ceil_div_pred (by omega : 0 < o.sampleInterval.toInt.toNat) (by omega : 0 < ticks)
  rw [samples_eq hcounted.interval hcounted.period, hremaining, htick, hkept]
  simp only [Nat.zero_add]
  rw [filter_multiples (by omega), hceil, List.flatMap_map]

theorem greatest_multiple {interval ticks : Nat} (hsome : 0 < ticks) :
    IsGreatest {tick | tick < ticks ∧ interval ∣ tick} ((ticks - 1) / interval * interval) := by
  refine ⟨⟨?_, Nat.dvd_mul_left _ _⟩, ?_⟩
  · have := Nat.div_mul_le_self (ticks - 1) interval
    omega
  · rintro tick ⟨htick, k, rfl⟩
    rw [Nat.mul_comm interval k]
    rcases Nat.eq_zero_or_pos interval with rfl | hpos
    · simp
    · exact Nat.mul_le_mul_right interval ((Nat.le_div_iff_mul_le hpos).mpr (by rw [Nat.mul_comm]; omega))

/-- The trace of a whole run passes inspection, as long as the grid and the ticks are held exactly. -/
theorem trace_passes_inspection {p : Params} {o : Options} {source : γ} {start : Generator γ}
    (hcreate : create p o source = .ok start) {ticks : Nat} (hticks : p.ticks o.duration = ticks)
    (hexact : (ticks : Int) ≤ Coordinate.exactBound + 1)
    (hgrid : ((Nat.sqrt o.nodes.toInt.toNat : Int) - 1) * p.nodeDistance.toInt ≤ Coordinate.exactBound) :
    let summary := Summary.ofSamples start.samples
    summary.nodes = o.nodes.toInt.toNat ∧ Int64.ofNat summary.samples = (start.run .unlimited).2.1.stats.samples ∧
      summary.sampledTicks = summary.samples / o.nodes.toInt.toNat ∧ summary.ordered = true ∧
      summary.firstTime = .zero ∧
      ∃ last move : Nat, IsGreatest {tick | tick < ticks ∧ o.sampleInterval.toInt.toNat ∣ tick} last ∧
        summary.lastTime = Coordinate.toBinary64 last ∧ move ≤ o.sampleInterval.toInt.toNat ∧
        summary.maxStep = Coordinate.toBinary64 move ∧
        (steps ticks [] start).1[last]?.map StepResult.samples = some summary.final := by
  intro summary
  have hticksBound : ticks ≤ 9007199254740993 := by
    simp only [Coordinate.exactBound] at hexact
    omega
  have hremaining := create_remaining hcreate hticks (by omega)
  have hbounded := create_isBounded hcreate hgrid
  have hstats := finished_stats hcreate hticks (by omega)
  have hcounted := create_counted hcreate
  obtain ⟨hparams, hoptions, hstart⟩ := create_eq hcreate
  obtain ⟨hnodes, -, hduration, hpositive⟩ := Options.of_validate_ok hoptions
  obtain ⟨-, hsome, -⟩ := Params.totalTicks_toInt hparams hduration (by omega)
  have hnodesBound := o.nodes.toInt_lt
  have hsamples := samples_blocks hcreate hticks (by omega) (by omega)
  have hgreatest : IsGreatest {tick | tick < ticks ∧ o.sampleInterval.toInt.toNat ∣ tick} _ :=
    greatest_multiple (by omega)
  have htick : start.tick = 0 := hstart ▸ rfl
  have hkept : start.options = o := hstart ▸ rfl
  set interval := o.sampleInterval.toInt.toNat
  set size := o.nodes.toInt.toNat
  set last := (ticks - 1) / interval
  have hinterval : 0 < interval := by omega
  have hinside : last * interval < ticks := hgreatest.1.1
  have hbefore {k : Nat} (hk : k ≤ last) : k * interval < ticks := (Nat.mul_le_mul_right interval hk).trans_lt hinside
  have hblocks : ∀ k ≤ last,
      IsTick size (k * interval) ((start.herd (k * interval + 1)).map (Node.sample (k * interval))) := fun k hk => by
    have hin := hbefore hk
    exact herd_isTick hcreate (by omega) (by omega)
  have hmoves : ∀ k < last, List.Forall₂ (Moved interval)
      ((start.herd (k * interval + 1)).map (Node.sample (k * interval)))
      ((start.herd ((k + 1) * interval + 1)).map (Node.sample ((k + 1) * interval))) := fun k hk => by
    have hin := hbefore (Nat.succ_le_of_lt hk)
    rw [Nat.succ_mul] at hin ⊢
    exact herd_moved hbounded (k * interval) (by omega)
  have htimes : ∀ k < last, k * interval < (k + 1) * interval := fun k _ =>
    Nat.mul_lt_mul_of_pos_right k.lt_succ_self hinterval
  -- The samples are the sampled ticks one after another, so they can be reckoned tick by tick.
  obtain ⟨hreckoned, hcount⟩ := ofSamples_ticks (by omega : 0 < size) hblocks (Nat.zero_mul interval) htimes hmoves
  rw [← hsamples] at hreckoned hcount
  obtain ⟨move, hmove, hstep⟩ := hreckoned.step
  refine ⟨hcount, ?_, ?_, hreckoned.ordered, hreckoned.first, last * interval, move, hgreatest, ?_, hmove, ?_, ?_⟩
  · rw [hreckoned.samples, (run_unlimited start).2, hstats, Nat.mul_comm]
  · rw [hreckoned.samples, hreckoned.ticks, Nat.mul_div_cancel _ (by omega)]
  · rw [hreckoned.last, Coordinate.toBinary64_natCast]
  · rw [hstep, Coordinate.toBinary64_natCast]
  · have hyields := steps_yields hcounted.interval hcounted.period hremaining.ge
    have hsampled : last * interval % interval = 0 := Nat.mul_mod_left _ _
    rw [hyields, List.getElem?_map, List.getElem?_range hinside, hreckoned.final]
    simp only [Option.map_some, yield, htick, hkept, Nat.zero_add]
    rw [if_pos hsampled]

/-- Fifteen ticks of four nodes, sampled every ten: two sampled ticks in order. -/
theorem fifteen_ticks_pass_inspection :
    ∃ (start : Generator Pcg) (move : Nat), create ⟨1, 2, 1⟩ ⟨4, 10, 10, 7⟩ (Pcg.ofSeed 7) = .ok start ∧
      (Summary.ofSamples start.samples).nodes = 4 ∧ (Summary.ofSamples start.samples).ordered = true ∧
      (Summary.ofSamples start.samples).maxStep = Coordinate.toBinary64 move ∧ move ≤ 10 := by
  obtain ⟨start, hcreate⟩ := exists_create (p := ⟨1, 2, 1⟩) (o := ⟨4, 10, 10, 7⟩) (by decide) (by decide +kernel)
    (Pcg.ofSeed 7)
  obtain ⟨hnodes, -, -, hordered, -, -, move, -, -, hmove, hstep, -⟩ :=
    trace_passes_inspection hcreate (by decide : _ = ((15 : Nat) : Int)) (by decide) (by decide +kernel)
  exact ⟨start, move, hcreate, hnodes, hordered, hstep, hmove⟩

end Generator

end MobilitySweep
