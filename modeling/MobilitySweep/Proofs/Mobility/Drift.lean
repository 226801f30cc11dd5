import MobilitySweep.Proofs.Mobility.Selection
import MobilitySweep.Proofs.Mobility.Travel

/-! # Pure drift

A herd without couples draws nothing, so that no seed has a say in where it goes: every node keeps its row and drifts
along it, one drift behind each reshuffle. The formula counts the drifts that are over and adds what has passed of the
latest one.
-/

namespace MobilitySweep

/-- How far a herd without couples has drifted when the move of a tick is over. -/
def Params.driftAt (p : Params) (tick : Nat) : Int :=
  let period := p.shuffleDistance.toInt + 4 * p.nodeDistance.toInt
  if tick ≤ period then 0
  else
    let number := (tick - 1) / period
    (number - 1) * p.shuffleDistance.toInt + min p.shuffleDistance.toInt (tick - number * period)

namespace Generator

variable {γ δ : Type} {g : Generator γ}

/-! ## Nothing is drawn -/

/-- A generator with another seed and other draws to come. -/
def reseeded (seed : Int64) (other : δ) (g : Generator γ) : Generator δ :=
  ⟨g.params, { g.options with seed := seed }, other, g.nodes, g.tick, g.total, g.stats⟩

theorem create_reseeded {p : Params} {o : Options} {source : γ} (hcreate : create p o source = .ok g) (seed : Int64)
    (other : δ) : create p { o with seed := seed } other = .ok (g.reseeded seed other) := by
  obtain ⟨hparams, hoptions, rfl⟩ := create_eq hcreate
  have hsame : { o with seed := seed }.validate = .ok () := hoptions
  simp [create, hparams, hsame, bind, Except.bind, Except.mapError, pure, Except.pure, reseeded]

variable [DrawSource γ] [DrawSource δ]

/-- Without couples a reshuffle is a drift. -/
theorem reshuffle_of_no_couples (h : g.params.swapCouples = 0) :
    g.reshuffle = { g with nodes := g.nodes.map (Node.drift (Coordinate.ofInt g.params.shuffleDistance.toInt)) } := by
  have hnone : g.params.swapCouples.toInt.toNat = 0 := by
    rw [h]
    rfl
  rw [reshuffle, hnone]
  rfl

theorem step_source_of_no_couples {next : Generator γ} {result : StepResult} (h : g.params.swapCouples = 0)
    (hstep : g.step = some (result, next)) : next.source = g.source := by
  have hmoved : g.moved.reshuffle.source = g.source := by
    rw [reshuffle_of_no_couples (g := g.moved) h]
    rfl
  rw [step_source hstep, hmoved]
  exact ite_self _

theorem steps_source_of_no_couples (h : g.params.swapCouples = 0) (count : Nat) :
    (steps count [] g).2.source = g.source := by
  induction count generalizing g with
  | zero => rfl
  | succ count ih =>
      cases hstep : g.step with
      | none => rw [steps_of_none hstep]
      | some outcome =>
          obtain ⟨hparams, -⟩ := step_eq_some hstep
          rw [steps_of_step hstep]
          exact (ih (hparams ▸ h)).trans (step_source_of_no_couples h hstep)

theorem reshuffle_reseeded (h : g.params.swapCouples = 0) (seed : Int64) (other : δ) :
    (g.reseeded seed other).reshuffle = g.reshuffle.reseeded seed other := by
  rw [reshuffle_of_no_couples h, reshuffle_of_no_couples (g := g.reseeded seed other) h]
  rfl

theorem step_reseeded (h : g.params.swapCouples = 0) (seed : Int64) (other : δ) :
    (g.reseeded seed other).step = g.step.map fun outcome => (outcome.1, outcome.2.reseeded seed other) := by
  have hreshuffle := reshuffle_reseeded (g := g.moved) h seed other
  have hstep : (g.reseeded seed other).step = if g.done then none else
      let samples := if g.sampled then g.moved.nodes.map (Node.sample g.tick) else []
      some (⟨g.tick, samples, g.endsPeriod⟩,
        { (if g.endsPeriod then (g.moved.reseeded seed other).reshuffle else g.moved.reseeded seed other) with
          tick := g.tick + 1
          stats := ⟨g.stats.ticks + 1, g.stats.samples + Int64.ofNat samples.length,
            if g.endsPeriod then g.stats.reshuffles + 1 else g.stats.reshuffles⟩ }) := rfl
  rw [hstep, hreshuffle]
  unfold step
  cases g.done <;> cases g.endsPeriod <;> rfl

theorem steps_reseeded (h : g.params.swapCouples = 0) (seed : Int64) (other : δ) (count : Nat) :
    steps count [] (g.reseeded seed other) = ((steps count [] g).1, (steps count [] g).2.reseeded seed other) := by
  induction count generalizing g with
  | zero => rfl
  | succ count ih =>
      have hother := step_reseeded h seed other
      cases hstep : g.step with
      | none =>
          rw [hstep] at hother
          rw [steps_of_none hstep, steps_of_none hother]
      | some outcome =>
          obtain ⟨hparams, -⟩ := step_eq_some hstep
          rw [hstep] at hother
          rw [steps_of_step hstep, steps_of_step hother, ih (hparams ▸ h)]

/-- Without couples the draws to come have no part in the trace. -/
theorem traceText_reseeded (h : g.params.swapCouples = 0) (seed : Int64) (other : δ) :
    (g.reseeded seed other).traceText = g.traceText := by
  rw [(run_unlimited _).1, (run_unlimited _).1, samples, steps_reseeded h]
  rfl

/-! ## Rows that drift -/

/-- A square herd in rows, all of whose nodes have drifted by one distance and head for another. -/
def drifting (side : Nat) (distance passed ahead : Int) : List Node :=
  (List.range side).flatMap fun i => (List.range side).map fun j =>
    ⟨i * side + j, i * distance + passed, j * distance, i * distance + ahead, j * distance⟩

section

variable {side : Nat} {distance passed ahead : Int}

theorem mem_drifting {n : Node} (h : n ∈ drifting side distance passed ahead) : ∃ i < side, ∃ j < side,
    n = ⟨i * side + j, i * distance + passed, j * distance, i * distance + ahead, j * distance⟩ := by
  simp only [drifting, List.mem_flatMap, List.mem_map, List.mem_range] at h
  obtain ⟨i, hi, j, hj, rfl⟩ := h
  exact ⟨i, hi, j, hj, rfl⟩

theorem drifting_map {α : Type} (f : Node → α) : (drifting side distance passed ahead).map f =
    (List.range side).flatMap fun i => (List.range side).map fun j =>
      f ⟨i * side + j, i * distance + passed, j * distance, i * distance + ahead, j * distance⟩ := by
  simp only [drifting, List.map_flatMap, List.map_map, Function.comp_def]

/-- The columns of a grid are held exactly, whatever has been added to them as long as the last one is. -/
theorem column_isExact {i : Nat} (hi : i < side) (hdistance : 0 ≤ distance) {shift : Int} (hshift : 0 ≤ shift)
    (hexact : ((side : Int) - 1) * distance + shift ≤ Coordinate.exactBound) :
    Coordinate.IsExact (i * distance + shift) := by
  have hcolumn : (i : Int) * distance ≤ (side - 1) * distance := mul_le_mul_of_nonneg_right (by omega) hdistance
  exact ⟨add_nonneg (mul_nonneg (by omega) hdistance) hshift, by omega⟩

theorem drifting_isClear (hdistance : 0 ≤ distance) (hpassed : 0 ≤ passed) (hahead : passed ≤ ahead)
    (hexact : ((side : Int) - 1) * distance + ahead ≤ Coordinate.exactBound) :
    ∀ n ∈ drifting side distance passed ahead, n.IsClear := by
  intro n hn
  obtain ⟨i, hi, j, hj, rfl⟩ := mem_drifting hn
  have hrow : Coordinate.IsExact (j * distance) := by
    simpa using column_isExact hj hdistance le_rfl (by omega)
  exact Node.IsExact.isClear ⟨column_isExact hi hdistance hpassed (by omega), hrow,
    column_isExact hi hdistance (hpassed.trans hahead) hexact, hrow⟩

/-- Ticks on the way of rows. -/
theorem drifting_after (ticks : Nat) : (drifting side distance passed ahead).map (Node.after ticks) =
    drifting side distance (Coordinate.after ticks passed ahead) ahead := by
  have hcolumn (c : Int) : Coordinate.after ticks (c + passed) (c + ahead) = c + Coordinate.after ticks passed ahead := by
    simp only [Coordinate.after]
    omega
  have hrow (c : Int) : Coordinate.after ticks c c = c := by
    simp only [Coordinate.after]
    omega
  rw [drifting_map]
  simp only [Node.after, hcolumn, hrow]
  rfl

/-- A drift sends rows on. -/
theorem drifting_drift {drift : Int} (hdistance : 0 ≤ distance) (hpassed : 0 ≤ passed) (hdrift : 0 ≤ drift)
    (hexact : ((side : Int) - 1) * distance + (passed + drift) ≤ Coordinate.exactBound) :
    (drifting side distance passed ahead).map (Node.drift (Coordinate.ofInt drift)) =
      drifting side distance passed (passed + drift) := by
  rw [drifting_map]
  apply List.flatMap_congr
  intro i hi
  have hcolumn := column_isExact (List.mem_range.mp hi) hdistance (add_nonneg hpassed hdrift) hexact
  have hwidth : 0 ≤ ((side : Int) - 1) * distance := mul_nonneg (by have := List.mem_range.mp hi; omega) hdistance
  simp only [Node.drift, Coordinate.ofInt_of_isExact ⟨hdrift, by omega⟩, add_assoc, Coordinate.ofInt_of_isExact hcolumn]

end

/-! ## Periods -/

section

variable {p : Params} {o : Options} {source : γ} {start : Generator γ} {side : Nat}

omit [DrawSource γ] in
/-- A fresh grid has not drifted. -/
theorem create_drifting (hcreate : create p o source = .ok start) (hside : o.nodes.toInt = side * side)
    (hexact : ((side : Int) - 1) * p.nodeDistance.toInt ≤ Coordinate.exactBound) :
    start.nodes = drifting side p.nodeDistance.toInt 0 0 := by
  obtain ⟨hparams, hoptions, rfl⟩ := create_eq hcreate
  obtain ⟨hdistance, -, -, -⟩ := Params.of_validate hparams
  obtain ⟨hroot, -, hsmall⟩ := Options.gridSide_eq hoptions hside
  have hcell (cell : Nat) (hcell : cell ∈ List.range side) :
      Coordinate.ofInt (cell * p.nodeDistance.toInt) = cell * p.nodeDistance.toInt :=
    Coordinate.ofInt_of_isExact (cell_toInt hdistance hsmall hexact (List.mem_range.mp hcell)).2
  dsimp only
  rw [hroot, grid_eq hdistance hsmall (hexact.trans_lt (by decide)), drifting]
  apply List.flatMap_congr
  intro i hi
  apply List.map_congr_left
  intro j hj
  simp [hcell i hi, hcell j hj, Node.resting]

/-- Between a reshuffle and the tick that ends the next period nothing is reshuffled. -/
theorem calm_of_reshuffled {number count : Nat} (hinterval : 0 < g.options.sampleInterval.toInt)
    (hpositive : 0 < g.params.period.toInt) (hclock : g.tick = number * g.params.period.toInt.toNat + 1)
    (hcount : count < g.params.period.toInt.toNat) (hleft : count ≤ g.remaining) :
    ∀ result ∈ (steps count [] g).1, result.reshuffled = false := by
  refine calm_of_ticks hinterval hpositive hleft fun i hi => ?_
  rw [hclock, Nat.add_assoc, Nat.mul_comm, Nat.mul_add_mod, Nat.mod_eq_of_lt (by omega)]
  omega

/-- The tick that ends the period behind a reshuffle. -/
theorem endsPeriod_of_reshuffled {number count : Nat} (hpositive : 0 < g.params.period.toInt)
    (hclock : g.tick = number * g.params.period.toInt.toNat + 1) (hcount : count + 1 = g.params.period.toInt.toNat)
    (hleft : count ≤ g.remaining) : (steps count [] g).2.endsPeriod = true := by
  obtain ⟨hlater, -⟩ := steps_later hleft
  have hend : (steps count [] g).2.tick = (number + 1) * g.params.period.toInt.toNat := by
    rw [hlater.tick, hclock, Nat.succ_mul]
    omega
  rw [endsPeriod_iff (by rwa [hlater.params]), hlater.params, hend, Nat.mul_mod_left]
  exact ⟨Nat.mul_pos (Nat.succ_pos number) (by omega), rfl⟩

/-- A period leads rows to where they are heading, if that is no further than the drift, and its reshuffle sends them
on. -/
theorem drifting_period {passed ahead : Int} {count : Nat} (hparams : g.params = p) (hcouples : p.swapCouples = 0)
    (hnodes : g.nodes = drifting side p.nodeDistance.toInt passed ahead) (hdistance : 0 ≤ p.nodeDistance.toInt)
    (hshuffle : 0 ≤ p.shuffleDistance.toInt) (hpassed : 0 ≤ passed) (hahead : passed ≤ ahead)
    (hway : ahead ≤ passed + (count + 1 : Nat))
    (hexact : ((side : Int) - 1) * p.nodeDistance.toInt + (ahead + p.shuffleDistance.toInt) ≤ Coordinate.exactBound)
    (hleft : count < g.remaining) (hcalm : ∀ result ∈ (steps count [] g).1, result.reshuffled = false)
    (hends : (steps count [] g).2.endsPeriod = true) :
    g.herd (count + 1) = drifting side p.nodeDistance.toInt ahead (ahead + p.shuffleDistance.toInt) := by
  obtain ⟨hlater, -⟩ := steps_later hleft.le
  obtain ⟨result, next, hstep, hsucc⟩ := steps_succ hleft
  obtain ⟨-, -, -, hnext⟩ := step_eq_some hstep
  have hclear : ∀ n ∈ g.nodes, n.IsClear := by
    rw [hnodes]
    exact drifting_isClear hdistance hpassed hahead (by omega)
  have harrived : Coordinate.after (count + 1) passed ahead = ahead := by
    simp only [Coordinate.after]
    omega
  have hmoved := moved_of_calm hclear hleft.le hcalm
  rw [hnodes, drifting_after, harrived] at hmoved
  have hkept : (steps count [] g).2.moved.params = p := hlater.params.trans hparams
  rw [hends, if_pos rfl, reshuffle_of_no_couples (hkept ▸ hcouples), hkept] at hnext
  rw [herd, hsucc, hnext, hmoved]
  exact drifting_drift hdistance (hpassed.trans hahead) hshuffle hexact

/-- The rows behind a reshuffle. -/
theorem herd_drifting (hcreate : create p o source = .ok start) (hcouples : p.swapCouples = 0)
    (hside : o.nodes.toInt = side * side) (hticks : p.ticks o.duration < 2 ^ 63) {number : Nat}
    (hreached : number * p.period.toInt.toNat < start.remaining)
    (hexact : ((side : Int) - 1) * p.nodeDistance.toInt + number * p.shuffleDistance.toInt ≤ Coordinate.exactBound) :
    start.herd (number * p.period.toInt.toNat + 1) =
      drifting side p.nodeDistance.toInt ((number - 1 : Nat) * p.shuffleDistance.toInt)
        (number * p.shuffleDistance.toInt) := by
  obtain ⟨hparams, hoptions, -⟩ := create_eq hcreate
  obtain ⟨hdistance, -, hshuffle, hpositive⟩ := Params.of_validate hparams
  obtain ⟨-, -, hduration, hinterval⟩ := Options.of_validate_ok hoptions
  obtain ⟨-, -, hperiod⟩ := Params.totalTicks_toInt hparams hduration hticks
  obtain ⟨hkept, hsame, -, htick⟩ := create_settings hcreate
  -- By induction on the reshuffles: a period carries the rows from one to the next.
  induction number with
  | zero =>
      rw [Nat.cast_zero, zero_mul, add_zero] at hexact
      have hnodes := create_drifting hcreate hside hexact
      have hclear : ∀ n ∈ start.nodes, n.IsClear := by
        rw [hnodes]
        exact drifting_isClear hdistance le_rfl le_rfl (by omega)
      have hcalm : ∀ result ∈ (steps 1 [] start).1, result.reshuffled = false :=
        calm_of_ticks (hsame ▸ hinterval) (hkept ▸ hpositive) (by omega) fun i hi => by omega
      rw [Nat.zero_mul, Nat.zero_add, herd_of_calm hclear (by omega) hcalm, hnodes, drifting_after]
      simp [Coordinate.after]
  | succ number ih =>
      have hshift : ((number + 1 : Nat) : Int) * p.shuffleDistance.toInt =
          number * p.shuffleDistance.toInt + p.shuffleDistance.toInt := by
        push_cast
        ring
      have hbehind : number * p.shuffleDistance.toInt - p.shuffleDistance.toInt ≤
          (number - 1 : Nat) * p.shuffleDistance.toInt := by
        rw [← sub_one_mul]
        exact mul_le_mul_of_nonneg_right (by omega) hshuffle
      have hahead : ((number - 1 : Nat) : Int) * p.shuffleDistance.toInt ≤ number * p.shuffleDistance.toInt :=
        mul_le_mul_of_nonneg_right (by omega) hshuffle
      rw [Nat.succ_mul] at hreached
      rw [hshift] at hexact ⊢
      have hbefore := ih (by omega) (by omega)
      obtain ⟨hlater, -⟩ := steps_later (g := start) (by omega : number * p.period.toInt.toNat + 1 ≤ start.remaining)
      obtain ⟨count, hcount⟩ : ∃ count, p.period.toInt.toNat = count + 1 := Nat.exists_eq_succ_of_ne_zero (by omega)
      have hp : (steps (number * p.period.toInt.toNat + 1) [] start).2.params = p := hlater.params.trans hkept
      have hnow : (steps (number * p.period.toInt.toNat + 1) [] start).2.tick = number * p.period.toInt.toNat + 1 := by
        rw [hlater.tick, htick, Nat.zero_add]
      have hleft : count < (steps (number * p.period.toInt.toNat + 1) [] start).2.remaining := by
        rw [hlater.remaining]
        omega
      have hcalm := calm_of_reshuffled (by rwa [hlater.options, hsame]) (by rwa [hp]) (by rw [hp, hnow])
        (by rw [hp]; omega) hleft.le
      have hends := endsPeriod_of_reshuffled (by rwa [hp]) (by rw [hp, hnow]) (by rw [hp]; omega)
        hleft.le
      have hherd := drifting_period hp hcouples hbefore hdistance hshuffle (mul_nonneg (Int.natCast_nonneg _) hshuffle)
        hahead (by omega) hexact hleft hcalm hends
      rw [herd_add] at hherd
      rw [Nat.succ_mul, Nat.add_sub_cancel, ← hherd]
      congr 1
      omega

/-- How far rows have drifted some ticks behind a reshuffle. -/
theorem driftAt_eq {number count period : Nat} (hshuffle : 0 ≤ p.shuffleDistance.toInt)
    (hperiod : (period : Int) = p.shuffleDistance.toInt + 4 * p.nodeDistance.toInt) (hcount : count < period) :
    p.driftAt (number * period + count + 1) = Coordinate.after (count + 1)
      ((number - 1 : Nat) * p.shuffleDistance.toInt) (number * p.shuffleDistance.toInt) := by
  rw [Params.driftAt, ← hperiod]
  dsimp only
  cases number with
  | zero =>
      rw [if_pos (by push_cast; omega), Nat.zero_sub, Nat.cast_zero, zero_mul, Coordinate.after]
      omega
  | succ number =>
      have hlate : (period : Int) ≤ ((number + 1) * period : Nat) := by
        rw [Nat.succ_mul]
        omega
      have hnumber : (((number + 1) * period + count + 1 : Nat) - 1 : Int) / period = number + 1 := by
        rw [Nat.cast_succ, add_sub_cancel_right, Nat.cast_add, Nat.cast_mul, add_comm,
          Int.add_mul_ediv_right _ _ (by omega), Int.ediv_eq_zero_of_lt (by omega) (by omega)]
        push_cast
        ring
      have hahead : ((number + 1 : Nat) : Int) * p.shuffleDistance.toInt =
          number * p.shuffleDistance.toInt + p.shuffleDistance.toInt := by
        push_cast
        ring
      rw [if_neg (by omega), hnumber, add_sub_cancel_right, Nat.add_sub_cancel, hahead, Coordinate.after]
      push_cast
      omega

/-- Some ticks behind a reshuffle the rows are on their way. -/
theorem herd_behind_reshuffle {number count : Nat} (hcreate : create p o source = .ok start) (hcouples : p.swapCouples = 0)
    (hside : o.nodes.toInt = side * side) (hticks : p.ticks o.duration < 2 ^ 63) (hcount : count < p.period.toInt.toNat)
    (hreached : number * p.period.toInt.toNat + count + 1 < start.remaining)
    (hexact : ((side : Int) - 1) * p.nodeDistance.toInt + number * p.shuffleDistance.toInt ≤ Coordinate.exactBound) :
    (start.herd (number * p.period.toInt.toNat + count + 1 + 1)).map (fun n => (n.index, n.position)) =
      (drifting side p.nodeDistance.toInt (Coordinate.after (count + 1) ((number - 1 : Nat) * p.shuffleDistance.toInt)
        (number * p.shuffleDistance.toInt)) (number * p.shuffleDistance.toInt)).map (fun n => (n.index, n.position)) := by
  obtain ⟨hparams, hoptions, -⟩ := create_eq hcreate
  obtain ⟨hdistance, -, hshuffle, hpositive⟩ := Params.of_validate hparams
  obtain ⟨-, -, -, hinterval⟩ := Options.of_validate_ok hoptions
  obtain ⟨hkept, hsame, -, htick⟩ := create_settings hcreate
  obtain ⟨hlater, -⟩ := steps_later (g := start) (by omega : number * p.period.toInt.toNat + 1 ≤ start.remaining)
  have hp : (steps (number * p.period.toInt.toNat + 1) [] start).2.params = p := hlater.params.trans hkept
  have hnodes : (steps (number * p.period.toInt.toNat + 1) [] start).2.nodes = drifting side _ _ _ :=
    herd_drifting hcreate hcouples hside hticks (by omega) hexact
  have hclear : ∀ n ∈ (steps (number * p.period.toInt.toNat + 1) [] start).2.nodes, n.IsClear := by
    rw [hnodes]
    exact drifting_isClear hdistance (mul_nonneg (Int.natCast_nonneg _) hshuffle)
      (mul_le_mul_of_nonneg_right (by omega) hshuffle) hexact
  have hleft : count < (steps (number * p.period.toInt.toNat + 1) [] start).2.remaining := by
    rw [hlater.remaining]
    omega
  have hcalm := calm_of_reshuffled (by rwa [hlater.options, hsame]) (by rwa [hp])
    (by rw [hp, hlater.tick, htick, Nat.zero_add]) (by rwa [hp]) hleft.le
  have hwalked := herd_succ_of_calm (f := fun n => (n.index, n.position)) (fun _ _ => rfl) (fun _ _ => rfl) hclear
    hleft hcalm
  have hsum : number * p.period.toInt.toNat + 1 + (count + 1) = number * p.period.toInt.toNat + count + 1 + 1 := by omega
  rw [herd_add, hsum, hnodes] at hwalked
  rw [hwalked, ← drifting_after, List.map_map]
  rfl

/-- Where a tick leads the rows. -/
theorem herd_driftAt (hcreate : create p o source = .ok start) (hcouples : p.swapCouples = 0)
    (hside : o.nodes.toInt = side * side) (hticks : p.ticks o.duration < 2 ^ 63) {tick : Nat}
    (hreached : tick < start.remaining)
    (hexact : ((side : Int) - 1) * p.nodeDistance.toInt +
      ((tick - 1) / p.period.toInt.toNat : Nat) * p.shuffleDistance.toInt ≤ Coordinate.exactBound) :
    (start.herd (tick + 1)).map (fun n => (n.index, n.position)) =
      (List.range side).flatMap fun i => (List.range side).map fun j =>
        (i * side + j, i * p.nodeDistance.toInt + p.driftAt tick, j * p.nodeDistance.toInt) := by
  obtain ⟨hparams, hoptions, -⟩ := create_eq hcreate
  obtain ⟨-, -, hshuffle, hpositive⟩ := Params.of_validate hparams
  obtain ⟨-, -, hduration, -⟩ := Options.of_validate_ok hoptions
  obtain ⟨-, -, hperiod⟩ := Params.totalTicks_toInt hparams hduration hticks
  have hwhole : (p.period.toInt.toNat : Int) = p.shuffleDistance.toInt + 4 * p.nodeDistance.toInt := by
    rw [Int.toNat_of_nonneg hpositive.le, hperiod]
  cases tick with
  | zero =>
      have hherd : start.herd (0 * p.period.toInt.toNat + 1) = drifting side _ _ _ :=
        herd_drifting hcreate hcouples hside hticks (by omega) (by simpa using hexact)
      have hnone : p.driftAt 0 = 0 := if_pos (by omega)
      rw [Nat.zero_mul] at hherd
      rw [hherd, drifting_map, hnone]
      simp [Node.position]
  | succ tick =>
      rw [Nat.add_sub_cancel] at hexact
      have hinside : tick % p.period.toInt.toNat < p.period.toInt.toNat := Nat.mod_lt _ (by omega)
      obtain ⟨number, count, hnumber, hcount, htick⟩ : ∃ number count, tick / p.period.toInt.toNat = number ∧
          count < p.period.toInt.toNat ∧ tick = number * p.period.toInt.toNat + count :=
        ⟨_, _, rfl, hinside, by rw [Nat.mul_comm]; exact (Nat.div_add_mod _ _).symm⟩
      rw [hnumber] at hexact
      subst htick
      rw [herd_behind_reshuffle hcreate hcouples hside hticks hcount hreached hexact,
        ← driftAt_eq hshuffle hwhole hcount, drifting_map]
      rfl

/-- Without couples nothing is drawn and no seed matters, and the trace is told by a formula: the columns are as far as
the drifts that are over and what has passed of the latest one, and the rows are where they were. -/
theorem drift_has_closed_form (hcreate : create p o source = .ok start) (hcouples : p.swapCouples = 0)
    (hside : o.nodes.toInt = side * side) {ticks : Nat} (hticks : p.ticks o.duration = ticks) (hbound : ticks < 2 ^ 63) :
    (∀ count, (steps count [] start).2.source = source) ∧
      (∀ (δ : Type) [DrawSource δ] (seed : Int64) (other : δ), ∃ twin,
        create p { o with seed := seed } other = .ok twin ∧ twin.traceText = start.traceText) ∧
      (∀ tick < ticks, ((side : Int) - 1) * p.nodeDistance.toInt +
          ((tick - 1) / p.period.toInt.toNat : Nat) * p.shuffleDistance.toInt ≤ Coordinate.exactBound →
        (start.herd (tick + 1)).map (fun n => (n.index, n.position)) =
          (List.range side).flatMap fun i => (List.range side).map fun j =>
            (i * side + j, i * p.nodeDistance.toInt + p.driftAt tick, j * p.nodeDistance.toInt)) ∧
      (((side : Int) - 1) * p.nodeDistance.toInt +
          ((ticks - 2) / p.period.toInt.toNat : Nat) * p.shuffleDistance.toInt ≤ Coordinate.exactBound →
        start.traceText = Trace.text (((List.range ticks).filter fun tick => tick % o.sampleInterval.toInt.toNat = 0).flatMap
          fun tick => (List.range side).flatMap fun i => (List.range side).map fun j => Node.sample tick
            (Node.resting (i * side + j) (i * p.nodeDistance.toInt + p.driftAt tick) (j * p.nodeDistance.toInt)))) := by
  have hleft := create_remaining hcreate hticks hbound
  obtain ⟨hparams, hoptions, -⟩ := create_eq hcreate
  obtain ⟨-, -, hshuffle, hpositive⟩ := Params.of_validate hparams
  obtain ⟨-, -, -, hinterval⟩ := Options.of_validate_ok hoptions
  obtain ⟨hkept, hsame, -, htick⟩ := create_settings hcreate
  have hpositions (tick : Nat) (hreached : tick < ticks) := herd_driftAt hcreate hcouples hside
    (hticks ▸ Int.ofNat_lt.mpr hbound) (hreached.trans_eq hleft.symm)
  refine ⟨fun count => ?_, fun δ _ seed other => ⟨_, create_reseeded hcreate seed other, traceText_reseeded
    (hkept ▸ hcouples) seed other⟩, hpositions, fun hexact => ?_⟩
  · rw [steps_source_of_no_couples (hkept ▸ hcouples)]
    obtain ⟨-, -, rfl⟩ := create_eq hcreate
    rfl
  · rw [(run_unlimited _).1, samples_eq (hsame ▸ hinterval) (hkept ▸ hpositive), hleft, htick, hsame]
    simp only [Nat.zero_add]
    congr 1
    refine List.flatMap_congr fun tick hmem => ?_
    have hreached : tick < ticks := List.mem_range.mp (List.mem_of_mem_filter hmem)
    have hfewer : ((tick - 1) / p.period.toInt.toNat : Nat) ≤ (ticks - 2) / p.period.toInt.toNat :=
      Nat.div_le_div_right (by omega)
    have hherd := congrArg (List.map fun place : Nat × Int × Int =>
      Node.sample tick (Node.resting place.1 place.2.1 place.2.2)) (hpositions tick hreached
        (le_trans (by gcongr) hexact))
    simp only [List.map_map, List.map_flatMap] at hherd
    exact hherd

/-- Nine nodes that drift two units at each reshuffle: after two reshuffles and one tick more the columns stand three
units on, and another seed gives the same trace. -/
theorem nine_nodes_drift :
    ∃ start twin : Generator Pcg, create ⟨1, 0, 2⟩ ⟨9, 15, 13, 7⟩ (Pcg.ofSeed 7) = .ok start ∧
      create ⟨1, 0, 2⟩ ⟨9, 15, 13, 8⟩ (Pcg.ofSeed 8) = .ok twin ∧ twin.traceText = start.traceText ∧
      start.traceText = Trace.text ([(0, 0), (13, 3)].flatMap fun (sampled : Nat × Int) =>
        (List.range 3).flatMap fun i => (List.range 3).map fun j =>
          Node.sample sampled.1 (Node.resting (i * 3 + j) (i * 1 + sampled.2) (j * 1))) := by
  obtain ⟨start, hcreate⟩ := exists_create (p := ⟨1, 0, 2⟩) (o := ⟨9, 15, 13, 7⟩) (by decide) (by decide +kernel)
    (Pcg.ofSeed 7)
  obtain ⟨-, hseeds, -, htext⟩ := drift_has_closed_form hcreate rfl (by decide : (9 : Int64).toInt = (3 : Nat) * (3 : Nat))
    (by decide : _ = ((21 : Nat) : Int)) (by decide)
  obtain ⟨twin, htwin, hsame⟩ := hseeds Pcg 8 (Pcg.ofSeed 8)
  refine ⟨start, twin, hcreate, htwin, hsame, ?_⟩
  rw [htext (by decide)]
  have hsampled : (List.range 21).filter (fun tick => decide (tick % (13 : Int64).toInt.toNat = 0)) = [0, 13] := by decide
  rw [hsampled]
  rfl

end

end Generator

end MobilitySweep
