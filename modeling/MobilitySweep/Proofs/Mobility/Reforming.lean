import MobilitySweep.Proofs.Mobility.Grids
import MobilitySweep.Proofs.Mobility.Motion

/-! # The grid re-forms

A herd of at most five by five nodes forms its grid again within every period. After a reshuffle no
node is further from its destination than the drift and the width of the grid, and a period has just
as many ticks. So every reshuffle finds all nodes at rest, on the grid of the reshuffle before.
-/

namespace MobilitySweep

namespace Generator

/-- The points of a square grid that is shifted along x. -/
def gridPoints (side : Nat) (distance shift : Int) : Multiset (Int × Int) :=
  ((List.range side).flatMap fun (i : Nat) => (List.range side).map fun (j : Nat) =>
    ((i : Int) * distance + shift, (j : Int) * distance) : List (Int × Int))

theorem gridPoints_bounds {side : Nat} {distance shift : Int} {point : Int × Int}
    (hdistance : 0 ≤ distance) (hpoint : point ∈ gridPoints side distance shift) :
    (shift ≤ point.1 ∧ point.1 ≤ (side - 1) * distance + shift) ∧
      0 ≤ point.2 ∧ point.2 ≤ (side - 1) * distance := by
  simp only [gridPoints, Multiset.mem_coe, List.mem_flatMap, List.mem_map, List.mem_range] at hpoint
  obtain ⟨i, hi, j, hj, rfl⟩ := hpoint
  have hcell (c : Nat) (hc : c < side) :
      0 ≤ (c : Int) * distance ∧ (c : Int) * distance ≤ (side - 1) * distance :=
    ⟨by positivity, mul_le_mul_of_nonneg_right (by omega) hdistance⟩
  have hx := hcell i hi
  have hy := hcell j hj
  dsimp only
  omega

/-- A drift shifts the whole grid. -/
theorem gridPoints_shift (side : Nat) (distance shift drift : Int) :
    (gridPoints side distance shift).map (fun point => (point.1 + drift, point.2)) =
      gridPoints side distance (shift + drift) := by
  simp only [gridPoints, Multiset.map_coe, List.map_flatMap, List.map_map]
  congr 2
  funext i
  apply List.map_congr_left
  intro j _
  simp only [Function.comp_apply, Prod.mk.injEq, and_true]
  omega

/-- How a herd is under way: its destinations are the grid of the reshuffle with a given number, and
all nodes will be there within some ticks. -/
structure UnderWay (side number : Nat) (p : Params) (ticks : Int) (nodes : List Node) : Prop where
  exact : ∀ n ∈ nodes, n.IsExact
  within : ∀ n ∈ nodes, n.Within ticks
  heading : destinations nodes =
    gridPoints side p.nodeDistance.toInt (number * p.shuffleDistance.toInt)

/-- Parameters whose period is a sum of words that do not wrap, for a grid that holds its coordinates
exactly up to the reshuffle with a given number. -/
structure Holds (side number : Nat) (p : Params) : Prop where
  distance_nonneg : 0 ≤ p.nodeDistance.toInt
  shuffle_nonneg : 0 ≤ p.shuffleDistance.toInt
  side_le : side ≤ 5
  exact : ((side : Int) - 1) * p.nodeDistance.toInt + number * p.shuffleDistance.toInt ≤
    Coordinate.exactBound
  period : p.period.toInt = p.shuffleDistance.toInt + 4 * p.nodeDistance.toInt
  period_pos : 0 < p.period.toInt

variable {side number : Nat} {p : Params}

theorem Holds.mono {fewer : Nat} (h : Holds side number p) (hle : fewer ≤ number) :
    Holds side fewer p := by
  have hshift : (fewer : Int) * p.shuffleDistance.toInt ≤ number * p.shuffleDistance.toInt :=
    mul_le_mul_of_nonneg_right (by omega) h.shuffle_nonneg
  exact { h with exact := by have := h.exact; omega }

/-- The widest way over the grid, drift included, takes at most a period. -/
theorem Holds.width_le (h : Holds side number p) :
    ((side : Int) - 1) * p.nodeDistance.toInt + p.shuffleDistance.toInt ≤ p.period.toInt := by
  have hside := h.side_le
  have hwidth : ((side : Int) - 1) * p.nodeDistance.toInt ≤ 4 * p.nodeDistance.toInt :=
    mul_le_mul_of_nonneg_right (by omega) h.distance_nonneg
  rw [h.period]
  omega

/-- Every point of a grid that is held is a pair of exact coordinates. -/
theorem Holds.point_exact (h : Holds side number p) {point : Int × Int}
    (hpoint : point ∈ gridPoints side p.nodeDistance.toInt (number * p.shuffleDistance.toInt)) :
    Coordinate.IsExact point.1 ∧ Coordinate.IsExact point.2 := by
  have hbounds := gridPoints_bounds h.distance_nonneg hpoint
  have hshift : 0 ≤ (number : Int) * p.shuffleDistance.toInt :=
    mul_nonneg (by omega) h.shuffle_nonneg
  have hexact := h.exact
  simp only [Coordinate.IsExact]
  omega

/-- A tick brings the herd nearer by one. -/
theorem UnderWay.advance {ticks : Int} {nodes : List Node} (hticks : 0 ≤ ticks)
    (h : UnderWay side number p (ticks + 1) nodes) :
    UnderWay side number p ticks (nodes.map Node.advance) where
  exact n hn := by
    obtain ⟨old, hold, rfl⟩ := List.mem_map.mp hn
    exact Node.advance_isExact (h.exact old hold)
  within n hn := by
    obtain ⟨old, hold, rfl⟩ := List.mem_map.mp hn
    exact Node.advance_within (h.exact old hold) hticks (h.within old hold)
  heading := by
    rw [← h.heading]
    simp only [destinations, List.map_map]
    rfl

/-- A herd that rests keeps resting. -/
theorem UnderWay.advance_resting {nodes : List Node} (h : UnderWay side number p 0 nodes) :
    UnderWay side number p 0 (nodes.map Node.advance) :=
  UnderWay.advance le_rfl ⟨h.exact, fun n hn => (h.within n hn).mono (by omega), h.heading⟩

theorem UnderWay.atRest {nodes : List Node} (h : UnderWay side number p 0 nodes) :
    ∀ n ∈ nodes, n.atRest = true :=
  fun n hn => (Node.within_zero_iff n).mp (h.within n hn)

/-- A herd at rest stands on the grid. -/
theorem UnderWay.positions {nodes : List Node} (h : UnderWay side number p 0 nodes) :
    positions nodes = gridPoints side p.nodeDistance.toInt (number * p.shuffleDistance.toInt) := by
  rw [positions_eq_destinations h.atRest, h.heading]

variable {γ : Type}

/-- A node at rest is sent on by the drift. -/
theorem UnderWay.drift_destination {nodes : List Node} (h : UnderWay side number p 0 nodes)
    (hholds : Holds side (number + 1) p) {n : Node} (hn : n ∈ nodes) :
    (n.drift (Coordinate.ofInt p.shuffleDistance.toInt)).destination =
      (n.destination.1 + p.shuffleDistance.toInt, n.destination.2) := by
  have hpoint := gridPoints_bounds hholds.distance_nonneg (h.positions ▸ mem_positions hn)
  have hrest := Node.position_of_atRest (h.atRest n hn)
  have hnonneg := hholds.shuffle_nonneg
  have hnumber : 0 ≤ (number : Int) * p.shuffleDistance.toInt := mul_nonneg (by omega) hnonneg
  have hexact := hholds.exact
  have hshift : ((number + 1 : Nat) : Int) * p.shuffleDistance.toInt =
      number * p.shuffleDistance.toInt + p.shuffleDistance.toInt := by
    push_cast
    ring
  rw [hshift] at hexact
  simp only [Node.position, Node.destination, Prod.mk.injEq] at hpoint hrest
  have hdrift : Coordinate.IsExact p.shuffleDistance.toInt := ⟨hnonneg, by omega⟩
  have hsum : Coordinate.IsExact (n.x + p.shuffleDistance.toInt) :=
    ⟨add_nonneg (hnumber.trans hpoint.1.1) hnonneg, by
      have := hpoint.1.2
      linarith⟩
  simp only [Node.destination, Node.drift, Coordinate.ofInt_of_isExact hdrift, Coordinate.ofInt_of_isExact hsum, ← hrest.1]

/-- The destinations that a reshuffle of a resting herd hands out. -/
theorem UnderWay.drifted {g : Generator γ} (h : UnderWay side number p 0 g.nodes)
    (hparams : g.params = p) (hholds : Holds side (number + 1) p) :
    destinations (g.nodes.map (Node.drift (Coordinate.ofInt g.params.shuffleDistance.toInt))) =
      gridPoints side p.nodeDistance.toInt ((number + 1 : Nat) * p.shuffleDistance.toInt) := by
  have hshift : ((number + 1 : Nat) : Int) * p.shuffleDistance.toInt =
      number * p.shuffleDistance.toInt + p.shuffleDistance.toInt := by
    push_cast
    ring
  rw [hshift, ← gridPoints_shift, ← h.heading, hparams]
  simp only [destinations, Multiset.map_coe, List.map_map]
  congr 1
  exact List.map_congr_left fun n hn => h.drift_destination hholds hn

/-- A tick within a period does not reshuffle. -/
theorem endsPeriod_of_inside {g : Generator γ} (number passed : Int)
    (hclock : (g.tick : Int) = number * g.params.period.toInt + passed) (hpos : 0 < passed)
    (hlt : passed < g.params.period.toInt) : g.endsPeriod = false := by
  have hrest : (g.tick : Int) % g.params.period.toInt = passed := by
    rw [hclock, add_comm, Int.add_mul_emod_self_right, Int.emod_eq_of_lt hpos.le hlt]
  simp [endsPeriod, hrest, hpos.ne']

/-- Every positive multiple of the period reshuffles. -/
theorem endsPeriod_of_multiple {g : Generator γ} (number : Int) (hnumber : 1 ≤ number)
    (hclock : (g.tick : Int) = number * g.params.period.toInt) (hpos : 0 < g.params.period.toInt) :
    g.endsPeriod = true := by
  have hrest : (g.tick : Int) % g.params.period.toInt = 0 := by
    rw [hclock, Int.mul_emod_left]
  have htick : 0 < (g.tick : Int) := hclock ▸ mul_pos (by omega) hpos
  simp [endsPeriod, hrest, Int.natCast_pos.mp htick]

/-- A generator after the move of the coming tick. -/
def moved (g : Generator γ) : Generator γ := { g with nodes := g.nodes.map Node.advance }

variable [DrawSource γ]

/-- A reshuffle sends a resting herd on a way of at most one period. -/
theorem UnderWay.reshuffle {g : Generator γ} (h : UnderWay side number p 0 g.nodes)
    (hparams : g.params = p) (hholds : Holds side (number + 1) p) :
    UnderWay side (number + 1) p p.period.toInt g.reshuffle.nodes := by
  have hheading : destinations g.reshuffle.nodes = gridPoints side p.nodeDistance.toInt
      ((number + 1 : Nat) * p.shuffleDistance.toInt) := by
    rw [reshuffle_destinations, h.drifted hparams hholds]
  have hpositions : Generator.positions g.reshuffle.nodes = gridPoints side p.nodeDistance.toInt
      (number * p.shuffleDistance.toInt) := by
    rw [Generator.positions, reshuffle_positions, ← h.positions, Generator.positions]
  have hfrom (n : Node) (hn : n ∈ g.reshuffle.nodes) := hpositions ▸ mem_positions hn
  have hto (n : Node) (hn : n ∈ g.reshuffle.nodes) := hheading ▸ mem_destinations hn
  refine ⟨fun n hn => ?_, fun n hn => ?_, hheading⟩
  · have hposition := (hholds.mono (Nat.le_succ number)).point_exact (hfrom n hn)
    have hdestination := hholds.point_exact (hto n hn)
    exact ⟨hposition.1, hposition.2, hdestination.1, hdestination.2⟩
  · have hposition := gridPoints_bounds hholds.distance_nonneg (hfrom n hn)
    have hdestination := gridPoints_bounds hholds.distance_nonneg (hto n hn)
    have hwidth := hholds.width_le
    have hnonneg := hholds.shuffle_nonneg
    have hshift : ((number + 1 : Nat) : Int) * p.shuffleDistance.toInt =
        number * p.shuffleDistance.toInt + p.shuffleDistance.toInt := by
      push_cast
      ring
    simp only [Node.position, Node.destination, hshift] at hposition hdestination
    constructor
    · rw [abs_le]
      constructor <;> linarith [hposition.1.1, hposition.1.2, hdestination.1.1, hdestination.1.2]
    · rw [abs_le]
      constructor <;> linarith [hposition.2.1, hposition.2.2, hdestination.2.1, hdestination.2.2]

/-- Where a generator stands in its first periods: on its first grid until the first reshuffle, then so
many ticks into the period after some reshuffle. -/
inductive Stage (side : Nat) (g : Generator γ) : Prop where
  | first (early : (g.tick : Int) ≤ g.params.period.toInt)
      (resting : UnderWay side 0 g.params 0 g.nodes)
  | later (number : Nat) (passed : Int) (started : 1 ≤ number) (nonneg : 0 ≤ passed)
      (clock : (g.tick : Int) = number * g.params.period.toInt + 1 + passed)
      (inside : passed < g.params.period.toInt)
      (underWay : UnderWay side number g.params (g.params.period.toInt - passed) g.nodes)

/-- All that a tick does to nodes, clock and parameters. -/
theorem step_eq_some {g next : Generator γ} {result : StepResult}
    (h : g.step = some (result, next)) :
    next.params = g.params ∧ next.tick = g.tick + 1 ∧ result.reshuffled = g.endsPeriod ∧
      next.nodes = if g.endsPeriod then g.moved.reshuffle.nodes else g.moved.nodes := by
  unfold step at h
  split at h
  next => simp at h
  next =>
    simp only [Option.some.injEq, Prod.mk.injEq] at h
    obtain ⟨rfl, rfl⟩ := h
    cases hends : g.endsPeriod <;> exact ⟨rfl, rfl, rfl, rfl⟩

/-- A tick that comes before the reshuffle with a given number keeps the herd in stage. -/
theorem Stage.step {g next : Generator γ} {result : StepResult} {last : Nat}
    (hstage : Stage side g) (hholds : Holds side last g.params)
    (hbefore : (g.tick : Int) < last * g.params.period.toInt)
    (hstep : g.step = some (result, next)) : Stage side next := by
  obtain ⟨hparams, htick, -, hnodes⟩ := step_eq_some hstep
  have hperiod := hholds.period_pos
  -- Within a period the herd moves on; at its end it is at rest, and the reshuffle sends it off again.
  cases hstage with
  | first early resting =>
      have hresting : UnderWay side 0 g.params 0 g.moved.nodes := resting.advance_resting
      rcases early.lt_or_eq with hearly | hend
      · have hends : g.endsPeriod = false := by
          rcases Nat.eq_zero_or_pos g.tick with hzero | hpos
          · simp [endsPeriod, hzero]
          · exact endsPeriod_of_inside 0 g.tick (by omega) (by omega) hearly
        refine .first (by rw [hparams, htick]; omega) ?_
        simpa [hnodes, hends, hparams] using hresting
      · have hends := endsPeriod_of_multiple (g := g) 1 le_rfl (by omega) hperiod
        have hlast : 0 + 1 ≤ last := by
          by_contra hnot
          have hzero : last = 0 := by omega
          rw [hzero, hend] at hbefore
          omega
        refine .later 1 0 le_rfl le_rfl (by rw [hparams, htick]; omega) (by rwa [hparams]) ?_
        have hway := UnderWay.reshuffle (g := g.moved) hresting rfl (hholds.mono hlast)
        simpa [hnodes, hends, hparams] using hway
  | later number passed started nonneg clock inside underWay =>
      rcases (Int.add_one_le_iff.mpr inside).lt_or_eq with hinside | hend
      · have hends := endsPeriod_of_inside (g := g) number (passed + 1)
          (by omega) (by omega) hinside
        refine .later number (passed + 1) started (by omega) (by rw [hparams, htick]; omega)
          (by rwa [hparams]) ?_
        have hway : UnderWay side number g.params (g.params.period.toInt - (passed + 1))
            g.moved.nodes :=
          UnderWay.advance (by omega) (by rwa [sub_add_eq_sub_sub, sub_add_cancel])
        simpa [hnodes, hends, hparams] using hway
      · have hclock : (g.tick : Int) = ((number + 1 : Nat) : Int) * g.params.period.toInt := by
          push_cast
          linarith
        have hends := endsPeriod_of_multiple _ (by omega) hclock hperiod
        have hlast : number + 1 < last := by
          rw [hclock] at hbefore
          exact_mod_cast lt_of_mul_lt_mul_right hbefore hperiod.le
        have hresting : UnderWay side number g.params 0 g.moved.nodes :=
          UnderWay.advance le_rfl (by
            rwa [← hend, show passed + 1 - passed = 0 + 1 by omega] at underWay)
        refine .later (number + 1) 0 (by omega) le_rfl (by rw [hparams, htick]; push_cast; linarith)
          (by rwa [hparams]) ?_
        have hway := UnderWay.reshuffle (g := g.moved) hresting rfl (hholds.mono hlast.le)
        simpa [hnodes, hends, hparams] using hway

omit [DrawSource γ] in
/-- At a multiple of the period the coming move brings the whole herd to rest. -/
theorem Stage.resting_of_multiple {g : Generator γ} (hstage : Stage side g) (hparams : g.params = p)
    (hholds : Holds side number p) (hnumber : 1 ≤ number)
    (hclock : (g.tick : Int) = number * p.period.toInt) :
    UnderWay side (number - 1) p 0 g.moved.nodes := by
  subst hparams
  have hperiod := hholds.period_pos
  cases hstage with
  | first early resting =>
      have hone : number = 1 := by
        have hle : (number : Int) * g.params.period.toInt ≤ 1 * g.params.period.toInt := by omega
        have := le_of_mul_le_mul_right hle hperiod
        omega
      subst hone
      exact resting.advance_resting
  | later before passed started nonneg clock inside underWay =>
      have hbefore : number = before + 1 := by
        have hlow : (before : Int) * g.params.period.toInt < number * g.params.period.toInt := by
          omega
        have hhigh : (number : Int) * g.params.period.toInt ≤
            (before + 1 : Int) * g.params.period.toInt := by
          linarith
        have := lt_of_mul_lt_mul_right hlow hperiod.le
        have := le_of_mul_le_mul_right hhigh hperiod
        omega
      subst hbefore
      have hpassed : g.params.period.toInt - passed = 0 + 1 := by
        push_cast at hclock
        linarith
      rw [hpassed] at underWay
      exact underWay.advance le_rfl

theorem tick_le_steps (count : Nat) (results : List StepResult) (g : Generator γ) :
    g.tick ≤ (steps count results g).2.tick := by
  induction count generalizing results g with
  | zero => exact le_rfl
  | succ count ih =>
      simp only [steps]
      cases hstep : g.step with
      | none => exact le_rfl
      | some pair =>
          obtain ⟨-, htick, -, -⟩ := step_eq_some hstep
          exact (by omega : g.tick ≤ pair.2.tick).trans (ih _ _)

/-- However many ticks pass, as long as they end by the reshuffle with a given number. -/
theorem steps_stage {last : Nat} (hholds : Holds side last p) (count : Nat)
    (results : List StepResult) (g : Generator γ) (hparams : g.params = p) (hstage : Stage side g)
    (hclock : ((steps count results g).2.tick : Int) ≤ last * p.period.toInt) :
    (steps count results g).2.params = p ∧ Stage side (steps count results g).2 := by
  induction count generalizing results g with
  | zero => exact ⟨hparams, hstage⟩
  | succ count ih =>
      simp only [steps] at hclock ⊢
      cases hstep : g.step with
      | none => exact ⟨hparams, hstage⟩
      | some pair =>
          obtain ⟨result, next⟩ := pair
          simp only [hstep] at hclock
          obtain ⟨hnext, htick, -, -⟩ := step_eq_some hstep
          have hbefore : (g.tick : Int) < last * g.params.period.toInt := by
            have hlater := tick_le_steps count (result :: results) next
            rw [hparams]
            omega
          exact ih _ next (hnext.trans hparams)
            (hstage.step (hparams ▸ hholds) hbefore hstep) hclock

end Generator

/-- What the check of parameters promises. -/
theorem Params.of_validate {p : Params} (h : p.validate = .ok ()) :
    0 ≤ p.nodeDistance.toInt ∧ 0 ≤ p.swapCouples.toInt ∧ 0 ≤ p.shuffleDistance.toInt ∧
      0 < p.period.toInt := by
  unfold Params.validate at h
  repeat' split at h
  all_goals simp_all [Int64.lt_iff_toInt_lt, Int64.le_iff_toInt_le]

/-- What the check of options promises of herds of at most 25 nodes. -/
theorem Options.of_validate {o : Options} (h : o.validate = .ok ()) (hnodes : o.nodes ≤ 25) :
    (Options.gridSide o.nodes).toInt = Nat.sqrt o.nodes.toInt.toNat ∧ Nat.sqrt o.nodes.toInt.toNat ≤ 5 ∧
      1 ≤ Nat.sqrt o.nodes.toInt.toNat := by
  have hle : o.nodes.toInt ≤ 25 := Int64.le_iff_toInt_le.mp hnodes
  obtain ⟨hpos, -, -, -⟩ := Options.of_validate_ok h
  have hroot : Nat.sqrt o.nodes.toInt.toNat = (Options.gridSide o.nodes).toInt.toNat := by
    rw [← Options.gridSide_sq h, Nat.sqrt_eq]
  refine ⟨?_, ?_, Nat.sqrt_pos.mpr (by omega)⟩
  · rw [hroot, (Options.toInt_gridSide o.nodes).1, Int.toNat_natCast]
  · apply Nat.le_of_lt_succ
    rw [Nat.sqrt_lt]
    omega

namespace Generator

section

variable {side : Nat} {distance : Int64}

/-- The words of a grid whose last one does not wrap. -/
theorem cell_mul_toInt {cell : Nat} (hdistance : 0 ≤ distance.toInt) (hside : side ≤ 2 ^ 32)
    (hbound : ((side : Int) - 1) * distance.toInt < 2 ^ 63) (hcell : cell < side) :
    (Int64.ofNat cell * distance).toInt = cell * distance.toInt := by
  have hlow : 0 ≤ (cell : Int) * distance.toInt := mul_nonneg (by omega) hdistance
  have hhigh : (cell : Int) * distance.toInt ≤ ((side : Int) - 1) * distance.toInt :=
    mul_le_mul_of_nonneg_right (by omega) hdistance
  rw [Int64.toInt_mul, Int64.toInt_ofNat_of_lt (by omega), Int.bmod_eq_of_le_mul_two] <;> omega

/-- A cell of a grid whose last one is held exactly. -/
theorem cell_toInt {cell : Nat} (hdistance : 0 ≤ distance.toInt) (hside : side ≤ 2 ^ 32)
    (hexact : ((side : Int) - 1) * distance.toInt ≤ Coordinate.exactBound) (hcell : cell < side) :
    Coordinate.ofInt (Int64.ofNat cell * distance).toInt = cell * distance.toInt ∧
      Coordinate.IsExact (cell * distance.toInt) := by
  have hlow : 0 ≤ (cell : Int) * distance.toInt := mul_nonneg (by omega) hdistance
  have hhigh : (cell : Int) * distance.toInt ≤ ((side : Int) - 1) * distance.toInt :=
    mul_le_mul_of_nonneg_right (by omega) hdistance
  have hheld : Coordinate.IsExact (cell * distance.toInt) := ⟨hlow, hhigh.trans hexact⟩
  refine ⟨?_, hheld⟩
  rw [cell_mul_toInt hdistance hside (hexact.trans_lt (by decide)) hcell, Coordinate.ofInt_of_isExact hheld]

/-- A fresh grid, row by row. -/
theorem grid_eq (hdistance : 0 ≤ distance.toInt) (hside : side ≤ 2 ^ 32)
    (hbound : ((side : Int) - 1) * distance.toInt < 2 ^ 63) :
    grid side distance = (List.range side).flatMap fun i => (List.range side).map fun j =>
      Node.resting (i * side + j) (Coordinate.ofInt (i * distance.toInt)) (Coordinate.ofInt (j * distance.toInt)) := by
  rw [grid_eq_layRows, layRows_eq]
  apply List.flatMap_congr
  intro i hi
  apply List.map_congr_left
  intro j hj
  rw [cell, cell, cell_mul_toInt hdistance hside hbound (List.mem_range.mp hi),
    cell_mul_toInt hdistance hside hbound (List.mem_range.mp hj)]

/-- The nodes of a fresh grid head for its points one after another. -/
theorem grid_map_destination (hdistance : 0 ≤ distance.toInt) (hside : side ≤ 2 ^ 32)
    (hexact : ((side : Int) - 1) * distance.toInt ≤ Coordinate.exactBound) :
    (grid side distance).map Node.destination = (List.range side).flatMap fun (i : Nat) =>
      (List.range side).map fun (j : Nat) => ((i : Int) * distance.toInt, (j : Int) * distance.toInt) := by
  have hcell (cell : Nat) (hcell : cell ∈ List.range side) :
      Coordinate.ofInt (cell * distance.toInt) = cell * distance.toInt :=
    Coordinate.ofInt_of_isExact (cell_toInt hdistance hside hexact (List.mem_range.mp hcell)).2
  have hbound : ((side : Int) - 1) * distance.toInt < 2 ^ 63 := hexact.trans_lt (by decide)
  rw [grid_eq hdistance hside hbound, List.map_flatMap]
  apply List.flatMap_congr
  intro i hi
  rw [List.map_map]
  apply List.map_congr_left
  intro j hj
  simp [hcell i hi, hcell j hj]

/-- The nodes of a fresh grid head for its points. -/
theorem grid_destinations (hdistance : 0 ≤ distance.toInt) (hside : side ≤ 2 ^ 32)
    (hexact : ((side : Int) - 1) * distance.toInt ≤ Coordinate.exactBound) :
    destinations (grid side distance) = gridPoints side distance.toInt 0 := by
  simp only [destinations, grid_map_destination hdistance hside hexact, gridPoints, add_zero]

/-- The nodes of a fresh grid stand where they are heading. -/
theorem grid_position {n : Node} (hn : n ∈ grid side distance) : n.position = n.destination := by
  obtain ⟨index, -, rfl⟩ := List.mem_map.mp hn
  rfl

end

/-- A fresh grid rests on its points. -/
theorem grid_underWay {side : Nat} {p : Params} (hholds : Holds side 0 p) :
    UnderWay side 0 p 0 (grid side p.nodeDistance) := by
  have hside : side ≤ 2 ^ 32 := hholds.side_le.trans (by decide)
  have hexact : ((side : Int) - 1) * p.nodeDistance.toInt ≤ Coordinate.exactBound := by simpa using hholds.exact
  have hheading : destinations (grid side p.nodeDistance) =
      gridPoints side p.nodeDistance.toInt ((0 : Nat) * p.shuffleDistance.toInt) := by
    simpa using grid_destinations hholds.distance_nonneg hside hexact
  have hrest (n : Node) (hn : n ∈ grid side p.nodeDistance) := grid_position hn
  refine ⟨fun n hn => ?_, fun n hn => ?_, hheading⟩
  · have hpoint := hholds.point_exact (hheading ▸ mem_destinations hn)
    have hposition := Prod.ext_iff.mp (hrest n hn)
    simp only [Node.position, Node.destination] at hpoint hposition
    exact ⟨hposition.1 ▸ hpoint.1, hposition.2 ▸ hpoint.2, hpoint.1, hpoint.2⟩
  · have hposition := Prod.ext_iff.mp (hrest n hn)
    simp only [Node.position, Node.destination] at hposition
    exact ⟨by simp [hposition.1], by simp [hposition.2]⟩

/-- Valid parameters hold a grid as long as its coordinates are exact. -/
theorem holds_of_validate {p : Params} {side number : Nat} (hvalid : p.validate = .ok ())
    (hside : side ≤ 5) (hsome : 1 ≤ side) (hnumber : 1 ≤ number)
    (hdistance : p.nodeDistance.toInt ≤ Coordinate.exactBound)
    (hexact : ((side : Int) - 1) * p.nodeDistance.toInt + number * p.shuffleDistance.toInt ≤
      Coordinate.exactBound) : Holds side number p := by
  obtain ⟨hnodes, -, hshuffle, hperiod⟩ := Params.of_validate hvalid
  have hwidth : 0 ≤ ((side : Int) - 1) * p.nodeDistance.toInt := mul_nonneg (by omega) hnodes
  have hdrift : p.shuffleDistance.toInt ≤ number * p.shuffleDistance.toInt :=
    le_mul_of_one_le_left hshuffle (by omega)
  refine ⟨hnodes, hshuffle, hside, hexact, ?_, hperiod⟩
  simp only [Coordinate.exactBound] at hdistance hexact
  have hfour : (4 : Int64).toInt = 4 := rfl
  have hproduct : (4 * p.nodeDistance).toInt = 4 * p.nodeDistance.toInt := by
    rw [Int64.toInt_mul, hfour, Int.bmod_eq_of_le_mul_two] <;> omega
  rw [Params.period, Int64.toInt_add, hproduct, Int.bmod_eq_of_le_mul_two] <;> omega

variable {γ : Type} [DrawSource γ]

/-- Every reshuffle finds the herd at rest on the grid of the reshuffle before, and sends it to the
next grid. At most 25 nodes are needed, and coordinates that double precision holds exactly. -/
theorem reshuffle_finds_grid {p : Params} {o : Options} {source : γ} {start : Generator γ}
    (hcreate : create p o source = .ok start) (hnodes : o.nodes ≤ 25) (number : Nat)
    (hnumber : 1 ≤ number) (hdistance : p.nodeDistance.toInt ≤ Coordinate.exactBound)
    (hexact : ((Nat.sqrt o.nodes.toInt.toNat : Int) - 1) * p.nodeDistance.toInt +
      number * p.shuffleDistance.toInt ≤ Coordinate.exactBound)
    (count : Nat) {result : StepResult} {next : Generator γ}
    (hclock : ((steps count [] start).2.tick : Int) = number * p.period.toInt)
    (hstep : (steps count [] start).2.step = some (result, next)) :
    (∀ n ∈ (steps count [] start).2.moved.nodes, n.atRest = true) ∧
      positions (steps count [] start).2.moved.nodes =
        gridPoints (Nat.sqrt o.nodes.toInt.toNat) p.nodeDistance.toInt
          ((number - 1 : Nat) * p.shuffleDistance.toInt) ∧
      result.reshuffled = true ∧ next.nodes = (steps count [] start).2.moved.reshuffle.nodes ∧
      destinations next.nodes =
        gridPoints (Nat.sqrt o.nodes.toInt.toNat) p.nodeDistance.toInt
          (number * p.shuffleDistance.toInt) := by
  obtain ⟨hvalid, hoptions, hparams, htick, hgrid⟩ := create_eq_ok hcreate
  obtain ⟨hside, hsideLe, hsome⟩ := Options.of_validate hoptions hnodes
  have hholds := holds_of_validate hvalid hsideLe hsome hnumber hdistance hexact
  have hperiod := hholds.period_pos
  have hstart : Stage (Nat.sqrt o.nodes.toInt.toNat) start := by
    refine .first (by rw [htick, hparams]; omega) ?_
    rw [hgrid, hside, Int.toNat_natCast, hparams]
    exact grid_underWay (hholds.mono (Nat.zero_le number))
  obtain ⟨hkept, hstage⟩ := steps_stage hholds count [] start hparams hstart hclock.le
  have hends := endsPeriod_of_multiple (g := (steps count [] start).2) number
    (by omega) (by rw [hkept, hclock]) (by rwa [hkept])
  obtain ⟨-, -, hreshuffled, hnext⟩ := step_eq_some hstep
  rw [hends, if_pos rfl] at hnext
  have hresting := hstage.resting_of_multiple hkept hholds hnumber hclock
  have hway := UnderWay.reshuffle (g := (steps count [] start).2.moved) hresting hkept
    (by rwa [Nat.sub_add_cancel hnumber])
  refine ⟨hresting.atRest, hresting.positions, hreshuffled.trans hends, hnext, ?_⟩
  rw [hnext, hway.heading, Nat.sub_add_cancel hnumber]

/-- Two by two nodes, two random trades a reshuffle: the second reshuffle finds the shifted grid. -/
theorem second_reshuffle_finds_grid :
    ∃ (start next : Generator Pcg) (result : StepResult),
      create ⟨1, 2, 1⟩ ⟨4, 10, 10, 7⟩ (Pcg.ofSeed 7) = .ok start ∧
        (steps 10 [] start).2.step = some (result, next) ∧
        positions (steps 10 [] start).2.moved.nodes = {(1, 0), (1, 1), (2, 0), (2, 1)} ∧
        destinations next.nodes = {(2, 0), (2, 1), (3, 0), (3, 1)} := by
  have hcreate : (create ⟨1, 2, 1⟩ ⟨4, 10, 10, 7⟩ (Pcg.ofSeed 7)).toOption.isSome = true := by
    decide +kernel
  cases hstart : create ⟨1, 2, 1⟩ ⟨4, 10, 10, 7⟩ (Pcg.ofSeed 7) with
  | error cause => simp [hstart, Except.toOption] at hcreate
  | ok start =>
      have htick : (create ⟨1, 2, 1⟩ ⟨4, 10, 10, 7⟩ (Pcg.ofSeed 7)).toOption.map
          (fun g => ((steps 10 [] g).2.tick, (steps 10 [] g).2.step.isSome)) = some (10, true) := by
        decide +kernel
      rw [hstart] at htick
      simp only [Except.toOption, Option.map_some, Option.some.injEq, Prod.mk.injEq] at htick
      obtain ⟨⟨result, next⟩, hstep⟩ := Option.isSome_iff_exists.mp htick.2
      obtain ⟨-, hpositions, -, -, hdestinations⟩ :=
        reshuffle_finds_grid hstart (by decide) 2 (by decide) (by decide)
          (by decide +kernel) 10 (by rw [htick.1]; decide) hstep
      exact ⟨start, next, result, rfl, hstep, hpositions.trans (by decide +kernel),
        hdestinations.trans (by decide +kernel)⟩

end Generator

end MobilitySweep
