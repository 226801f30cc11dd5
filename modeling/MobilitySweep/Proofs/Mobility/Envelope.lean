import MobilitySweep.Proofs.Mobility.Course

/-! # The envelope of a motion

A herd never leaves its field. The field is as wide as the grid, and longer than it by one drift for every reshuffle so
far: a reshuffle may catch nodes on their way, but where they are then is still inside. Across, destinations only change
hands, so that every row of the grid stays the goal of as many nodes as it has columns.
-/

namespace MobilitySweep

namespace Coordinate

/-- A tick does not leave a stretch that holds both the position and the destination. -/
theorem approach_mem_Icc {position destination bound : Int} (hposition : position ∈ Set.Icc 0 bound)
    (hdestination : destination ∈ Set.Icc 0 bound) (hbound : bound ≤ exactBound) :
    approach position destination ∈ Set.Icc 0 bound := by
  obtain ⟨hlow, hhigh⟩ := hposition
  obtain ⟨hlow', hhigh'⟩ := hdestination
  rw [approach_of_isExact ⟨hlow, hhigh.trans hbound⟩ ⟨hlow', hhigh'.trans hbound⟩, Set.mem_Icc]
  unfold Coordinate
  omega

end Coordinate

namespace Node

/-- A node in a field of a given length and width, which does not head out of it either. -/
structure InField (length width : Int) (n : Node) : Prop where
  x : n.x ∈ Set.Icc 0 length
  y : n.y ∈ Set.Icc 0 width
  destX : n.destX ∈ Set.Icc 0 length
  destY : n.destY ∈ Set.Icc 0 width

variable {length width : Int} {n : Node}

theorem InField.advance (h : n.InField length width) (hlength : length ≤ Coordinate.exactBound)
    (hwidth : width ≤ Coordinate.exactBound) : n.advance.InField length width :=
  ⟨Coordinate.approach_mem_Icc h.x h.destX hlength, Coordinate.approach_mem_Icc h.y h.destY hwidth, h.destX, h.destY⟩

theorem InField.headingFor {other : Node} (h : n.InField length width) (hother : other.InField length width) :
    (n.headingFor other).InField length width :=
  ⟨h.x, h.y, hother.destX, hother.destY⟩

/-- Wherever in its field a node is, a drift leaves it in a field that is longer by the drift. -/
theorem InField.drift {distance : Int} (h : n.InField length width) (hdistance : 0 ≤ distance)
    (hexact : length + distance ≤ Coordinate.exactBound) :
    (n.drift (Coordinate.ofInt distance)).InField (length + distance) width := by
  obtain ⟨hlow, hhigh⟩ := h.x
  have hdrift : Coordinate.ofInt distance = distance := Coordinate.ofInt_of_isExact ⟨hdistance, by omega⟩
  have hdestination : (n.drift (Coordinate.ofInt distance)).destX = n.x + distance := by
    rw [hdrift]
    exact Coordinate.ofInt_of_isExact ⟨add_nonneg hlow hdistance, by omega⟩
  refine ⟨⟨hlow, ?_⟩, h.y, ?_, h.destY⟩
  · exact (le_add_of_nonneg_right hdistance).trans (add_le_add_left hhigh distance)
  · rw [hdestination]
    exact ⟨add_nonneg hlow hdistance, add_le_add_left hhigh distance⟩

end Node

namespace Generator

/-! ## Rows of destinations -/

/-- The rows that nodes are heading for, with their multiplicities. -/
def rows (nodes : List Node) : Multiset Int := nodes.map Node.destY

theorem rows_eq (nodes : List Node) : rows nodes = (destinations nodes).map Prod.snd := by
  simp [rows, destinations, Node.destination, Function.comp_def]

/-- Every row of a square grid has a point in each of its columns. -/
theorem count_gridPoints {side : Nat} {distance : Int} (hdistance : 0 < distance) (shift : Int) {row : Nat}
    (hrow : row < side) : ((gridPoints side distance shift).map Prod.snd).count (row * distance) = side := by
  have hinjective : Function.Injective fun (j : Nat) => (j : Int) * distance :=
    fun i j hij => by exact_mod_cast mul_right_cancel₀ hdistance.ne' hij
  have hcolumn : ((List.range side).map fun (j : Nat) => (j : Int) * distance).count (row * distance) = 1 :=
    List.count_eq_one_of_mem (List.nodup_range.map hinjective)
      (List.mem_map.mpr ⟨row, List.mem_range.mpr hrow, rfl⟩)
  simp only [gridPoints, Multiset.map_coe, List.map_flatMap, List.map_map, Function.comp_def, Multiset.coe_count,
    List.count_flatMap, hcolumn, List.map_const', List.length_range, List.sum_replicate, smul_eq_mul, Nat.mul_one]

section

variable {γ : Type} [DrawSource γ]

theorem reshuffle_rows (g : Generator γ) : rows g.reshuffle.nodes = rows g.nodes := by
  have hdrift (distance : Coordinate) : rows (g.nodes.map (Node.drift distance)) = rows g.nodes := by
    simp [rows, Node.drift, Function.comp_def]
  rw [rows_eq, reshuffle_destinations, ← rows_eq, hdrift]

/-- A tick hands destinations round, but each row keeps its number of them. -/
theorem step_rows {g next : Generator γ} {result : StepResult} (hstep : g.step = some (result, next)) :
    rows next.nodes = rows g.nodes := by
  have hmoved : rows g.moved.nodes = rows g.nodes := by simp [rows, moved, Node.advance, Function.comp_def]
  obtain ⟨-, -, -, hnodes⟩ := step_eq_some hstep
  rw [hnodes]
  cases g.endsPeriod with
  | false => exact hmoved
  | true => exact (reshuffle_rows g.moved).trans hmoved

theorem steps_rows (count : Nat) (g : Generator γ) : rows (steps count [] g).2.nodes = rows g.nodes := by
  induction count generalizing g with
  | zero => rfl
  | succ count ih =>
      cases hstep : g.step with
      | none => rw [steps_of_none hstep]
      | some outcome =>
          rw [steps_of_step hstep]
          exact (ih outcome.2).trans (step_rows hstep)

/-! ## The field -/

omit [DrawSource γ] in
/-- A herd in its field: it has grown by a drift with every reshuffle. -/
def InField (width : Int) (g : Generator γ) : Prop :=
  ∀ n ∈ g.nodes, n.InField (width + g.pastReshuffles * g.params.shuffleDistance.toInt) width

/-- Reshuffles are never taken back. -/
theorem pastReshuffles_le_steps (count : Nat) (g : Generator γ) :
    g.pastReshuffles ≤ (steps count [] g).2.pastReshuffles := by
  obtain ⟨passed, -, hlater⟩ := exists_later count g
  unfold pastReshuffles
  rw [hlater.params, hlater.tick]
  exact Nat.div_le_div_right (by omega)

variable {width : Int} {g : Generator γ}

/-- Whether it reshuffles or not, a tick keeps the herd in its field. -/
theorem InField.step {next : Generator γ} {result : StepResult} (h : g.InField width)
    (hperiod : 0 < g.params.period.toInt) (hshuffle : 0 ≤ g.params.shuffleDistance.toInt)
    (hexact : width + next.pastReshuffles * g.params.shuffleDistance.toInt ≤ Coordinate.exactBound)
    (hstep : g.step = some (result, next)) : next.InField width := by
  obtain ⟨hparams, -, -, hnodes⟩ := step_eq_some hstep
  have hreshuffles := step_pastReshuffles hperiod hstep
  have hgrown : 0 ≤ (g.pastReshuffles : Int) * g.params.shuffleDistance.toInt := mul_nonneg (by omega) hshuffle
  have hmoved (hexact : width + g.pastReshuffles * g.params.shuffleDistance.toInt ≤ Coordinate.exactBound) :
      g.moved.InField width := by
    intro n hn
    obtain ⟨before, hbefore, rfl⟩ := List.mem_map.mp hn
    exact (h before hbefore).advance hexact (by omega)
  intro n hn
  rw [hnodes] at hn
  rw [hparams, hreshuffles]
  rw [hreshuffles] at hexact
  cases hends : g.endsPeriod with
  | false =>
      simp only [hends, Bool.false_eq_true, if_false, Nat.add_zero] at hn hexact ⊢
      exact hmoved hexact n hn
  | true =>
      have hlonger : width + ((g.pastReshuffles + 1 : Nat) : Int) * g.params.shuffleDistance.toInt =
          width + g.pastReshuffles * g.params.shuffleDistance.toInt + g.params.shuffleDistance.toInt := by
        push_cast
        ring
      simp only [hends, if_true, hlonger] at hn hexact ⊢
      refine swapCouples_forall (fun _ _ h hother => h.headingFor hother) _ ?_ _ n hn
      intro drifted hdrifted
      obtain ⟨before, hbefore, rfl⟩ := List.mem_map.mp hdrifted
      exact (hmoved (by omega) before hbefore).drift hshuffle hexact

/-- However many ticks pass, the herd stays in its field. -/
theorem InField.steps (count : Nat) (h : g.InField width) (hperiod : 0 < g.params.period.toInt)
    (hshuffle : 0 ≤ g.params.shuffleDistance.toInt)
    (hexact : width + (steps count [] g).2.pastReshuffles * g.params.shuffleDistance.toInt ≤ Coordinate.exactBound) :
    (Generator.steps count [] g).2.InField width := by
  induction count generalizing g with
  | zero => exact h
  | succ count ih =>
      cases hstep : g.step with
      | none => rwa [steps_of_none hstep]
      | some outcome =>
          obtain ⟨result, next⟩ := outcome
          obtain ⟨hparams, -, -, -⟩ := step_eq_some hstep
          rw [steps_of_step hstep] at hexact ⊢
          have hfewer : (next.pastReshuffles : Int) * g.params.shuffleDistance.toInt ≤
              (Generator.steps count [] next).2.pastReshuffles * g.params.shuffleDistance.toInt :=
            mul_le_mul_of_nonneg_right (by exact_mod_cast pastReshuffles_le_steps count next) hshuffle
          refine ih (h.step hperiod hshuffle ?_ hstep) (hparams ▸ hperiod) (hparams ▸ hshuffle) (hparams ▸ hexact)
          exact (add_le_add_right hfewer width).trans hexact

variable {p : Params} {o : Options} {source : γ} {start : Generator γ} {side : Nat}

omit [DrawSource γ] in
/-- A generator that was just made starts in its field, with as many destinations in each row as there are columns. -/
theorem create_inField (hcreate : create p o source = .ok start) (hside : o.nodes.toInt = side * side)
    (hexact : ((side : Int) - 1) * p.nodeDistance.toInt ≤ Coordinate.exactBound) :
    start.InField ((side - 1) * p.nodeDistance.toInt) ∧
      rows start.nodes = (gridPoints side p.nodeDistance.toInt 0).map Prod.snd := by
  obtain ⟨hparams, hoptions, rfl⟩ := create_eq hcreate
  obtain ⟨hdistance, -, -, -⟩ := Params.of_validate hparams
  obtain ⟨hroot, -, hsmall⟩ := Options.gridSide_eq hoptions hside
  have hgrid := grid_destinations hdistance hsmall hexact
  refine ⟨fun n hn => ?_, ?_⟩
  · simp only [hroot] at hn
    have hposition := grid_position hn
    have hpoint := gridPoints_bounds hdistance (hgrid ▸ mem_destinations hn)
    simp only [Node.position, Node.destination, Prod.mk.injEq] at hposition hpoint
    obtain ⟨hx, hy⟩ := hposition
    obtain ⟨hcolumn, hrow⟩ := hpoint
    have hdestX : n.destX ∈ Set.Icc 0 (((side : Int) - 1) * p.nodeDistance.toInt + 0) := hcolumn
    simp only [pastReshuffles, Nat.zero_sub, Nat.zero_div, Nat.cast_zero, zero_mul]
    exact ⟨hx ▸ hdestX, hy ▸ hrow, hdestX, hrow⟩
  · rw [rows_eq, hroot, hgrid]

/-- The envelope of a motion, after any number of ticks and whatever is drawn: each row is still the goal of as many
nodes as it has columns, no node is outside the field or on its way out, and the nodes keep their numbers. -/
theorem herd_stays_in_field (hcreate : create p o source = .ok start) (hside : o.nodes.toInt = side * side) (count : Nat)
    (hexact : ((side : Int) - 1) * p.nodeDistance.toInt +
      (steps count [] start).2.stats.reshuffles.toInt * p.shuffleDistance.toInt ≤ Coordinate.exactBound) :
    rows (start.herd count) = rows start.nodes ∧
      (0 < p.nodeDistance.toInt → ∀ row < side, (rows (start.herd count)).count (row * p.nodeDistance.toInt) = side) ∧
      (∀ n ∈ start.herd count,
        n.InField (((side : Int) - 1) * p.nodeDistance.toInt +
            (steps count [] start).2.stats.reshuffles.toInt * p.shuffleDistance.toInt)
          ((side - 1) * p.nodeDistance.toInt)) ∧
      (start.herd count).map Node.index = List.range (side * side) := by
  obtain ⟨hparams, -, hstart⟩ := create_eq hcreate
  obtain ⟨hdistance, -, hshuffle, -⟩ := Params.of_validate hparams
  obtain ⟨-, -, -, hperiod⟩ := Params.of_validate hparams
  have hkept : start.params = p := hstart ▸ rfl
  rw [steps_reshuffles hcreate] at hexact ⊢
  have hdrifts : 0 ≤ ((steps count [] start).2.pastReshuffles : Int) * p.shuffleDistance.toInt :=
    mul_nonneg (by omega) hshuffle
  obtain ⟨hfield, hrows⟩ := create_inField hcreate hside (by omega)
  have hsteps := hfield.steps count (hkept ▸ hperiod) (hkept ▸ hshuffle) (hkept ▸ hexact)
  obtain ⟨passed, -, hlater⟩ := exists_later count start
  have hparams' : (steps count [] start).2.params = p := hlater.params.trans hkept
  refine ⟨steps_rows count start, fun hpositive row hrow => ?_, fun n hn => ?_, ?_⟩
  · rw [herd, steps_rows, hrows, count_gridPoints hpositive 0 hrow]
  · exact hparams' ▸ hsteps n hn
  · rw [herd, hlater.indices, create_indices hcreate, hside, ← Nat.cast_mul, Int.toNat_natCast]

/-- Seven by seven nodes: the second reshuffle catches some of them on their way, and still none leaves the field. -/
theorem travelling_herd_stays_in_field :
    ∃ start : Generator Pcg, create ⟨1, 3, 1⟩ ⟨49, 10, 10, 7⟩ (Pcg.ofSeed 7) = .ok start ∧
      (∃ n ∈ (steps 10 [] start).2.moved.nodes, n.atRest = false) ∧
      (∀ n ∈ start.herd 11, n.InField 8 6) ∧ ∀ row : Nat, row < 7 → (rows (start.herd 11)).count (row : Int) = 7 := by
  obtain ⟨start, hcreate⟩ := exists_create (p := ⟨1, 3, 1⟩) (o := ⟨49, 10, 10, 7⟩) (by decide) (by decide +kernel)
    (Pcg.ofSeed 7)
  obtain ⟨-, -, hstart⟩ := create_eq hcreate
  have hreshuffles : (steps 11 [] start).2.stats.reshuffles.toInt = 2 := by
    subst hstart
    decide +kernel
  have htravelling : ∃ n ∈ (steps 10 [] start).2.moved.nodes, n.atRest = false := by
    subst hstart
    decide +kernel
  have hdistance : (1 : Int64).toInt = 1 := rfl
  have hside : (49 : Int64).toInt = ((7 : Nat) : Int) * (7 : Nat) := by decide
  obtain ⟨-, hcount, hfield, -⟩ := herd_stays_in_field hcreate hside 11
    (by rw [hreshuffles]; decide)
  refine ⟨start, hcreate, htravelling, fun n hn => ?_, fun row hrow => ?_⟩
  · have hn := hfield n hn
    rw [hreshuffles] at hn
    exact hn
  · have hrow := hcount (by decide) row hrow
    rwa [hdistance, mul_one] at hrow

end

end Generator

end MobilitySweep
