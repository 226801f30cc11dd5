import MobilitySweep.Proofs.Mobility.Selection

/-! # Who stands in which cell

A reshuffle draws two indices for each of its couples, however the herd stands, and lets the pairs trade one after
another. A trade exchanges two entries of the list of destinations, so what is drawn rearranges any list that lies
beside the herd in the same way.

Reshuffles send nodes from cell to cell of the grid. Which cells they are sent to is decided by the draws alone: the
distances of grid and drift only say where a cell lies, and the period when its node arrives there. So herds of any two
geometries that are reshuffled with the same draws are arranged alike.
-/

namespace MobilitySweep

namespace Generator

/-! ## Trades of destinations -/

section

variable {α β : Type}

/-- Pairs of places whose entries are exchanged one after another. -/
def tradeAll (pairs : List (Nat × Nat)) (entries : List α) : List α :=
  pairs.foldl (fun entries pair => trade pair.1 pair.2 entries) entries

theorem tradeAll_map (f : α → β) (pairs : List (Nat × Nat)) (entries : List α) :
    tradeAll pairs (entries.map f) = (tradeAll pairs entries).map f := by
  induction pairs generalizing entries with
  | nil => rfl
  | cons pair pairs ih => simpa only [tradeAll, List.foldl_cons, trade_map] using ih (trade pair.1 pair.2 entries)

theorem tradeAll_perm (pairs : List (Nat × Nat)) (entries : List α) : (tradeAll pairs entries).Perm entries := by
  induction pairs generalizing entries with
  | nil => exact List.Perm.refl entries
  | cons pair pairs ih => exact (ih _).trans (trade_perm pair.1 pair.2 entries)

@[simp] theorem length_tradeAll (pairs : List (Nat × Nat)) (entries : List α) :
    (tradeAll pairs entries).length = entries.length :=
  (tradeAll_perm pairs entries).length_eq

end

/-! ## Trades of a herd -/

/-- A herd whose pairs trade destinations one after another. -/
def swapAll (pairs : List (Nat × Nat)) (nodes : List Node) : List Node :=
  pairs.foldl (fun nodes pair => swap pair.1 pair.2 nodes) nodes

@[simp] theorem length_swap (a b : Nat) (nodes : List Node) : (swap a b nodes).length = nodes.length := by
  unfold swap
  split <;> simp

theorem swapAll_map_destination (pairs : List (Nat × Nat)) (nodes : List Node) :
    (swapAll pairs nodes).map Node.destination = tradeAll pairs (nodes.map Node.destination) := by
  induction pairs generalizing nodes with
  | nil => rfl
  | cons pair pairs ih =>
      rw [swapAll, List.foldl_cons, ← swapAll, ih, swap_map_destination]
      rfl

/-- A node that is paired with itself keeps its destination. -/
theorem swap_self (a : Nat) (nodes : List Node) : swap a a nodes = nodes := by
  unfold swap
  split
  next n other hn hother =>
    obtain rfl : n = other := Option.some.inj (hn.symm.trans hother)
    obtain ⟨ha, rfl⟩ := List.getElem?_eq_some_iff.mp hn
    rw [List.set_set]
    exact List.set_getElem_self ha
  next => rfl

theorem swapAll_filter (pairs : List (Nat × Nat)) (nodes : List Node) :
    swapAll (pairs.filter fun pair => pair.1 ≠ pair.2) nodes = swapAll pairs nodes := by
  induction pairs generalizing nodes with
  | nil => rfl
  | cons pair pairs ih =>
      by_cases hself : pair.1 = pair.2
      · rw [List.filter_cons_of_neg (by simpa using hself), ih, swapAll, swapAll, List.foldl_cons, hself, swap_self]
      · rw [List.filter_cons_of_pos (by simpa using hself), swapAll, swapAll, List.foldl_cons, List.foldl_cons]
        exact ih (swap pair.1 pair.2 nodes)

/-! ## Draws -/

section

variable {γ : Type} [DrawSource γ]

/-- Pairs of indices below a bound that are drawn one after another, and the source behind them. -/
def drawPairs (bound : Nat) : Nat → γ → List (Nat × Nat) × γ
  | 0, source => ([], source)
  | couples + 1, source =>
    let (a, source) := DrawSource.draw bound source
    let (b, source) := DrawSource.draw bound source
    let (pairs, source) := drawPairs bound couples source
    ((a, b) :: pairs, source)

/-- A source after a number of draws. -/
def afterDraws (bound count : Nat) (source : γ) : γ := (fun source => (DrawSource.draw bound source).2)^[count] source

/-- Two numbers are drawn for each pair. -/
theorem drawPairs_source (bound couples : Nat) (source : γ) :
    (drawPairs bound couples source).2 = afterDraws bound (2 * couples) source := by
  induction couples generalizing source with
  | zero => rfl
  | succ couples ih =>
      rw [drawPairs]
      exact ih _

theorem length_drawPairs (bound couples : Nat) (source : γ) : (drawPairs bound couples source).1.length = couples := by
  induction couples generalizing source with
  | zero => rfl
  | succ couples ih =>
      rw [drawPairs, List.length_cons]
      exact congrArg (· + 1) (ih _)

theorem drawPairs_lt {bound : Nat} (hbound : 0 < bound) (couples : Nat) (source : γ) :
    ∀ pair ∈ (drawPairs bound couples source).1, pair.1 < bound ∧ pair.2 < bound := by
  induction couples generalizing source with
  | zero => simp [drawPairs]
  | succ couples ih =>
      rw [drawPairs, List.forall_mem_cons]
      exact ⟨⟨DrawSource.draw_lt bound _ hbound, DrawSource.draw_lt bound _ hbound⟩, ih _⟩

/-- The pairs that trade are those drawn, whatever the nodes are that trade. -/
theorem swapCouples_eq (couples : Nat) (nodes : List Node) (source : γ) :
    swapCouples couples nodes source =
      (swapAll (drawPairs nodes.length couples source).1 nodes, (drawPairs nodes.length couples source).2) := by
  induction couples generalizing nodes source with
  | zero => rfl
  | succ couples ih =>
      have hpairs (a b : Nat) (source : γ) := ih (swap a b nodes) source
      simp only [length_swap] at hpairs
      simp only [swapCouples, drawPairs, hpairs]
      rfl

/-- A reshuffle is what its draws make of the drifted herd. -/
theorem reshuffle_eq (g : Generator γ) :
    (g.reshuffle.nodes, g.reshuffle.source) =
      let pairs := drawPairs g.nodes.length g.params.swapCouples.toInt.toNat g.source
      (swapAll pairs.1 (g.nodes.map (Node.drift (Coordinate.ofInt g.params.shuffleDistance.toInt))), pairs.2) := by
  simp [reshuffle, swapCouples_eq]

/-- Whatever herd is reshuffled, two numbers are drawn for each couple and no more; the pairs drawn, those of a node
with itself left out, trade the drifted destinations one after another, each as a whole. So these are redistributed
among the nodes, none of which moves. -/
theorem reshuffle_trades_drifted (g : Generator γ) :
    let couples := g.params.swapCouples.toInt.toNat
    let distance := Coordinate.ofInt g.params.shuffleDistance.toInt
    let drawn := drawPairs g.nodes.length couples g.source
    g.reshuffle.source = afterDraws g.nodes.length (2 * couples) g.source ∧
      (drawn.1.length = couples ∧
        ∀ n ∈ g.nodes, ∀ pair ∈ drawn.1, pair.1 < g.nodes.length ∧ pair.2 < g.nodes.length) ∧
      g.reshuffle.nodes = swapAll (drawn.1.filter fun pair => pair.1 ≠ pair.2) (g.nodes.map (Node.drift distance)) ∧
      destinations g.reshuffle.nodes =
        ((g.nodes.map fun n => (Coordinate.ofInt (n.x + distance), n.destY) : List (Int × Int)) : Multiset (Int × Int)) ∧
      g.reshuffle.nodes.map (fun n => (n.index, n.position)) = g.nodes.map fun n => (n.index, n.position) := by
  obtain ⟨hnodes, hsource⟩ := Prod.mk.inj (reshuffle_eq g)
  refine ⟨hsource.trans (drawPairs_source _ _ _), ⟨length_drawPairs _ _ _, fun n hn => ?_⟩, ?_, ?_, ?_⟩
  · exact drawPairs_lt (List.length_pos_of_mem hn) _ _
  · rw [swapAll_filter, hnodes]
  · rw [reshuffle_destinations, destinations, List.map_map]
    rfl
  · exact reshuffle_map (f := fun n => (n.index, n.position)) (fun _ _ => rfl) (fun _ _ => rfl) g

/-- Three travelling nodes drift two units; of the couples drawn the first is a node with itself, and the second
trades. -/
theorem travelling_nodes_trade :
    let g : Generator Pcg := ⟨⟨1, 2, 2⟩, ⟨4, 10, 10, 8⟩, Pcg.ofSeed 8, [⟨0, 0, 0, 3, 5⟩, ⟨1, 4, 4, 1, 8⟩, ⟨2, 6, 1, 9, 9⟩], 6,
      16, ⟨6, 3, 0⟩⟩
    (drawPairs 3 2 (Pcg.ofSeed 8)).1 = [(0, 0), (2, 1)] ∧ g.reshuffle.source = afterDraws 3 4 (Pcg.ofSeed 8) ∧
      g.reshuffle.nodes = [⟨0, 0, 0, 2, 5⟩, ⟨1, 4, 4, 8, 9⟩, ⟨2, 6, 1, 6, 8⟩] ∧
      destinations g.reshuffle.nodes = ([(2, 5), (6, 8), (8, 9)] : List (Int × Int)) := by
  intro g
  obtain ⟨hsource, -, hnodes, hdestinations, -⟩ := reshuffle_trades_drifted g
  have hpairs : (drawPairs 3 2 (Pcg.ofSeed 8)).1 = [(0, 0), (2, 1)] := by decide +kernel
  have hdrawn : (drawPairs g.nodes.length g.params.swapCouples.toInt.toNat g.source).1 = [(0, 0), (2, 1)] := hpairs
  rw [hdrawn] at hnodes
  refine ⟨hpairs, hsource, hnodes.trans (by decide), hdestinations.trans ?_⟩
  exact congrArg (fun places : List (Int × Int) => (places : Multiset (Int × Int))) (by decide)

end

/-! ## Cells -/

/-- The cells of a square grid by column and row, in the order of the nodes that start there. -/
def gridCells (side : Nat) : List (Nat × Nat) :=
  (List.range side).flatMap fun i => (List.range side).map fun j => (i, j)

/-- Where a cell lies on a grid that is shifted along x. -/
def cellPoint (distance shift : Int) (cell : Nat × Nat) : Int × Int :=
  (cell.1 * distance + shift, cell.2 * distance)

theorem cellPoint_drift (distance shift drift : Int) (cell : Nat × Nat) :
    ((cellPoint distance shift cell).1 + drift, (cellPoint distance shift cell).2) =
      cellPoint distance (shift + drift) cell := by
  simp only [cellPoint, add_assoc]

variable {γ : Type} [DrawSource γ]

/-- The cells that some reshuffles send the nodes to, and the draws that are left behind them. -/
def arrangement (couples side : Nat) (source : γ) : Nat → List (Nat × Nat) × γ
  | 0 => (gridCells side, source)
  | number + 1 =>
    let (cells, source) := arrangement couples side source number
    let (pairs, source) := drawPairs cells.length couples source
    (tradeAll pairs cells, source)

/-- The cells are handed round. -/
theorem arrangement_perm (couples side : Nat) (source : γ) (number : Nat) :
    (arrangement couples side source number).1.Perm (gridCells side) := by
  induction number with
  | zero => exact List.Perm.refl (gridCells side)
  | succ number ih => exact (tradeAll_perm _ _).trans ih

variable {couples side : Nat} {source : γ} {g next : Generator γ} {result : StepResult}

/-- A herd whose nodes head for the cells that the reshuffles so far have sent them to. -/
structure Arranged (couples side : Nat) (source : γ) (g : Generator γ) : Prop where
  traders : g.params.swapCouples.toInt.toNat = couples
  heading : g.nodes.map Node.destination = (arrangement couples side source g.pastReshuffles).1.map
    (cellPoint g.params.nodeDistance.toInt (g.pastReshuffles * g.params.shuffleDistance.toInt))
  draws : g.source = (arrangement couples side source g.pastReshuffles).2

omit [DrawSource γ] in
@[simp] theorem moved_destinations (g : Generator γ) : g.moved.nodes.map Node.destination = g.nodes.map Node.destination := by
  simp [moved, Function.comp_def]

/-- A reshuffle of a resting herd sends its nodes to the cells of the next arrangement. -/
theorem Arranged.reshuffle (h : Arranged couples side source g) {number : Nat}
    (hresting : UnderWay side number g.params 0 g.moved.nodes) (hholds : Holds side (number + 1) g.params) :
    g.moved.reshuffle.nodes.map Node.destination = (arrangement couples side source (g.pastReshuffles + 1)).1.map
        (cellPoint g.params.nodeDistance.toInt ((g.pastReshuffles + 1 : Nat) * g.params.shuffleDistance.toInt)) ∧
      g.moved.reshuffle.source = (arrangement couples side source (g.pastReshuffles + 1)).2 := by
  have hdrifted : (g.moved.nodes.map (Node.drift (Coordinate.ofInt g.params.shuffleDistance.toInt))).map Node.destination =
      (arrangement couples side source g.pastReshuffles).1.map
        (cellPoint g.params.nodeDistance.toInt ((g.pastReshuffles + 1 : Nat) * g.params.shuffleDistance.toInt)) := by
    calc (g.moved.nodes.map (Node.drift (Coordinate.ofInt g.params.shuffleDistance.toInt))).map Node.destination
        = (g.moved.nodes.map Node.destination).map fun place =>
            (place.1 + g.params.shuffleDistance.toInt, place.2) := by
          rw [List.map_map, List.map_map]
          exact List.map_congr_left fun n hn => hresting.drift_destination hholds hn
      _ = _ := by
          rw [moved_destinations, h.heading, List.map_map, Nat.cast_add, Nat.cast_one, add_one_mul]
          exact List.map_congr_left fun cell _ => cellPoint_drift _ _ _ cell
  have hlength : g.moved.nodes.length = (arrangement couples side source g.pastReshuffles).1.length := by
    have hboth := congrArg List.length h.heading
    rwa [← moved_destinations, List.length_map, List.length_map] at hboth
  obtain ⟨hnodes, hsource⟩ := Prod.mk.inj (reshuffle_eq g.moved)
  have hpairs : drawPairs g.moved.nodes.length g.moved.params.swapCouples.toInt.toNat g.moved.source =
      drawPairs (arrangement couples side source g.pastReshuffles).1.length couples
        (arrangement couples side source g.pastReshuffles).2 := by
    rw [hlength, ← h.draws, ← h.traders]
    rfl
  rw [hpairs] at hnodes hsource
  refine ⟨?_, hsource⟩
  rw [hnodes, swapAll_map_destination]
  exact (congrArg (tradeAll _) hdrifted).trans (tradeAll_map _ _ _)

/-- A tick that comes before the reshuffle with a given number keeps the herd arranged. -/
theorem Arranged.step (h : Arranged couples side source g) (hstage : Stage side g) {last : Nat}
    (hholds : Holds side last g.params) (hbefore : (g.tick : Int) < last * g.params.period.toInt)
    (hstep : g.step = some (result, next)) : Arranged couples side source next := by
  obtain ⟨hparams, -, -, hnodes⟩ := step_eq_some hstep
  have hsource := step_source hstep
  have hreshuffles := step_pastReshuffles hholds.period_pos hstep
  cases hends : g.endsPeriod with
  | false =>
      simp only [hends, Bool.false_eq_true, if_false, Nat.add_zero] at hnodes hsource hreshuffles
      refine ⟨hparams ▸ h.traders, ?_, ?_⟩
      · rw [hnodes, moved_destinations, hreshuffles, hparams, h.heading]
      · rw [hsource, hreshuffles, ← h.draws]
        rfl
  | true =>
      simp only [hends, if_true] at hnodes hsource hreshuffles
      obtain ⟨hpositive, hmultiple⟩ := (endsPeriod_iff hholds.period_pos).mp hends
      obtain ⟨number, hnumber⟩ := Nat.dvd_of_mod_eq_zero hmultiple
      have hperiod : ((g.params.period.toInt.toNat : Nat) : Int) = g.params.period.toInt :=
        Int.toNat_of_nonneg hholds.period_pos.le
      have hclock : (g.tick : Int) = number * g.params.period.toInt := by
        rw [hnumber, Nat.cast_mul, hperiod, mul_comm]
      have hsome : 1 ≤ number := by
        rw [Nat.one_le_iff_ne_zero]
        rintro rfl
        omega
      have hlast : number < last := by
        rw [hclock] at hbefore
        exact_mod_cast lt_of_mul_lt_mul_right hbefore hholds.period_pos.le
      have hresting := hstage.resting_of_multiple rfl (hholds.mono hlast.le) hsome hclock
      obtain ⟨hheading, hdraws⟩ := h.reshuffle hresting (by rw [Nat.sub_add_cancel hsome]; exact hholds.mono hlast.le)
      exact ⟨hparams ▸ h.traders, by rw [hnodes, hreshuffles, hparams, hheading], by rw [hsource, hreshuffles, hdraws]⟩

/-- However many ticks pass before the reshuffle with a given number. -/
theorem Arranged.steps (h : Arranged couples side source g) (hstage : Stage side g) {last : Nat}
    (hholds : Holds side last g.params) {count : Nat} (hcount : count ≤ g.remaining)
    (hclock : (g.tick : Int) + count ≤ last * g.params.period.toInt) :
    Arranged couples side source (Generator.steps count [] g).2 := by
  induction count with
  | zero => exact h
  | succ count ih =>
      rw [Nat.cast_add, Nat.cast_one] at hclock
      obtain ⟨hlater, -⟩ := steps_later (Nat.le_of_succ_le hcount)
      obtain ⟨result, next, hstep, hsucc⟩ := steps_succ hcount
      have htick : (((Generator.steps count [] g).2.tick : Nat) : Int) = g.tick + count := by
        rw [hlater.tick, Nat.cast_add]
      obtain ⟨hparams, hlast⟩ := steps_stage hholds count [] g rfl hstage (by omega)
      rw [hsucc]
      refine (ih (Nat.le_of_succ_le hcount) (by omega)).step hlast (hparams ▸ hholds) ?_ hstep
      rw [hparams, htick]
      omega

/-- The herd as the reshuffle with a given number finds it. -/
def atReshuffle (g : Generator γ) (number : Nat) : List Node :=
  (Generator.steps (number * g.params.period.toInt.toNat) [] g).2.moved.nodes

variable {p : Params} {o : Options} {start : Generator γ} {number : Nat}

omit [DrawSource γ] in
/-- A generator that was just made rests on its first grid. -/
theorem create_stage (hcreate : create p o source = .ok start) (hside : o.nodes.toInt = side * side)
    (hholds : Holds side number p) : Stage side start := by
  obtain ⟨-, hoptions, rfl⟩ := create_eq hcreate
  obtain ⟨hroot, -, -⟩ := Options.gridSide_eq hoptions hside
  refine .first (Nat.cast_zero.trans_le hholds.period_pos.le) ?_
  dsimp only
  rw [hroot]
  exact grid_underWay (hholds.mono (Nat.zero_le number))

/-- A generator that was just made has its nodes in their cells. -/
theorem create_arranged (hcreate : create p o source = .ok start) (hside : o.nodes.toInt = side * side)
    (hholds : Holds side number p) : Arranged p.swapCouples.toInt.toNat side source start := by
  have hnone := create_pastReshuffles hcreate
  obtain ⟨-, hoptions, rfl⟩ := create_eq hcreate
  obtain ⟨hroot, -, hsmall⟩ := Options.gridSide_eq hoptions hside
  have hexact := (hholds.mono (Nat.zero_le number)).exact
  rw [Nat.cast_zero, zero_mul, add_zero] at hexact
  refine ⟨rfl, ?_, by rw [hnone]; rfl⟩
  rw [hnone]
  dsimp only
  rw [hroot, grid_map_destination hholds.distance_nonneg hsmall hexact, arrangement, gridCells]
  simp [cellPoint, List.map_flatMap, Function.comp_def]

/-- At most 25 nodes fill a grid of at most five by five. -/
theorem side_le_five (hnodes : o.nodes ≤ 25) (hside : o.nodes.toInt = side * side) : side ≤ 5 := by
  have hle : o.nodes.toInt ≤ 25 := Int64.le_iff_toInt_le.mp hnodes
  have hsquare : side * side ≤ 5 * 5 := by exact_mod_cast hside ▸ hle
  exact Nat.mul_self_le_mul_self_iff.mp hsquare

/-- A reshuffle finds every node in the cell that the reshuffles before it have sent it to. -/
theorem atReshuffle_eq (hcreate : create p o source = .ok start) (hnodes : o.nodes ≤ 25)
    (hside : o.nodes.toInt = side * side) (hnumber : 1 ≤ number)
    (hdistance : p.nodeDistance.toInt ≤ Coordinate.exactBound)
    (hexact : ((side : Int) - 1) * p.nodeDistance.toInt + number * p.shuffleDistance.toInt ≤ Coordinate.exactBound)
    (hreached : number * p.period.toInt < start.total.toInt) :
    (start.atReshuffle number).map Node.index = List.range (side * side) ∧
      (start.atReshuffle number).map Node.position =
        (arrangement p.swapCouples.toInt.toNat side source (number - 1)).1.map
          (cellPoint p.nodeDistance.toInt ((number - 1 : Nat) * p.shuffleDistance.toInt)) := by
  obtain ⟨hvalid, hoptions, -⟩ := create_eq hcreate
  obtain ⟨-, hsome, -⟩ := Options.gridSide_eq hoptions hside
  obtain ⟨hparams, -, -, htick⟩ := create_settings hcreate
  have hholds := holds_of_validate hvalid (side_le_five hnodes hside) hsome hnumber hdistance hexact
  have hstage := create_stage hcreate hside hholds
  set period := p.period.toInt.toNat with hperiod
  have hwhole : (period : Int) = p.period.toInt := Int.toNat_of_nonneg hholds.period_pos.le
  have hclock : ((number * period : Nat) : Int) = number * p.period.toInt := by rw [Nat.cast_mul, hwhole]
  have hcount : number * period ≤ start.remaining := by
    rw [remaining, htick]
    omega
  obtain ⟨hlater, -⟩ := steps_later hcount
  have hnow : (Generator.steps (number * period) [] start).2.tick = number * period := by
    rw [hlater.tick, htick, Nat.zero_add]
  obtain ⟨hkept, hstage'⟩ := steps_stage hholds (number * period) [] start hparams hstage (by omega)
  have hresting := hstage'.resting_of_multiple hkept hholds hnumber (by omega)
  have hreshuffles : (Generator.steps (number * period) [] start).2.pastReshuffles = number - 1 := by
    have hlast := Nat.mul_sub_div 0 period number (by have := hholds.period_pos; exact Nat.mul_pos (by omega) hnumber)
    rw [pastReshuffles, hnow, hkept, ← hperiod, Nat.mul_comm, hlast, Nat.zero_div]
  have hheading := ((create_arranged hcreate hside hholds).steps hstage (hparams ▸ hholds) hcount
    (by rw [hparams]; omega)).heading
  rw [hreshuffles, hkept, ← moved_destinations] at hheading
  rw [atReshuffle, hparams, ← hperiod]
  constructor
  · have hindex : Node.index ∘ Node.advance = Node.index := rfl
    rw [moved, List.map_map, hindex, hlater.indices, create_indices hcreate, hside, ← Nat.cast_mul, Int.toNat_natCast]
  · rw [← hheading]
    exact List.map_congr_left fun n hn => Node.position_of_atRest (hresting.atRest n hn)

/-- Two herds of as many nodes that are reshuffled with the same draws: whatever their distances, how long they are
watched and how often, every reshuffle that both of them reach finds them in the same cells, each on its own grid. -/
theorem cells_ignore_geometry {q : Params} {o' : Options} {other : Generator γ} (hcreate : create p o source = .ok start)
    (hcreate' : create q o' source = .ok other) (hcouples : q.swapCouples = p.swapCouples) (hsame : o'.nodes = o.nodes)
    (hnodes : o.nodes ≤ 25) (hside : o.nodes.toInt = side * side) (hnumber : 1 ≤ number)
    (hreached : number * p.period.toInt < start.total.toInt) (hreached' : number * q.period.toInt < other.total.toInt)
    (hdistance : p.nodeDistance.toInt ≤ Coordinate.exactBound) (hdistance' : q.nodeDistance.toInt ≤ Coordinate.exactBound)
    (hexact : ((side : Int) - 1) * p.nodeDistance.toInt + number * p.shuffleDistance.toInt ≤ Coordinate.exactBound)
    (hexact' : ((side : Int) - 1) * q.nodeDistance.toInt + number * q.shuffleDistance.toInt ≤ Coordinate.exactBound) :
    ∃ cells : List (Nat × Nat), cells.Perm (gridCells side) ∧
      ((start.atReshuffle number).map Node.index = List.range (side * side) ∧
        (start.atReshuffle number).map Node.position = cells.map fun cell =>
          (cell.1 * p.nodeDistance.toInt + (number - 1 : Nat) * p.shuffleDistance.toInt, cell.2 * p.nodeDistance.toInt)) ∧
      (other.atReshuffle number).map Node.index = List.range (side * side) ∧
        (other.atReshuffle number).map Node.position = cells.map fun cell =>
          (cell.1 * q.nodeDistance.toInt + (number - 1 : Nat) * q.shuffleDistance.toInt, cell.2 * q.nodeDistance.toInt) := by
  have hfirst := atReshuffle_eq hcreate hnodes hside hnumber hdistance hexact hreached
  have hsecond := atReshuffle_eq hcreate' (hsame ▸ hnodes) (hsame ▸ hside) hnumber hdistance' hexact' hreached'
  rw [hcouples] at hsecond
  exact ⟨_, arrangement_perm _ _ _ _, hfirst, hsecond⟩

/-- Nine nodes on a narrow grid and on a wide one, of which the second drifts further and is sampled more often: their
third reshuffles find them in the same cells. -/
theorem third_reshuffles_find_same_cells :
    ∃ start other : Generator Pcg, create ⟨1, 4, 2⟩ ⟨9, 15, 10, 7⟩ (Pcg.ofSeed 7) = .ok start ∧
      create ⟨3, 4, 5⟩ ⟨9, 40, 1, 7⟩ (Pcg.ofSeed 7) = .ok other ∧
      ∃ cells : List (Nat × Nat), cells.Perm (gridCells 3) ∧ cells ≠ gridCells 3 ∧
        (start.atReshuffle 3).map Node.position = cells.map (cellPoint 1 4) ∧
        (other.atReshuffle 3).map Node.position = cells.map (cellPoint 3 10) := by
  obtain ⟨start, hcreate⟩ := exists_create (p := ⟨1, 4, 2⟩) (o := ⟨9, 15, 10, 7⟩) (by decide) (by decide +kernel)
    (Pcg.ofSeed 7)
  obtain ⟨other, hcreate'⟩ := exists_create (p := ⟨3, 4, 5⟩) (o := ⟨9, 40, 1, 7⟩) (by decide) (by decide +kernel)
    (Pcg.ofSeed 7)
  obtain ⟨-, -, hstart⟩ := create_eq hcreate
  obtain ⟨-, -, hother⟩ := create_eq hcreate'
  obtain ⟨cells, hperm, ⟨-, hpositions⟩, -, hpositions'⟩ := cells_ignore_geometry hcreate hcreate' rfl rfl
    (by decide) (by decide : (9 : Int64).toInt = (3 : Nat) * (3 : Nat)) (by decide : 1 ≤ 3)
    (by subst hstart; decide) (by subst hother; decide) (by decide) (by decide) (by decide) (by decide)
  refine ⟨start, other, hcreate, hcreate', cells, hperm, ?_, hpositions, hpositions'⟩
  rintro rfl
  subst hstart
  exact absurd hpositions (by decide +kernel)

end Generator

end MobilitySweep
