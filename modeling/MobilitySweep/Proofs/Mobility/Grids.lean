import MobilitySweep.Mobility.Generator
import MobilitySweep.Proofs.Number.Rounding

/-! # Square grids

The nodes of a trace fill a square. Whether their number is one is decided with the root that double
precision gives, which is exact for squares and never so large that its own square wraps. Row by row,
the grid is laid out from that root.
-/

namespace MobilitySweep

namespace Options

/-- The side of a grid is a root that is far from wrapping. -/
theorem toInt_gridSide (nodes : Int64) : (gridSide nodes).toInt = Root.ofRounded nodes.toInt.toNat ∧
    Root.ofRounded nodes.toInt.toNat ≤ Root.largestRoot := by
  have hnodes := nodes.toInt_lt
  have hroot : Root.ofRounded nodes.toInt.toNat ≤ Root.largestRoot := Root.ofRounded_le (by omega)
  have hlargest : Root.largestRoot < 2 ^ 63 := by decide
  exact ⟨Int64.toInt_ofNat_of_lt (hroot.trans_lt hlargest), hroot⟩

/-- The square of a side does not wrap. -/
theorem toInt_gridSide_sq (nodes : Int64) :
    (gridSide nodes * gridSide nodes).toInt = (gridSide nodes).toInt * (gridSide nodes).toInt := by
  obtain ⟨hside, hroot⟩ := toInt_gridSide nodes
  have hsquare := Nat.mul_le_mul hroot hroot
  have hlargest : Root.largestRoot * Root.largestRoot < 2 ^ 63 := by decide
  rw [Int64.toInt_mul, hside, ← Nat.cast_mul, Int.bmod_eq_of_le_mul_two] <;> omega

/-- The side of a grid of squarely many nodes is the root of their number. -/
theorem gridSide_of_sq {nodes : Int64} {root : Nat} (hpos : 0 < nodes.toInt) (h : nodes.toInt = root * root) :
    (gridSide nodes).toInt = root := by
  have hnodes : nodes.toInt.toNat = root * root := by
    rw [h, ← Nat.cast_mul, Int.toNat_natCast]
  have hbound := nodes.toInt_lt
  rw [(toInt_gridSide nodes).1, hnodes, Root.ofRounded_sq]
  · rcases Nat.eq_zero_or_pos root with rfl | hroot
    · simp [h] at hpos
    · exact hroot
  · omega

/-- The grid check looks for squares, though it reckons with rounded roots. -/
theorem gridSide_sq_iff {nodes : Int64} (hpos : 0 < nodes.toInt) :
    gridSide nodes * gridSide nodes = nodes ↔ IsSquare nodes.toInt := by
  rw [← Int64.toInt_inj, toInt_gridSide_sq]
  constructor
  · intro h
    exact ⟨_, h.symm⟩
  · rintro ⟨root, hroot⟩
    -- A square has a root below zero too, and the side is the other one.
    have hsquare : nodes.toInt = root.natAbs * root.natAbs := by rw [hroot, Int.natAbs_mul_self']
    rw [gridSide_of_sq hpos hsquare, hsquare]

/-- What the check of options promises. -/
theorem of_validate_ok {o : Options} (h : o.validate = .ok ()) :
    0 < o.nodes.toInt ∧ gridSide o.nodes * gridSide o.nodes = o.nodes ∧ 0 ≤ o.duration.toInt ∧
      0 < o.sampleInterval.toInt := by
  unfold validate at h
  repeat' split at h
  all_goals simp_all [Int64.lt_iff_toInt_lt, Int64.le_iff_toInt_le]

/-- The nodes fill their grid. -/
theorem gridSide_sq {o : Options} (h : o.validate = .ok ()) :
    (gridSide o.nodes).toInt.toNat * (gridSide o.nodes).toInt.toNat = o.nodes.toInt.toNat := by
  obtain ⟨-, hsquare, -, -⟩ := of_validate_ok h
  have hproduct := toInt_gridSide_sq o.nodes
  rw [hsquare] at hproduct
  rw [hproduct, (toInt_gridSide o.nodes).1, ← Nat.cast_mul, Int.toNat_natCast, Int.toNat_natCast]

/-- The side of an accepted grid is the whole root of its nodes, and takes half of their bits. -/
theorem gridSide_eq {o : Options} (h : o.validate = .ok ()) {side : Nat} (hside : o.nodes.toInt = side * side) :
    (gridSide o.nodes).toInt.toNat = side ∧ 0 < side ∧ side ≤ 2 ^ 32 := by
  obtain ⟨hpos, -, -, -⟩ := of_validate_ok h
  obtain ⟨hvalue, hbound⟩ := toInt_gridSide o.nodes
  have hlargest : Root.largestRoot ≤ 2 ^ 32 := by decide
  have hroot := gridSide_of_sq hpos hside
  refine ⟨by omega, Nat.pos_of_ne_zero ?_, by omega⟩
  rintro rfl
  simp [hside] at hpos

/-- Options that describe a square grid and a clock that advances are accepted. -/
theorem validate_eq_ok {o : Options} (hnodes : 0 < o.nodes.toInt)
    (hsquare : gridSide o.nodes * gridSide o.nodes = o.nodes) (hduration : 0 ≤ o.duration.toInt)
    (hinterval : 0 < o.sampleInterval.toInt) : o.validate = .ok () := by
  have hzero : (0 : Int64).toInt = 0 := rfl
  unfold validate
  rw [if_neg (by rw [Int64.le_iff_toInt_le]; omega), if_neg (not_not_intro hsquare),
    if_neg (by rw [Int64.lt_iff_toInt_lt]; omega), if_neg (by rw [Int64.le_iff_toInt_le]; omega)]

/-- Options are accepted for the square numbers of nodes, provided that the clock advances. -/
theorem validate_eq_ok_iff {o : Options} (hpos : 0 < o.nodes.toInt) :
    o.validate = .ok () ↔ IsSquare o.nodes.toInt ∧ 0 ≤ o.duration.toInt ∧ 0 < o.sampleInterval.toInt := by
  constructor
  · intro h
    obtain ⟨-, hsquare, hduration, hinterval⟩ := of_validate_ok h
    exact ⟨(gridSide_sq_iff hpos).mp hsquare, hduration, hinterval⟩
  · rintro ⟨hsquare, hduration, hinterval⟩
    exact validate_eq_ok hpos ((gridSide_sq_iff hpos).mpr hsquare) hduration hinterval

/-- Any other number of nodes is refused for not being a square, whatever the clock is. -/
theorem validate_eq_nodesNotSquare_iff {o : Options} (hpos : 0 < o.nodes.toInt) :
    o.validate = .error (.nodesNotSquare o.nodes) ↔ ¬IsSquare o.nodes.toInt := by
  have hzero : (0 : Int64).toInt = 0 := rfl
  have hsome : ¬o.nodes ≤ 0 := by
    rw [Int64.le_iff_toInt_le]
    omega
  rw [← gridSide_sq_iff hpos]
  unfold validate
  rw [if_neg hsome]
  split
  next hother => simp [hother]
  next hsquare =>
    rw [not_not] at hsquare
    repeat' split
    all_goals simp [hsquare]

end Options

namespace Generator

/-! ## Laying out a grid

The nodes of a grid are laid one after another, each numbered by those before it.
-/

/-- The coordinate of a row or a column. -/
def cell (distance : Int64) (place : Nat) : Coordinate := Coordinate.ofInt (Int64.ofNat place * distance).toInt

/-- One more node, at a row and a column. -/
def layNode (distance : Int64) (row : Nat) (laid : List Node) (column : Nat) : List Node :=
  laid ++ [Node.resting laid.length (cell distance row) (cell distance column)]

/-- One more row of nodes. -/
def layRow (columns : Nat) (distance : Int64) (laid : List Node) (row : Nat) : List Node :=
  (List.range columns).foldl (layNode distance row) laid

/-- A number of rows of nodes. -/
def layRows (rows columns : Nat) (distance : Int64) : List Node :=
  (List.range rows).foldl (layRow columns distance) []

/-- The nodes of a row are numbered from the ones before it. -/
theorem layRow_eq (columns : Nat) (distance : Int64) (laid : List Node) (row : Nat) :
    layRow columns distance laid row = laid ++ (List.range columns).map fun column =>
      Node.resting (laid.length + column) (cell distance row) (cell distance column) := by
  induction columns with
  | zero => simp [layRow]
  | succ columns ih =>
      rw [layRow] at ih
      rw [layRow, List.range_succ, List.foldl_append, ih, List.map_append, ← List.append_assoc]
      simp [layNode]

/-- Full rows come before a row, so that its nodes are numbered from a multiple of the columns. -/
theorem layRows_eq (rows columns : Nat) (distance : Int64) :
    layRows rows columns distance = (List.range rows).flatMap fun row => (List.range columns).map fun column =>
      Node.resting (row * columns + column) (cell distance row) (cell distance column) := by
  induction rows with
  | zero => rfl
  | succ rows ih =>
      -- The next row begins with the index that the rows before it have come to.
      have hlength : (layRows rows columns distance).length = rows * columns := by
        rw [ih]
        simp [List.length_flatMap]
      rw [layRows] at ih hlength
      rw [layRows, List.range_succ, List.foldl_append, List.foldl_cons, List.foldl_nil, layRow_eq, hlength, ih,
        List.flatMap_append, List.flatMap_singleton]

/-- Counting in rows. -/
theorem range_mul_map {α : Type} (rows columns : Nat) (f : Nat → α) :
    (List.range (rows * columns)).map f =
      (List.range rows).flatMap fun i => (List.range columns).map fun j => f (i * columns + j) := by
  induction rows with
  | zero => simp
  | succ rows ih =>
      rw [Nat.succ_mul, List.range_add, List.map_append, ih, List.range_succ, List.flatMap_append]
      simp [Function.comp_def]

/-- The index of a node tells its row and its column. -/
theorem gridNode_eq {side row column : Nat} (distance : Int64) (h : column < side) :
    gridNode side distance (row * side + column) =
      Node.resting (row * side + column) (cell distance row) (cell distance column) := by
  have hrow : (row * side + column) / side = row := by
    rw [Nat.mul_comm, Nat.mul_add_div (by omega), Nat.div_eq_of_lt h, Nat.add_zero]
  have hcolumn : (row * side + column) % side = column := by
    rw [Nat.mul_comm, Nat.mul_add_mod, Nat.mod_eq_of_lt h]
  rw [gridNode, hrow, hcolumn, cell, cell]

/-- A grid is laid row by row. -/
theorem grid_eq_layRows (side : Nat) (distance : Int64) : grid side distance = layRows side side distance := by
  rw [grid, range_mul_map, layRows_eq]
  apply List.flatMap_congr
  intro row _
  apply List.map_congr_left
  intro column hcolumn
  exact gridNode_eq distance (List.mem_range.mp hcolumn)

@[simp]
theorem length_grid (side : Nat) (distance : Int64) : (grid side distance).length = side * side := by
  simp [grid]

theorem getElem?_grid {side index : Nat} (distance : Int64) (h : index < side * side) :
    (grid side distance)[index]? =
      some (Node.resting index (cell distance (index / side)) (cell distance (index % side))) := by
  rw [grid, List.getElem?_map, List.getElem?_range h]
  rfl

section

variable {γ : Type}

/-- All that is made of valid parameters and options. -/
theorem create_eq {p : Params} {o : Options} {source : γ} {start : Generator γ}
    (h : create p o source = .ok start) :
    p.validate = .ok () ∧ o.validate = .ok () ∧
      start = ⟨p, o, source, grid (Options.gridSide o.nodes).toInt.toNat p.nodeDistance, 0, p.totalTicks o.duration,
        ⟨0, 0, 0⟩⟩ := by
  unfold create at h
  cases hparams : p.validate with
  | error cause => simp [hparams, bind, Except.bind, Except.mapError] at h
  | ok =>
      cases hoptions : o.validate with
      | error cause => simp [hparams, hoptions, bind, Except.bind, Except.mapError] at h
      | ok =>
          simp only [hparams, hoptions, bind, Except.bind, Except.mapError, pure, Except.pure,
            Except.ok.injEq] at h
          exact ⟨rfl, rfl, h.symm⟩

/-- Valid parameters and options are all that a generator needs. -/
theorem exists_create {p : Params} {o : Options} (hparams : p.validate = .ok ()) (hoptions : o.validate = .ok ())
    (source : γ) : ∃ start, create p o source = .ok start := by
  simp [create, hparams, hoptions, bind, Except.bind, Except.mapError, pure, Except.pure]

/-- A generator is made for valid parameters and options, on its grid. -/
theorem create_eq_ok {p : Params} {o : Options} {source : γ} {start : Generator γ}
    (h : create p o source = .ok start) :
    p.validate = .ok () ∧ o.validate = .ok () ∧ start.params = p ∧ start.tick = 0 ∧
      start.nodes = grid (Options.gridSide o.nodes).toInt.toNat p.nodeDistance := by
  obtain ⟨hparams, hoptions, rfl⟩ := create_eq h
  exact ⟨hparams, hoptions, rfl, rfl, rfl⟩

end

/-- Nodes are counted exactly: squares pass the check and no other number does, the root of a square is the side of its
grid, and as many nodes are laid as were asked for, in the order of their rows. -/
theorem square_check_is_exact (o : Options) (hpos : 0 < o.nodes.toInt) :
    (Options.gridSide o.nodes * Options.gridSide o.nodes).toInt =
        (Options.gridSide o.nodes).toInt * (Options.gridSide o.nodes).toInt ∧
      (o.validate = .error (.nodesNotSquare o.nodes) ↔ ¬IsSquare o.nodes.toInt) ∧
      (o.validate = .ok () ↔ IsSquare o.nodes.toInt ∧ 0 ≤ o.duration.toInt ∧ 0 < o.sampleInterval.toInt) ∧
      ∀ side : Nat, o.nodes.toInt = side * side →
        (Options.gridSide o.nodes).toInt = side ∧
          (∀ distance : Int64, ((layRows side side distance).length : Int) = o.nodes.toInt ∧
            ∀ index < side * side, (layRows side side distance)[index]? =
              some (Node.resting index (cell distance (index / side)) (cell distance (index % side)))) ∧
          ∀ {γ : Type} (p : Params) (source : γ), p.validate = .ok () → 0 ≤ o.duration.toInt →
            0 < o.sampleInterval.toInt →
              ∃ start, create p o source = .ok start ∧ start.nodes = layRows side side p.nodeDistance := by
  refine ⟨Options.toInt_gridSide_sq o.nodes, Options.validate_eq_nodesNotSquare_iff hpos,
    Options.validate_eq_ok_iff hpos, ?_⟩
  intro side hside
  have hroot := Options.gridSide_of_sq hpos hside
  refine ⟨hroot, fun distance => ?_, fun p source hparams hduration hinterval => ?_⟩
  · rw [← grid_eq_layRows, length_grid, hside, Nat.cast_mul]
    exact ⟨rfl, fun index hindex => getElem?_grid distance hindex⟩
  · have hoptions := (Options.validate_eq_ok_iff hpos).mpr ⟨⟨side, hside⟩, hduration, hinterval⟩
    obtain ⟨start, hstart⟩ := exists_create hparams hoptions source
    obtain ⟨-, -, -, -, hnodes⟩ := create_eq_ok hstart
    rw [hroot, Int.toNat_natCast, grid_eq_layRows] at hnodes
    exact ⟨start, hstart, hnodes⟩

/-- The largest grid that can be asked for has its last node in its last corner; one node less is refused. Both numbers
are held by the same double precision number. -/
theorem largest_grid_is_square :
    Options.validate ⟨9223372030926249000, 0, 1, 0⟩ = .error (.nodesNotSquare 9223372030926249000) ∧
      (Options.gridSide 9223372030926249001).toInt = 3037000499 ∧
      ∃ start : Generator Pcg, create ⟨1, 0, 1⟩ ⟨9223372030926249001, 0, 1, 0⟩ (Pcg.ofSeed 0) = .ok start ∧
        (start.nodes.length : Int) = 9223372030926249001 ∧
        start.nodes[9223372030926249000]? = some (Node.resting 9223372030926249000 3037000498 3037000498) := by
  obtain ⟨-, hrefused, -, -⟩ := square_check_is_exact ⟨9223372030926249000, 0, 1, 0⟩ (by decide)
  obtain ⟨-, -, -, hgrid⟩ := square_check_is_exact ⟨9223372030926249001, 0, 1, 0⟩ (by decide)
  obtain ⟨hside, hlaid, hcreate⟩ := hgrid 3037000499 (by decide)
  obtain ⟨start, hstart, hnodes⟩ := hcreate ⟨1, 0, 1⟩ (Pcg.ofSeed 0) (by decide) (by decide) (by decide)
  obtain ⟨hlength, hindices⟩ := hlaid 1
  have hcell : cell 1 3037000498 = 3037000498 := by decide +kernel
  refine ⟨hrefused.mpr ?_, hside, start, hstart, ?_, ?_⟩
  · have hvalue : Int64.toInt 9223372030926249000 = 9223372030926249000 := by decide
    rw [hvalue]
    norm_num
  · rw [hnodes]
    exact hlength
  · rw [hnodes, hindices 9223372030926249000 (by decide)]
    norm_num [hcell]

end Generator

end MobilitySweep
