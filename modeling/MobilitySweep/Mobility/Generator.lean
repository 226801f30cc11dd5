import MobilitySweep.Mobility.Params
import MobilitySweep.Mobility.Trace
import MobilitySweep.Number.Binary64

/-! # Generating traces

The source of random draws, the nodes that walk the field, and the generator that moves them.
-/

namespace MobilitySweep

/-! ## Sources of random indices

A source yields one index below a bound and the source for the next draw. The generator is written
over any source; traces are made with a permuted congruential generator of 128 bits of state.
-/

/-- A source of indices: every draw below a positive bound stays below it. -/
class DrawSource (γ : Type) where
  draw : Nat → γ → Nat × γ
  draw_lt : ∀ (bound : Nat) (source : γ), 0 < bound → (draw bound source).1 < bound

/-- A permuted congruential generator: two words of state. -/
structure Pcg where
  high : UInt64
  low : UInt64
deriving DecidableEq, Repr, Inhabited

namespace Pcg

/-- The generator with both words set to a seed. -/
def ofSeed (seed : Int64) : Pcg := ⟨seed.toUInt64, seed.toUInt64⟩

/-- The multiplier of the state. -/
def multiplier : Nat := 2549297995355413924 * Nat.pow 2 64 + 4865540595714422341

/-- The increment of the state. -/
def increment : Nat := 6364136223846793005 * Nat.pow 2 64 + 1442695040888963407

/-- The next state: a linear congruence modulo two to the power 128. -/
def advance (p : Pcg) : Pcg :=
  let state := (p.high.toNat * Nat.pow 2 64 + p.low.toNat) * multiplier + increment
  ⟨UInt64.ofNat (state / Nat.pow 2 64), UInt64.ofNat state⟩

/-- The output of a state: the high word is xor-shifted and multiplied twice. -/
def output (p : Pcg) : UInt64 :=
  let a := (p.high ^^^ (p.high >>> 32)) * 0xda942042e4dd58b5
  (a ^^^ (a >>> 48)) * (p.low ||| 1)

/-- A random word. -/
def word (p : Pcg) : UInt64 × Pcg := let next := p.advance; (next.output, next)

/-- A word scaled to an index below a bound by the high half of their product. Words whose low half
falls under the threshold would favour some indices and are drawn again; after the given number of
redraws, which is reached with negligible probability, the word is taken as it is. -/
def scaled (bound threshold : Nat) : Nat → Pcg → Nat × Pcg
  | 0, p => let (w, next) := p.word; (w.toNat * bound / Nat.pow 2 64, next)
  | redraws + 1, p =>
    let (w, next) := p.word
    let product := w.toNat * bound
    if product % Nat.pow 2 64 < threshold then scaled bound threshold redraws next
    else (product / Nat.pow 2 64, next)

/-- An index below a bound: a power of two takes the low bits of a word, any other bound scales one. -/
def index (bound : Nat) (p : Pcg) : Nat × Pcg :=
  if bound &&& (bound - 1) = 0 then
    let (w, next) := p.word
    (w.toNat % bound, next)
  else scaled bound (Nat.pow 2 64 % bound) 128 p

theorem scaled_lt (bound threshold redraws : Nat) (p : Pcg) (positive : 0 < bound) :
    (scaled bound threshold redraws p).1 < bound := by
  have high (w : UInt64) : w.toNat * bound / Nat.pow 2 64 < bound := by
    have hw := w.toNat_lt
    exact Nat.div_lt_of_lt_mul (Nat.mul_lt_mul_of_pos_right hw positive)
  induction redraws generalizing p with
  | zero => exact high _
  | succ redraws ih =>
    simp only [scaled]
    split
    · exact ih _
    · exact high _

theorem index_lt (bound : Nat) (p : Pcg) (positive : 0 < bound) : (index bound p).1 < bound := by
  unfold index
  split
  · exact Nat.mod_lt _ positive
  · exact scaled_lt _ _ _ _ positive

end Pcg

instance : DrawSource Pcg := ⟨Pcg.index, Pcg.index_lt⟩

/-! ## Nodes

A node stands somewhere and heads for a destination. Coordinates are whole numbers, kept to the 53
significant bits of double precision.
-/

/-- A whole coordinate. -/
abbrev Coordinate := Int

namespace Coordinate

/-- The coordinate nearest to an integer; integers below two to the power 53 are their own. -/
def ofInt (n : Int) : Coordinate :=
  if n < 0 then -(Root.rounded n.natAbs : Int) else Root.rounded n.natAbs

/-- The coordinate as a double precision number. -/
def toBinary64 (c : Coordinate) : Binary64 := .finite (c < 0) (Int.natAbs c * Binary64.one)

/-- A position moved one unit toward a destination without passing it. -/
def approach (position destination : Coordinate) : Coordinate :=
  if position < destination then min (ofInt (position + 1)) destination
  else if destination < position then max (ofInt (position - 1)) destination
  else position

end Coordinate

/-- A mobile node. -/
structure Node where
  index : Nat
  x : Coordinate
  y : Coordinate
  destX : Coordinate
  destY : Coordinate
deriving DecidableEq, Repr, Inhabited

namespace Node

/-- A node that rests at a position. -/
def resting (index : Nat) (x y : Coordinate) : Node := ⟨index, x, y, x, y⟩

/-- Whether the node has reached its destination. -/
def atRest (n : Node) : Bool := n.x == n.destX && n.y == n.destY

/-- One tick of motion: each axis closes its gap by at most one unit. -/
def advance (n : Node) : Node :=
  { n with x := Coordinate.approach n.x n.destX, y := Coordinate.approach n.y n.destY }

/-- The destination set to the position shifted along x. -/
def drift (distance : Coordinate) (n : Node) : Node :=
  { n with destX := Coordinate.ofInt (n.x + distance) }

/-- The node with the destination of another one. -/
def headingFor (n other : Node) : Node := { n with destX := other.destX, destY := other.destY }

/-- The record of a node at a tick. -/
def sample (tick : Nat) (n : Node) : Sample :=
  ⟨Int64.ofNat n.index, Coordinate.toBinary64 (Coordinate.ofInt tick), Coordinate.toBinary64 n.x,
    Coordinate.toBinary64 n.y⟩

end Node

/-! ## The trace generator

A square grid of nodes advances tick by tick. Each tick moves every node, records positions at
multiples of the sample interval, and at every positive multiple of the period reshuffles: all
destinations drift along x, and random pairs trade destinations.
-/

/-- Counts of what a generator has done, in words of 64 bits: more samples than such a word counts wrap around. -/
structure Stats where
  ticks : Int64
  samples : Int64
  reshuffles : Int64
deriving DecidableEq, Repr, Inhabited

/-- What happened during one tick. -/
structure StepResult where
  tick : Nat
  samples : List Sample
  reshuffled : Bool
deriving DecidableEq, Repr, Inhabited

/-- A generator between two ticks. -/
structure Generator (γ : Type) where
  params : Params
  options : Options
  source : γ
  nodes : List Node
  tick : Nat
  total : Int64
  stats : Stats

namespace Generator

/-- Why no generator can be made. -/
inductive Invalid where
  | params (cause : Params.Invalid)
  | options (cause : Options.Invalid)
deriving DecidableEq, Repr

/-- The refusal as a fault. -/
def Invalid.fault : Invalid → Fault
  | params cause => cause.fault
  | options cause => cause.fault

/-- The cell of a grid in row-major order as a resting node. -/
def gridNode (side : Nat) (distance : Int64) (index : Nat) : Node :=
  Node.resting index
    (Coordinate.ofInt (Int64.ofNat (index / side) * distance).toInt)
    (Coordinate.ofInt (Int64.ofNat (index % side) * distance).toInt)

/-- The resting nodes of a square grid. -/
def grid (side : Nat) (distance : Int64) : List Node :=
  (List.range (side * side)).map (gridNode side distance)

section

variable {γ : Type} [DrawSource γ]

/-- A generator for valid parameters and options; parameters are checked first. Every node starts at
its destination, so nothing moves before the first reshuffle. -/
def create (p : Params) (o : Options) (source : γ) : Except Invalid (Generator γ) := do
  p.validate.mapError .params
  o.validate.mapError .options
  let side := (Options.gridSide o.nodes).toInt.toNat
  return ⟨p, o, source, grid side p.nodeDistance, 0, p.totalTicks o.duration, ⟨0, 0, 0⟩⟩

omit [DrawSource γ] in
/-- Whether every tick has been simulated. -/
def done (g : Generator γ) : Bool := g.total.toInt ≤ g.tick

/-- The nodes at two places trade destinations; a node paired with itself keeps its own. -/
def swap (a b : Nat) (nodes : List Node) : List Node :=
  match nodes[a]?, nodes[b]? with
  | some na, some nb => (nodes.set a (na.headingFor nb)).set b (nb.headingFor na)
  | _, _ => nodes

/-- A number of random pairs trade destinations, drawn with replacement. -/
def swapCouples : Nat → List Node → γ → List Node × γ
  | 0, nodes, source => (nodes, source)
  | couples + 1, nodes, source =>
    let (a, source) := DrawSource.draw nodes.length source
    let (b, source) := DrawSource.draw nodes.length source
    swapCouples couples (swap a b nodes) source

/-- All destinations drift, then pairs trade destinations. -/
def reshuffle (g : Generator γ) : Generator γ :=
  let drifted := g.nodes.map (Node.drift (Coordinate.ofInt g.params.shuffleDistance.toInt))
  let (nodes, source) := swapCouples g.params.swapCouples.toInt.toNat drifted g.source
  { g with nodes := nodes, source := source }

omit [DrawSource γ] in
/-- Whether the coming tick is sampled. -/
def sampled (g : Generator γ) : Bool := (g.tick : Int) % g.options.sampleInterval.toInt == 0

omit [DrawSource γ] in
/-- Whether the coming tick ends a period. -/
def endsPeriod (g : Generator γ) : Bool := 0 < g.tick && (g.tick : Int) % g.params.period.toInt == 0

/-- One tick: move, sample, reshuffle. Nothing is left once the trace is complete. -/
def step (g : Generator γ) : Option (StepResult × Generator γ) :=
  if g.done then none
  else
    let moved := { g with nodes := g.nodes.map Node.advance }
    -- Positions are recorded behind the move; a reshuffle on the same tick sets destinations only.
    let samples := if g.sampled then moved.nodes.map (Node.sample g.tick) else []
    let shuffled := if g.endsPeriod then moved.reshuffle else moved
    some (⟨g.tick, samples, g.endsPeriod⟩,
      { shuffled with
        tick := g.tick + 1
        stats :=
          ⟨g.stats.ticks + 1, g.stats.samples + Int64.ofNat samples.length,
            if g.endsPeriod then g.stats.reshuffles + 1 else g.stats.reshuffles⟩ })

/-- Up to a number of ticks: the results so far in reverse, and the generator after them. -/
def steps : Nat → List StepResult → Generator γ → List StepResult × Generator γ
  | 0, results, g => (results.reverse, g)
  | count + 1, results, g =>
    match g.step with
    | none => (results.reverse, g)
    | some (result, next) => steps count (result :: results) next

/-- Ticks until the first reshuffle or the end, at most a given number: how many there were, whether
the last one reshuffled, and the generator after them. -/
def untilReshuffle : Nat → Nat → Generator γ → Nat × Bool × Generator γ
  | 0, ticks, g => (ticks, false, g)
  | count + 1, ticks, g =>
    match g.step with
    | none => (ticks, false, g)
    | some (result, next) =>
      if result.reshuffled then (ticks + 1, true, next) else untilReshuffle count (ticks + 1) next

omit [DrawSource γ] in
/-- The ticks that are left. -/
def remaining (g : Generator γ) : Nat := (g.total.toInt - g.tick).toNat

end

end Generator

end MobilitySweep
