import Mathlib
import MobilitySweep.Mobility.Generator

/-! # Motion of nodes

Whole coordinates up to two to the power 53 are held exactly. Between two such coordinates a tick
closes the gap by one unit, so the number of ticks that a node needs is the larger of its two gaps.
-/

namespace MobilitySweep

namespace Coordinate

/-- The integers up to which every whole coordinate is held exactly. -/
def exactBound : Int := 9007199254740992

/-- A coordinate between zero and the exact bound. -/
def IsExact (c : Int) : Prop := 0 ≤ c ∧ c ≤ exactBound

theorem rounded_of_le {n : Nat} (hn : n ≤ 9007199254740992) : Root.rounded n = n := by
  rcases Nat.lt_or_eq_of_le hn with hlt | rfl
  · have hspacing : Binary64.spacing n = 1 := by
      rw [Binary64.spacing, if_pos (by simpa using hlt)]
    simp [Root.rounded, hspacing, Binary64.roundQuotient, Nat.mod_one]
  · decide +kernel

/-- Coordinates within the exact bound are their own. -/
theorem ofInt_of_isExact {n : Int} (hn : IsExact n) : ofInt n = n := by
  obtain ⟨hlow, hhigh⟩ := hn
  have hbound : n.natAbs ≤ 9007199254740992 := by
    simp only [exactBound] at hhigh
    omega
  rw [ofInt, if_neg (by omega), rounded_of_le hbound, Int.natAbs_of_nonneg hlow]

/-- Every whole number on the way to a destination is held exactly. -/
def IsClear (position destination : Int) : Prop := ∀ c ∈ Set.uIcc position destination, ofInt c = c

/-- Where a number of ticks lead on the way to a destination. -/
def after (ticks : Nat) (position destination : Int) : Int :=
  position + max (-(ticks : Int)) (min ticks (destination - position))

theorem isClear_of_isExact {position destination : Int} (hposition : IsExact position) (hdestination : IsExact destination) :
    IsClear position destination := by
  intro c hc
  rw [Set.mem_uIcc] at hc
  refine ofInt_of_isExact ?_
  simp only [IsExact] at *
  omega

/-- One tick on a way whose whole numbers are held. -/
theorem approach_of_isClear {position destination : Int} (h : IsClear position destination) :
    approach position destination = after 1 position destination := by
  have hnext (c : Int) (hc : position ≤ c ∧ c ≤ destination ∨ destination ≤ c ∧ c ≤ position) : ofInt c = c :=
    h c (Set.mem_uIcc.mpr hc)
  unfold approach after
  unfold Coordinate at *
  split
  next hlt =>
    rw [hnext (position + 1) (by omega)]
    omega
  next =>
    split
    next hlt =>
      rw [hnext (position - 1) (by omega)]
      omega
    next => omega

/-- The part of a gap that is left after one tick. -/
theorem approach_of_isExact {position destination : Int} (hposition : IsExact position)
    (hdestination : IsExact destination) :
    approach position destination =
      position + max (-1) (min 1 (destination - position)) :=
  approach_of_isClear (isClear_of_isExact hposition hdestination)

/-- A tick keeps a coordinate between the old one and its destination. -/
theorem approach_isExact {position destination : Int} (hposition : IsExact position)
    (hdestination : IsExact destination) : IsExact (approach position destination) := by
  rw [approach_of_isExact hposition hdestination]
  simp only [IsExact] at *
  omega

/-- A tick shortens a gap by one unit. -/
theorem approach_gap {position destination ticks : Int} (hposition : IsExact position)
    (hdestination : IsExact destination) (hticks : 0 ≤ ticks)
    (hgap : |destination - position| ≤ ticks + 1) :
    |destination - approach position destination| ≤ ticks := by
  rw [approach_of_isExact hposition hdestination]
  rw [abs_le] at hgap ⊢
  omega

end Coordinate

namespace Node

/-- Where a node stands. -/
def position (n : Node) : Int × Int := (n.x, n.y)

/-- Where a node is heading. -/
def destination (n : Node) : Int × Int := (n.destX, n.destY)

/-- All four coordinates of a node are held exactly. -/
structure IsExact (n : Node) : Prop where
  x : Coordinate.IsExact n.x
  y : Coordinate.IsExact n.y
  destX : Coordinate.IsExact n.destX
  destY : Coordinate.IsExact n.destY

/-- A node that reaches its destination within a number of ticks. -/
structure Within (ticks : Int) (n : Node) : Prop where
  x : |n.destX - n.x| ≤ ticks
  y : |n.destY - n.y| ≤ ticks

theorem Within.mono {ticks more : Int} {n : Node} (h : n.Within ticks) (hle : ticks ≤ more) :
    n.Within more :=
  ⟨h.x.trans hle, h.y.trans hle⟩

@[simp] theorem advance_destination (n : Node) : n.advance.destination = n.destination := rfl

@[simp] theorem resting_destination (index : Nat) (x y : Coordinate) :
    (resting index x y).destination = (x, y) := rfl

theorem advance_isExact {n : Node} (hn : n.IsExact) : n.advance.IsExact :=
  ⟨Coordinate.approach_isExact hn.x hn.destX, Coordinate.approach_isExact hn.y hn.destY,
    hn.destX, hn.destY⟩

/-- One tick shortens the way by one. -/
theorem advance_within {ticks : Int} {n : Node} (hn : n.IsExact) (hticks : 0 ≤ ticks)
    (hwithin : n.Within (ticks + 1)) : n.advance.Within ticks :=
  ⟨Coordinate.approach_gap hn.x hn.destX hticks hwithin.x,
    Coordinate.approach_gap hn.y hn.destY hticks hwithin.y⟩

theorem within_zero_iff (n : Node) : n.Within 0 ↔ n.atRest = true := by
  simp only [atRest, Bool.and_eq_true, beq_iff_eq]
  constructor
  · rintro ⟨hx, hy⟩
    rw [abs_nonpos_iff, sub_eq_zero] at hx hy
    exact ⟨hx.symm, hy.symm⟩
  · rintro ⟨hx, hy⟩
    exact ⟨by simp [hx], by simp [hy]⟩

theorem position_of_atRest {n : Node} (h : n.atRest = true) : n.position = n.destination := by
  simp only [atRest, Bool.and_eq_true, beq_iff_eq] at h
  exact Prod.ext h.1 h.2

end Node

/-! ## Reshuffling

Trading destinations in pairs rearranges the list of destinations and nothing else: the nodes stay
where they are, and every destination that was there before is still somebody's.
-/

namespace Generator

/-- The places that nodes are heading for, with their multiplicities. -/
def destinations (nodes : List Node) : Multiset (Int × Int) := nodes.map Node.destination

/-- The places that nodes stand at, with their multiplicities. -/
def positions (nodes : List Node) : Multiset (Int × Int) := nodes.map Node.position

/-! ### Trades -/

section

variable {α : Type}

/-- The entries at two places of a list exchanged. -/
def trade (a b : Nat) (entries : List α) : List α :=
  match entries[a]?, entries[b]? with
  | some x, some y => (entries.set a y).set b x
  | _, _ => entries

theorem trade_map {β : Type} (f : α → β) (a b : Nat) (entries : List α) :
    trade a b (entries.map f) = (trade a b entries).map f := by
  simp only [trade, List.getElem?_map]
  cases entries[a]? <;> cases entries[b]? <;> simp [List.map_set]

/-- Nothing gets lost in a trade, and nothing is there twice. -/
theorem trade_perm (a b : Nat) (entries : List α) : (trade a b entries).Perm entries := by
  unfold trade
  split
  next x y hx hy =>
    obtain ⟨ha, rfl⟩ := List.getElem?_eq_some_iff.mp hx
    obtain ⟨hb, rfl⟩ := List.getElem?_eq_some_iff.mp hy
    exact List.set_set_perm ha hb
  next => exact List.Perm.refl entries

end

section

variable {α : Type} {f : Node → α}

/-- A trade of destinations changes nothing but the destinations. -/
theorem swap_map (hf : ∀ n other : Node, f (n.headingFor other) = f n) (a b : Nat) (nodes : List Node) :
    (swap a b nodes).map f = nodes.map f := by
  unfold swap
  split
  next na nb hna hnb =>
    obtain ⟨ha, rfl⟩ := List.getElem?_eq_some_iff.mp hna
    obtain ⟨hb, rfl⟩ := List.getElem?_eq_some_iff.mp hnb
    rw [List.map_set, List.map_set, hf, hf]
    apply List.ext_getElem (by simp)
    intro i hi hi'
    simp only [List.getElem_set, List.getElem_map]
    split <;> [simp_all; split <;> simp_all]
  next => rfl

end

/-- What holds of all nodes and of a node that heads where another one did holds after a trade. -/
theorem swap_forall {P : Node → Prop} (hheading : ∀ n other, P n → P other → P (n.headingFor other))
    {nodes : List Node} (h : ∀ n ∈ nodes, P n) (a b : Nat) : ∀ n ∈ swap a b nodes, P n := by
  unfold swap
  split
  next na nb hna hnb =>
    have ha := h na (List.mem_of_getElem? hna)
    have hb := h nb (List.mem_of_getElem? hnb)
    intro n hn
    rcases List.mem_or_eq_of_mem_set hn with hn | rfl
    · rcases List.mem_or_eq_of_mem_set hn with hn | rfl
      · exact h n hn
      · exact hheading na nb ha hb
    · exact hheading nb na hb ha
  next => exact h

/-- A pair trades whole destinations. -/
theorem swap_map_destination (a b : Nat) (nodes : List Node) :
    (swap a b nodes).map Node.destination = trade a b (nodes.map Node.destination) := by
  simp only [swap, trade, List.getElem?_map]
  cases nodes[a]? <;> cases nodes[b]? <;> simp [List.map_set, Node.headingFor, Node.destination]

theorem swap_destinations (a b : Nat) (nodes : List Node) :
    destinations (swap a b nodes) = destinations nodes := by
  rw [destinations, swap_map_destination]
  exact Multiset.coe_eq_coe.mpr (trade_perm a b _)

variable {γ : Type} [DrawSource γ]

theorem swapCouples_map {α : Type} {f : Node → α} (hf : ∀ n other : Node, f (n.headingFor other) = f n)
    (couples : Nat) (nodes : List Node) (source : γ) :
    (swapCouples couples nodes source).1.map f = nodes.map f := by
  induction couples generalizing nodes source with
  | zero => rfl
  | succ couples ih => rw [swapCouples, ih, swap_map hf]

theorem swapCouples_forall {P : Node → Prop} (hheading : ∀ n other, P n → P other → P (n.headingFor other))
    (couples : Nat) {nodes : List Node} (h : ∀ n ∈ nodes, P n) (source : γ) :
    ∀ n ∈ (swapCouples couples nodes source).1, P n := by
  induction couples generalizing nodes source with
  | zero => exact h
  | succ couples ih => exact ih (swap_forall hheading h _ _) _

theorem swapCouples_destinations (couples : Nat) (nodes : List Node) (source : γ) :
    destinations (swapCouples couples nodes source).1 = destinations nodes := by
  induction couples generalizing nodes source with
  | zero => rfl
  | succ couples ih => rw [swapCouples, ih, swap_destinations]

/-- Reshuffling changes nothing but the destinations. -/
theorem reshuffle_map {α : Type} {f : Node → α} (hheading : ∀ n other : Node, f (n.headingFor other) = f n)
    (hdrift : ∀ distance n, f (Node.drift distance n) = f n) (g : Generator γ) :
    g.reshuffle.nodes.map f = g.nodes.map f := by
  rw [reshuffle]
  simp only [swapCouples_map hheading, List.map_map]
  exact List.map_congr_left fun n _ => hdrift _ n

/-- Reshuffling moves no node. -/
theorem reshuffle_positions (g : Generator γ) :
    g.reshuffle.nodes.map Node.position = g.nodes.map Node.position :=
  reshuffle_map (fun _ _ => rfl) (fun _ _ => rfl) g

/-- Reshuffling redistributes the drifted destinations. -/
theorem reshuffle_destinations (g : Generator γ) :
    destinations g.reshuffle.nodes =
      destinations (g.nodes.map (Node.drift (Coordinate.ofInt g.params.shuffleDistance.toInt))) := by
  rw [reshuffle]
  exact swapCouples_destinations _ _ _

theorem mem_destinations {n : Node} {nodes : List Node} (hn : n ∈ nodes) :
    n.destination ∈ destinations nodes :=
  Multiset.mem_coe.mpr (List.mem_map_of_mem hn)

theorem mem_positions {n : Node} {nodes : List Node} (hn : n ∈ nodes) :
    n.position ∈ positions nodes :=
  Multiset.mem_coe.mpr (List.mem_map_of_mem hn)

/-- Nodes that all rest stand where they are heading. -/
theorem positions_eq_destinations {nodes : List Node} (h : ∀ n ∈ nodes, n.atRest = true) :
    positions nodes = destinations nodes := by
  rw [positions, destinations, List.map_congr_left]
  intro n hn
  exact Node.position_of_atRest (h n hn)

end Generator

end MobilitySweep
