import MobilitySweep.Proofs.Mobility.Course

/-! # Motion between reshuffles

As long as no reshuffle hands out destinations, every node walks straight to its own: where it is after any number of
ticks is told by one clamp of each of its gaps to that number. The whole numbers on its way have to be held exactly, and
nothing else; the herd may be anywhere.
-/

namespace MobilitySweep

namespace Coordinate

variable {position destination : Int}

/-- What is left of a way is on the way. -/
theorem after_mem (ticks : Nat) (position destination : Int) :
    after ticks position destination ∈ Set.uIcc position destination := by
  rw [Set.mem_uIcc, after]
  omega

theorem IsClear.after (h : IsClear position destination) (ticks : Nat) :
    IsClear (after ticks position destination) destination :=
  fun c hc => h c (Set.uIcc_subset_uIcc_right (after_mem ticks position destination) hc)

@[simp] theorem after_zero (position destination : Int) : after 0 position destination = position := by
  rw [after]
  omega

theorem after_succ (ticks : Nat) (position destination : Int) :
    after (ticks + 1) position destination = after 1 (after ticks position destination) destination := by
  simp only [after]
  omega

/-- A tick closes a gap by one unit, if there is one. -/
theorem gap_after_one (position destination : Int) :
    |destination - after 1 position destination| =
      |destination - position| - min 1 |destination - position| := by
  simp only [after, abs_eq_max_neg]
  omega

end Coordinate

namespace Node

/-- Every whole number on the way of a node is held exactly. -/
structure IsClear (n : Node) : Prop where
  x : Coordinate.IsClear n.x n.destX
  y : Coordinate.IsClear n.y n.destY

/-- A node after a number of ticks on its way. -/
def after (ticks : Nat) (n : Node) : Node :=
  { n with x := Coordinate.after ticks n.x n.destX, y := Coordinate.after ticks n.y n.destY }

/-- Where a tick leads a node: nowhere but on its way, one unit nearer on each axis that it has not finished. -/
structure Nears (n : Node) (place : Int × Int) : Prop where
  between : place.1 ∈ Set.uIcc n.x n.destX ∧ place.2 ∈ Set.uIcc n.y n.destY
  gapX : |n.destX - place.1| = |n.destX - n.x| - min 1 |n.destX - n.x|
  gapY : |n.destY - place.2| = |n.destY - n.y| - min 1 |n.destY - n.y|
  stays : n.position = n.destination → place = n.position

variable {n : Node}

theorem IsExact.isClear (h : n.IsExact) : n.IsClear :=
  ⟨Coordinate.isClear_of_isExact h.x h.destX, Coordinate.isClear_of_isExact h.y h.destY⟩

theorem IsClear.after (h : n.IsClear) (ticks : Nat) : (n.after ticks).IsClear := ⟨h.x.after ticks, h.y.after ticks⟩

@[simp] theorem after_zero : Node.after 0 = id := funext fun n => by simp [Node.after]

theorem after_succ (ticks : Nat) (n : Node) : n.after (ticks + 1) = (n.after ticks).after 1 := by
  simp [Node.after, Coordinate.after_succ ticks]

@[simp] theorem after_destination (ticks : Nat) (n : Node) : (n.after ticks).destination = n.destination := rfl

theorem advance_of_isClear (h : n.IsClear) : n.advance = n.after 1 := by
  rw [advance, Coordinate.approach_of_isClear h.x, Coordinate.approach_of_isClear h.y, Node.after]

theorem nears_advance (h : n.IsClear) : n.Nears n.advance.position := by
  rw [advance_of_isClear h]
  refine ⟨⟨Coordinate.after_mem 1 n.x n.destX, Coordinate.after_mem 1 n.y n.destY⟩, Coordinate.gap_after_one n.x n.destX,
    Coordinate.gap_after_one n.y n.destY, fun hrest => ?_⟩
  obtain ⟨hx, hy⟩ := Prod.mk.inj hrest
  have hstay (c : Int) : Coordinate.after 1 c c = c := by simp [Coordinate.after]
  simp only [position, Node.after, ← hx, ← hy, hstay]

end Node

namespace Generator

variable {γ : Type} [DrawSource γ] {g : Generator γ} {count : Nat}

/-- Where one more tick leads the herd. A reshuffle at its end changes destinations only. -/
theorem herd_succ_map {α : Type} {f : Node → α} (hheading : ∀ n other : Node, f (n.headingFor other) = f n)
    (hdrift : ∀ distance n, f (Node.drift distance n) = f n) (h : count < g.remaining) :
    (g.herd (count + 1)).map f = (g.herd count).map fun n => f n.advance := by
  obtain ⟨result, next, hstep, hsucc⟩ := steps_succ h
  rw [herd, hsucc]
  exact step_map hheading hdrift hstep

/-- No tick reshuffles that is no positive multiple of the period. -/
theorem calm_of_ticks (hinterval : 0 < g.options.sampleInterval.toInt) (hperiod : 0 < g.params.period.toInt)
    (hcount : count ≤ g.remaining)
    (hticks : ∀ i < count, ¬(0 < g.tick + i ∧ (g.tick + i) % g.params.period.toInt.toNat = 0)) :
    ∀ result ∈ (steps count [] g).1, result.reshuffled = false := by
  rw [steps_yields hinterval hperiod hcount]
  intro result hresult
  obtain ⟨i, hi, rfl⟩ := List.mem_map.mp hresult
  exact decide_eq_false (hticks i (List.mem_range.mp hi))

/-- One more tick on the ways of a herd. -/
theorem map_advance_after {nodes : List Node} (hclear : ∀ n ∈ nodes, n.IsClear) (ticks : Nat) :
    (nodes.map (Node.after ticks)).map Node.advance = nodes.map (Node.after (ticks + 1)) := by
  rw [List.map_map]
  refine List.map_congr_left fun n hn => ?_
  rw [Function.comp_apply, Node.advance_of_isClear ((hclear n hn).after ticks), ← Node.after_succ]

/-- Without a reshuffle the whole herd walks on. -/
theorem herd_of_calm (hclear : ∀ n ∈ g.nodes, n.IsClear) (hcount : count ≤ g.remaining)
    (hcalm : ∀ result ∈ (steps count [] g).1, result.reshuffled = false) :
    g.herd count = g.nodes.map (Node.after count) := by
  induction count with
  | zero => simp [herd, steps]
  | succ count ih =>
      obtain ⟨result, next, hstep, hsucc⟩ := steps_succ hcount
      rw [hsucc, List.forall_mem_append, List.forall_mem_singleton] at hcalm
      obtain ⟨-, -, hreshuffled, hnodes⟩ := step_eq_some hstep
      rw [← hreshuffled, hcalm.2, if_neg (by simp)] at hnodes
      have hherd : (steps count [] g).2.nodes = g.nodes.map (Node.after count) := ih (Nat.le_of_succ_le hcount) hcalm.1
      rw [herd, hsucc, hnodes, moved, hherd, map_advance_after hclear]

/-- The move of the tick behind some that have not reshuffled. -/
theorem moved_of_calm (hclear : ∀ n ∈ g.nodes, n.IsClear) (hcount : count ≤ g.remaining)
    (hcalm : ∀ result ∈ (steps count [] g).1, result.reshuffled = false) :
    (steps count [] g).2.moved.nodes = g.nodes.map (Node.after (count + 1)) := by
  have hherd : (steps count [] g).2.nodes = g.nodes.map (Node.after count) := herd_of_calm hclear hcount hcalm
  rw [moved, hherd, map_advance_after hclear]

/-- One more tick after some without a reshuffle, whether it reshuffles or not. -/
theorem herd_succ_of_calm {α : Type} {f : Node → α} (hheading : ∀ n other : Node, f (n.headingFor other) = f n)
    (hdrift : ∀ distance n, f (Node.drift distance n) = f n) (hclear : ∀ n ∈ g.nodes, n.IsClear)
    (hcount : count < g.remaining) (hcalm : ∀ result ∈ (steps count [] g).1, result.reshuffled = false) :
    (g.herd (count + 1)).map f = g.nodes.map fun n => f (n.after (count + 1)) := by
  have hmoved := congrArg (List.map f) (moved_of_calm hclear hcount.le hcalm)
  rw [moved, List.map_map, List.map_map] at hmoved
  rw [herd_succ_map hheading hdrift hcount]
  exact hmoved

/-- The ticks before the last one of some. -/
theorem steps_dropLast (hcount : count < g.remaining) : (steps (count + 1) [] g).1.dropLast = (steps count [] g).1 := by
  obtain ⟨result, next, -, hsucc⟩ := steps_succ hcount
  rw [hsucc, List.dropLast_concat]

/-- Fewer ticks yield the first of the results of more. -/
theorem steps_isPrefix_of_le {fewer : Nat} (h : fewer ≤ count) : (steps fewer [] g).1 <+: (steps count [] g).1 := by
  obtain ⟨more, rfl⟩ := Nat.exists_eq_add_of_le h
  rw [steps_add]
  exact List.prefix_append _ _

/-- As long as no tick but perhaps the last one reshuffles, one clamp of its gap tells where every node is on each axis;
destinations are those of the beginning up to the first reshuffle, and every single tick leads each node nearer to its
own, never past it, until it stays there. -/
theorem herd_walks_straight (hclear : ∀ n ∈ g.nodes, n.IsClear) (hcount : count ≤ g.remaining)
    (hcalm : ∀ result ∈ (steps count [] g).1.dropLast, result.reshuffled = false) :
    (steps count [] g).1.length = count ∧
      (g.herd count).map (fun n => (n.index, n.position)) = g.nodes.map (fun n =>
        (n.index, n.x + max (-(count : Int)) (min count (n.destX - n.x)),
          n.y + max (-(count : Int)) (min count (n.destY - n.y)))) ∧
      (∀ passed ≤ count, (∀ result ∈ (steps passed [] g).1, result.reshuffled = false) →
        (g.herd passed).map Node.destination = g.nodes.map Node.destination) ∧
      ∀ passed < count, List.Forall₂ Node.Nears (g.herd passed) ((g.herd (passed + 1)).map Node.position) := by
  refine ⟨(steps_later hcount).2, ?_, fun passed hpassed hbefore => ?_, fun passed hpassed => ?_⟩
  · cases count with
    | zero => simp [herd, steps, Node.position]
    | succ count =>
        rw [steps_dropLast hcount] at hcalm
        exact herd_succ_of_calm (f := fun n => (n.index, n.position)) (fun _ _ => rfl) (fun _ _ => rfl) hclear hcount hcalm
  · rw [herd_of_calm hclear (hpassed.trans hcount) hbefore, List.map_map]
    rfl
  · have hbefore : ∀ result ∈ (steps passed [] g).1, result.reshuffled = false := by
      obtain ⟨before, rfl⟩ : ∃ before, count = before + 1 := Nat.exists_eq_succ_of_ne_zero (by omega)
      rw [steps_dropLast hcount] at hcalm
      exact fun result hresult => hcalm result ((steps_isPrefix_of_le (Nat.le_of_lt_succ hpassed)).subset hresult)
    rw [herd_succ_map (f := Node.position) (fun _ _ => rfl) (fun _ _ => rfl) (hpassed.trans_le hcount),
      List.forall₂_map_right_iff, List.forall₂_same]
    intro n hn
    rw [herd_of_calm hclear (hpassed.le.trans hcount) hbefore] at hn
    obtain ⟨before, hbefore, rfl⟩ := List.mem_map.mp hn
    exact Node.nears_advance ((hclear before hbefore).after passed)

/-- Four nodes behind their first reshuffle: five ticks later, the last of which reshuffles again, one clamp tells where
they are, and the destinations have not changed four ticks later. -/
theorem second_period_walks_straight :
    ∃ start g : Generator Pcg, create ⟨1, 2, 1⟩ ⟨4, 10, 10, 7⟩ (Pcg.ofSeed 7) = .ok start ∧ (steps 6 [] start).2 = g ∧
      (steps 5 [] g).1.map StepResult.reshuffled = [false, false, false, false, true] ∧
      (∃ n ∈ g.nodes, n.atRest = false) ∧
      (g.herd 5).map (fun n => (n.index, n.position)) = g.nodes.map (fun n =>
        (n.index, n.x + max (-5) (min 5 (n.destX - n.x)), n.y + max (-5) (min 5 (n.destY - n.y)))) ∧
      (g.herd 4).map Node.destination = g.nodes.map Node.destination := by
  obtain ⟨start, hcreate⟩ := exists_create (p := ⟨1, 2, 1⟩) (o := ⟨4, 10, 10, 7⟩) (by decide) (by decide +kernel)
    (Pcg.ofSeed 7)
  obtain ⟨-, -, hstart⟩ := create_eq hcreate
  have hexact : ∀ n ∈ (steps 6 [] start).2.nodes, (Coordinate.IsExact n.x ∧ Coordinate.IsExact n.y) ∧
      Coordinate.IsExact n.destX ∧ Coordinate.IsExact n.destY := by
    subst hstart
    unfold Coordinate.IsExact
    decide +kernel
  have hresults : (steps 5 [] (steps 6 [] start).2).1.map StepResult.reshuffled = [false, false, false, false, true] := by
    subst hstart
    decide +kernel
  have htravelling : ∃ n ∈ (steps 6 [] start).2.nodes, n.atRest = false := by
    subst hstart
    decide +kernel
  have hremaining : 5 ≤ (steps 6 [] start).2.remaining := by
    subst hstart
    decide +kernel
  have hcalm : ∀ result ∈ (steps 5 [] (steps 6 [] start).2).1.dropLast, result.reshuffled = false := by
    intro result hresult
    have hmem := List.mem_map_of_mem (f := StepResult.reshuffled) hresult
    rw [List.map_dropLast, hresults] at hmem
    simpa using hmem
  obtain ⟨-, hpositions, hdestinations, -⟩ := herd_walks_straight
    (fun n hn => (Node.IsExact.mk (hexact n hn).1.1 (hexact n hn).1.2 (hexact n hn).2.1 (hexact n hn).2.2).isClear)
    hremaining hcalm
  refine ⟨start, _, hcreate, rfl, hresults, htravelling, hpositions, hdestinations 4 (by decide) ?_⟩
  rwa [steps_dropLast hremaining] at hcalm

end Generator

end MobilitySweep
