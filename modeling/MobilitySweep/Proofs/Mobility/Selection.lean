import MobilitySweep.Proofs.Mobility.Course

/-! # What is written of a motion

How long a run is and which of its ticks are sampled decides what a trace shows of the motion, and not how the herd
moves. Generators that stand alike tick alike, whatever their options are. So a longer run begins with all ticks of a
shorter one, and a coarser interval picks its ticks among those of a finer one.
-/

namespace MobilitySweep

namespace Trace

theorem body_append (first second : List Sample) : body (first ++ second) = body first ++ body second :=
  List.flatMap_append

/-- More samples make a longer trace of the same beginning. -/
theorem text_prefix {few many : List Sample} (h : few <+: many) : text few <+: text many := by
  obtain ⟨more, rfl⟩ := h
  exact ⟨body more, by rw [text, text, body_append, List.append_assoc]⟩

end Trace

namespace Generator

variable {γ : Type}

/-- Two generators whose herds stand alike at the same tick, with the same draws to come. Their options may differ, and
so may the number of ticks they have left. -/
structure SameMotion (g h : Generator γ) : Prop where
  params : h.params = g.params
  source : h.source = g.source
  nodes : h.nodes = g.nodes
  tick : h.tick = g.tick

variable [DrawSource γ] {g h : Generator γ}

theorem SameMotion.reshuffle (hsame : SameMotion g h) : SameMotion g.reshuffle h.reshuffle := by
  refine ⟨hsame.params, ?_, ?_, hsame.tick⟩ <;> simp only [Generator.reshuffle, hsame.params, hsame.source, hsame.nodes]

/-- The draws that are left after a tick. -/
theorem step_source {next : Generator γ} {result : StepResult} (hstep : g.step = some (result, next)) :
    next.source = if g.endsPeriod then g.moved.reshuffle.source else g.moved.source := by
  unfold step at hstep
  split at hstep
  next => cases hstep
  next =>
    obtain ⟨-, rfl⟩ := Prod.mk.inj (Option.some.inj hstep)
    cases g.endsPeriod <;> rfl

/-- A tick moves two herds alike. -/
theorem SameMotion.step (hsame : SameMotion g h) {result other : StepResult} {next last : Generator γ}
    (hg : g.step = some (result, next)) (hh : h.step = some (other, last)) : SameMotion next last := by
  have hends : h.endsPeriod = g.endsPeriod := by rw [endsPeriod, endsPeriod, hsame.params, hsame.tick]
  have hmoved : SameMotion g.moved h.moved :=
    ⟨hsame.params, hsame.source, congrArg (List.map Node.advance) hsame.nodes, hsame.tick⟩
  obtain ⟨hparams, htick, -, hnodes⟩ := step_eq_some hg
  obtain ⟨hparams', htick', -, hnodes'⟩ := step_eq_some hh
  refine ⟨by rw [hparams, hparams', hsame.params], ?_, ?_, by rw [htick, htick', hsame.tick]⟩
  · rw [step_source hg, step_source hh, hends, hmoved.source, hmoved.reshuffle.source]
  · rw [hnodes, hnodes', hends, hmoved.nodes, hmoved.reshuffle.nodes]

/-- Two herds move alike as long as both runs last. -/
theorem SameMotion.steps (hsame : SameMotion g h) {count : Nat} (hg : count ≤ g.remaining) (hh : count ≤ h.remaining) :
    SameMotion (Generator.steps count [] g).2 (Generator.steps count [] h).2 := by
  induction count with
  | zero => exact hsame
  | succ count ih =>
      obtain ⟨result, next, hstep, hsteps⟩ := steps_succ hg
      obtain ⟨other, last, hstep', hsteps'⟩ := steps_succ hh
      rw [hsteps, hsteps']
      exact (ih (Nat.le_of_succ_le hg) (Nat.le_of_succ_le hh)).step hstep hstep'

theorem SameMotion.herd (hsame : SameMotion g h) {count : Nat} (hg : count ≤ g.remaining) (hh : count ≤ h.remaining) :
    h.herd count = g.herd count :=
  (hsame.steps hg hh).nodes

/-- A tick yields the same if the interval is the same, too. -/
theorem SameMotion.yield_eq (hsame : SameMotion g h)
    (hinterval : h.options.sampleInterval = g.options.sampleInterval) {count : Nat} (hg : count < g.remaining)
    (hh : count < h.remaining) : h.yield count = g.yield count := by
  simp only [yield, hsame.tick, hsame.params, hinterval, hsame.herd hg hh]

/-- What a tick yields with a multiple of an interval. -/
theorem SameMotion.yield_samples (hsame : SameMotion g h) {factor : Nat}
    (hinterval : h.options.sampleInterval.toInt.toNat = factor * g.options.sampleInterval.toInt.toNat) {count : Nat}
    (hg : count < g.remaining) (hh : count < h.remaining) :
    (h.yield count).samples =
      if factor * g.options.sampleInterval.toInt.toNat ∣ (g.yield count).tick then (g.yield count).samples else [] := by
  simp only [yield, hsame.tick, hinterval, hsame.herd hg hh, ← Nat.dvd_iff_mod_eq_zero]
  split
  next hcoarse => rw [if_pos ((Nat.dvd_mul_left _ _).trans hcoarse)]
  next => rfl

/-- A list put together from what some of its entries contribute. -/
theorem flatMap_filter {α β : Type} {entries : List α} {p : α → Bool} {all some : α → List β}
    (hentries : ∀ a ∈ entries, some a = if p a then all a else []) :
    (entries.filter p).flatMap all = entries.flatMap some := by
  induction entries with
  | nil => rfl
  | cons a rest ih =>
      have hrest := ih fun b hb => hentries b (List.mem_cons_of_mem a hb)
      rw [List.filter_cons, List.flatMap_cons, hentries a List.mem_cons_self, ← hrest]
      split <;> rfl

/-- With a multiple of an interval, ticks yield the samples of those among them that it divides. -/
theorem SameMotion.samples (hsame : SameMotion g h) {factor : Nat}
    (hinterval : h.options.sampleInterval.toInt.toNat = factor * g.options.sampleInterval.toInt.toNat)
    (hfine : 0 < g.options.sampleInterval.toInt) (hcoarse : 0 < h.options.sampleInterval.toInt)
    (hperiod : 0 < g.params.period.toInt) (hremaining : h.remaining = g.remaining) :
    h.samples = ((Generator.steps g.remaining [] g).1.filter fun result =>
      factor * g.options.sampleInterval.toInt.toNat ∣ result.tick).flatMap StepResult.samples := by
  rw [Generator.samples, steps_yields hcoarse (hsame.params ▸ hperiod) le_rfl, steps_yields hfine hperiod le_rfl,
    hremaining, List.filter_map, List.flatMap_map, List.flatMap_map]
  refine (flatMap_filter fun count hcount => ?_).symm
  have hinside := List.mem_range.mp hcount
  simpa only [Function.comp_apply, decide_eq_true_eq] using
    hsame.yield_samples hinterval hinside (hremaining ▸ hinside)

/-- A longer run begins with the samples of a shorter one. -/
theorem SameMotion.samples_prefix (hsame : SameMotion g h)
    (hinterval : h.options.sampleInterval = g.options.sampleInterval) (hsome : 0 < g.options.sampleInterval.toInt)
    (hperiod : 0 < g.params.period.toInt) (hlonger : g.remaining ≤ h.remaining) : g.samples <+: h.samples := by
  have hfirst : (Generator.steps g.remaining [] h).1 = (Generator.steps g.remaining [] g).1 := by
    rw [steps_yields (hinterval ▸ hsome) (hsame.params ▸ hperiod) hlonger, steps_yields hsome hperiod le_rfl]
    refine List.map_congr_left fun count hcount => ?_
    have hinside := List.mem_range.mp hcount
    exact hsame.yield_eq hinterval hinside (hinside.trans_le hlonger)
  obtain ⟨more, hmore⟩ := Nat.exists_eq_add_of_le hlonger
  rw [Generator.samples, Generator.samples, hmore, steps_add, List.flatMap_append, hfirst]
  exact List.prefix_append _ _

omit [DrawSource γ] in
/-- A generator with other options than another one, made alike otherwise, moves its herd alike. -/
theorem create_sameMotion {p : Params} {o other : Options} {source : γ} (hg : create p o source = .ok g)
    (hh : create p other source = .ok h) (hnodes : other.nodes = o.nodes) : SameMotion g h := by
  obtain ⟨-, -, rfl⟩ := create_eq hg
  obtain ⟨-, -, rfl⟩ := create_eq hh
  exact ⟨rfl, rfl, by rw [hnodes], rfl⟩

omit [DrawSource γ] in
/-- What a generator is made with. -/
theorem create_settings {p : Params} {o : Options} {source : γ} (h : create p o source = .ok g) :
    g.params = p ∧ g.options = o ∧ g.total = p.totalTicks o.duration ∧ g.tick = 0 := by
  obtain ⟨-, -, rfl⟩ := create_eq h
  exact ⟨rfl, rfl, rfl, rfl⟩

/-- The trace of a longer run begins with that of a shorter one. -/
theorem traceText_prefix_of_le {p : Params} {o : Options} {source : γ} (hcreate : create p o source = .ok g)
    {longer : Int64} (hlonger : o.duration ≤ longer) (hbound : p.ticks longer < 2 ^ 63) :
    ∃ other, create p { o with duration := longer } source = .ok other ∧
      (∀ count ≤ g.remaining, other.herd count = g.herd count) ∧ g.traceText <+: other.traceText := by
  have hcounted := create_counted hcreate
  obtain ⟨hparams, hoptions, -⟩ := create_eq hcreate
  obtain ⟨hnodes, hsquare, hduration, hinterval⟩ := Options.of_validate_ok hoptions
  rw [Int64.le_iff_toInt_le] at hlonger
  have hmore : p.ticks o.duration ≤ p.ticks longer := by
    unfold Params.ticks
    omega
  obtain ⟨hticks, -, -⟩ := Params.totalTicks_toInt hparams hduration (hmore.trans_lt hbound)
  obtain ⟨hticks', -, -⟩ := Params.totalTicks_toInt hparams (hduration.trans hlonger) hbound
  obtain ⟨other, hother⟩ := exists_create hparams
    (Options.validate_eq_ok (o := { o with duration := longer }) hnodes hsquare (hduration.trans hlonger) hinterval)
    source
  have hsame := create_sameMotion hcreate hother rfl
  obtain ⟨-, hkept, htotal, htick⟩ := create_settings hcreate
  obtain ⟨-, hkept', htotal', htick'⟩ := create_settings hother
  have hremaining : g.remaining ≤ other.remaining := by
    rw [remaining, remaining, htotal, htotal', htick, htick', hticks, hticks']
    omega
  refine ⟨other, hother, fun count hcount => hsame.herd hcount (hcount.trans hremaining), ?_⟩
  rw [(run_unlimited g).1, (run_unlimited other).1]
  exact Trace.text_prefix (hsame.samples_prefix (by rw [hkept, hkept']) hcounted.interval hcounted.period hremaining)

/-- With a multiple of the sample interval a trace has the lines of the ticks that it divides. -/
theorem traceText_of_multiple {p : Params} {o : Options} {source : γ} (hcreate : create p o source = .ok g)
    {factor : Nat} {coarser : Int64} (hfactor : 1 ≤ factor) (hcoarser : coarser.toInt = factor * o.sampleInterval.toInt) :
    ∃ other, create p { o with sampleInterval := coarser } source = .ok other ∧
      (∀ count ≤ g.remaining, other.herd count = g.herd count) ∧
        other.traceText = Trace.text (((Generator.steps g.remaining [] g).1.filter fun result =>
          factor * o.sampleInterval.toInt.toNat ∣ result.tick).flatMap StepResult.samples) := by
  have hcounted := create_counted hcreate
  obtain ⟨hparams, hoptions, -⟩ := create_eq hcreate
  obtain ⟨hnodes, hsquare, hduration, hinterval⟩ := Options.of_validate_ok hoptions
  have hcoarse : 0 < coarser.toInt := by
    rw [hcoarser]
    exact mul_pos (by omega) hinterval
  obtain ⟨other, hother⟩ := exists_create hparams
    (Options.validate_eq_ok (o := { o with sampleInterval := coarser }) hnodes hsquare hduration hcoarse) source
  have hsame := create_sameMotion hcreate hother rfl
  obtain ⟨-, hkept, htotal, htick⟩ := create_settings hcreate
  obtain ⟨-, hkept', htotal', htick'⟩ := create_settings hother
  have hremaining : other.remaining = g.remaining := by rw [remaining, remaining, htotal, htotal', htick, htick']
  have hmultiple : other.options.sampleInterval.toInt.toNat = factor * g.options.sampleInterval.toInt.toNat := by
    rw [hkept, hkept']
    change coarser.toInt.toNat = _
    rw [hcoarser, Int.toNat_mul (by omega) hinterval.le, Int.toNat_natCast]
  refine ⟨other, hother, fun count hcount => hsame.herd hcount (hcount.trans_eq hremaining.symm), ?_⟩
  rw [(run_unlimited other).1, hsame.samples hmultiple hcounted.interval (hkept' ▸ hcoarse) hcounted.period hremaining,
    hkept]

/-- How long a run is and how often it is sampled decides what is written of it, and nothing else. The trace of a longer
run begins with that of a shorter one. With a multiple of the sample interval the trace has, in order, the lines of just
those ticks that it divides, of all that the finer one samples. -/
theorem duration_and_interval_only_select {p : Params} {o : Options} {source : γ} {start : Generator γ}
    (hcreate : create p o source = .ok start) :
    (∀ longer : Int64, o.duration ≤ longer → p.ticks longer < 2 ^ 63 →
      ∃ other, create p { o with duration := longer } source = .ok other ∧
        (∀ count ≤ start.remaining, other.herd count = start.herd count) ∧ start.traceText <+: other.traceText) ∧
    ∀ (factor : Nat) (coarser : Int64), 1 ≤ factor → coarser.toInt = factor * o.sampleInterval.toInt →
      ∃ other, create p { o with sampleInterval := coarser } source = .ok other ∧
        (∀ count ≤ start.remaining, other.herd count = start.herd count) ∧
          let results := (steps start.remaining [] start).1
          start.traceText = Trace.text (results.flatMap StepResult.samples) ∧
            other.traceText = Trace.text ((results.filter fun result =>
              factor * o.sampleInterval.toInt.toNat ∣ result.tick).flatMap StepResult.samples) := by
  refine ⟨fun longer hlonger hbound => traceText_prefix_of_le hcreate hlonger hbound,
    fun factor coarser hfactor hcoarser => ?_⟩
  obtain ⟨other, hother, hherds, htext⟩ := traceText_of_multiple hcreate hfactor hcoarser
  exact ⟨other, hother, hherds, (run_unlimited start).1, htext⟩

/-- Fifteen ticks of four nodes, sampled every five: ten more ticks only add to the trace, and sampling every ten keeps
the lines of two ticks out of three. -/
theorem fifteen_ticks_begin_longer_run :
    ∃ start longer coarser : Generator Pcg, create ⟨1, 2, 1⟩ ⟨4, 10, 5, 7⟩ (Pcg.ofSeed 7) = .ok start ∧
      create ⟨1, 2, 1⟩ ⟨4, 20, 5, 7⟩ (Pcg.ofSeed 7) = .ok longer ∧
      create ⟨1, 2, 1⟩ ⟨4, 10, 10, 7⟩ (Pcg.ofSeed 7) = .ok coarser ∧ start.traceText <+: longer.traceText ∧
      coarser.traceText = Trace.text (((steps 15 [] start).1.filter fun result => 10 ∣ result.tick).flatMap
        StepResult.samples) := by
  obtain ⟨start, hcreate⟩ := exists_create (p := ⟨1, 2, 1⟩) (o := ⟨4, 10, 5, 7⟩) (by decide) (by decide +kernel)
    (Pcg.ofSeed 7)
  obtain ⟨hlonger, hcoarser⟩ := duration_and_interval_only_select hcreate
  obtain ⟨longer, hmade, -, hprefix⟩ := hlonger 20 (by decide) (by decide)
  obtain ⟨coarser, hmade', -, -, htext⟩ := hcoarser 2 10 (by decide) (by decide)
  have hremaining : start.remaining = 15 := create_remaining hcreate (by decide) (by decide)
  have hmultiple : 2 * (5 : Int64).toInt.toNat = 10 := by decide
  rw [hremaining, hmultiple] at htext
  exact ⟨start, longer, coarser, hcreate, hmade, hmade', hprefix, htext⟩

end Generator

/-! ## Sums and products that wrap

Period, length and grid are reckoned in 64-bit words, and the check of parameters looks at a sum that may have wrapped
already. So it accepts parameters whose period, length or grid is not the one that was asked for. Each of the three is
right exactly if its own value, the largest coordinate of a grid, is below two to the power 63; a length that is right
is positive, and then a trace begins with the samples of its first tick.
-/

namespace Params

variable {p : Params}

/-- The period is the one asked for exactly if that is one of 64 bits. -/
theorem period_toInt_iff (h : p.validate = .ok ()) :
    p.period.toInt = p.shuffleDistance.toInt + 4 * p.nodeDistance.toInt ↔
      p.shuffleDistance.toInt + 4 * p.nodeDistance.toInt < 2 ^ 63 :=
  ⟨fun heq => heq ▸ Int64.toInt_lt p.period, period_toInt h⟩

/-- A trace has the length asked for exactly if that is one of 64 bits. -/
theorem totalTicks_toInt_iff {duration : Int64} (h : p.validate = .ok ()) (hduration : 0 ≤ duration.toInt) :
    (p.totalTicks duration).toInt = p.ticks duration ↔ p.ticks duration < 2 ^ 63 :=
  ⟨fun heq => heq ▸ Int64.toInt_lt (p.totalTicks duration), fun hbound => (totalTicks_toInt h hduration hbound).1⟩

end Params

/-- A node at rest stays where it is. -/
theorem Node.advance_of_atRest {n : Node} (h : n.position = n.destination) : n.advance = n := by
  obtain ⟨index, x, y, destX, destY⟩ := n
  obtain ⟨rfl, rfl⟩ : x = destX ∧ y = destY := Prod.mk.inj h
  simp [advance, Coordinate.approach]

namespace Generator

/-- The cells of a grid have the coordinates asked for exactly if the last one has. -/
theorem cell_mul_toInt_iff {side : Nat} {distance : Int64} (hdistance : 0 ≤ distance.toInt) (hpos : 0 < side)
    (hside : side ≤ 2 ^ 32) :
    (∀ cell < side, (Int64.ofNat cell * distance).toInt = cell * distance.toInt) ↔
      ((side : Int) - 1) * distance.toInt < 2 ^ 63 := by
  refine ⟨fun h => ?_, fun hbound cell hcell => cell_mul_toInt hdistance hside hbound hcell⟩
  have hlast := h (side - 1) (by omega)
  rw [Nat.cast_sub hpos, Nat.cast_one] at hlast
  exact hlast ▸ Int64.toInt_lt _

variable {γ : Type} [DrawSource γ] {p : Params} {o : Options} {source : γ} {start : Generator γ}

/-- A trace that has a tick at all begins with the samples of the fresh grid. -/
theorem create_samples_first (hcreate : create p o source = .ok start) (hsome : 0 < (p.totalTicks o.duration).toInt) :
    start.nodes.map (Node.sample 0) <+: start.samples := by
  obtain ⟨-, -, hstart⟩ := create_eq hcreate
  have htick : start.tick = 0 := hstart ▸ rfl
  have htotal : start.total = p.totalTicks o.duration := hstart ▸ rfl
  have hgrid : ∀ n ∈ start.nodes, n.position = n.destination := by
    rw [hstart]
    exact fun n hn => grid_position hn
  obtain ⟨left, hleft⟩ : ∃ left, start.remaining = left + 1 :=
    Nat.exists_eq_succ_of_ne_zero (by rw [remaining, htick, htotal]; omega)
  cases hstep : start.step with
  | none => exact absurd ((step_eq_none_iff start).mp hstep) (by omega)
  | some outcome =>
      obtain ⟨result, next⟩ := outcome
      obtain ⟨-, hresult⟩ := step_yields hstep
      have hmoved := step_map (f := Node.sample 0) (fun _ _ => rfl) (fun _ _ => rfl) hstep
      have hsampled : start.sampled = true := by simp [sampled, htick]
      have hfirst : result.samples = start.nodes.map (Node.sample 0) := by
        rw [hresult, hsampled, htick, if_pos rfl, hmoved]
        exact List.map_congr_left fun n hn => by rw [Node.advance_of_atRest (hgrid n hn)]
      rw [samples, hleft, steps_of_step hstep, List.flatMap_cons, hfirst]
      exact List.prefix_append _ _

/-- What is reckoned from accepted parameters and options: each value is the one asked for exactly if that is one of
64 bits. If the length is, the trace holds the samples of its first tick; if the grid is, every node starts at its
place. -/
theorem accepted_exact_iff (hparams : p.validate = .ok ()) (hoptions : o.validate = .ok ()) {side : Nat}
    (hside : o.nodes.toInt = side * side) (source : γ) :
    (p.period.toInt = p.shuffleDistance.toInt + 4 * p.nodeDistance.toInt ↔
        p.shuffleDistance.toInt + 4 * p.nodeDistance.toInt < 2 ^ 63) ∧
      ((p.totalTicks o.duration).toInt = p.ticks o.duration ↔ p.ticks o.duration < 2 ^ 63) ∧
      ((∀ cell < side, (Int64.ofNat cell * p.nodeDistance).toInt = cell * p.nodeDistance.toInt) ↔
        ((side : Int) - 1) * p.nodeDistance.toInt < 2 ^ 63) ∧
      ∃ start, create p o source = .ok start ∧
        (p.ticks o.duration < 2 ^ 63 → 0 < p.ticks o.duration ∧
          Trace.text (start.nodes.map (Node.sample 0)) <+: start.traceText) ∧
        (((side : Int) - 1) * p.nodeDistance.toInt < 2 ^ 63 →
          start.nodes = (List.range side).flatMap fun i => (List.range side).map fun j =>
            Node.resting (i * side + j) (Coordinate.ofInt (i * p.nodeDistance.toInt))
              (Coordinate.ofInt (j * p.nodeDistance.toInt))) := by
  obtain ⟨hdistance, -, -, -⟩ := Params.of_validate hparams
  obtain ⟨-, -, hduration, -⟩ := Options.of_validate_ok hoptions
  obtain ⟨hroot, hpos, hsmall⟩ := Options.gridSide_eq hoptions hside
  obtain ⟨start, hcreate⟩ := exists_create hparams hoptions source
  obtain ⟨-, -, hstart⟩ := create_eq hcreate
  refine ⟨Params.period_toInt_iff hparams, Params.totalTicks_toInt_iff hparams hduration,
    cell_mul_toInt_iff hdistance hpos hsmall, start, hcreate, fun hbound => ?_, fun hbound => ?_⟩
  · obtain ⟨htotal, hsome, -⟩ := Params.totalTicks_toInt hparams hduration hbound
    refine ⟨hsome, ?_⟩
    rw [(run_unlimited start).1]
    exact Trace.text_prefix (create_samples_first hcreate (htotal ▸ hsome))
  · rw [hstart, hroot]
    exact grid_eq hdistance hsmall hbound

/-- Nine nodes at a distance of two to the power 60 are reckoned without loss. -/
theorem wide_grid_is_exact :
    ∃ start : Generator Pcg, create ⟨1152921504606846976, 0, 5⟩ ⟨9, 4611686018427387898, 1, 7⟩ (Pcg.ofSeed 7) = .ok start ∧
      (Params.totalTicks ⟨1152921504606846976, 0, 5⟩ 4611686018427387898).toInt = 2 ^ 63 - 1 ∧
      Trace.text (start.nodes.map (Node.sample 0)) <+: start.traceText ∧
      (Node.resting 7 (2 ^ 61) (2 ^ 60)) ∈ start.nodes := by
  have hside : (9 : Int64).toInt = ((3 : Nat) : Int) * (3 : Nat) := by decide
  obtain ⟨-, htotal, -, start, hcreate, htext, hgrid⟩ := accepted_exact_iff
    (p := ⟨1152921504606846976, 0, 5⟩) (o := ⟨9, 4611686018427387898, 1, 7⟩) (by decide) (by decide +kernel) hside
    (Pcg.ofSeed 7)
  refine ⟨start, hcreate, htotal.mpr (by decide), (htext (by decide)).2, ?_⟩
  rw [hgrid (by decide)]
  decide +kernel

/-- Accepted words that wrap: a period of one tick for a distance of two to the power 62, whose third cell is placed
below zero, and a longest experiment whose trace has no tick at all. -/
theorem accepted_words_wrap :
    (⟨4611686018427387904, 0, 1⟩ : Params).validate = .ok () ∧ (⟨9, 0, 1, 0⟩ : Options).validate = .ok () ∧
      (Params.period ⟨4611686018427387904, 0, 1⟩).toInt = 1 ∧
      (Params.totalTicks ⟨4611686018427387904, 0, 1⟩ 0).toInt = 1 ∧
      (gridNode 3 4611686018427387904 6).x = -2 ^ 63 ∧
      (⟨1, 0, 1⟩ : Params).validate = .ok () ∧ (⟨1, 9223372036854775807, 1, 0⟩ : Options).validate = .ok () ∧
      (Params.totalTicks ⟨1, 0, 1⟩ 9223372036854775807).toInt = 4 - 2 ^ 63 ∧
      (create ⟨1, 0, 1⟩ ⟨1, 9223372036854775807, 1, 0⟩ (Pcg.ofSeed 0)).toOption.map traceText = some (Trace.text []) := by
  decide +kernel

end Generator

end MobilitySweep
