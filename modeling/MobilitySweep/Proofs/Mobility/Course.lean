import MobilitySweep.Proofs.Mobility.Emission

/-! # The course of a run

How much a trace holds: a sample of every node at each multiple of the sample interval, and a reshuffle at each positive
multiple of the period, up to the last tick. And what every single tick yields, wherever the run is split.
-/

namespace MobilitySweep

namespace Params

/-- The length of a trace for an experiment of a given duration, as a whole number. -/
def ticks (p : Params) (duration : Int64) : Int :=
  duration.toInt + (p.shuffleDistance.toInt + 4 * p.nodeDistance.toInt)

theorem period_toInt {p : Params} (h : p.validate = .ok ())
    (hbound : p.shuffleDistance.toInt + 4 * p.nodeDistance.toInt < 2 ^ 63) :
    p.period.toInt = p.shuffleDistance.toInt + 4 * p.nodeDistance.toInt := by
  obtain ⟨hdistance, -, hshuffle, -⟩ := of_validate h
  have hfour : (4 : Int64).toInt = 4 := rfl
  have hproduct : (4 * p.nodeDistance).toInt = 4 * p.nodeDistance.toInt := by
    rw [Int64.toInt_mul, hfour, Int.bmod_eq_of_le_mul_two] <;> omega
  rw [period, Int64.toInt_add, hproduct, Int.bmod_eq_of_le_mul_two] <;> omega

theorem totalTicks_toInt {p : Params} {duration : Int64} (h : p.validate = .ok ()) (hduration : 0 ≤ duration.toInt)
    (hbound : p.ticks duration < 2 ^ 63) :
    (p.totalTicks duration).toInt = p.ticks duration ∧ 0 < p.ticks duration ∧
      p.period.toInt = p.shuffleDistance.toInt + 4 * p.nodeDistance.toInt := by
  have hperiod := period_toInt h (by unfold ticks at hbound; omega)
  obtain ⟨-, -, -, hpositive⟩ := of_validate h
  have hsome : 0 < p.ticks duration := by
    unfold ticks
    omega
  refine ⟨?_, hsome, hperiod⟩
  unfold ticks at hbound hsome ⊢
  rw [totalTicks, Int64.toInt_add, hperiod, Int.bmod_eq_of_le_mul_two] <;> omega

end Params

namespace Generator

variable {γ : Type} [DrawSource γ]

/-! ## Counts -/

/-- What a tick adds to the counts. -/
theorem step_stats {g next : Generator γ} {result : StepResult} (h : g.step = some (result, next)) :
    next.stats = ⟨g.stats.ticks + 1, g.stats.samples + Int64.ofNat (if g.sampled then g.nodes.length else 0),
      g.stats.reshuffles + Int64.ofNat (if g.endsPeriod then 1 else 0)⟩ := by
  unfold step at h
  split at h
  next => simp at h
  next =>
    simp only [Option.some.injEq, Prod.mk.injEq] at h
    obtain ⟨-, rfl⟩ := h
    cases g.endsPeriod <;> cases g.sampled <;> simp

omit [DrawSource γ] in
theorem sampled_iff {g : Generator γ} (h : 0 < g.options.sampleInterval.toInt) :
    g.sampled = true ↔ g.tick % g.options.sampleInterval.toInt.toNat = 0 := by
  obtain ⟨interval, hinterval⟩ := Int.eq_ofNat_of_zero_le h.le
  simp only [sampled, hinterval, beq_iff_eq, Int.toNat_natCast]
  omega

omit [DrawSource γ] in
theorem endsPeriod_iff {g : Generator γ} (h : 0 < g.params.period.toInt) :
    g.endsPeriod = true ↔ 0 < g.tick ∧ g.tick % g.params.period.toInt.toNat = 0 := by
  obtain ⟨period, hperiod⟩ := Int.eq_ofNat_of_zero_le h.le
  simp only [endsPeriod, hperiod, Bool.and_eq_true, decide_eq_true_eq, beq_iff_eq, Int.toNat_natCast]
  omega

/-- The multiples of an interval below a number, one more for every multiple. -/
theorem ceil_div_succ {interval : Nat} (h : 0 < interval) (tick : Nat) :
    (tick + 1 + interval - 1) / interval =
      (tick + interval - 1) / interval + (if tick % interval = 0 then 1 else 0) := by
  have hsucc : (tick + interval - 1 + 1) / interval =
      (tick + interval - 1) / interval + if interval ∣ tick + interval - 1 + 1 then 1 else 0 := Nat.succ_div
  have hnext : tick + 1 + interval - 1 = tick + interval - 1 + 1 := by omega
  have hwhole : tick + interval - 1 + 1 = tick + interval := by omega
  have hdvd : interval ∣ tick + interval ↔ tick % interval = 0 := by
    rw [Nat.dvd_add_left (Nat.dvd_refl interval), Nat.dvd_iff_mod_eq_zero]
  rw [hnext, hsucc, hwhole]
  simp only [hdvd]

theorem ceil_div_pred {interval tick : Nat} (h : 0 < interval) (hsome : 0 < tick) :
    (tick + interval - 1) / interval = (tick - 1) / interval + 1 := by
  have hsum : tick + interval - 1 = tick - 1 + interval := by omega
  rw [hsum, Nat.add_div_right _ h]

/-- The positive multiples of a period below a number, one more for every positive multiple. -/
theorem pred_div_succ (period tick : Nat) :
    (tick + 1 - 1) / period =
      (tick - 1) / period + (if 0 < tick ∧ tick % period = 0 then 1 else 0) := by
  cases tick with
  | zero => simp
  | succ tick =>
      have hsucc : (tick + 1) / period = tick / period + if period ∣ tick + 1 then 1 else 0 := Nat.succ_div
      simp only [Nat.add_sub_cancel, hsucc, Nat.succ_pos, true_and, Nat.dvd_iff_mod_eq_zero]

omit [DrawSource γ] in
/-- How many reshuffles come before the next tick of a generator. -/
def pastReshuffles (g : Generator γ) : Nat := (g.tick - 1) / g.params.period.toInt.toNat

theorem step_pastReshuffles {g next : Generator γ} {result : StepResult} (hperiod : 0 < g.params.period.toInt)
    (h : g.step = some (result, next)) :
    next.pastReshuffles = g.pastReshuffles + (if g.endsPeriod then 1 else 0) := by
  obtain ⟨hnext, -⟩ := step_yields h
  simp only [pastReshuffles, hnext.tick, hnext.params, pred_div_succ, endsPeriod_iff hperiod]

/-- The counts of a generator are those of its ticks, as far as words hold them. -/
structure Counted (nodes : Nat) (g : Generator γ) : Prop where
  interval : 0 < g.options.sampleInterval.toInt
  period : 0 < g.params.period.toInt
  herd : g.nodes.length = nodes
  stats : g.stats = ⟨Int64.ofNat g.tick,
    Int64.ofNat
      (nodes * ((g.tick + g.options.sampleInterval.toInt.toNat - 1) / g.options.sampleInterval.toInt.toNat)),
    Int64.ofNat g.pastReshuffles⟩

theorem Counted.step {nodes : Nat} {g next : Generator γ} {result : StepResult} (h : Counted nodes g)
    (hstep : g.step = some (result, next)) : Counted nodes next := by
  obtain ⟨hnext, -⟩ := step_yields hstep
  have hlength : next.nodes.length = g.nodes.length := by simpa using congrArg List.length hnext.indices
  refine ⟨hnext.options ▸ h.interval, hnext.params ▸ h.period, hlength.trans h.herd, ?_⟩
  have hinterval : 0 < g.options.sampleInterval.toInt.toNat := by
    have := h.interval
    omega
  rw [step_stats hstep, h.stats, step_pastReshuffles h.period hstep, hnext.tick, hnext.options,
    ceil_div_succ hinterval, h.herd, Nat.mul_add, Int64.ofNat_add, Int64.ofNat_add, Int64.ofNat_add]
  simp only [sampled_iff h.interval, mul_ite, Nat.mul_one, Nat.mul_zero]
  rfl

theorem Counted.steps {nodes : Nat} (count : Nat) {g : Generator γ} (h : Counted nodes g) :
    Counted nodes (Generator.steps count [] g).2 := by
  induction count generalizing g with
  | zero => exact h
  | succ count ih =>
      cases hstep : g.step with
      | none => exact (steps_of_none hstep (count + 1)).symm ▸ h
      | some outcome =>
          rw [steps_of_step hstep]
          exact ih (h.step hstep)

omit [DrawSource γ] in
/-- A generator that was just made has counted nothing. -/
theorem create_counted {p : Params} {o : Options} {source : γ} {start : Generator γ}
    (h : create p o source = .ok start) : Counted o.nodes.toInt.toNat start := by
  obtain ⟨hparams, hoptions, rfl⟩ := create_eq h
  obtain ⟨-, -, -, hperiod⟩ := Params.of_validate hparams
  obtain ⟨-, -, -, hinterval⟩ := Options.of_validate_ok hoptions
  refine ⟨hinterval, hperiod, ?_, ?_⟩
  · simp only [length_grid, Options.gridSide_sq hoptions]
  · have hnone : (o.sampleInterval.toInt.toNat - 1) / o.sampleInterval.toInt.toNat = 0 :=
      Nat.div_eq_of_lt (by omega)
    simp only [pastReshuffles, Nat.zero_add, hnone, Nat.mul_zero, Nat.zero_sub, Nat.zero_div]
    rfl

omit [DrawSource γ] in
theorem create_pastReshuffles {p : Params} {o : Options} {source : γ} {start : Generator γ}
    (h : create p o source = .ok start) : start.pastReshuffles = 0 := by
  obtain ⟨-, -, rfl⟩ := create_eq h
  exact Nat.zero_div _

/-- However many ticks are asked for, those of the trace are all that pass. -/
theorem exists_later (count : Nat) (g : Generator γ) :
    ∃ passed ≤ g.remaining, Later g (steps count [] g).2 passed := by
  rcases Nat.le_total count g.remaining with hle | hover
  · exact ⟨count, hle, (steps_later hle).1⟩
  · refine ⟨g.remaining, le_rfl, ?_⟩
    have hfinished := steps_finished g (count - g.remaining)
    rw [finished] at hfinished
    rw [← Nat.add_sub_cancel' hover, steps_add, hfinished]
    exact (steps_later le_rfl).1

/-- The reshuffles that are counted are those that have been: there are fewer than ticks. -/
theorem steps_reshuffles {p : Params} {o : Options} {source : γ} {start : Generator γ} (h : create p o source = .ok start)
    (count : Nat) : (steps count [] start).2.stats.reshuffles.toInt = (steps count [] start).2.pastReshuffles := by
  obtain ⟨passed, hpassed, hlater⟩ := exists_later count start
  obtain ⟨-, -, hstart⟩ := create_eq h
  have htick : start.tick = 0 := hstart ▸ rfl
  have hfits : (steps count [] start).2.tick < 2 ^ 63 := by
    have htotal := start.total.toInt_lt
    simp only [remaining, htick] at hpassed
    rw [hlater.tick, htick]
    omega
  have hfewer := Nat.div_le_self ((steps count [] start).2.tick - 1) (steps count [] start).2.params.period.toInt.toNat
  rw [((create_counted h).steps count).stats, Int64.toInt_ofNat_of_lt (by unfold pastReshuffles; omega)]

/-- The counts of a whole trace whose length is one of 64 bits. -/
theorem finished_stats {p : Params} {o : Options} {source : γ} {start : Generator γ} (h : create p o source = .ok start)
    {ticks : Nat} (hticks : p.ticks o.duration = ticks) (hbound : ticks < 2 ^ 63) :
    start.finished.stats = ⟨Int64.ofNat ticks,
      Int64.ofNat (o.nodes.toInt.toNat * ((ticks - 1) / o.sampleInterval.toInt.toNat + 1)),
      Int64.ofNat ((ticks - 1) / p.period.toInt.toNat)⟩ := by
  obtain ⟨hparams, hoptions, hstart⟩ := create_eq h
  obtain ⟨-, -, hduration, hsample⟩ := Options.of_validate_ok hoptions
  obtain ⟨htotal, hsome, -⟩ := Params.totalTicks_toInt hparams hduration (by omega)
  have hceil := ceil_div_pred (by omega : 0 < o.sampleInterval.toInt.toNat) (by omega : 0 < ticks)
  obtain ⟨hlater, -⟩ := steps_later (g := start) le_rfl
  have htick : (steps start.remaining [] start).2.tick = ticks := by
    subst hstart
    rw [hlater.tick]
    simp [remaining, htotal, hticks]
  have hkept : start.params = p ∧ start.options = o := hstart ▸ ⟨rfl, rfl⟩
  rw [finished, ((create_counted h).steps start.remaining).stats, pastReshuffles, htick, hlater.options, hlater.params,
    hkept.1, hkept.2, hceil]

/-- The counts of a whole trace of so many ticks. The samples are counted in words of 64 bits, which hold their number
as long as it is one of 64 bits; the reshuffles are fewer than the ticks. -/
structure CountsTrace (p : Params) (o : Options) (length : Nat) (stats : Stats) : Prop where
  ticks : stats.ticks.toInt = length
  samples : stats.samples = o.nodes * ((Int64.ofNat length - 1) / o.sampleInterval + 1)
  exact : o.nodes.toInt * ((length - 1) / o.sampleInterval.toInt + 1) < 2 ^ 63 →
    stats.samples.toInt = o.nodes.toInt * ((length - 1) / o.sampleInterval.toInt + 1)
  reshuffles : stats.reshuffles.toInt = (length - 1) / p.period.toInt

/-- A quotient of words that are not negative is the one of their numbers. -/
theorem ofNat_pred_div {length : Nat} (hsome : 0 < length) (hbound : length < 2 ^ 63) {interval : Int64}
    (hinterval : 0 < interval.toInt) :
    Int64.ofNat ((length - 1) / interval.toInt.toNat) = (Int64.ofNat length - 1) / interval := by
  have hpred : Int64.ofNat length - 1 = Int64.ofInt ((length - 1 : Nat) : Int) := by
    rw [Nat.cast_sub hsome, Int64.ofInt_sub, Int64.ofInt_eq_ofNat]
    rfl
  have hnot : interval ≠ -1 := by
    rintro rfl
    exact absurd hinterval (by decide)
  have hfits := Nat.div_le_self (length - 1) interval.toInt.toNat
  rw [hpred, ← Int64.toInt_inj, Int64.toInt_div_of_ne_right _ _ hnot, Int64.toInt_ofNat_of_lt (by omega),
    Int64.toInt_ofInt_of_le (by omega) (by omega), Int.tdiv_eq_ediv_of_nonneg (by omega), Int.natCast_ediv,
    Int.toNat_of_nonneg hinterval.le]

theorem finished_counts {p : Params} {o : Options} {source : γ} {start : Generator γ} (h : create p o source = .ok start)
    {ticks : Nat} (hticks : p.ticks o.duration = ticks) (hbound : ticks < 2 ^ 63) :
    CountsTrace p o ticks start.finished.stats := by
  obtain ⟨hparams, hoptions, -⟩ := create_eq h
  obtain ⟨hnodes, -, hduration, hsample⟩ := Options.of_validate_ok hoptions
  obtain ⟨-, -, -, hpositive⟩ := Params.of_validate hparams
  obtain ⟨-, hsome, -⟩ := Params.totalTicks_toInt hparams hduration (by omega)
  have hlast : ((ticks - 1 : Nat) : Int) = (ticks : Int) - 1 := by omega
  have hsamples : ((o.nodes.toInt.toNat * ((ticks - 1) / o.sampleInterval.toInt.toNat + 1) : Nat) : Int) =
      o.nodes.toInt * ((ticks - 1) / o.sampleInterval.toInt + 1) := by
    push_cast
    rw [Int.toNat_of_nonneg hnodes.le, Int.toNat_of_nonneg hsample.le, hlast]
  have hreshuffles : (((ticks - 1) / p.period.toInt.toNat : Nat) : Int) = (ticks - 1) / p.period.toInt := by
    push_cast
    rw [Int.toNat_of_nonneg hpositive.le, hlast]
  have hfewer := Nat.div_le_self (ticks - 1) p.period.toInt.toNat
  rw [finished_stats h hticks hbound]
  constructor
  · exact Int64.toInt_ofNat_of_lt (by omega)
  · dsimp only
    rw [← ofNat_pred_div (by omega) hbound hsample, Int64.ofNat_mul, Int64.ofNat_add, ← Int64.ofInt_eq_ofNat,
      Int.toNat_of_nonneg hnodes.le, Int64.ofInt_toInt]
    rfl
  · intro hfits
    rw [Int64.toInt_ofNat_of_lt (by omega), hsamples]
  · rw [Int64.toInt_ofNat_of_lt (by omega), hreshuffles]

/-! ## What single ticks yield -/

/-- The herd when a number of ticks are over. -/
def herd (g : Generator γ) (count : Nat) : List Node := (steps count [] g).2.nodes

/-- What one of the next ticks yields. -/
def yield (g : Generator γ) (count : Nat) : StepResult :=
  let tick := g.tick + count
  ⟨tick, if tick % g.options.sampleInterval.toInt.toNat = 0 then (g.herd (count + 1)).map (Node.sample tick) else [],
    0 < tick ∧ tick % g.params.period.toInt.toNat = 0⟩

theorem herd_indices {g : Generator γ} {count : Nat} (h : count ≤ g.remaining) :
    (g.herd count).map Node.index = g.nodes.map Node.index :=
  (steps_later h).1.indices

theorem herd_add (g : Generator γ) (first second : Nat) :
    (steps first [] g).2.herd second = g.herd (first + second) := by
  rw [herd, herd, steps_add]

/-- Ticks yield what they have to, one after another. -/
theorem steps_yields {g : Generator γ} (hinterval : 0 < g.options.sampleInterval.toInt)
    (hperiod : 0 < g.params.period.toInt) {count : Nat} (h : count ≤ g.remaining) :
    (steps count [] g).1 = (List.range count).map g.yield := by
  induction count with
  | zero => rfl
  | succ count ih =>
      obtain ⟨result, next, hstep, hsucc⟩ := steps_succ h
      obtain ⟨hlater, -⟩ := steps_later (Nat.le_of_succ_le h)
      obtain ⟨-, hresult⟩ := step_yields hstep
      have hsampled := sampled_iff (g := (steps count [] g).2) (by rwa [hlater.options])
      have hends := endsPeriod_iff (g := (steps count [] g).2) (by rwa [hlater.params])
      rw [hlater.tick, hlater.options] at hsampled
      rw [hlater.tick, hlater.params] at hends
      have hyield : result = g.yield count := by
        rw [hresult, yield, herd, hsucc, hlater.tick, Bool.eq_iff_iff.mpr (hends.trans decide_eq_true_iff.symm)]
        simp only [hsampled]
      rw [hsucc, ih (Nat.le_of_succ_le h), hyield, List.range_succ, List.map_append]
      rfl

omit [DrawSource γ] in
/-- The nodes of a generator that was just made are numbered from zero on. -/
theorem create_indices {p : Params} {o : Options} {source : γ} {start : Generator γ}
    (h : create p o source = .ok start) : start.nodes.map Node.index = List.range o.nodes.toInt.toNat := by
  obtain ⟨-, hoptions, rfl⟩ := create_eq h
  have hindex (side index : Nat) : (gridNode side p.nodeDistance index).index = index := rfl
  simp only [grid, List.map_map, Function.comp_def, hindex, List.map_id', Options.gridSide_sq hoptions]

omit [DrawSource γ] in
/-- A generator that was just made has all ticks of its trace left. -/
theorem create_remaining {p : Params} {o : Options} {source : γ} {start : Generator γ}
    (h : create p o source = .ok start) {ticks : Nat} (hticks : p.ticks o.duration = ticks) (hbound : ticks < 2 ^ 63) :
    start.remaining = ticks := by
  obtain ⟨hparams, hoptions, rfl⟩ := create_eq h
  obtain ⟨-, -, hduration, -⟩ := Options.of_validate_ok hoptions
  obtain ⟨htotal, -, -⟩ := Params.totalTicks_toInt hparams hduration (by omega)
  simp [remaining, htotal, hticks]

/-- The samples that are left, tick by tick. -/
theorem samples_eq {g : Generator γ} (hinterval : 0 < g.options.sampleInterval.toInt)
    (hperiod : 0 < g.params.period.toInt) :
    g.samples = ((List.range g.remaining).filter fun count =>
      (g.tick + count) % g.options.sampleInterval.toInt.toNat = 0).flatMap fun count =>
        (g.herd (count + 1)).map (Node.sample (g.tick + count)) := by
  rw [samples, steps_yields hinterval hperiod le_rfl, List.flatMap_map]
  induction List.range g.remaining with
  | nil => rfl
  | cons count rest ih =>
      rw [List.flatMap_cons, ih, List.filter_cons]
      by_cases hsampled : (g.tick + count) % g.options.sampleInterval.toInt.toNat = 0
      · simp only [yield, hsampled, if_pos, decide_true, List.flatMap_cons]
      · simp only [yield, hsampled, if_neg, not_false_eq_true, decide_false, Bool.false_eq_true, List.nil_append]

/-- Whenever a run is split, its ticks yield what they have to, the rest is written line by line, and the counts are
those of the whole run, after which nothing happens any more. -/
theorem run_emits_sampled_ticks {p : Params} {o : Options} {source : γ} {start : Generator γ}
    (hcreate : create p o source = .ok start) {ticks : Nat} (hticks : p.ticks o.duration = ticks)
    (hbound : ticks < 2 ^ 63) {passed : Nat} (hpassed : passed ≤ ticks) :
    (steps ticks [] start).1.map (fun result => (result.tick, result.reshuffled)) =
        (List.range ticks).map (fun tick => (tick, decide (0 < tick ∧ tick % p.period.toInt.toNat = 0))) ∧
      (∀ tick < ticks, (start.herd (tick + 1)).map Node.index = List.range o.nodes.toInt.toNat) ∧
      (steps passed [] start).2.traceText = Trace.text (((List.range' passed (ticks - passed)).filter fun tick =>
        tick % o.sampleInterval.toInt.toNat = 0).flatMap fun tick => (start.herd (tick + 1)).map (Node.sample tick)) ∧
      ((steps passed [] start).2.run .unlimited).2 = (start.finished, none) ∧
      CountsTrace p o ticks start.finished.stats ∧
      ∀ more, steps more [] start.finished = ([], start.finished) := by
  have hremaining := create_remaining hcreate hticks hbound
  have hindices := create_indices hcreate
  obtain ⟨hparams, hoptions, hstart⟩ := create_eq hcreate
  obtain ⟨-, -, hduration, hinterval⟩ := Options.of_validate_ok hoptions
  obtain ⟨-, -, -, hpositive⟩ := Params.of_validate hparams
  obtain ⟨-, -, hperiod⟩ := Params.totalTicks_toInt hparams hduration (by omega)
  have htick : start.tick = 0 := hstart ▸ rfl
  have hkept : start.params = p ∧ start.options = o := hstart ▸ ⟨rfl, rfl⟩
  obtain ⟨hlater, -⟩ := steps_later (g := start) (hpassed.trans_eq hremaining.symm)
  have hleft : (steps passed [] start).2.remaining = ticks - passed := by rw [hlater.remaining, hremaining]
  have hyields := steps_yields (g := start) (by rwa [hkept.2]) (by rwa [hkept.1]) hremaining.ge
  have hsamples := samples_eq (g := (steps passed [] start).2) (by rwa [hlater.options, hkept.2])
    (by rwa [hlater.params, hkept.1])
  refine ⟨?_, fun tick htick => ?_, ?_, ?_, finished_counts hcreate hticks hbound, steps_finished start⟩
  · rw [hyields, List.map_map]
    refine List.map_congr_left fun tick _ => ?_
    simp only [Function.comp_apply, yield, htick, Nat.zero_add, hkept.1]
  · rw [herd_indices (hremaining ▸ htick), hindices]
  · rw [(run_unlimited _).1, hsamples, hleft, hlater.tick, hlater.options, htick, hkept.2,
      List.range'_eq_map_range, List.filter_map, List.flatMap_map]
    simp only [Nat.zero_add, herd_add, Nat.add_assoc, Function.comp_def]
  · rw [(run_unlimited _).2, finished, hleft, finished, hremaining]
    conv_rhs => rw [← Nat.add_sub_cancel' hpassed, steps_add]

/-- Fifteen ticks of four nodes, three of which have passed: one sampled tick and both reshuffles are left. -/
theorem fifteen_ticks_emit_second_herd :
    ∃ start : Generator Pcg, create ⟨1, 2, 1⟩ ⟨4, 10, 10, 7⟩ (Pcg.ofSeed 7) = .ok start ∧
      (steps 3 [] start).2.traceText = Trace.text ((start.herd 11).map (Node.sample 10)) ∧
      start.finished.stats.ticks.toInt = 15 ∧ start.finished.stats.samples.toInt = 8 ∧
      start.finished.stats.reshuffles.toInt = 2 := by
  obtain ⟨start, hcreate⟩ := exists_create (p := ⟨1, 2, 1⟩) (o := ⟨4, 10, 10, 7⟩) (by decide) (by decide +kernel)
    (Pcg.ofSeed 7)
  obtain ⟨-, -, htext, -, hcounts, -⟩ := run_emits_sampled_ticks hcreate (by decide : _ = ((15 : Nat) : Int))
    (by decide) (by decide : 3 ≤ 15)
  have hsampled : (List.range' 3 (15 - 3)).filter
      (fun tick => decide (tick % (10 : Int64).toInt.toNat = 0)) = [10] := by decide
  rw [hsampled] at htext
  exact ⟨start, hcreate, by simpa only [List.flatMap_singleton] using htext, hcounts.ticks,
    hcounts.exact (by decide), hcounts.reshuffles⟩

end Generator

end MobilitySweep
