import MobilitySweep.Mobility.Writing
import MobilitySweep.Proofs.Mobility.Reforming

/-! # What a run emits

A run without a limit on its sink simulates all ticks that are left and writes a line for each of their samples, in the
order in which the ticks yield them. A tick yields a sample of every node if it is a multiple of the sample interval,
and it reshuffles the herd if it is a positive multiple of the period.
-/

namespace MobilitySweep

namespace Trace

/-- The lines of samples. -/
def body (samples : List Sample) : Bytes := samples.flatMap fun sample => sample.line ++ "\n"

/-- A trace of samples. -/
def text (samples : List Sample) : Bytes := header ++ "\n" ++ body samples

end Trace

/-! ## A sink without limit -/

namespace BufferedSink

/-- All that was put into a buffer: what the sink has taken, and what is pending. -/
def written (b : BufferedSink) : Bytes := b.sink.toBytes ++ b.pending.reverse

/-- A buffer that knows how much is pending, in front of a sink without limit. -/
structure Unlimited (b : BufferedSink) : Prop where
  room : b.sink.room = none
  count : b.count = b.pending.length

theorem unlimited_ofSink : (ofSink .unlimited).Unlimited := ⟨rfl, rfl⟩

theorem Unlimited.put {b : BufferedSink} (h : b.Unlimited) (text : Bytes) :
    (b.put text).2 = true ∧ (b.put text).1.Unlimited ∧ (b.put text).1.written = b.written ++ text := by
  unfold BufferedSink.put
  split
  next =>
    refine ⟨rfl, ⟨h.room, ?_⟩, ?_⟩
    · simp [h.count, Nat.add_comm]
    · simp [written]
  next =>
    simp only [Sink.write, h.room]
    refine ⟨trivial, ⟨rfl, by simp⟩, ?_⟩
    simp [written, Sink.toBytes]

theorem Unlimited.flush {b : BufferedSink} (h : b.Unlimited) :
    b.flush.2 = true ∧ b.flush.1.sink.toBytes = b.written := by
  unfold BufferedSink.flush
  split
  next hempty =>
    have hpending : b.pending = [] := List.length_eq_zero_iff.mp (h.count ▸ hempty)
    simp [written, hpending]
  next => simp [Sink.write, h.room, written, Sink.toBytes]

end BufferedSink

namespace Generator

theorem putSamples_unlimited {b : BufferedSink} (h : b.Unlimited) (samples : List Sample) :
    (putSamples b samples).2 = true ∧ (putSamples b samples).1.Unlimited ∧
      (putSamples b samples).1.written = b.written ++ Trace.body samples := by
  induction samples generalizing b with
  | nil => exact ⟨rfl, h, by simp [putSamples, Trace.body]⟩
  | cons sample rest ih =>
      obtain ⟨htaken, hnext, hwritten⟩ := h.put (sample.line ++ "\n")
      unfold putSamples
      split
      next b' heq =>
        rw [heq] at hnext hwritten
        obtain ⟨hrest, hlast, hall⟩ := ih hnext
        exact ⟨hrest, hlast, by simp [hall, hwritten, Trace.body]⟩
      next b' heq =>
        rw [heq] at htaken
        cases htaken

variable {γ : Type} [DrawSource γ]

/-! ## Ticks one after another -/

/-- The results so far only stand in front of those that follow. -/
theorem steps_eq (count : Nat) (results : List StepResult) (g : Generator γ) :
    steps count results g = (results.reverse ++ (steps count [] g).1, (steps count [] g).2) := by
  induction count generalizing results g with
  | zero => simp [steps]
  | succ count ih =>
      simp only [steps]
      cases g.step with
      | none => simp
      | some outcome =>
          obtain ⟨result, next⟩ := outcome
          dsimp only
          rw [ih (result :: results) next, ih [result] next]
          simp

theorem steps_of_step {g next : Generator γ} {result : StepResult} (h : g.step = some (result, next)) (count : Nat) :
    steps (count + 1) [] g = (result :: (steps count [] next).1, (steps count [] next).2) := by
  simp only [steps, h]
  rw [steps_eq]
  rfl

theorem steps_of_none {g : Generator γ} (h : g.step = none) (count : Nat) : steps count [] g = ([], g) := by
  cases count with
  | zero => rfl
  | succ count => simp [steps, h]

theorem steps_add (first second : Nat) (g : Generator γ) :
    steps (first + second) [] g = ((steps first [] g).1 ++ (steps second [] (steps first [] g).2).1,
      (steps second [] (steps first [] g).2).2) := by
  induction first generalizing g with
  | zero => simp [steps]
  | succ first ih =>
      cases hstep : g.step with
      | none => simp [steps_of_none hstep]
      | some outcome =>
          obtain ⟨result, next⟩ := outcome
          rw [Nat.add_right_comm, steps_of_step hstep, steps_of_step hstep, ih next]
          rfl

/-- The samples of the ticks that are left, in order. -/
def samples (g : Generator γ) : List Sample := (steps g.remaining [] g).1.flatMap StepResult.samples

/-- The generator after the ticks that are left. -/
def finished (g : Generator γ) : Generator γ := (steps g.remaining [] g).2

omit [DrawSource γ] in
theorem done_iff (g : Generator γ) : g.done = true ↔ g.remaining = 0 := by
  simp only [done, remaining, decide_eq_true_eq]
  omega

theorem step_eq_none_iff (g : Generator γ) : g.step = none ↔ g.remaining = 0 := by
  rw [← done_iff, step]
  split <;> simp_all

/-- What ticks leave alone, and how many of them there were. -/
structure Later (g later : Generator γ) (count : Nat) : Prop where
  params : later.params = g.params
  options : later.options = g.options
  total : later.total = g.total
  tick : later.tick = g.tick + count
  indices : later.nodes.map Node.index = g.nodes.map Node.index

/-- Where a tick leads the nodes. A reshuffle at its end changes destinations only. -/
theorem step_map {α : Type} {f : Node → α} (hheading : ∀ n other : Node, f (n.headingFor other) = f n)
    (hdrift : ∀ distance n, f (Node.drift distance n) = f n) {g next : Generator γ} {result : StepResult}
    (h : g.step = some (result, next)) : next.nodes.map f = g.nodes.map fun n => f n.advance := by
  unfold step at h
  split at h
  next => simp at h
  next =>
    simp only [Option.some.injEq, Prod.mk.injEq] at h
    obtain ⟨-, rfl⟩ := h
    cases g.endsPeriod with
    | false => simp [Function.comp_def]
    | true => simp [reshuffle_map hheading hdrift, Function.comp_def]

/-- All that a tick yields. -/
theorem step_yields {g next : Generator γ} {result : StepResult} (h : g.step = some (result, next)) :
    Later g next 1 ∧
      result = ⟨g.tick, if g.sampled then next.nodes.map (Node.sample g.tick) else [], g.endsPeriod⟩ := by
  have hindices := step_map (f := Node.index) (fun _ _ => rfl) (fun _ _ => rfl) h
  have hsamples := step_map (f := Node.sample g.tick) (fun _ _ => rfl) (fun _ _ => rfl) h
  rw [hsamples]
  unfold step at h
  split at h
  next => simp at h
  next =>
    simp only [Option.some.injEq, Prod.mk.injEq] at h
    obtain ⟨rfl, rfl⟩ := h
    refine ⟨⟨?_, ?_, ?_, rfl, hindices⟩, by simp [Function.comp_def]⟩ <;> cases g.endsPeriod <;> rfl

/-- What every node keeps when it moves, when its destination drifts and when it trades destinations is kept by a
tick. -/
theorem step_forall {P : Node → Prop} {g next : Generator γ} {result : StepResult}
    (hadvance : ∀ n, P n → P n.advance)
    (hdrift : ∀ n, P n → P (n.drift (Coordinate.ofInt g.params.shuffleDistance.toInt)))
    (hheading : ∀ n other, P n → P other → P (n.headingFor other))
    (h : ∀ n ∈ g.nodes, P n) (hstep : g.step = some (result, next)) : ∀ n ∈ next.nodes, P n := by
  have hmoved : ∀ n ∈ g.nodes.map Node.advance, P n := by
    intro n hn
    obtain ⟨before, hbefore, rfl⟩ := List.mem_map.mp hn
    exact hadvance before (h before hbefore)
  unfold step at hstep
  split at hstep
  next => simp at hstep
  next =>
    simp only [Option.some.injEq, Prod.mk.injEq] at hstep
    obtain ⟨-, rfl⟩ := hstep
    cases g.endsPeriod with
    | false => exact hmoved
    | true =>
        refine swapCouples_forall hheading _ (fun n hn => ?_) _
        obtain ⟨before, hbefore, rfl⟩ := List.mem_map.mp hn
        exact hdrift before (hmoved before hbefore)

omit [DrawSource γ] in
theorem Later.trans {g later last : Generator γ} {count more : Nat} (h : Later g later count)
    (h' : Later later last more) : Later g last (count + more) :=
  ⟨h'.params.trans h.params, h'.options.trans h.options, h'.total.trans h.total,
    by rw [h'.tick, h.tick, Nat.add_assoc], h'.indices.trans h.indices⟩

omit [DrawSource γ] in
theorem Later.remaining {g later : Generator γ} {count : Nat} (h : Later g later count) :
    later.remaining = g.remaining - count := by
  simp only [Generator.remaining, h.total, h.tick]
  omega

/-- As long as ticks are left, each call simulates one. -/
theorem steps_later {count : Nat} {g : Generator γ} (h : count ≤ g.remaining) :
    Later g (steps count [] g).2 count ∧ (steps count [] g).1.length = count := by
  induction count generalizing g with
  | zero => exact ⟨⟨rfl, rfl, rfl, rfl, rfl⟩, rfl⟩
  | succ count ih =>
      cases hstep : g.step with
      | none =>
          have hnone := (step_eq_none_iff g).mp hstep
          omega
      | some outcome =>
          obtain ⟨result, next⟩ := outcome
          obtain ⟨hnext, -⟩ := step_yields hstep
          obtain ⟨hlater, hlength⟩ := ih (g := next) (by rw [hnext.remaining]; omega)
          rw [steps_of_step hstep]
          exact ⟨Nat.add_comm 1 count ▸ hnext.trans hlater, by rw [List.length_cons, hlength]⟩

/-- What a tick keeps of every node is kept by all ticks. -/
theorem steps_forall {P : Node → Prop} {g : Generator γ} (hadvance : ∀ n, P n → P n.advance)
    (hdrift : ∀ n, P n → P (n.drift (Coordinate.ofInt g.params.shuffleDistance.toInt)))
    (hheading : ∀ n other, P n → P other → P (n.headingFor other))
    (h : ∀ n ∈ g.nodes, P n) (count : Nat) : ∀ n ∈ (steps count [] g).2.nodes, P n := by
  induction count generalizing g with
  | zero => exact h
  | succ count ih =>
      cases hstep : g.step with
      | none => exact (steps_of_none hstep (count + 1)).symm ▸ h
      | some outcome =>
          obtain ⟨result, next⟩ := outcome
          obtain ⟨hnext, -⟩ := step_yields hstep
          rw [steps_of_step hstep]
          exact ih (hnext.params ▸ hdrift) (step_forall hadvance hdrift hheading h hstep)

/-- The last of some ticks. -/
theorem steps_succ {count : Nat} {g : Generator γ} (h : count < g.remaining) :
    ∃ result next, (steps count [] g).2.step = some (result, next) ∧
      steps (count + 1) [] g = ((steps count [] g).1 ++ [result], next) := by
  obtain ⟨hlater, -⟩ := steps_later h.le
  cases hstep : (steps count [] g).2.step with
  | none =>
      have hnone := (step_eq_none_iff _).mp hstep
      rw [hlater.remaining] at hnone
      omega
  | some outcome =>
      obtain ⟨result, next⟩ := outcome
      exact ⟨result, next, rfl, by rw [steps_add, steps_of_step hstep]; rfl⟩

/-- Nothing happens once all ticks are simulated. -/
theorem steps_finished (g : Generator γ) (more : Nat) : steps more [] g.finished = ([], g.finished) := by
  obtain ⟨hlater, -⟩ := steps_later (g := g) le_rfl
  exact steps_of_none ((step_eq_none_iff _).mpr (by rw [finished, hlater.remaining, Nat.sub_self])) more

theorem runSteps_unlimited {b : BufferedSink} (h : b.Unlimited) (count : Nat) (g : Generator γ) :
    (runSteps count b g).1.Unlimited ∧ (runSteps count b g).2 = ((steps count [] g).2, none) ∧
      (runSteps count b g).1.written =
        b.written ++ Trace.body ((steps count [] g).1.flatMap StepResult.samples) := by
  induction count generalizing b g with
  | zero => exact ⟨h, rfl, by simp [runSteps, steps, Trace.body]⟩
  | succ count ih =>
      cases hstep : g.step with
      | none => simp [runSteps, hstep, steps_of_none hstep, h, Trace.body]
      | some outcome =>
          obtain ⟨result, next⟩ := outcome
          obtain ⟨htaken, hnext, hwritten⟩ := putSamples_unlimited h result.samples
          have heq : putSamples b result.samples = ((putSamples b result.samples).1, true) := Prod.ext rfl htaken
          obtain ⟨hlast, hrest, hall⟩ := ih hnext next
          simp only [runSteps, hstep, steps_of_step hstep]
          rw [heq]
          exact ⟨hlast, hrest, by simp [hall, hwritten, Trace.body]⟩

/-- A sink without limit takes a trace of all samples that are left. -/
theorem run_unlimited (g : Generator γ) :
    g.traceText = Trace.text g.samples ∧ (g.run .unlimited).2 = (g.finished, none) := by
  obtain ⟨htaken, hheader, hwritten⟩ := BufferedSink.unlimited_ofSink.put (Trace.header ++ "\n")
  set opened := ((BufferedSink.ofSink .unlimited).put (Trace.header ++ "\n")).1
  have hopened : (BufferedSink.ofSink .unlimited).put (Trace.header ++ "\n") = (opened, true) := Prod.ext rfl htaken
  obtain ⟨hunlimited, hend, hall⟩ := runSteps_unlimited hheader g.remaining g
  set filled := (runSteps g.remaining opened g).1
  have hfilled : runSteps g.remaining opened g = (filled, g.finished, none) := Prod.ext rfl hend
  obtain ⟨hflushed, hsink⟩ := hunlimited.flush
  have hflush : filled.flush = (filled.flush.1, true) := Prod.ext rfl hflushed
  have hrun : g.run .unlimited = (filled.flush.1.sink, g.finished, none) := by
    unfold run
    rw [hopened]
    dsimp only
    rw [hfilled]
    dsimp only
    rw [hflush]
  refine ⟨?_, by rw [hrun]⟩
  rw [traceText, hrun, hsink, hall, hwritten]
  simp [BufferedSink.written, BufferedSink.ofSink, Sink.toBytes, Sink.unlimited, Trace.text, samples]

end Generator

end MobilitySweep
