import MobilitySweep.Proofs.Mobility.Selection

/-! # Sinks that fill up

A run passes its trace on in blocks. When the sink has no room for one of them, it keeps the beginning that fits and the
run ends. So what a full sink holds is the beginning of the trace, and a run that reports nothing has written all of it.
The refusal shows with the first tick whose lines lead beyond the end of the block that does not fit.
-/

namespace MobilitySweep

/-! ## A sink of limited room -/

namespace Sink

/-- A sink of so much room in all that has taken everything so far. -/
structure Within (room : Nat) (s : Sink) : Prop where
  taken : s.toBytes.length ≤ room
  left : s.room = some (room - s.toBytes.length)

theorem within_limited (room : Nat) : (limited room).Within room := ⟨Nat.zero_le room, rfl⟩

section

variable {room : Nat} {s : Sink}

/-- A block that fits is taken. -/
theorem Within.write_of_le (h : s.Within room) {block : Bytes} (hfits : s.toBytes.length + block.length ≤ room) :
    (s.write block).2 = true ∧ (s.write block).1.Within room ∧
      (s.write block).1.toBytes = s.toBytes ++ block.reverse := by
  have hblock : block.length ≤ room - s.toBytes.length := by omega
  simp only [write, h.left, if_pos hblock]
  refine ⟨trivial, ⟨?_, ?_⟩, ?_⟩
  · simp only [toBytes, List.length_reverse, List.length_append] at hfits ⊢
    omega
  · simp only [toBytes, List.length_reverse, List.length_append, Option.some.injEq]
    omega
  · simp [toBytes]

/-- Of a block that does not fit, the beginning is taken. -/
theorem Within.write_of_lt (h : s.Within room) {block : Bytes} (hfull : room < s.toBytes.length + block.length) :
    (s.write block).2 = false ∧ (s.write block).1.toBytes = (s.toBytes ++ block.reverse).take room := by
  have htaken := h.taken
  have hblock : ¬ block.length ≤ room - s.toBytes.length := by omega
  simp only [write, h.left, if_neg hblock]
  refine ⟨trivial, ?_⟩
  have hrest : (block.drop (block.length - (room - s.toBytes.length))).reverse =
      block.reverse.take (room - s.toBytes.length) := by rw [List.take_reverse]
  have hcontent : s.content.reverse = s.toBytes := rfl
  rw [List.take_append, List.take_of_length_le htaken, ← hrest, toBytes, List.reverse_append, hcontent]

end

end Sink

/-! ## The buffer in front of it -/

namespace BufferedSink

/-- A buffer that knows how much is pending, in front of a sink of so much room that has taken everything so far. -/
structure Within (room : Nat) (b : BufferedSink) : Prop where
  sink : b.sink.Within room
  count : b.count = b.pending.length

theorem within_ofSink (room : Nat) : (ofSink (.limited room)).Within room := ⟨Sink.within_limited room, rfl⟩

/-- What comes of putting something into a buffer, where a text is to be written in all: nothing of it is lost, or the
sink is full and holds the beginning of it. -/
structure Stored (room : Nat) (text : Bytes) (outcome : BufferedSink × Bool) : Prop where
  accepted : outcome.2 = true → outcome.1.Within room ∧ outcome.1.written = text
  refused : outcome.2 = false → outcome.1.sink.toBytes = text.take room ∧ room < text.length

section

variable {room : Nat} {b : BufferedSink}

theorem Within.put (h : b.Within room) (text : Bytes) : Stored room (b.written ++ text) (b.put text) := by
  unfold BufferedSink.put
  split
  next =>
    refine ⟨fun _ => ⟨⟨h.sink, ?_⟩, ?_⟩, fun hfalse => by cases hfalse⟩
    · simp [h.count, Nat.add_comm]
    · simp [written]
  next =>
    have hblock : b.sink.toBytes ++ ((text.take (blockSize - b.count)).reverse ++ b.pending).reverse ++
        text.drop (blockSize - b.count) = b.written ++ text := by
      simp [written]
    dsimp only
    generalize (text.take (blockSize - b.count)).reverse ++ b.pending = block at hblock ⊢
    by_cases hfits : b.sink.toBytes.length + block.length ≤ room
    · obtain ⟨haccepted, hwithin, hbytes⟩ := h.sink.write_of_le hfits
      refine ⟨fun _ => ⟨⟨hwithin, by simp⟩, ?_⟩, fun hfalse => ?_⟩
      · simp only [written, List.reverse_reverse, hbytes]
        exact hblock
      · rw [haccepted] at hfalse
        cases hfalse
    · obtain ⟨hrefused, hbytes⟩ := h.sink.write_of_lt (Nat.lt_of_not_le hfits)
      have hlength : room < (b.sink.toBytes ++ block.reverse).length := by
        rw [List.length_append, List.length_reverse]
        omega
      refine ⟨fun htrue => ?_, fun _ => ⟨?_, ?_⟩⟩
      · rw [hrefused] at htrue
        cases htrue
      · rw [hbytes, ← hblock, List.take_append_of_le_length hlength.le]
      · rw [← hblock, List.length_append]
        omega

/-- Once the sink is full, nothing that follows changes what it holds. -/
theorem Stored.extend {text : Bytes} (h : Stored room text (b, false)) (more : Bytes) :
    Stored room (text ++ more) (b, false) := by
  obtain ⟨hbytes, hlength⟩ := h.refused rfl
  refine ⟨fun htrue => (Bool.false_ne_true htrue).elim, fun _ => ⟨?_, ?_⟩⟩
  · rw [hbytes, List.take_append_of_le_length hlength.le]
  · rw [List.length_append]
    omega

/-- What is pending goes on to the sink in the end. -/
theorem Within.flush (h : b.Within room) :
    (b.flush.2 = true ↔ b.written.length ≤ room) ∧ b.flush.1.sink.toBytes = b.written.take room := by
  have htaken := h.sink.taken
  unfold BufferedSink.flush
  split
  next hempty =>
    have hpending : b.pending = [] := List.length_eq_zero_iff.mp (h.count ▸ hempty)
    simp [written, hpending, htaken, List.take_of_length_le]
  next =>
    have hlength : b.written.length = b.sink.toBytes.length + b.pending.length := by simp [written]
    dsimp only
    by_cases hfits : b.sink.toBytes.length + b.pending.length ≤ room
    · obtain ⟨haccepted, -, hbytes⟩ := h.sink.write_of_le hfits
      have hall : b.written.length ≤ room := hlength ▸ hfits
      rw [haccepted, hbytes, List.take_of_length_le hall]
      exact ⟨iff_of_true rfl hall, rfl⟩
    · obtain ⟨hrefused, hbytes⟩ := h.sink.write_of_lt (Nat.lt_of_not_le hfits)
      rw [hrefused, hbytes]
      exact ⟨iff_of_false Bool.false_ne_true (hlength ▸ hfits), rfl⟩

/-! ### Blocks

The sink is offered whole blocks until the end, so it refuses the first one that ends beyond its room, as soon as a byte
behind that block is to be written.
-/

/-- The end of the first block that does not fit. -/
def reach (room : Nat) : Nat := blockSize * (room / blockSize + 1)

/-- A buffer that has passed on whole blocks only. -/
structure Aligned (b : BufferedSink) : Prop where
  passed : blockSize ∣ b.sink.toBytes.length
  pending : b.pending.length ≤ blockSize

theorem aligned_ofSink (room : Nat) : (ofSink (.limited room)).Aligned := ⟨Nat.dvd_zero _, Nat.zero_le _⟩

theorem Within.put_iff (h : b.Within room) (haligned : b.Aligned) {text : Bytes} (htext : text.length ≤ blockSize) :
    ((b.put text).2 = true ↔ (b.written ++ text).length ≤ reach room) ∧
      ((b.put text).2 = true → (b.put text).1.Aligned) := by
  obtain ⟨blocks, hblocks⟩ := haligned.passed
  have hpending := haligned.pending
  have htaken := h.sink.taken
  have hcount := h.count
  have hwritten : (b.written ++ text).length = b.sink.toBytes.length + b.pending.length + text.length := by
    simp [written, Nat.add_assoc]
  have hsize : blockSize = 4096 := rfl
  have hreach : reach room = 4096 * (room / 4096 + 1) := rfl
  rw [hsize] at hblocks hpending htext
  unfold BufferedSink.put
  split
  next hsmall =>
    rw [hsize] at hsmall
    refine ⟨iff_of_true rfl (by omega), fun _ => ⟨⟨blocks, hblocks⟩, ?_⟩⟩
    rw [List.length_append, List.length_reverse]
    omega
  next hlarge =>
    rw [hsize] at hlarge
    have hlength : ((text.take (blockSize - b.count)).reverse ++ b.pending).length = 4096 := by
      rw [List.length_append, List.length_reverse, List.length_take]
      omega
    dsimp only
    by_cases hfits : b.sink.toBytes.length + 4096 ≤ room
    · obtain ⟨haccepted, -, hbytes⟩ := h.sink.write_of_le (hlength.symm ▸ hfits)
      refine ⟨iff_of_true haccepted (by omega), fun _ => ⟨⟨blocks + 1, ?_⟩, ?_⟩⟩
      · rw [hbytes, List.length_append, List.length_reverse, hlength, hblocks, hsize, Nat.mul_succ]
      · rw [List.length_reverse, List.length_drop]
        omega
    · obtain ⟨hrefused, -⟩ := h.sink.write_of_lt (hlength.symm ▸ Nat.lt_of_not_le hfits)
      rw [hrefused]
      exact ⟨iff_of_false Bool.false_ne_true (by omega), fun htrue => (Bool.false_ne_true htrue).elim⟩

end

end BufferedSink

namespace Generator

open BufferedSink

/-! ## Lines put into the buffer -/

section

variable {room : Nat} {b : BufferedSink}

theorem putSamples_cons (b : BufferedSink) (sample : Sample) (rest : List Sample) :
    putSamples b (sample :: rest) =
      if (b.put (sample.line ++ "\n")).2 then putSamples (b.put (sample.line ++ "\n")).1 rest
      else ((b.put (sample.line ++ "\n")).1, false) := by
  rw [putSamples]
  rcases b.put (sample.line ++ "\n") with ⟨next, _ | _⟩ <;> rfl

/-- Lines are put into a buffer one after another, up to the first refusal. -/
theorem putSamples_append (b : BufferedSink) (first second : List Sample) :
    putSamples b (first ++ second) =
      if (putSamples b first).2 then putSamples (putSamples b first).1 second else putSamples b first := by
  induction first generalizing b with
  | nil => rfl
  | cons sample rest ih =>
      rw [List.cons_append, putSamples_cons, putSamples_cons]
      split
      next => exact ih _
      next => rfl

theorem body_cons (text : Bytes) (sample : Sample) (rest : List Sample) :
    text ++ Trace.body (sample :: rest) = text ++ (sample.line ++ "\n") ++ Trace.body rest := by
  simp [Trace.body]

theorem putSamples_stored (h : b.Within room) (samples : List Sample) :
    Stored room (b.written ++ Trace.body samples) (putSamples b samples) := by
  induction samples generalizing b with
  | nil => exact ⟨fun _ => ⟨h, by simp [putSamples, Trace.body]⟩, fun hfalse => (Bool.false_ne_true hfalse.symm).elim⟩
  | cons sample rest ih =>
      have hput := h.put (sample.line ++ "\n")
      rw [body_cons, putSamples_cons]
      split
      next htaken =>
        obtain ⟨hnext, hwritten⟩ := hput.accepted htaken
        rw [← hwritten]
        exact ih hnext
      next hrefused =>
        have houtcome : b.put (sample.line ++ "\n") = ((b.put (sample.line ++ "\n")).1, false) := by
          rw [← Bool.eq_false_iff.mpr hrefused]
        rw [houtcome] at hput
        exact hput.extend _

/-- Lines shorter than a block are all taken as long as they end within reach. -/
theorem putSamples_iff (h : b.Within room) (haligned : b.Aligned) {samples : List Sample}
    (hlines : ∀ s ∈ samples, s.line.length < blockSize) (hwritten : b.written.length ≤ reach room) :
    (putSamples b samples).2 = true ↔ (b.written ++ Trace.body samples).length ≤ reach room := by
  induction samples generalizing b with
  | nil => simpa [putSamples, Trace.body] using hwritten
  | cons sample rest ih =>
      have hline : (sample.line ++ "\n").length ≤ blockSize := by
        have hshort := hlines sample List.mem_cons_self
        have hend : (("\n" : String) : Bytes).length = 1 := by decide +kernel
        rw [List.length_append, hend]
        omega
      obtain ⟨htaken, hstays⟩ := h.put_iff haligned hline
      rw [body_cons, putSamples_cons]
      split
      next hput =>
        obtain ⟨hnext, hbytes⟩ := (h.put (sample.line ++ "\n")).accepted hput
        rw [← hbytes] at htaken ⊢
        exact ih hnext (hstays hput) (fun s hs => hlines s (List.mem_cons_of_mem sample hs)) (htaken.mp hput)
      next hput =>
        refine iff_of_false Bool.false_ne_true fun hall => hput (htaken.mpr ?_)
        exact (List.prefix_append _ (Trace.body rest)).length_le.trans hall

end

/-! ## Ticks written one after another -/

variable {γ : Type} [DrawSource γ]

/-- The samples of a number of ticks. -/
def samplesOf (g : Generator γ) (ticks : Nat) : List Sample := (steps ticks [] g).1.flatMap StepResult.samples

/-- The trace up to the end of a number of ticks. -/
def textOf (g : Generator γ) (ticks : Nat) : Bytes := Trace.text (g.samplesOf ticks)

theorem samplesOf_of_step {g next : Generator γ} {result : StepResult} (h : g.step = some (result, next)) (ticks : Nat) :
    g.samplesOf (ticks + 1) = result.samples ++ next.samplesOf ticks := by
  rw [samplesOf, steps_of_step h, List.flatMap_cons, samplesOf]

/-- A tick counts what it yields. -/
theorem step_counts {g next : Generator γ} {result : StepResult} (h : g.step = some (result, next)) :
    next.stats = ⟨g.stats.ticks + 1, g.stats.samples + Int64.ofNat result.samples.length,
      g.stats.reshuffles + Int64.ofNat (if result.reshuffled then 1 else 0)⟩ := by
  unfold step at h
  split at h
  next => simp at h
  next =>
    simp only [Option.some.injEq, Prod.mk.injEq] at h
    obtain ⟨rfl, rfl⟩ := h
    cases g.endsPeriod <;> simp

/-- The counts after a number of ticks are those of what the ticks have yielded. -/
theorem steps_counts {ticks : Nat} {g : Generator γ} (h : ticks ≤ g.remaining) :
    (steps ticks [] g).2.stats = ⟨g.stats.ticks + Int64.ofNat ticks, g.stats.samples + Int64.ofNat (g.samplesOf ticks).length,
      g.stats.reshuffles + Int64.ofNat ((steps ticks [] g).1.countP StepResult.reshuffled)⟩ := by
  induction ticks generalizing g with
  | zero => simp [samplesOf, steps]
  | succ ticks ih =>
      cases hstep : g.step with
      | none =>
          have hnone := (step_eq_none_iff g).mp hstep
          omega
      | some outcome =>
          obtain ⟨result, next⟩ := outcome
          obtain ⟨hlater, -⟩ := step_yields hstep
          have hrest := ih (g := next) (by rw [hlater.remaining]; omega)
          rw [samplesOf_of_step hstep, steps_of_step hstep, hrest, step_counts hstep, List.countP_cons,
            List.length_append]
          have hone : Int64.ofNat 1 = 1 := rfl
          simp only [Stats.mk.injEq, Int64.ofNat_add, hone]
          exact ⟨by ac_rfl, by ac_rfl, by ac_rfl⟩

/-- Writing ticks is putting their samples into the buffer. It ends with the first tick whose samples are refused. -/
theorem runSteps_outcome {count : Nat} {g : Generator γ} (hcount : count ≤ g.remaining) (b : BufferedSink) :
    ∃ ticks ≤ count, (runSteps count b g).1 = (putSamples b (g.samplesOf ticks)).1 ∧
      (runSteps count b g).2.1 = (steps ticks [] g).2 ∧
      (∀ fewer < ticks, (putSamples b (g.samplesOf fewer)).2 = true) ∧
      match (runSteps count b g).2.2 with
      | none => ticks = count ∧ (putSamples b (g.samplesOf ticks)).2 = true
      | some failure => 0 < ticks ∧ failure = .sample (g.tick + ticks - 1) ∧ (putSamples b (g.samplesOf ticks)).2 = false := by
  -- By induction on the ticks, with the sink and the herd as the first tick leaves them.
  induction count generalizing g b with
  | zero => exact ⟨0, le_rfl, rfl, rfl, fun fewer hfewer => absurd hfewer (Nat.not_lt_zero fewer), rfl, rfl⟩
  | succ count ih =>
      cases hstep : g.step with
      | none =>
          have hnone := (step_eq_none_iff g).mp hstep
          omega
      | some outcome =>
          obtain ⟨result, next⟩ := outcome
          obtain ⟨hlater, hresult⟩ := step_yields hstep
          have hfirst : g.samplesOf 1 = result.samples := by
            rw [samplesOf_of_step hstep]
            exact List.append_nil _
          simp only [runSteps, hstep]
          rcases hput : putSamples b result.samples with ⟨filled, taken⟩
          cases taken with
          | false =>
              refine ⟨1, by omega, ?_, ?_, ?_, ?_, ?_, ?_⟩
              · rw [hfirst, hput]
              · rw [steps_of_step hstep]
                rfl
              · intro fewer hfewer
                obtain rfl : fewer = 0 := by omega
                rfl
              · exact Nat.one_pos
              · rw [hresult, Nat.add_sub_cancel]
              · rw [hfirst, hput]
          | true =>
              have hmore (ticks : Nat) : putSamples b (g.samplesOf (ticks + 1)) = putSamples filled (next.samplesOf ticks) := by
                rw [samplesOf_of_step hstep, putSamples_append, hput]
                rfl
              obtain ⟨ticks, hticks, hbuffer, hlast, hbefore, hend⟩ :=
                ih (g := next) (by rw [hlater.remaining]; omega) filled
              refine ⟨ticks + 1, Nat.succ_le_succ hticks, ?_, ?_, ?_, ?_⟩
              · rw [hmore]
                exact hbuffer
              · rw [steps_of_step hstep]
                exact hlast
              · intro fewer hfewer
                cases fewer with
                | zero => rfl
                | succ fewer =>
                    rw [hmore]
                    exact hbefore fewer (Nat.lt_of_succ_lt_succ hfewer)
              · dsimp only
                rw [hmore]
                cases hfailure : (runSteps count filled next).2.2 with
                | none =>
                    rw [hfailure] at hend
                    exact ⟨congrArg (· + 1) hend.1, hend.2⟩
                | some failure =>
                    rw [hfailure] at hend
                    obtain ⟨hsome, rfl, hrefused⟩ := hend
                    refine ⟨Nat.succ_pos ticks, ?_, hrefused⟩
                    rw [hlater.tick]
                    congr 1
                    omega

/-! ## Whole runs -/

theorem samplesOf_isPrefix {fewer ticks : Nat} (h : fewer ≤ ticks) (g : Generator γ) :
    g.samplesOf fewer <+: g.samplesOf ticks := by
  obtain ⟨more, rfl⟩ := Nat.exists_eq_add_of_le h
  rw [samplesOf, samplesOf, steps_add, List.flatMap_append]
  exact List.prefix_append _ _

theorem textOf_isPrefix {fewer ticks : Nat} (h : fewer ≤ ticks) (g : Generator γ) : g.textOf fewer <+: g.textOf ticks :=
  Trace.text_prefix (samplesOf_isPrefix h g)

theorem traceText_eq (g : Generator γ) : g.traceText = g.textOf g.remaining := (run_unlimited g).1

/-- The buffer once the header is in it. -/
def opened (room : Nat) : BufferedSink := ((ofSink (.limited room)).put (Trace.header ++ "\n")).1

theorem length_header_le : (Trace.header ++ (("\n" : String) : Bytes)).length ≤ blockSize := by decide +kernel

/-- A new buffer takes a text that fits into a block. -/
theorem put_ofSink {text : Bytes} (h : text.length ≤ blockSize) (room : Nat) :
    ((ofSink (.limited room)).put text).2 = true := by
  rw [BufferedSink.put, if_pos (by simpa [ofSink] using h)]

theorem put_header (room : Nat) : (ofSink (.limited room)).put (Trace.header ++ "\n") = (opened room, true) :=
  Prod.ext rfl (put_ofSink length_header_le room)

theorem opened_within (room : Nat) :
    (opened room).Within room ∧ (opened room).Aligned ∧ (opened room).written = Trace.header ++ "\n" := by
  have htaken := put_ofSink length_header_le room
  obtain ⟨hwithin, hwritten⟩ := ((within_ofSink room).put (Trace.header ++ "\n")).accepted htaken
  obtain ⟨-, haligned⟩ := (within_ofSink room).put_iff (aligned_ofSink room) length_header_le
  exact ⟨hwithin, haligned htaken, hwritten⟩

theorem run_refused {g last : Generator γ} {room : Nat} {b : BufferedSink} {failure : WriteFailure}
    (h : runSteps g.remaining (opened room) g = (b, last, some failure)) :
    g.run (.limited room) = (b.sink, last, some failure) := by
  unfold run
  rw [put_header]
  dsimp only
  rw [h]

theorem run_complete {g last : Generator γ} {room : Nat} {b : BufferedSink}
    (h : runSteps g.remaining (opened room) g = (b, last, none)) :
    g.run (.limited room) = (b.flush.1.sink, last, if b.flush.2 then none else some .flush) := by
  unfold run
  rw [put_header]
  dsimp only
  rw [h]
  dsimp only
  rcases b.flush with ⟨emptied, _ | _⟩ <;> rfl

/-- How a run ends after a number of ticks: with nothing left, or with a line refused in the last of them. -/
inductive Ends (g : Generator γ) : Nat → Option WriteFailure → Prop where
  | complete : Ends g g.remaining none
  | flushing : Ends g g.remaining (some .flush)
  | ticking {ticks : Nat} (left : ticks < g.remaining) : Ends g (ticks + 1) (some (.sample (g.tick + ticks)))

/-- The lines of a number of ticks are taken as long as they end within reach. -/
theorem putSamples_opened_iff {g : Generator γ} (hlines : ∀ s ∈ g.samples, s.line.length < blockSize) (room : Nat)
    {ticks : Nat} (hticks : ticks ≤ g.remaining) :
    (putSamples (opened room) (g.samplesOf ticks)).2 = true ↔ (g.textOf ticks).length ≤ reach room := by
  obtain ⟨hwithin, haligned, hwritten⟩ := opened_within room
  have hheader : (opened room).written.length ≤ reach room := by
    have hblock : (Trace.header ++ (("\n" : String) : Bytes)).length ≤ blockSize := by decide +kernel
    rw [hwritten]
    exact hblock.trans (Nat.le_mul_of_pos_right _ (Nat.succ_pos _))
  rw [putSamples_iff hwithin haligned (fun s hs => hlines s ((samplesOf_isPrefix hticks g).subset hs)) hheader, hwritten]
  rfl

/-- A sink of limited room holds the beginning of the trace for which it has room, and the run reports a failure just
if that is not all of it. The counts are those of the ticks simulated until then, the last of which is the one whose
line was refused. As long as lines are shorter than a block, that is the first tick that leads beyond the end of the
block that does not fit. -/
theorem full_sink_holds_beginning (g : Generator γ) (room : Nat) :
    let outcome := g.run (.limited room)
    outcome.1.toBytes = g.traceText.take room ∧ (outcome.2.2 = none ↔ g.traceText.length ≤ room) ∧
      ∃ ticks ≤ g.remaining, outcome.2.1 = (steps ticks [] g).2 ∧ Ends g ticks outcome.2.2 ∧
        outcome.2.1.stats = ⟨g.stats.ticks + Int64.ofNat ticks, g.stats.samples + Int64.ofNat (g.samplesOf ticks).length,
          g.stats.reshuffles + Int64.ofNat ((steps ticks [] g).1.countP StepResult.reshuffled)⟩ ∧
        ((∀ s ∈ g.samples, s.line.length < blockSize) →
          (∀ fewer < ticks, (g.textOf fewer).length ≤ reach room) ∧
          ((∃ tick, outcome.2.2 = some (.sample tick)) ↔ reach room < (g.textOf ticks).length)) := by
  intro outcome
  obtain ⟨hwithin, -, hwritten⟩ := opened_within room
  obtain ⟨ticks, hticks, hbuffer, hlast, hbefore, hend⟩ := runSteps_outcome (g := g) le_rfl (opened room)
  have hstored := putSamples_stored hwithin (g.samplesOf ticks)
  have htext : (opened room).written ++ Trace.body (g.samplesOf ticks) = g.textOf ticks := by
    rw [hwritten]
    rfl
  rw [htext] at hstored
  have hearlier (hlines : ∀ s ∈ g.samples, s.line.length < blockSize) :
      ∀ fewer < ticks, (g.textOf fewer).length ≤ reach room := fun fewer hfewer =>
    (putSamples_opened_iff hlines room (hfewer.le.trans hticks)).mp (hbefore fewer hfewer)
  rcases hsteps : runSteps g.remaining (opened room) g with ⟨b, last, failure⟩
  rw [hsteps] at hbuffer hlast hend
  dsimp only at hbuffer hlast hend
  subst hlast
  cases failure with
  | some failure =>
      -- The sink is full of what comes before the refused line, which the rest of the trace does not change.
      obtain ⟨hsome, rfl, hrefused⟩ := hend
      obtain ⟨hbytes, hlength⟩ := hstored.refused hrefused
      obtain ⟨more, hmore⟩ := textOf_isPrefix hticks g
      have hrun : outcome = (b.sink, (steps ticks [] g).2, some (.sample (g.tick + ticks - 1))) := run_refused hsteps
      rw [hrun, traceText_eq, ← hmore, List.take_append_of_le_length hlength.le, hbuffer]
      refine ⟨hbytes, iff_of_false (Option.some_ne_none _) ?_, ticks, hticks, rfl, ?_, steps_counts hticks, fun hlines => ?_⟩
      · rw [List.length_append]
        omega
      · obtain ⟨before, rfl⟩ := Nat.exists_eq_succ_of_ne_zero hsome.ne'
        exact .ticking hticks
      · refine ⟨hearlier hlines, iff_of_true ⟨_, rfl⟩ (Nat.lt_of_not_le fun hreach => ?_)⟩
        rw [(putSamples_opened_iff hlines room hticks).mpr hreach] at hrefused
        cases hrefused
  | none =>
      obtain ⟨rfl, htaken⟩ := hend
      obtain ⟨hfilled, hall⟩ := hstored.accepted htaken
      rw [← hbuffer] at hfilled hall
      obtain ⟨hflushed, hbytes⟩ := hfilled.flush
      have hrun : outcome = (b.flush.1.sink, (steps g.remaining [] g).2, if b.flush.2 then none else some .flush) :=
        run_complete hsteps
      rw [hall, ← traceText_eq] at hflushed hbytes
      rw [hrun]
      refine ⟨hbytes, ?_, g.remaining, le_rfl, rfl, ?_, steps_counts le_rfl, fun hlines => ⟨hearlier hlines, ?_⟩⟩
      · rw [← hflushed]
        cases b.flush.2 <;> simp
      · cases b.flush.2
        · exact .flushing
        · exact .complete
      · refine iff_of_false ?_ (Nat.not_lt.mpr ((putSamples_opened_iff hlines room le_rfl).mp htaken))
        rintro ⟨tick, htick⟩
        cases hflush : b.flush.2 <;> simp [hflush] at htick

end Generator

end MobilitySweep
