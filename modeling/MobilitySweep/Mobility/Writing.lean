import MobilitySweep.Mobility.Generator
import MobilitySweep.Mobility.Trace

/-! # Writing traces

The trace of a generator goes through a buffer into a sink that may be full. Output reaches the sink
in blocks, so a full sink shows only when a block is passed on; the sink then holds what still fitted.
-/

namespace MobilitySweep

/-- A store of bytes that takes a limited amount, or any amount. The content is kept in reverse. -/
structure Sink where
  room : Option Nat
  content : Bytes
deriving DecidableEq, Repr, Inhabited

namespace Sink

/-- A sink without limit. -/
def unlimited : Sink := ⟨none, []⟩

/-- A sink for so many bytes. -/
def limited (room : Nat) : Sink := ⟨some room, []⟩

/-- The bytes the sink has taken. -/
def toBytes (s : Sink) : Bytes := s.content.reverse

/-- Bytes, given in reverse, offered to the sink: whether all were taken. -/
def write (s : Sink) (block : Bytes) : Sink × Bool :=
  match s.room with
  | none => ({ s with content := block ++ s.content }, true)
  | some room =>
    if block.length ≤ room then (⟨some (room - block.length), block ++ s.content⟩, true)
    else (⟨some 0, block.drop (block.length - room) ++ s.content⟩, false)

end Sink

/-- A sink behind a buffer; the pending bytes are kept in reverse. -/
structure BufferedSink where
  sink : Sink
  pending : Bytes
  count : Nat
deriving DecidableEq, Repr, Inhabited

namespace BufferedSink

/-- The size of a block. -/
def blockSize : Nat := 4096

/-- An empty buffer in front of a sink. -/
def ofSink (sink : Sink) : BufferedSink := ⟨sink, [], 0⟩

/-- The pending bytes passed on: whether the sink took them. -/
def flush (b : BufferedSink) : BufferedSink × Bool :=
  if b.count = 0 then (b, true)
  else
    let (sink, taken) := b.sink.write b.pending
    (⟨sink, [], 0⟩, taken)

/-- A text put into the buffer, which is passed on when the text does not fit behind what is pending:
whether nothing was refused. Texts are shorter than a block. -/
def put (b : BufferedSink) (text : Bytes) : BufferedSink × Bool :=
  if b.count + text.length ≤ blockSize then
    (⟨b.sink, text.reverse ++ b.pending, b.count + text.length⟩, true)
  else
    let head := blockSize - b.count
    let (sink, taken) := b.sink.write ((text.take head).reverse ++ b.pending)
    (⟨sink, (text.drop head).reverse, text.length - head⟩, taken)

end BufferedSink

namespace Generator

/-- Where writing a trace was refused. -/
inductive WriteFailure where
  | header
  | sample (tick : Nat)
  | flush
deriving DecidableEq, Repr

/-- The wording of a refused write. -/
def WriteFailure.message (reason : Bytes) : WriteFailure → Bytes
  | header => "writing header: " ++ reason
  | sample tick => "writing sample at tick " ++ Decimal.ofNat tick ++ ": " ++ reason
  | flush => "flushing trace: " ++ reason

/-- Sample lines put into the buffer, up to the first refusal. -/
def putSamples : BufferedSink → List Sample → BufferedSink × Bool
  | b, [] => (b, true)
  | b, sample :: rest =>
    match b.put (sample.line ++ "\n") with
    | (b, true) => putSamples b rest
    | (b, false) => (b, false)

section

variable {γ : Type} [DrawSource γ]

/-- The remaining ticks simulated and their samples written, up to the first refusal. -/
def runSteps : Nat → BufferedSink → Generator γ → BufferedSink × Generator γ × Option WriteFailure
  | 0, b, g => (b, g, none)
  | count + 1, b, g =>
    match g.step with
    | none => (b, g, none)
    | some (result, next) =>
      match putSamples b result.samples with
      | (b, true) => runSteps count b next
      | (b, false) => (b, next, some (.sample result.tick))

/-- The header and the remaining ticks written to a sink. -/
def run (g : Generator γ) (sink : Sink) : Sink × Generator γ × Option WriteFailure :=
  match (BufferedSink.ofSink sink).put (Trace.header ++ "\n") with
  | (b, false) => (b.sink, g, some .header)
  | (b, true) =>
    match runSteps g.remaining b g with
    | (b, g, some failure) => (b.sink, g, some failure)
    | (b, g, none) =>
      match b.flush with
      | (b, true) => (b.sink, g, none)
      | (b, false) => (b.sink, g, some .flush)

/-- The trace that a generator still has to write. -/
def traceText (g : Generator γ) : Bytes := (g.run .unlimited).1.toBytes

end

end Generator

end MobilitySweep
