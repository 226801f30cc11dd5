import MobilitySweep.Files.Operations
import MobilitySweep.Log.Line
import MobilitySweep.Text.Json
import MobilitySweep.Time.Instant

/-! # Sweep events

What happens in a sweep as lines of JSON, appended to a file in the results directory. The file is kept
only when the log level asks for more than normal operation.
-/

namespace MobilitySweep

/-- Something that happened. -/
structure Event where
  time : Instant
  kind : Bytes
  sweepId : Bytes
  runId : Bytes
  fields : List (Bytes × Json)

namespace Event

/-- The name of the event file. -/
def fileName : Bytes := "events.jsonl"

/-- The fields of the record of an event, whose time is written as given. What is empty is left out. -/
def record (e : Event) (time : Bytes) : List (Bytes × Json) :=
  let fields := match Json.ordered (.object e.fields) with
    | .object [] => []
    | fields => [(("fields" : Bytes), fields)]
  [(("time" : Bytes), Json.text time), ("event", .text e.kind)] ++ Json.optionalText "sweep_id" e.sweepId ++
    Json.optionalText "run_id" e.runId ++ fields

/-- The line of an event. A moment without exchange form makes no line, and neither do fields that cannot be
written. -/
def line? (e : Event) : Option Bytes :=
  if Json.haveEncodable e.fields then e.time.exchange?.map fun time => (Json.object (e.record time)).render ++ "\n"
  else none

end Event

/-- An event log: where its lines go, the sweep it is about, its clock, and the lines that it has written, latest
first. -/
structure EventLog where
  path : Bytes
  sweepId : Bytes
  isOpen : Bool
  clock : Clock
  lines : List Bytes
deriving DecidableEq, Repr, Inhabited

namespace EventLog

/-- An event log opened in a directory, which is created on demand. There is none at the normal level
or when the file cannot be opened. -/
def create (files : Files) (directory level sweepId : Bytes) (clock : Clock) : Files × Option EventLog :=
  -- Nothing is kept at the normal level, so that a plain sweep leaves no file behind.
  if Log.Level.ofName level = Log.Level.info then (files, none)
  else
    match files.mkdirAll directory with
    | (files, some _) => (files, none)
    | (files, none) =>
      let path := Path.join [directory, Event.fileName]
      match files.openAppend path with
      | (files, some _) => (files, none)
      | (files, none) => (files, some ⟨path, sweepId, true, clock, []⟩)

/-- The line of an event in a log. There is none in a closed one. -/
def line? (l : EventLog) (kind runId : Bytes) (fields : List (Bytes × Json)) : Option Bytes :=
  if l.isOpen then Event.line? ⟨l.clock.next, kind, l.sweepId, runId, fields⟩ else none

/-- The log once it was told an event. An open one has read its clock. -/
def told (l : EventLog) (kind runId : Bytes) (fields : List (Bytes × Json)) : EventLog :=
  if l.isOpen then
    { l with clock := l.clock.read.2, lines := (l.line? kind runId fields).toList ++ l.lines }
  else l

/-- An event written: its line is at once behind what the file holds. -/
def log (l : EventLog) (kind runId : Bytes) (fields : List (Bytes × Json)) (files : Files) : Files × EventLog :=
  match l.line? kind runId fields with
  | some line => (files.append l.path line, l.told kind runId fields)
  | none => (files, l.told kind runId fields)

/-- The log closed. -/
def close (l : EventLog) : EventLog := { l with isOpen := false }

end EventLog

end MobilitySweep
