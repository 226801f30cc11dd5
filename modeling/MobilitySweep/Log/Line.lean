import MobilitySweep.Number.Decimal
import MobilitySweep.Number.Reading
import MobilitySweep.Number.Shortest
import MobilitySweep.Text.Json
import MobilitySweep.Text.Utf8
import MobilitySweep.Time.Duration
import MobilitySweep.Time.Instant

/-! # The operational log

Levels of detail, and the lines that are written at them.
-/

namespace MobilitySweep

/-! ## Log levels

Severities are integers with named steps of four. The names accepted in settings select a threshold;
an unknown name selects the threshold for normal operation.
-/

namespace Log

/-- A severity. -/
abbrev Level := Int

namespace Level

def trace : Level := -8
def debug : Level := -4
def info : Level := 0
def warn : Level := 4
def error : Level := 8

/-- A level as a name and the distance to it. -/
def relative (name : Bytes) (offset : Int) : Bytes :=
  if offset = 0 then name
  else if 0 < offset then name ++ "+" ++ Decimal.ofInt offset
  else name ++ Decimal.ofInt offset

/-- The text of a level: the trace level by its name, every other relative to the named level below
it, or to the lowest one. -/
def toText (level : Level) : Bytes :=
  if level = trace then "TRACE"
  else if level < info then relative "DEBUG" (level - debug)
  else if level < warn then relative "INFO" (level - info)
  else if level < error then relative "WARN" (level - warn)
  else relative "ERROR" (level - error)

/-- The threshold a name stands for. -/
def ofName (name : Bytes) : Level :=
  let lower := Bytes.lowerCharacters name
  if lower = "debug".toList then debug
  else if lower = "trace".toList then trace
  else info

/-- Whether a name stands for a level; no name at all means the default. -/
def isName (name : Bytes) : Bool :=
  let lower := Bytes.lowerCharacters name
  lower = [] || lower = "info".toList || lower = "debug".toList || lower = "trace".toList

end Level

end Log

/-! ## Log values and lines

The values that records carry: the simple ones as such, and lists and records of values by the text that
shows them.
-/

namespace Log

/-- A value attached to a record. -/
inductive Value where
  | absent
  | bool (value : Bool)
  | int (value : Int)
  | float (value : Binary64)
  | text (value : Bytes)
  | duration (value : Duration)
  | shown (text : Bytes)
deriving DecidableEq, Repr, Inhabited

namespace Value

mutual

/-- The text that shows a value; the fields of a record stand in the order given. -/
def display : Json → Bytes
  | .null => "<nil>"
  | .bool true => "true"
  | .bool false => "false"
  | .number digits => digits
  | .text value => value
  | .list items => "[" ++ Bytes.joinWith " " (displayItems items) ++ "]"
  | .object fields => "map[" ++ Bytes.joinWith " " (displayFields fields) ++ "]"

/-- The texts that show the items of a list. -/
def displayItems : List Json → List Bytes
  | [] => []
  | item :: rest => display item :: displayItems rest

/-- The texts that show the fields of a record. -/
def displayFields : List (Bytes × Json) → List Bytes
  | [] => []
  | (name, value) :: rest => (name ++ ":" ++ display value) :: displayFields rest

end

/-- The value of a numeral: an integer if 64 bits hold it. -/
def ofNumeral (digits : Bytes) : Value :=
  match Decimal.read digits with
  | .ok n => .int n.toInt
  | .error _ =>
    match Reading.read digits with
    | .ok x => .float x
    | .error _ => .shown digits

/-- A JSON value as a value of a record. -/
def ofJson : Json → Value
  | .null => .absent
  | .bool b => .bool b
  | .number digits => ofNumeral digits
  | .text t => .text t
  | value => .shown (display value.ordered)

end Value

end Log

/-! ## Log lines

A record has a severity, a message and named values. Its line is a sequence of key and value pairs in
which every text that could be misread is quoted.
-/

namespace Log

/-- A record before it is written. -/
structure Record where
  level : Level
  message : Bytes
  attributes : List (Bytes × Value)
deriving DecidableEq, Repr, Inhabited

namespace Line

/-- Whether a glyph keeps a text from standing without quotes. -/
def needsQuotes : Glyph → Bool
  | .stray _ => true
  | .char c =>
    let n := c.toNat
    if n < 0x80 then n < 0x20 || c = ' ' || c = '=' || c = '"'
    else n = 0xFFFD || Blank.isBlank c || !Printable.isPrintable c

/-- A text, quoted if it is empty or some glyph asks for it. -/
def text (value : Bytes) : Bytes :=
  if value.isEmpty || (Utf8.decode value).any needsQuotes then Quoted.quote value else value

/-- A value. -/
def value : Value → Bytes
  | .absent => "<nil>"
  | .bool true => "true"
  | .bool false => "false"
  | .int n => Decimal.ofInt n
  | .float x => Shortest.general x
  | .text t => text t
  | .duration d => d.toText
  | .shown t => text t

/-- An attribute with a blank before it; one without name and value is left out. -/
def pair : Bytes × Value → Bytes
  | ([], .absent) => []
  | (key, v) => " " ++ text key ++ "=" ++ value v

end Line

/-- The line of a record from its level on, without line end. -/
def Record.line (r : Record) : Bytes :=
  "level=" ++ Line.text r.level.toText ++ " msg=" ++ Line.text r.message ++
    r.attributes.flatMap Line.pair

/-- The line of a record that was made at a time. -/
def Record.stamped (time : Instant) (r : Record) : Bytes := "time=" ++ time.logStamp ++ " " ++ r.line

/-- The key of a value that came without one. -/
def missingKey : Bytes := "!BADKEY"

/-- Alternating keys and values as attributes: a value where a key should stand, and a key without a
value, are kept under a key of their own. -/
def attributesOf : List Value → List (Bytes × Value)
  | .text key :: v :: rest => (key, v) :: attributesOf rest
  | v :: rest => (missingKey, v) :: attributesOf rest
  | [] => []

/-- A logger: a threshold and attributes that every record carries. -/
structure Logger where
  threshold : Level
  attributes : List (Bytes × Value)
deriving DecidableEq, Repr, Inhabited

namespace Logger

/-- A logger for a level name. -/
def ofName (name : Bytes) : Logger := ⟨Level.ofName name, []⟩

/-- The logger whose records carry one more attribute. -/
def carrying (l : Logger) (key : Bytes) (v : Value) : Logger :=
  { l with attributes := l.attributes ++ [(key, v)] }

/-- The record of a call, if its level reaches the threshold. -/
def record? (l : Logger) (level : Level) (message : Bytes) (attributes : List (Bytes × Value)) :
    Option Record :=
  if l.threshold ≤ level then some ⟨level, message, l.attributes ++ attributes⟩ else none

end Logger

end Log

end MobilitySweep
