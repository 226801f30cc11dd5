import MobilitySweep.Fault
import MobilitySweep.Number.Shortest
import MobilitySweep.Number.Reading
import MobilitySweep.Text.Utf8

/-! # Samples and traces

One recorded position of one node and its line in a trace: the node index, the time with two decimal
places and the coordinates with six.
-/

namespace MobilitySweep

/-- A recorded position. -/
structure Sample where
  node : Int64
  time : Binary64
  x : Binary64
  y : Binary64
deriving DecidableEq, Repr, Inhabited

namespace Sample

/-- The trace line of a sample, without line end. -/
def line (s : Sample) : Bytes :=
  Decimal.ofInt64 s.node ++ " " ++ Fixed.render 2 s.time ++ " " ++ Fixed.render 6 s.x ++ " " ++
    Fixed.render 6 s.y

/-- Why a trace line is refused. -/
inductive Malformed where
  | fieldCount (count : Nat)
  | nodeIndex (field : Bytes) (cause : NumeralFault)
  | number (position : Nat) (field : Bytes) (cause : NumeralFault)
deriving DecidableEq, Repr

/-- The wording of a refusal. -/
def Malformed.message : Malformed → Bytes
  | fieldCount count => "expected 4 fields, got " ++ Decimal.ofNat count
  | nodeIndex field cause => "parsing node index: " ++ cause.report "Atoi" field
  | number position field cause =>
    "parsing field " ++ Decimal.ofNat position ++ ": " ++ cause.report "ParseFloat" field

/-- The number in a field. -/
def readNumber (position : Nat) (field : Bytes) : Except Malformed Binary64 :=
  (Reading.read field).mapError (.number position field)

/-- A sample read from a trace line; fields are divided by white space. -/
def read (text : Bytes) : Except Malformed Sample :=
  match Blank.words text with
  | [node, time, x, y] => do
    let node ← (Decimal.read node).mapError (.nodeIndex node)
    let time ← readNumber 2 time
    let x ← readNumber 3 x
    let y ← readNumber 4 y
    return ⟨node, time, x, y⟩
  | fields => .error (.fieldCount fields.length)

end Sample

/-! ## Traces

A trace is a header line followed by one line per sample. Reading skips blank lines and comments and
names the first line that is no sample.
-/

namespace Trace

/-- The first line of every trace, by which consumers recognise the format. -/
def header : Bytes := "# FAKE-COW TRACES GENERATOR 1.0 by Marco Cattani"

/-- The longest line a reader takes, without its line end. -/
def lineLimit : Nat := 65535

/-- Why a trace is refused. -/
inductive Unreadable where
  | line (number : Nat) (cause : Sample.Malformed)
  | lineTooLong
deriving DecidableEq, Repr

/-- The wording of a refusal. -/
def Unreadable.message : Unreadable → Bytes
  | line number cause => "line " ++ Decimal.ofNat number ++ ": " ++ cause.message
  | lineTooLong => "reading trace: bufio.Scanner: token too long"

/-- The lines of a text: line ends are not part of them, and a text that ends with a line end has no
further empty line. -/
def lines (text : Bytes) : List Bytes :=
  match (Bytes.splitOn '\n' text).reverse with
  | [] :: rest => rest.reverse
  | all => all.reverse

/-- What a line contributes: nothing if it is blank or a comment. -/
def readLine (text : Bytes) : Except Sample.Malformed (Option Sample) :=
  let body := Blank.trim text
  match body with
  | [] => .ok none
  | b :: _ => if b = '#' then .ok none else (Sample.read body).map some

/-- The samples of lines numbered from the given number on, those so far in reverse. -/
def readLines : Nat → List Sample → List Bytes → Except Unreadable (List Sample)
  | _, found, [] => .ok found.reverse
  | number, found, text :: rest =>
    if lineLimit < text.length then .error .lineTooLong
    else match readLine text with
      | .error cause => .error (.line number cause)
      | .ok none => readLines (number + 1) found rest
      | .ok (some sample) => readLines (number + 1) (sample :: found) rest

/-- The samples of a trace. -/
def read (text : Bytes) : Except Unreadable (List Sample) := readLines 1 [] (lines text)

end Trace

end MobilitySweep
