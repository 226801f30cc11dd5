import MobilitySweep.Shell.Launching
import MobilitySweep.Shell.Records.Token
import MobilitySweep.Shell.Records.Value

/-! # Arrays and state of a record script

An array keeps values under texts. Its subscripts are listed by a digest of them; of those that share a
shelf the one used last comes first.
-/

namespace MobilitySweep

namespace Shell

namespace Records

/-- An array: its entries, those used last first. -/
structure Table where
  entries : List (Bytes × Value)
deriving Repr, Inhabited

namespace Table

/-- An array without entries. -/
def empty : Table := ⟨[]⟩

/-- How many entries an array has. -/
def size (t : Table) : Nat := t.entries.length

/-- The value under a subscript. -/
def get? (t : Table) (key : Bytes) : Option Value := (t.entries.find? (·.1 = key)).map (·.2)

/-- A value put under a subscript. -/
def insert (t : Table) (key : Bytes) (value : Value) : Table :=
  ⟨(key, value) :: t.entries.filter (·.1 ≠ key)⟩

/-- A subscript removed. -/
def erase (t : Table) (key : Bytes) : Table := ⟨t.entries.filter (·.1 ≠ key)⟩

/-- The values of a list under their numbers, from one on. -/
def ofList (values : List Value) : Table :=
  ⟨(values.zipIdx.map fun (value, place) => (Decimal.ofNat (place + 1), value)).reverse⟩

/-- The digest of a subscript. -/
def digest (key : Bytes) : UInt32 := key.foldl (fun h b => (h ^^^ b.toUInt32) * 16777619) 2166136261

/-- How many shelves an array has. -/
def shelves : Nat := 64

/-- The subscripts in the order of their shelves. -/
def keys (t : Table) : List Bytes :=
  let placed := t.entries.map fun (key, _) => ((digest key).toNat % shelves, key)
  (List.range shelves).flatMap fun shelf => (placed.filter (·.1 = shelf)).map (·.2)

theorem get?_insert_self (t : Table) (key : Bytes) (value : Value) : (t.insert key value).get? key = some value := by
  simp [get?, insert]

end Table

end Records

end Shell

/-! ## The state of a record script

Names stand for values and arrays, those of the function at work before those of the script. The record
is cut into fields when it is read; fields that are changed make a new record. What is written waits until
a command is started or the script ends.
-/

namespace Shell

namespace Records

/-- What a name stands for: a value, and the number of an array once there is one. -/
structure Slot where
  value : Value
  array : Option Nat
deriving Repr, Inhabited

/-- A file or command that is written to, and what waits for it. -/
structure Sink where
  name : Bytes
  isPipe : Bool
  waiting : Bytes
deriving Repr

/-- Whether a sink is the one of a name. -/
def Sink.isFor (s : Sink) (name : Bytes) (isPipe : Bool) : Bool := s.name = name && s.isPipe = isPipe

/-- A sink for which nothing waits. -/
def Sink.emptied (s : Sink) : Sink := { s with waiting := [] }

/-- A file or command that is read from: what is left of it, and the status of the command. -/
structure Spring where
  name : Bytes
  isPipe : Bool
  rest : Bytes
  status : Nat
deriving Repr

/-- The state: names of the script and of the function at work, arrays by number, the record and its fields,
what waits for the output, what is written to and read from, the operand in turn, what is left of the
current input, whether any operand was an input, the ranges under way, and the status at the end. -/
structure Machine where
  globals : List (Bytes × Slot)
  locals : List (Bytes × Slot)
  tables : List (Nat × Table)
  record : Bytes
  fields : List Value
  output : Bytes
  sinks : List Sink
  springs : List Spring
  operand : Nat
  current : Option Bytes
  hasInput : Bool
  ranges : List Nat
  status : Nat
deriving Repr

/-- What leaves the usual order. -/
inductive Leap where
  | leave
  | resume
  | next
  | nextFile
  | exit
  | comeBack (value : Value)
  | fatal (message : Bytes)
deriving Repr

/-- A step of a script: it changes the state and acts on the process. -/
abbrev Step := ExceptT Leap (StateT Machine Act)

namespace Machine

/-- What a name stands for. -/
def slot (m : Machine) (name : Bytes) : Slot :=
  match m.locals.find? (·.1 = name) with
  | some (_, found) => found
  | none => ((m.globals.find? (·.1 = name)).map (·.2)).getD ⟨.unset, none⟩

/-- A name given another meaning. -/
def withSlot (m : Machine) (name : Bytes) (found : Slot) : Machine :=
  if m.locals.any (·.1 = name) then
    { m with locals := m.locals.map fun entry => if entry.1 = name then (name, found) else entry }
  else { m with globals := (name, found) :: m.globals.filter (·.1 ≠ name) }

/-- The value of a name; one of them counts the fields. -/
def valueOf (m : Machine) (name : Bytes) : Value :=
  if name = "NF" then .number (.ofInt m.fields.length) else (m.slot name).value

/-- The value of a name as a text. -/
def textOf (m : Machine) (name : Bytes) : Bytes := (m.valueOf name).toText "%.6g"

/-- How numbers become texts. -/
def convert (m : Machine) : Bytes := m.textOf "CONVFMT"

/-- The number of the array of a name, which comes into being if it has to. -/
def arrayOf (m : Machine) (name : Bytes) : Nat × Machine :=
  let found := m.slot name
  match found.array with
  | some number => (number, m)
  | none =>
    let number := m.tables.length
    (number, { m with tables := (number, .empty) :: m.tables }.withSlot name { found with array := some number })

/-- An array by its number. -/
def table (m : Machine) (number : Nat) : Table := ((m.tables.find? (·.1 = number)).map (·.2)).getD .empty

/-- An array replaced. -/
def withTable (m : Machine) (number : Nat) (found : Table) : Machine :=
  { m with tables := m.tables.map fun entry => if entry.1 = number then (number, found) else entry }

/-- The record that the fields make. -/
def joined (m : Machine) : Machine :=
  let convert := m.convert
  { m with record := Bytes.joinWith (m.textOf "OFS") (m.fields.map fun (field : Value) => field.toText convert) }

/-- A field changed; those before it come into being. -/
def withField (m : Machine) (index : Nat) (value : Value) : Machine :=
  let missing := index - m.fields.length
  let fields := m.fields ++ List.replicate missing (Value.text [])
  { m with fields := fields.set (index - 1) value }.joined

/-- The number of fields changed. -/
def withCount (m : Machine) (count : Nat) : Machine :=
  let missing := count - m.fields.length
  { m with fields := (m.fields ++ List.replicate missing (Value.text [])).take count }.joined

/-- A name given a value. The number of fields makes a new record. -/
def assigned (m : Machine) (name : Bytes) (value : Value) : Machine :=
  if name = "NF" then m.withCount value.toNumber.toInt.toNat
  else m.withSlot name { m.slot name with value := value }

/-- A number under a name that goes up by one. -/
def counted (m : Machine) (name : Bytes) : Machine :=
  m.assigned name (.number ((m.valueOf name).toNumber.add (.ofInt 1)))

end Machine

/-- What divides fields or records. -/
inductive Divider where
  | blanks
  | everywhere
  | byte (b : UInt8)
  | pattern (matcher : Matcher)
deriving Repr

/-- A text divided wherever an expression matches something. -/
def dividedBy (matcher : Matcher) (text : Bytes) : List Bytes :=
  let found := (matcher.occurrences text).filter fun o => !o.text.isEmpty
  let (done, rest) := found.foldl (fun (done, rest) o =>
    (rest.take (rest.length - o.start.rest.length) :: done, o.finish.rest)) (([] : List Bytes), text)
  (rest :: done).reverse

/-- A text divided at blanks. -/
def words (text : Bytes) : List Bytes :=
  (Bytes.splitOn 32 (text.map fun b => if b = 9 || b = 10 then 32 else b)).filter (!·.isEmpty)

/-- The pieces of a text. -/
def Divider.pieces (d : Divider) (text : Bytes) : List Bytes :=
  if text.isEmpty then []
  else
    match d with
    | .blanks => words text
    | .everywhere => text.map fun b => [b]
    | .byte b => Bytes.splitOn b text
    | .pattern matcher => dividedBy matcher text

/-- The next record of a text and what is left, where an expression ends records. -/
def recordUpTo (matcher : Matcher) (text : Bytes) : Bytes × Bytes :=
  match (matcher.occurrences text).find? fun o => !o.text.isEmpty with
  | some o => (text.take (text.length - o.start.rest.length), o.finish.rest)
  | none => (text, [])

/-- The paragraph at the start of a text and what is left behind the empty lines that end it. -/
def paragraph : Bytes → Bytes → Bytes × Bytes
  | done, [] => (done.reverse, [])
  | done, [10] => (done.reverse, [])
  | done, b :: c :: rest =>
    if b = 10 && c = 10 then (done.reverse, rest.dropWhile (· = 10)) else paragraph (b :: done) (c :: rest)
  | done, [b] => ((b :: done).reverse, [])

namespace Step

/-- An activity of the process as a step. -/
def act {α : Type} (activity : Act α) : Step α := ExceptT.lift (StateT.lift activity)

/-- A failure that ends the script, with where the input is. -/
def fail {α : Type} (message : Bytes) : Step α := do
  let m ← get
  throw (.fatal ("awk: run time error: " ++ message ++ "\n\tFILENAME=\"" ++ m.textOf "FILENAME" ++ "\" FNR=" ++
    m.textOf "FNR" ++ " NR=" ++ m.textOf "NR"))

/-- An expression made from a text. -/
def matcherOf (source : Bytes) : Step Matcher := do
  match readPattern source with
  | .ok matcher => pure matcher
  | .error reason => fail ("regular expression compile failed (" ++ reason ++ ")\n" ++ source)

/-- What a text divides fields by. -/
def dividerOf (text : Bytes) : Step Divider := do
  match text with
  | [32] => pure .blanks
  | [] => pure .everywhere
  | [b] => pure (.byte b)
  | _ => pure (.pattern (← matcherOf text))

/-- The record replaced and cut into fields. -/
def setRecord (record : Bytes) : Step Unit := do
  let divider ← dividerOf ((← get).textOf "FS")
  modify fun m => { m with record := record, fields := (divider.pieces record).map .ofInput }

/-- The next record of a text and what is left; none at its end. -/
def cutRecord (text : Bytes) : Step (Option (Bytes × Bytes)) := do
  match (← get).textOf "RS" with
  | [] =>
    let text := text.dropWhile (· = 10)
    pure (if text.isEmpty then none else some (paragraph [] text))
  | [b] =>
    let record := text.takeWhile (· ≠ b)
    pure (if text.isEmpty then none else some (record, text.drop (record.length + 1)))
  | source =>
    let matcher ← matcherOf source
    pure (if text.isEmpty then none else some (recordUpTo matcher text))

/-- What waits for files and for the output written. -/
def flush : Step Unit := do
  let m ← get
  for sink in m.sinks.reverse do
    if !sink.isPipe then
      act do
        if sink.name = "/dev/stderr" then Act.write 2 sink.waiting
        else modify fun p => { p with files := p.files.append sink.name sink.waiting }
  act (Act.put m.output)
  set { m with output := [], sinks := m.sinks.map fun (s : Sink) => if s.isPipe then s else s.emptied }

/-- A command line run. -/
def command (l : Launcher) (text : Bytes) : Act Nat := l.start "sh" ["-c", text]

/-- A command line run on what waits for it. -/
def feed (l : Launcher) (sink : Sink) : Step Nat :=
  act (Act.restoring (fun before after => { after with channels := before.channels }) do
    modify fun p =>
      let (p, channel) := p.withStream sink.waiting
      p.withChannel 0 (some channel)
    command l sink.name)

/-- All commands run that are written to, then all the rest written. -/
def finish (l : Launcher) : Step Unit := do
  for sink in (← get).sinks do
    if sink.isPipe then
      let _ ← feed l sink
  modify fun m => { m with sinks := m.sinks.filter (!·.isPipe) }
  flush

/-- Text for the output. -/
def put (text : Bytes) : Step Unit := modify fun m => { m with output := m.output ++ text }

/-- Text for a file or command, which is opened at first. -/
def send (name : Bytes) (isPipe appends : Bool) (text : Bytes) : Step Unit := do
  if !isPipe && name = "/dev/stdout" then put text
  else
    let m ← get
    match m.sinks.find? (·.isFor name isPipe) with
    | some sink =>
      let others := m.sinks.filter (!·.isFor name isPipe)
      set { m with sinks := { sink with waiting := sink.waiting ++ text } :: others }
    | none =>
      if isPipe then flush
      else if name ≠ "/dev/stderr" && name ≠ "/dev/null" then
        let files := (← act get).files
        let (after, fault) := if appends then files.openAppend name else files.create name
        match fault with
        | none => act (modify fun p => { p with files := after })
        | some _ =>
          let cause : Files.Cause := match files.writablePlace name with
            | .error cause => cause
            | .ok _ => .missing
          throw (.fatal ("awk: cannot open \"" ++ name ++ "\" for output (" ++ reasonOf cause ++ ")"))
      modify fun m => { m with sinks := ⟨name, isPipe, text⟩ :: m.sinks }
  if !isPipe && (name = "/dev/stderr" || name = "/dev/null") then
    let m ← get
    for sink in m.sinks do
      if sink.isFor name false && name = "/dev/stderr" then act (Act.write 2 sink.waiting)
    set { m with sinks := m.sinks.map fun (s : Sink) => if s.isFor name false then s.emptied else s }

/-- A file or command closed: the status of a command, zero for a file, and minus one for anything else. -/
def close (l : Launcher) (name : Bytes) : Step Int := do
  let m ← get
  set { m with
    sinks := m.sinks.filter (·.name ≠ name)
    springs := m.springs.filter (·.name ≠ name) }
  match m.sinks.find? (·.name = name) with
  | some sink =>
    if sink.isPipe then pure (← feed l sink)
    else
      act (modify fun p => { p with files := p.files.append sink.name sink.waiting })
      pure 0
  | none =>
    match m.springs.find? (·.name = name) with
    | some spring => pure spring.status
    | none => pure (-1)

/-- A file or command that is read from, opened if it has to be. -/
def spring? (l : Launcher) (name : Bytes) (isPipe : Bool) : Step (Option Spring) := do
  match (← get).springs.find? fun s => s.name = name && s.isPipe = isPipe with
  | some spring => pure (some spring)
  | none =>
    let opened : Option Spring ← if isPipe then do
        flush
        let (output, status) ← act (Act.capture (command l name))
        pure (some ⟨name, true, output, status⟩)
      else if name = [45] then do
        let content ← act Act.readAll
        pure (some ⟨name, false, content, 0⟩)
      else
        match ← act (Act.contentAt name) with
        | .ok content => pure (some ⟨name, false, content, 0⟩)
        | .error .isDirectory => throw (.fatal "awk: read error (Is a directory)")
        | .error _ => pure none
    match opened with
    | some spring =>
      modify fun m => { m with springs := spring :: m.springs }
      pure (some spring)
    | none => pure none

/-- The next record of a file or command: none if it cannot be read, an empty option at its end. -/
def lineOf (l : Launcher) (name : Bytes) (isPipe : Bool) : Step (Option (Option Bytes)) := do
  match ← spring? l name isPipe with
  | none => pure none
  | some spring =>
    match ← cutRecord spring.rest with
    | none => pure (some none)
    | some (record, rest) =>
      modify fun m => { m with springs := m.springs.map fun s =>
        if s.name = name && s.isPipe = isPipe then { s with rest := rest } else s }
      pure (some (some record))

/-- A text of the command line with its escapes. -/
def unescaped (text : Bytes) : Bytes :=
  ((quotedText (text.length + 2) [] ((text.flatMap fun b => if b = 34 then [92, 34] else [b]) ++ [34])).map (·.1)).getD
    text

/-- An assignment among the operands carried out. -/
def assignOperand (name text : Bytes) : Step Unit := modify fun m => m.assigned name (.ofInput (unescaped text))

/-- The name and the text of an operand that assigns. -/
def assignment? (operand : Bytes) : Option (Bytes × Bytes) :=
  let name := operand.takeWhile isNamePart
  match operand.drop name.length with
  | 61 :: rest => if name.isEmpty || Bytes.isDigit (name.headD 0) then none else some (name, rest)
  | _ => none

/-- The next input opened, in at most so many steps: false if there is none. -/
def nextInput : Nat → Step Bool
  | 0 => pure false
  | steps + 1 => do
    let m ← get
    let count := (m.valueOf "ARGC").toNumber.toInt
    if count ≤ m.operand then
      if m.hasInput then pure false
      else
        let content ← act Act.readAll
        set { m with hasInput := true, current := some content }
        pure true
    else
      let (array, m) := m.arrayOf "ARGV"
      let operand := ((m.table array).get? (Decimal.ofNat m.operand)).map fun (v : Value) => v.toText "%.6g"
      set { m with operand := m.operand + 1 }
      match operand with
      | none | some [] => nextInput steps
      | some operand =>
        match assignment? operand with
        | some (name, value) =>
          assignOperand name value
          nextInput steps
        | none =>
          let content ← if operand = [45] then act (.ok <$> Act.readAll) else act (Act.contentAt operand)
          match content with
          | .ok content =>
            modify fun m => ({ m with hasInput := true, current := some content }.assigned "FILENAME"
              (.text operand)).assigned "FNR" (.number .zero)
            pure true
          | .error .isDirectory => throw (.fatal "awk: read error (Is a directory)")
          | .error cause => throw (.fatal ("awk: cannot open \"" ++ operand ++ "\" (" ++ reasonOf cause ++ ")"))

/-- The next record of the inputs, in at most so many steps: none behind the last one. -/
def nextRecord : Nat → Step (Option Bytes)
  | 0 => pure none
  | steps + 1 => do
    match (← get).current with
    | none => if ← nextInput 1000 then nextRecord steps else pure none
    | some text =>
      match ← cutRecord text with
      | some (record, rest) =>
        modify fun m => ({ m with current := some rest }.counted "NR").counted "FNR"
        pure (some record)
      | none =>
        modify fun m => { m with current := none }
        if ← nextInput 1000 then nextRecord steps else pure none

end Step

end Records

end Shell

end MobilitySweep
