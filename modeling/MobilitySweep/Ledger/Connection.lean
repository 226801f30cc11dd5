import MobilitySweep.Ledger.Address

/-! # Connections to the database of a ledger

A connection is set up by statements, which run in order and leave their marks on it: whether runs have
to belong to sweeps, whether anything may be written, how texts are kept, and how large the database may
grow.
-/

namespace MobilitySweep

namespace Ledger

/-- The database in a file: none yet, something else, or the tables of a ledger. -/
inductive Stored where
  | nothing
  | foreign
  | tables (stored : Tables)
deriving DecidableEq, Repr

/-- What a connection is set up for: where its database is and what it may do there, what the database
holds, and which directories can be written to. -/
structure Setting.Scene where
  address : Address
  found : Stored
  isDirectory : Bytes → Bool

/-- Whether a transaction is under way, and whether it has taken hold of the database for writing. -/
inductive Transaction where
  | absent
  | idle
  | writing
deriving DecidableEq, Repr

/-- The state of a connection. The tables are known once a statement needed them; a mapped database has a
page that maps the others. -/
structure Connection where
  strict : Bool
  queryOnly : Bool
  encoding : TextEncoding
  known : Bool
  transaction : Transaction
  pageLimit : Option Nat
  mapped : Bool
deriving DecidableEq, Repr

namespace Connection

/-- A new connection. -/
def fresh : Connection := ⟨false, false, .utf8, false, .absent, none, false⟩

/-- Whether a transaction is under way. -/
def inTransaction (c : Connection) : Bool := c.transaction ≠ .absent

/-- The connection after something was written; a transaction under way has written. -/
def wrote (c : Connection) : Connection :=
  { c with transaction := if c.inTransaction then .writing else .absent }

/-- The pages of a ledger without rows. -/
def pagesNeeded (c : Connection) : Nat := if c.mapped then 9 else 8

/-- Whether the tables of a ledger do not fit into the database. -/
def isFull (c : Connection) : Bool :=
  match c.pageLimit with
  | some limit => limit < c.pagesNeeded
  | none => false

end Connection

/-- Whether a connection may not write: by its own setting or by its address. -/
def Setting.Scene.forbids (scene : Setting.Scene) (c : Connection) : Bool :=
  c.queryOnly || scene.address.access = .read || scene.address.immutable

namespace Setting

/-- Whether the schema in front of a setting is that of the database itself or of its temporary part. -/
def hasKnownSchema (s : Setting) : Bool :=
  match s.schema with
  | none => true
  | some token =>
    match token.name? with
    | some name => Pragma.isAmong ["main", "temp"] (name.map Bytes.lowerByte)
    | none => false

/-- Whether a table can be looked at. -/
def Scene.hasTable (scene : Scene) (name : Bytes) : Bool :=
  Pragma.isCommonTable name ||
    match scene.found with
    | .tables _ => Pragma.isLedgerTable name
    | _ => false

/-- The kind of journal changed. A log beside the file can only be taken up or given up outside
transactions, and only in a file that can be written. -/
def changeJournal (scene : Scene) (value : Bytes) (c : Connection) : Except Obstacle Connection :=
  let logged := Pragma.journal? value = some "wal"
  match scene.found with
  | .nothing =>
    if !logged || !scene.address.logged || c.transaction = .writing then .ok c
    else if c.inTransaction then .error (.statement (.fixedJournal "into"))
    else if scene.address.access = .read then .error .readOnly
    else .ok c
  | _ =>
    if logged || (Pragma.journal? value).isNone then .ok c
    else if c.inTransaction then .error (.statement (.fixedJournal "out of"))
    else .ok c

/-- A setting with a value made. -/
def assign (scene : Scene) (name value : Bytes) (c : Connection) : Except Obstacle Connection :=
  if name = "foreign_keys" then .ok (if c.inTransaction then c else { c with strict := Pragma.isTrue value })
  else if name = "query_only" then .ok { c with queryOnly := Pragma.isTrue value }
  else if name = "journal_mode" then changeJournal scene value c
  else if name = "encoding" then
    if c.known && scene.found ≠ .nothing then .ok c
    else match Pragma.encoding? value with
      | some encoding => .ok { c with encoding := encoding }
      | none => .error (.statement (.unsupportedEncoding value))
  else if name = "temp_store_directory" then
    if value.isEmpty || scene.isDirectory value then .ok c else .error (.statement .unwritableDirectory)
  else if name = "synchronous" then
    if c.inTransaction then .error (.statement .fixedSafety) else .ok c
  else if name = "max_page_count" then
    .ok (match Pragma.count? value with
      | some (n + 1) => { c with pageLimit := some (n + 1) }
      | _ => c)
  else if name = "auto_vacuum" then
    let mapped := Pragma.isAmong ["1", "2", "full", "incremental"] (value.map Bytes.lowerByte)
    if mapped && scene.forbids c && scene.found = .nothing then .error .readOnly else .ok { c with mapped := mapped }
  else if Pragma.isWritten name then .ok c.wrote
  else if Pragma.looksAtTable name value && !scene.hasTable value then .error (.statement (.noTable value))
  else .ok c

/-- A setting made, or asked for. What is in the file of the database has to be usable if it is needed. -/
def run (scene : Scene) (s : Setting) (c : Connection) : Except Obstacle Connection := do
  let name := s.name.map Bytes.lowerByte
  if !s.hasKnownSchema then
    throw (.statement (.unknownDatabase ((s.schema.map Token.raw).getD [])))
  if Pragma.isWritten name && s.value.isSome && scene.forbids c then throw .readOnly
  if Pragma.needsFile name && scene.found = .foreign then throw .foreign
  let c := { c with known := c.known || Pragma.needsTables name || (name = "encoding" && s.value.isNone) }
  if name = "incremental_vacuum" && scene.forbids c then throw .readOnly
  match s.value with
  | none => return c
  | some value => assign scene name value c

end Setting

namespace Statement

/-- What is missing for a placeholder: a value by position, or by name. -/
def missingValue (placeholder : Bytes) : Obstacle :=
  match placeholder with
  | [_] => .missingPosition
  | first :: name => if first = '?' then .missingPosition else .missingName name
  | [] => .missingPosition

/-- The obstacle that a table is if it is not there. -/
def absent? (scene : Setting.Scene) (table : Bytes) : Option Obstacle :=
  if scene.found = .foreign then some .foreign
  else if scene.hasTable table then none
  else some (.statement (.noTable table))

/-- A selection looked through: its tables, then its columns, then its placeholders have to be known. -/
def look (scene : Setting.Scene) (star : Bool) (columns tables placeholders : List Bytes) : Option Obstacle :=
  match tables.findSome? (absent? scene) with
  | some obstacle => some obstacle
  | none =>
    if !tables.isEmpty then none
    else if star then some (.statement .noTables)
    else match columns with
      | column :: _ => some (.statement (.noColumn column))
      | [] => placeholders.head?.map missingValue

/-- A transaction started, perhaps with a hold of the database for writing. -/
def begin (scene : Setting.Scene) (writing : Bool) (c : Connection) : Except Obstacle Connection :=
  if c.inTransaction then .error (.statement .nestedTransaction)
  else if !writing then .ok { c with transaction := .idle }
  else if scene.found = .foreign then .error .foreign
  else if c.queryOnly then .error .readOnly
  else .ok { c with transaction := if scene.forbids c then .idle else .writing }

/-- A statement run on a connection. -/
def run (scene : Setting.Scene) (c : Connection) : Statement → Except Obstacle Connection
  | nothing => .ok c
  | setting s => s.run scene c
  | start writing => begin scene writing c
  | commit =>
    if c.inTransaction then .ok { c with transaction := .absent } else .error (.statement (.inactive "commit"))
  | rollback =>
    if c.inTransaction then .ok { c with transaction := .absent } else .error (.statement (.inactive "rollback"))
  | select star columns tables placeholders =>
    match look scene star columns tables placeholders with
    | some obstacle => .error obstacle
    | none => .ok c
  | change table =>
    match absent? scene table with
    | some obstacle => .error obstacle
    | none => .ok c.wrote
  | other => .ok c

/-- The statements of some tokens run in order. The count bounds their number. -/
def runTokens (scene : Setting.Scene) : Nat → List Token → Connection → Except Obstacle Connection
  | 0, _, c => .ok c
  | _, [], c => .ok c
  | count + 1, tokens, c => do
    let (statement, rest) ← (first tokens).mapError .statement
    runTokens scene count rest (← statement.run scene c)

/-- The statements of a text run in order. -/
def runText (scene : Setting.Scene) (text : Bytes) (c : Connection) : Except Obstacle Connection :=
  let tokens := Token.ofText text
  runTokens scene tokens.length tokens c

end Statement

/-- A connection set up by the pragmas of its address. -/
def connect (scene : Setting.Scene) : Except Obstacle Connection := do
  let c ← scene.address.pragmas.foldlM (fun c pragma => Statement.runText scene ("pragma " ++ pragma) c) .fresh
  match scene.address.afterwards with
  | some obstacle => .error obstacle
  | none => .ok c

end Ledger

end MobilitySweep
