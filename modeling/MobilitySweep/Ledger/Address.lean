import MobilitySweep.Ledger.Statement
import MobilitySweep.Ledger.Tables
import MobilitySweep.Number.Decimal
import MobilitySweep.Text.Utf8
import MobilitySweep.Time.Zone

/-! # Addresses of ledgers

What a data source says about a ledger: the file, the settings of a connection to it and its pragmas.
-/

namespace MobilitySweep

/-! ## Query texts

The part of an address behind its question mark: entries between ampersands, each a name and a value
around an equals sign. A percent sign and two hexadecimal digits write any byte, and a plus sign
writes a blank.
-/

/-- Why a query text is refused. -/
inductive QueryFault where
  | semicolon
  | escape (text : Bytes)
deriving DecidableEq, Repr

/-- The wording of a fault. -/
def QueryFault.message : QueryFault → Bytes
  | semicolon => "invalid semicolon separator in query"
  | escape text => "invalid URL escape " ++ Quoted.quote text

namespace Query

/-- The byte that two hexadecimal digits write. -/
def hexByte? (high low : UInt8) : Option UInt8 := do
  let h ← Decimal.digitValue? high
  let l ← Decimal.digitValue? low
  some (UInt8.ofNat (h * 16 + l))

/-- A text without its escapes; a percent sign that starts none is refused. -/
def unescape : Bytes → Except QueryFault Bytes
  | [] => .ok []
  | b :: rest =>
    if b = '%' then
      match rest with
      | high :: low :: more =>
        match hexByte? high low with
        | some x => do return x :: (← unescape more)
        | none => .error (.escape [b, high, low])
      | _ => .error (.escape (b :: rest))
    else do return (if b = '+' then ' ' else b) :: (← unescape rest)

/-- A text without its escapes; a percent sign that starts none stands for itself, and an escaped zero
ends the text. -/
def unescapeLoosely : Bytes → Bytes
  | b :: high :: low :: more =>
    match if b = '%' then hexByte? high low else none with
    | some x => if x = 0 then [] else x :: unescapeLoosely more
    | none => b :: unescapeLoosely (high :: low :: more)
  | short => short

/-- The parts of a text before and behind the first occurrence of a byte. -/
def cut (mark : UInt8) (text : Bytes) : Bytes × Bytes :=
  (text.takeWhile (· ≠ mark), (text.dropWhile (· ≠ mark)).drop 1)

/-- The entries as they are written. -/
def entries (text : Bytes) : List Bytes := (Bytes.splitOn '&' text).filter (!·.isEmpty)

/-- The names and values of a query. -/
def parse (text : Bytes) : Except QueryFault (List (Bytes × Bytes)) :=
  if (entries text).any (·.contains (';' : UInt8)) then .error .semicolon
  else (entries text).mapM fun entry => do
    let (name, value) := cut '=' entry
    return (← unescape name, ← unescape value)

/-- The values of a name, in order. -/
def values (name : Bytes) (query : List (Bytes × Bytes)) : List Bytes :=
  (query.filter (·.1 = name)).map (·.2)

/-- The first value of a name, unless it is empty. -/
def first? (name : Bytes) (query : List (Bytes × Bytes)) : Option Bytes :=
  match values name query with
  | value :: _ => if value.isEmpty then none else some value
  | [] => none

end Query

/-! ## Pragmas

The settings of a database connection: how their values are read, and what the database has to be asked
or told for them.
-/

namespace Ledger

namespace Pragma

/-! ## Values -/

/-- The value of hexadecimal digits. -/
def hexValue (digits : Bytes) : Nat :=
  digits.foldl (fun n d => n * 16 + (if Bytes.isDigit d then d.toNat - 48 else (Bytes.lowerByte d).toNat - 87)) 0

/-- The most positive number of 32 bits. -/
def largest : Nat := 2147483647

/-- The number of 32 bits that a text starts with, if there is one. -/
def leadingNumber? (text : Bytes) : Option Nat :=
  let within : Nat → Option Nat := fun n => if n ≤ largest then some n else none
  let digits := text.takeWhile Bytes.isDigit
  let decimal := if digits.isEmpty then none else within (Bytes.digitsValue digits)
  match text with
  | zero :: base :: digit :: rest =>
    if zero = '0' && Bytes.lowerByte base = 'x' && Token.isHexDigit digit then
      within (hexValue ((digit :: rest).takeWhile Token.isHexDigit))
    else decimal
  | _ => decimal

/-- A value as a truth value: a number whose last byte is not zero, or one of some words. -/
def isTrue (value : Bytes) : Bool :=
  if (value.head?.map Bytes.isDigit).getD false then (leadingNumber? value).getD 0 % 256 ≠ 0
  else
    let word := value.map Bytes.lowerByte
    word = "on" || word = "yes" || word = "true"

/-- A value that is a whole number of 64 bits and not negative. -/
def count? (value : Bytes) : Option Nat :=
  match value with
  | zero :: base :: digit :: rest =>
    if zero = '0' && Bytes.lowerByte base = 'x' && (digit :: rest).all Token.isHexDigit then
      within (hexValue (digit :: rest))
    else decimal value
  | _ => decimal value
where
  /-- A number of 64 bits. -/
  within (n : Nat) : Option Nat := if n ≤ 9223372036854775807 then some n else none
  /-- A decimal number. -/
  decimal (digits : Bytes) : Option Nat :=
    let digits := if digits.head? = some ('+' : UInt8) then digits.drop 1 else digits
    if digits.isEmpty || !digits.all Bytes.isDigit then none else within (Bytes.digitsValue digits)

/-- The encoding of a name. -/
def encoding? (name : Bytes) : Option TextEncoding :=
  let lower := name.map Bytes.lowerByte
  if lower = "utf8" || lower = "utf-8" then some .utf8
  else if lower = "utf16" || lower = "utf-16" || lower = "utf16le" || lower = "utf-16le" then some (.utf16 false)
  else if lower = "utf16be" || lower = "utf-16be" then some (.utf16 true)
  else none

/-- The kind of journal that a value asks for: the first one whose name it starts. -/
def journal? (value : Bytes) : Option String :=
  (["delete", "persist", "off", "truncate", "memory", "wal"] : List String).find? fun known =>
    (value.map Bytes.lowerByte).isPrefixOf (Bytes.ofString known)

/-! ## Names -/

/-- Whether a name is in a list. -/
def isAmong (names : List String) (name : Bytes) : Bool := names.any fun known => name = Bytes.ofString known

/-- The pragmas for which the tables of the database have to be known. -/
def needsTables (name : Bytes) : Bool :=
  isAmong ["auto_vacuum", "cache_size", "default_cache_size", "foreign_key_check", "foreign_key_list",
    "incremental_vacuum", "index_info", "index_list", "index_xinfo", "integrity_check", "journal_mode",
    "max_page_count", "optimize", "page_count", "quick_check", "synchronous", "table_info", "table_list",
    "table_xinfo", "wal_checkpoint"] name

/-- The pragmas for which the file of the database is read. -/
def needsFile (name : Bytes) : Bool :=
  needsTables name || isAmong ["application_id", "data_version", "freelist_count", "schema_version", "user_version"] name

/-- The pragmas whose value is written to the file. -/
def isWritten (name : Bytes) : Bool :=
  isAmong ["application_id", "default_cache_size", "schema_version", "user_version"] name

/-- The pragmas that look at one table: one of them always, two if their value is no number. -/
def looksAtTable (name value : Bytes) : Bool :=
  let unsigned := if value.head? = some ('-' : UInt8) then value.drop 1 else value
  name = "foreign_key_check" ||
    ((name = "integrity_check" || name = "quick_check") && (leadingNumber? unsigned).isNone)

/-- The tables of every ledger. -/
def isLedgerTable (name : Bytes) : Bool :=
  isAmong ["sweeps", "runs", "schema_version"] (name.map Bytes.lowerByte)

/-- The tables of every database. -/
def isCommonTable (name : Bytes) : Bool :=
  isAmong ["sqlite_master", "sqlite_schema", "sqlite_temp_master", "sqlite_temp_schema"] (name.map Bytes.lowerByte)

end Pragma

end Ledger

/-! ## Ledger addresses

The path of a ledger names a file, perhaps in the form of a URI, and may carry parameters behind a
question mark. The ledger puts its own parameters behind them, so the last parameter of a path runs into
the first of the ledger's own.
-/

namespace Ledger

/-- Why the database of a ledger cannot be used. -/
inductive Obstacle where
  | noFile
  | foreign
  | readOnly
  | query (fault : QueryFault)
  | conflictingSystems (names : List Bytes)
  | noSystem (name : Bytes)
  | authority (host : Bytes)
  | noMode (kind value : Bytes)
  | deniedMode (value : Bytes)
  | statement (flaw : Statement.Flaw)
  | parameter (name value : Bytes)
  | switch (name value : Bytes)
  | zone (name : Bytes)
  | missingPosition
  | missingName (name : Bytes)
  | full
  | noModel
deriving DecidableEq, Repr

/-- The wording of an obstacle. -/
def Obstacle.message : Obstacle → Bytes
  | noFile => "unable to open database file (14)"
  | foreign => "file is not a database (26)"
  | readOnly => "attempt to write a readonly database (8)"
  | query fault => fault.message
  | conflictingSystems names => "conflicting vfs query parameters: [" ++ Bytes.joinWith " " names ++ "]"
  | noSystem name => logic ("no such vfs: " ++ name)
  | authority host => logic ("invalid uri authority: " ++ host)
  | noMode kind value => logic ("no such " ++ kind ++ " mode: " ++ value)
  | deniedMode value => "access permission denied: access mode not allowed: " ++ value ++ " (3)"
  | statement flaw => logic flaw.message
  | parameter name value => "unknown " ++ name ++ " " ++ Quoted.quote value
  | switch name value =>
    "unknown " ++ name ++ " " ++ Quoted.quote value ++
      ", must be 1, t, T, TRUE, true, True, 0, f, F, FALSE, false, False"
  | zone name =>
    "unknown _timezone " ++ Quoted.quote name ++ ": " ++
      (if isNoName name then Bytes.ofString "time: invalid location name" else "unknown time zone " ++ name)
  | missingPosition => "missing argument with index 1"
  | missingName name => "missing named argument " ++ Quoted.quote name
  | full => "database or disk is full (13)"
  | noModel => "disk I/O error (1802)"
where
  /-- A complaint about what was asked for. -/
  logic (reason : Bytes) : Bytes := "SQL logic error: " ++ reason ++ " (1)"
  /-- Whether a text cannot be the name of a zone. -/
  isNoName (name : Bytes) : Bool :=
    Bytes.occursIn ".." name || name.head? = some ('/' : UInt8) || name.head? = some ('\\' : UInt8)

/-- What may be done with the file of a ledger. -/
inductive Access where
  | create
  | write
  | read
deriving DecidableEq, Repr

/-- How much an access allows. -/
def Access.rank : Access → Nat
  | create => 2
  | write => 1
  | read => 0

/-- Where a ledger is kept: in a file of some name, or in memory for as long as it is open. The file may
be said never to change, and it may take the rights of another file as its model; there may be a log
beside it, and transactions may lock it as soon as they start. -/
structure Address where
  file : Option Bytes
  access : Access
  immutable : Bool
  model : Option Bytes
  logged : Bool
  locks : Bool
  pragmas : List Bytes
  afterwards : Option Obstacle
deriving DecidableEq, Repr

namespace Address

/-- The parameters of every ledger: runs belong to sweeps, writes go to a log of their own, and a busy
database is waited for. -/
def ownParameters : Bytes :=
  "?_pragma=foreign_keys(1)&_pragma=journal_mode(WAL)&_pragma=busy_timeout(5000)"

/-- The name of a database that lives in memory only. -/
def inMemory : Bytes := ":memory:"

/-- The file systems that can be asked for. -/
def isSystem (name : Bytes) : Bool :=
  ["unix", "unix-none", "unix-dotfile", "unix-excl", "memdb"].any fun (known : String) => name = known

/-- The file system that parameters ask for, if any; all of them have to agree. -/
def systemOf (parameters : List (Bytes × Bytes)) : Except Obstacle (Option Bytes) :=
  let names := Query.values "vfs" parameters
  let agree : Option Bytes → Bytes → Option Bytes := fun found name =>
    match found with
    | none => none
    | some known => if known.isEmpty || known = name then some name else none
  match names.foldl agree (some []) with
  | some name => .ok (if name.isEmpty then none else some name)
  | none => .error (.conflictingSystems names)

/-- The text in which pragmas are ordered. -/
def orderKey (pragma : Bytes) : Bytes := Blank.trim pragma.lower

/-- The pragmas in the order in which they are run: the time to wait for a busy database first. -/
def ordered (pragmas : List Bytes) : List Bytes :=
  let waits : Bytes → Bool := fun pragma => ("busy_timeout" : Bytes).isPrefixOf (orderKey pragma)
  pragmas.filter waits ++
    (pragmas.filter (!waits ·)).mergeSort fun a b => !Bytes.less (orderKey b) (orderKey a)

/-- The obstacle of a parameter with a value that it cannot have. -/
def unknownValue? (parameters : List (Bytes × Bytes)) (name : Bytes) (known : List Bytes) : Option Obstacle :=
  match Query.first? name parameters with
  | some value => if known.contains value then none else some (.parameter name value)
  | none => none

/-- The obstacle of a parameter that has to be a truth value. -/
def unknownSwitch? (parameters : List (Bytes × Bytes)) (name : Bytes) : Option Obstacle :=
  match Query.first? name parameters with
  | some value =>
    if Pragma.isAmong ["1", "t", "T", "TRUE", "true", "True", "0", "f", "F", "FALSE", "false", "False"] value then
      none
    else some (.switch name value)
  | none => none

/-- The obstacle of a parameter that has to be a time zone. -/
def unknownZone? (parameters : List (Bytes × Bytes)) : Option Obstacle :=
  match Query.first? "_timezone" parameters with
  | some name => if name = "Local" || Zone.isName name then none else some (.zone name)
  | none => none

/-- The obstacle of a parameter that has to be a kind of lock. -/
def unknownLock? (parameters : List (Bytes × Bytes)) : Option Obstacle :=
  match Query.first? "_txlock" parameters with
  | some value =>
    if Pragma.isAmong ["deferred", "immediate", "exclusive"] value.lower then none
    else some (.parameter "_txlock" value)
  | none => none

/-- The obstacle that parameters are after the pragmas were run. -/
def afterwards? (parameters : List (Bytes × Bytes)) : Option Obstacle :=
  unknownValue? parameters "_time_format" ["sqlite"] <|>
    unknownZone? parameters <|>
    unknownValue? parameters "_time_integer_format" ["unix", "unix_milli", "unix_micro", "unix_nano"] <|>
    unknownSwitch? parameters "_inttotime" <|>
    unknownSwitch? parameters "_texttotime" <|>
    unknownLock? parameters

/-- The path in a URI, behind an authority that names no other machine. -/
def withoutAuthority (text : Bytes) : Except Obstacle Bytes :=
  match text with
  | a :: b :: rest =>
    if a = '/' && b = '/' then
      let host := rest.takeWhile (· ≠ ('/' : UInt8))
      if host.isEmpty || host = "localhost" then .ok (rest.drop host.length) else .error (.authority host)
    else .ok text
  | _ => .ok text

/-- What a URI asks for beside its file: the file system, the access, whether all is in memory, and the
first of each of its other options. -/
structure Request where
  system : Option Bytes
  access : Access
  memory : Bool
  options : List (Bytes × Bytes)

/-- The access that a request is narrowed to; what is not in memory is never widened. -/
def Request.narrow (r : Request) (value : Bytes) (access : Access) : Except Obstacle Request :=
  if !r.memory && r.access.rank < access.rank then .error (.deniedMode value)
  else .ok { r with access := access, memory := false }

/-- One option of a URI taken into a request. -/
def Request.take (r : Request) (option : Bytes × Bytes) : Except Obstacle Request :=
  let (name, value) := option
  if name = "vfs" then .ok { r with system := some value }
  else if name = "cache" then
    if value = "shared" || value = "private" then .ok r else .error (.noMode "cache" value)
  else if name = "mode" then
    if value = "ro" then r.narrow value .read
    else if value = "rw" then r.narrow value .write
    else if value = "rwc" then r.narrow value .create
    else if value = "memory" then .ok { r with access := .create, memory := true }
    else .error (.noMode "access" value)
  else .ok r

/-- The options of a URI. -/
def options (text : Bytes) : List (Bytes × Bytes) :=
  (Query.entries text).filterMap fun entry =>
    let (name, value) := Query.cut '=' entry
    if name.isEmpty then none else some (Query.unescapeLoosely name, Query.unescapeLoosely value)

/-- The file and the request of a URI. -/
def ofUri (text : Bytes) (system : Option Bytes) : Except Obstacle (Bytes × Request) := do
  let path := (← withoutAuthority text).takeWhile (· ≠ ('#' : UInt8))
  let (name, query) := Query.cut '?' path
  let request ← (options query).foldlM Request.take ⟨system, .create, false, options query⟩
  return (Query.unescapeLoosely name, request)

/-- The address that a path stands for. A question mark in front of a path is part of its name. -/
def ofPath (path : Bytes) : Except Obstacle Address := do
  let source := path ++ ownParameters
  let marked := source.head? = some ('?' : UInt8)
  let query := if marked then [] else (Query.cut '?' source).2
  let parameters ← (Query.parse query).mapError .query
  let system ← systemOf parameters
  let text : Bytes := if marked then source else (Query.cut '?' source).1
  let (name, request) ←
    if ("file:" : Bytes).isPrefixOf text then ofUri ((source.drop 5).takeWhile (· ≠ 0)) system
    else pure (text.takeWhile (· ≠ 0), ⟨system, .create, false, []⟩)
  let _ ← match request.system with
    | some system => if isSystem system then pure () else .error (.noSystem system)
    | none => pure ()
  let passing := name.isEmpty || name = inMemory || request.memory
  let flag : Bytes → Bool := fun option => ((Query.values option request.options).head?.map Pragma.isTrue).getD false
  let immutable := !passing && flag "immutable"
  let unlogged := Pragma.isAmong ["memdb", "unix-none", "unix-dotfile"] (request.system.getD [])
  return {
    file := if passing || request.system = some "memdb" then none else some name
    access := request.access
    immutable := immutable
    model := (Query.values "modeof" request.options).head?
    logged := !(passing || immutable || unlogged || flag "nolock")
    locks := ((Query.first? "_txlock" parameters).map fun kind => !Pragma.isAmong ["deferred"] kind.lower).getD false
    pragmas := ordered (Query.values "_pragma" parameters)
    afterwards := afterwards? parameters }

end Address

end Ledger

end MobilitySweep
