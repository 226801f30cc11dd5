import MobilitySweep.Files.Operations
import MobilitySweep.Ledger.Basic
import MobilitySweep.Ledger.Connection

/-! # Ledger files

Opening a ledger creates its directory and its tables on demand, and refuses files that are no ledger,
ledgers with runs that belong to no sweep, and ledgers of a newer version.
-/

namespace MobilitySweep

namespace Ledger

/-- Why a ledger cannot be opened. -/
inductive Unopened where
  | emptyPath
  | directory (fault : Fault)
  | unconnected (obstacle : Obstacle)
  | uncreated (obstacle : Obstacle)
  | unrecorded (obstacle : Obstacle)
  | orphans (rows : List Nat)
  | newer (version : Int)
deriving DecidableEq, Repr

/-- The refusal as a fault. -/
def Unopened.fault : Unopened → Fault
  | emptyPath => .plain "ledger path is empty"
  | directory fault => fault.within "failed to create ledger directory"
  | unconnected obstacle => unusable "failed to begin transaction: " obstacle
  | uncreated obstacle => unusable "failed to create tables: " obstacle
  | unrecorded obstacle => unusable "failed to record schema version: " obstacle
  | orphans rows =>
    .plain ("failed to initialize ledger schema: database integrity check failed: foreign_key_check failed: [" ++
      Bytes.joinWith " " (rows.map fun row =>
        ("table=runs rowid=" : Bytes) ++ Decimal.ofNat row ++ " parent=sweeps fkid=0") ++ "]")
  | newer version =>
    .plain ("failed to initialize ledger schema: ledger schema version " ++ Decimal.ofInt version ++
      " is newer than supported version " ++ Decimal.ofInt schemaVersion)
where
  /-- A database that cannot be used at all. -/
  unusable (activity : Bytes) (obstacle : Obstacle) : Fault :=
    .plain ("failed to initialize ledger schema: failed to create schema: " ++ activity ++ obstacle.message)

/-- Tables made usable: without any version they are set up, otherwise they are checked. -/
def checked (t : Tables) : Except Unopened Tables :=
  -- Tables without a single version have no highest one either, and count as new.
  match t.version? with
  | none => .ok { t with versions := [schemaVersion] }
  | some version =>
    if !t.orphans.isEmpty then .error (.orphans t.orphans)
    else if schemaVersion < version then .error (.newer version)
    else .ok t

/-- How many links may be on the way to the file of a ledger. -/
def linkLimit : Nat := 201

/-- The place that names lead to from a place. Names of nothing are passed like directories, so that a
double dot takes the name before it away. -/
def settle (files : Files) (links : Nat) (here : Place) (names : List Bytes) : Option Place :=
  match names with
  | [] => some here
  | name :: rest =>
    if name = Path.here then settle files links here rest
    else if name = Path.above then settle files links here.dropLast rest
    else if Files.nameLimit < name.length then none
    else match files.get? here, files.get? (here ++ [name]) with
      | some (.file _), _ => none
      | _, some (.link target) =>
        match links with
        | 0 => none
        | links + 1 => settle files links (if Path.isAbsolute target then [] else here) (Path.names target ++ rest)
      | _, _ => settle files links (here ++ [name]) rest
termination_by (links, names.length)

/-- The most bytes of the whole path of a ledger file. -/
def pathLimit : Nat := 504

/-- The place of the file of a given name, if a file is or could be there. -/
def place? (files : Files) (name : Bytes) : Option Place := do
  let place ← settle files linkLimit (files.start name) (Path.names name)
  if pathLimit < (Path.ofComponents true place).length then none
  else match files.get? place.dropLast, files.get? place with
    | some .directory, none => some place
    | some .directory, some (.file _) => some place
    | _, _ => none

/-- What a file holds for a ledger. -/
def stored : Option Entry → Stored
  | some (.file (.ledger tables)) => .tables tables
  | some (.file (.bytes (_ :: _))) => .foreign
  | _ => .nothing

/-- Whether tables without any version can be given one: that takes a transaction, and a row to be written. -/
def recordVersion (scene : Setting.Scene) (c : Connection) (t : Tables) : Except Unopened Unit := do
  if t.version? = none then
    let c ← (Statement.begin scene scene.address.locks c).mapError .unconnected
    if scene.forbids c then throw (.unrecorded .readOnly)

/-- The ledger of a database, with its tables set up or checked. -/
def ofStored (path : Bytes) (clock : Clock) (scene : Setting.Scene) : Except Unopened Ledger := do
  let c ← (connect scene).mapError .unconnected
  let tables ← match scene.found with
    | .nothing =>
      let c ← (Statement.begin scene scene.address.locks c).mapError .unconnected
      if scene.forbids c then throw (.uncreated .readOnly)
      if c.isFull then throw (.uncreated .full)
      pure (.fresh c.encoding)
    | .foreign => throw (.uncreated .foreign)
    | .tables tables =>
      recordVersion scene c tables
      checked tables
  return ⟨path, tables, true, c.strict, scene.forbids c, clock⟩

/-- The ledger of an address. The file is created as soon as it is opened. -/
def openAddress (files : Files) (path : Bytes) (clock : Clock) (address : Address) :
    Files × Except Unopened Ledger :=
  let isThere : Bytes → Bool := fun name =>
    match files.resolve true name with
    | .ok (.taken _ _) => true
    | _ => false
  match address.file with
  | none => (files, ofStored path clock ⟨address, .nothing, isThere⟩)
  | some name =>
    match place? files name with
    | none => (files, .error (.unconnected .noFile))
    | some place =>
      let entry := files.get? place
      if !(address.model.map isThere).getD true then (files, .error (.unconnected .noModel))
      else if entry = none && address.access ≠ .create then (files, .error (.unconnected .noFile))
      else
        match ofStored path clock ⟨address, stored entry, isThere⟩ with
        | .error reason => (if entry = none then files.write place (.bytes []) else files, .error reason)
        | .ok l => (files.write place (.ledger l.tables), .ok l)

/-- The ledger of a path, created on demand. -/
def openFile (files : Files) (path : Bytes) (clock : Clock) : Files × Except Unopened Ledger :=
  if path.isEmpty then (files, .error .emptyPath)
  else
    let directory := Path.directory path
    let (files, failure) := if directory = Path.here then (files, none) else files.mkdirAll directory
    match failure with
    | some fault => (files, .error (.directory fault))
    | none =>
      match Address.ofPath path with
      | .error obstacle => (files, .error (.unconnected obstacle))
      | .ok address => openAddress files path clock address

/-- The tables of a ledger put back into its file. -/
def save (l : Ledger) (files : Files) : Files :=
  match (Address.ofPath l.path).toOption >>= (·.file) >>= place? files with
  | some place =>
    match files.get? place with
    | some (.file _) => files.write place (.ledger l.tables)
    | _ => files
  | none => files

end Ledger

end MobilitySweep
