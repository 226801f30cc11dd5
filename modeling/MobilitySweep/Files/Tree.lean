import MobilitySweep.Files.Path
import MobilitySweep.Ledger.Tables

/-! # The file tree

Files, directories and symbolic links by the place they are at. A place is the list of names from the
root down; the root itself is always a directory. A file may be at several places at once: all of them are
names of it, and what is written under one is read under the others.
-/

namespace MobilitySweep

/-- A place in the tree. -/
abbrev Place := List Bytes

/-- What a file holds: bytes, or the tables of a ledger. -/
inductive Content where
  | bytes (text : Bytes)
  | ledger (tables : Ledger.Tables)
deriving DecidableEq, Repr, Inhabited

namespace Content

/-- The size of the smallest ledger file: eight pages. -/
def ledgerSize : Nat := 32768

/-- The bytes of a content. Of a ledger only the mark at its start and the size are known. -/
def toBytes : Content → Bytes
  | bytes text => text
  | ledger _ => ("SQLite format 3\x00" : Bytes) ++ List.replicate (ledgerSize - 16) 0

end Content

/-- What is at a place. -/
inductive Entry where
  | directory
  | file (content : Content)
  | link (target : Bytes)
deriving DecidableEq, Repr, Inhabited

/-- A tree of files seen from a working directory, with the permissions that are not the usual ones, the times at
which files were written, the numbers of the files that may have several names, the places whose names the system lets
nobody take away, and the time that it is. Times are in seconds. -/
structure Files where
  entries : List (Place × Entry)
  workingDirectory : Place
  permissions : List (Place × Nat) := []
  times : List (Place × Nat) := []
  shares : List (Place × Nat) := []
  pinned : List Place := []
  moment : Nat := 0
deriving DecidableEq, Repr, Inhabited

namespace Files

/-- What is at a place. -/
def get? (files : Files) (place : Place) : Option Entry :=
  if place.isEmpty then some .directory else (files.entries.find? (·.1 = place)).map (·.2)

/-- Entries with one of them set. -/
def setEntry (place : Place) (entry : Entry) : List (Place × Entry) → List (Place × Entry)
  | [] => [(place, entry)]
  | old :: rest => if old.1 = place then (place, entry) :: rest else old :: setEntry place entry rest

/-- What is said about a place. -/
def said? (marks : List (Place × Nat)) (place : Place) : Option Nat := (marks.find? (·.1 = place)).map (·.2)

/-- The tree with an entry put at a place, written at this time. -/
def put (files : Files) (place : Place) (entry : Entry) : Files :=
  { files with
    entries := setEntry place entry files.entries
    times := (place, files.moment) :: files.times.filter (·.1 ≠ place) }

/-- The tree without what is at a place. -/
def erase (files : Files) (place : Place) : Files :=
  { files with
    entries := files.entries.filter (·.1 ≠ place)
    permissions := files.permissions.filter (·.1 ≠ place)
    times := files.times.filter (·.1 ≠ place)
    shares := files.shares.filter (·.1 ≠ place) }

/-- The tree without what is at a place and below it. -/
def eraseAll (files : Files) (place : Place) : Files :=
  { files with
    entries := files.entries.filter (!place.isPrefixOf ·.1)
    permissions := files.permissions.filter (!place.isPrefixOf ·.1)
    times := files.times.filter (!place.isPrefixOf ·.1)
    shares := files.shares.filter (!place.isPrefixOf ·.1)
    pinned := files.pinned.filter (!place.isPrefixOf ·) }

/-- Whether some entry lies below a place. -/
def hasEntriesBelow (files : Files) (place : Place) : Bool :=
  files.entries.any fun entry => entry.1 ≠ place && place.isPrefixOf entry.1

/-- The tree with what is at a place, and below it, moved to another place. -/
def move (files : Files) (source target : Place) : Files :=
  { files with
    entries := files.entries.map moved
    permissions := files.permissions.map moved
    times := files.times.map moved
    shares := files.shares.map moved
    pinned := files.pinned.map goal }
where
  /-- Where a place has gone. -/
  goal (place : Place) : Place :=
    if source.isPrefixOf place then target ++ place.drop source.length else place
  /-- What is said about a place, said about where it has gone. -/
  moved {α : Type} (entry : Place × α) : Place × α := (goal entry.1, entry.2)

/-! ## Names of one file -/

/-- The number of the file at a place, if it may have other names. -/
def number? (files : Files) (place : Place) : Option Nat := said? files.shares place

/-- Whether two places are names of one file. -/
def isOneFile (files : Files) (place other : Place) : Bool :=
  place = other || ((files.number? place).isSome && files.number? place = files.number? other)

/-- The other names of the file at a place. -/
def twins (files : Files) (place : Place) : List Place :=
  match files.number? place with
  | none => []
  | some number => (files.shares.filter fun mark => mark.2 = number && mark.1 ≠ place).map (·.1)

/-- The tree with a content written to the file at a place, whatever its names are. -/
def write (files : Files) (place : Place) (content : Content) : Files :=
  (files.twins place).foldl (fun files name => files.put name (.file content)) (files.put place (.file content))

/-- The tree with another name for the file at a place. -/
def share (files : Files) (place other : Place) : Files :=
  match files.get? place with
  | none => files
  | some entry =>
    let number := (files.number? place).getD (files.shares.foldl (fun next mark => max next (mark.2 + 1)) 0)
    let same : List (Place × Nat) → List (Place × Nat) := fun marks =>
      match said? marks place with
      | some value => (other, value) :: marks
      | none => marks
    { files with
      entries := setEntry other entry files.entries
      permissions := same files.permissions
      times := same files.times
      shares := (other, number) :: (place, number) :: files.shares.filter (·.1 ≠ place) }

/-- How many names something has: a directory has one in its parent, one in itself and one in each directory in it. -/
def nameCount (files : Files) (place : Place) : Nat :=
  match files.get? place with
  | some .directory =>
    (files.entries.filter fun (below : Place × Entry) =>
      below.2 = .directory && below.1.length = place.length + 1 && place.isPrefixOf below.1).length + 2
  | _ => (files.twins place).length + 1

/-! ## Permissions and times -/

/-- The permissions of a place: three groups of three bits, those of the owner first. Unless they were
changed, everybody may read, only the owner may write, and directories may be entered. -/
def permissionsAt (files : Files) (place : Place) : Nat :=
  (said? files.permissions place).getD <|
    match files.get? place with
    | some .directory => 0o755
    | some (.link _) => 0o777
    | _ => 0o644

/-- The tree with the permissions of a place set, under all names of it. -/
def withPermissions (files : Files) (place : Place) (bits : Nat) : Files :=
  let names := place :: files.twins place
  { files with permissions := names.map (·, bits) ++ files.permissions.filter (!names.contains ·.1) }

/-- When the file at a place was written, or the beginning of time if that is not known. Of nothing else it is
known. -/
def timeAt (files : Files) (place : Place) : Nat :=
  match files.get? place with
  | some (.file _) => (said? files.times place).getD 0
  | _ => 0

/-- Whether somebody may run what is at a place. -/
def mayRun (files : Files) (place : Place) : Bool := files.permissionsAt place &&& 0o111 ≠ 0

/-- The directories that every system has, and the file that is always empty. -/
def systemEntries : List (Place × Entry) :=
  let folders := ["bin", "dev", "etc", "home", "lib", "mnt", "opt", "proc", "root", "run", "sbin", "sys", "tmp", "usr",
    "usr/bin", "usr/lib", "usr/local", "usr/local/bin", "usr/sbin", "usr/share", "var", "var/tmp"]
  folders.map (fun path => (Path.names (Bytes.ofString path), .directory)) ++
    [(Path.names (Bytes.ofString "dev/null"), .file (.bytes []))]

/-- A tree with nothing but what every system has and the directories down to a working directory. -/
def fresh (workingDirectory : Place) : Files where
  entries :=
    (List.range workingDirectory.length).map (fun n => (workingDirectory.take (n + 1), .directory)) ++ systemEntries
  workingDirectory := workingDirectory

/-- The working directory as a path. -/
def workingPath (files : Files) : Bytes := Path.ofComponents true files.workingDirectory

end Files

end MobilitySweep
