import MobilitySweep.Fault
import MobilitySweep.Files.Tree

/-! # Operations on files

How paths are followed, and the operations on what they lead to.
-/

namespace MobilitySweep

/-! ## Causes of failures and walks along paths

Why an operation on files is refused. The fault names the operation and the path as the caller wrote
it.
-/

namespace Files

/-- Why a file operation is refused. -/
inductive Cause where
  | missing
  | present
  | notDirectory
  | isDirectory
  | notEmpty
  | tooManyLinks
  | nameTooLong
  | invalid
  | denied
  | notPermitted
  | noProgram
deriving DecidableEq, Repr, Inhabited

namespace Cause

/-- The wording of a cause. -/
def message : Cause → Bytes
  | missing => "no such file or directory"
  | present => "file exists"
  | notDirectory => "not a directory"
  | isDirectory => "is a directory"
  | notEmpty => "directory not empty"
  | tooManyLinks => "too many levels of symbolic links"
  | nameTooLong => "file name too long"
  | invalid => "invalid argument"
  | denied => "permission denied"
  | notPermitted => "operation not permitted"
  | noProgram => "exec format error"

/-- The kind of fault a cause makes. -/
def kind : Cause → FaultKind
  | missing => .missing
  | _ => .other

/-- The cause as a fault of an operation on some paths. -/
def fault (operation : Bytes) (paths : List Bytes) (cause : Cause) : Fault :=
  ⟨cause.kind, Bytes.joinWith " " (operation :: paths) ++ ": " ++ cause.message⟩

end Cause

end Files

/-! ## Walking along paths

A path is followed name by name. Symbolic links on the way are replaced by their targets, a bounded
number of times, and the last name is followed only when the operation asks for it. A slash at the end
of a path asks for a directory.
-/

namespace Files

/-- Where a path leads: to an entry, or to a free place in an existing directory. -/
inductive Spot where
  | taken (place : Place) (entry : Entry)
  | free (place : Place) (slash : Bool)
deriving DecidableEq, Repr

/-- How a walk goes on: it has arrived, continues from elsewhere behind a link, or is stuck. -/
inductive Progress where
  | arrived (spot : Spot)
  | jump (place : Place) (names : List Bytes) (slash : Bool)
  | stuck (cause : Cause)
deriving DecidableEq, Repr

/-- The most bytes of a name. -/
def nameLimit : Nat := 255

/-- The bytes a path has to stay below. -/
def pathLimit : Nat := 4096

/-- How many links one walk may follow. -/
def linkLimit : Nat := 40

/-- Whether a path ends with a slash. -/
def endsWithSlash (path : Bytes) : Bool := path.getLast? == some ('/' : UInt8)

/-- A walk from a directory up to the next link that has to be followed. -/
def scan (files : Files) (follow slash : Bool) : Place → List Bytes → Progress
  | here, [] => .arrived (.taken here .directory)
  | here, name :: rest =>
    if name = Path.here then scan files follow slash here rest
    else if name = Path.above then scan files follow slash here.dropLast rest
    else if nameLimit < name.length then .stuck .nameTooLong
    else
      let place := here ++ [name]
      match files.get? place with
      | none => if rest.isEmpty then .arrived (.free place slash) else .stuck .missing
      | some .directory => scan files follow slash place rest
      | some (.file content) =>
        if rest.isEmpty && !slash then .arrived (.taken place (.file content)) else .stuck .notDirectory
      | some (.link target) =>
        -- A slash asks for a directory, so in front of one even a last link is followed.
        if rest.isEmpty && !follow && !slash then .arrived (.taken place (.link target))
        else
          .jump (if Path.isAbsolute target then [] else here) (Path.names target ++ rest)
            (slash || (rest.isEmpty && endsWithSlash target))

/-- A walk that may follow so many links. -/
def walk (files : Files) (follow : Bool) : Nat → Bool → Place → List Bytes → Except Cause Spot
  | links, slash, here, names =>
    match files.scan follow slash here names with
    | .arrived spot => .ok spot
    | .stuck cause => .error cause
    | .jump place rest slash =>
      match links with
      | 0 => .error .tooManyLinks
      | links + 1 => walk files follow links slash place rest

/-- The directory a path starts from. -/
def start (files : Files) (path : Bytes) : Place :=
  if Path.isAbsolute path then [] else files.workingDirectory

/-- Where a path leads. -/
def resolve (files : Files) (follow : Bool) (path : Bytes) : Except Cause Spot :=
  if path.contains 0 then .error .invalid
  else if path.isEmpty then .error .missing
  else if pathLimit ≤ path.length then .error .nameTooLong
  else files.walk follow linkLimit (endsWithSlash path) (files.start path) (Path.names path)

/-- How many links are followed when a path is evaluated as a whole. -/
def evaluationLimit : Nat := 255

/-- The place that normalised absolute components lead to once every link is followed, if something
is there. -/
def evaluate? (files : Files) (components : Place) : Option Place :=
  match files.walk true evaluationLimit false [] components with
  | .ok (.taken place _) => some place
  | _ => none

end Files

/-! ## File operations

The operations of a file system on the tree. Each is one atomic change; those that consist of several
changes keep what was done before a failure.
-/

namespace Files

/-- What a path leads to, links followed. -/
def stat (files : Files) (path : Bytes) : Except Cause Entry := do
  match ← files.resolve true path with
  | .taken _ entry => .ok entry
  | .free _ _ => .error .missing

/-- What a path leads to, a link at its end not followed. -/
def linkStat (files : Files) (path : Bytes) : Except Cause Entry := do
  match ← files.resolve false path with
  | .taken _ entry => .ok entry
  | .free _ _ => .error .missing

/-- Whether a path leads to anything. -/
def exists? (files : Files) (path : Bytes) : Bool :=
  match files.stat path with
  | .ok _ => true
  | .error _ => false

/-- Whether a path leads to a directory, a link at its end not followed. -/
def isPlainDirectory (files : Files) (path : Bytes) : Bool :=
  match files.linkStat path with
  | .ok .directory => true
  | _ => false

/-- A file opened for reading; a directory can be opened but not read. -/
def openFile (files : Files) (path : Bytes) : Except Fault Entry :=
  (files.stat path).mapError (Cause.fault "open" [path])

/-- The content of what was opened under a path. -/
def readOpened (path : Bytes) : Entry → Except Fault Content
  | .file content => .ok content
  | _ => .error (Cause.isDirectory.fault "read" [path])

/-- The content of a file. -/
def contentAt (files : Files) (path : Bytes) : Except Fault Content := do
  readOpened path (← files.openFile path)

/-- Whether two paths lead to one file. -/
def isSameFile (files : Files) (path other : Bytes) : Bool :=
  match files.resolve true path, files.resolve true other with
  | .ok (.taken place (.file _)), .ok (.taken place' (.file _)) => files.isOneFile place place'
  | _, _ => false

/-- When the file that a path leads to was written. -/
def timeOf (files : Files) (path : Bytes) : Nat :=
  match files.resolve true path with
  | .ok (.taken place _) => files.timeAt place
  | _ => 0

/-- A path without slashes at its end. -/
def withoutSlash (path : Bytes) : Bytes := (path.reverse.dropWhile (· = ('/' : UInt8))).reverse

/-- The place of a file that is opened for writing: an existing file or a free place. -/
def writablePlace (files : Files) (path : Bytes) : Except Cause Place :=
  if endsWithSlash path && !(Path.names path).isEmpty && !path.contains 0 then do
    let _ ← files.resolve false (withoutSlash path)
    .error .isDirectory
  else do
    match ← files.resolve true path with
    | .taken _ .directory => .error .isDirectory
    | .taken place _ => .ok place
    | .free place slash => if slash then .error .isDirectory else .ok place

/-- A file created, or emptied if it exists. -/
def create (files : Files) (path : Bytes) : Files × Option Fault :=
  match files.writablePlace path with
  | .ok place => (files.write place (.bytes []), none)
  | .error cause => (files, some (cause.fault "open" [path]))

/-- A file opened for appending, created if it is missing. -/
def openAppend (files : Files) (path : Bytes) : Files × Option Fault :=
  match files.writablePlace path with
  | .ok place =>
    match files.get? place with
    | some _ => (files, none)
    | none => (files.write place (.bytes []), none)
  | .error cause => (files, some (cause.fault "open" [path]))

/-- Bytes added at the end of an open file. -/
def append (files : Files) (path text : Bytes) : Files :=
  match files.resolve true path with
  | .ok (.taken place (.file old)) => files.write place (.bytes (old.toBytes ++ text))
  | _ => files

/-- A file created with a content. -/
def writeFile (files : Files) (path text : Bytes) : Files × Option Fault :=
  match files.create path with
  | (files, none) => (files.append path text, none)
  | failed => failed

/-- A directory created at a free place. -/
def mkdir (files : Files) (path : Bytes) : Except Cause Files :=
  if (Path.names path).isEmpty && Path.isAbsolute path then .error .present
  else do
    match ← files.resolve false (withoutSlash path) with
    | .taken _ _ => .error .present
    | .free place _ => .ok (files.put place .directory)

/-- The text of a path up to and including the slash before its last name. -/
def parentText (path : Bytes) : Bytes :=
  ((path.reverse.dropWhile (· = ('/' : UInt8))).dropWhile (· ≠ ('/' : UInt8))).reverse

/-- A path and the texts of its parents, at most so many. -/
def parentTexts : Nat → Bytes → List Bytes
  | 0, _ => []
  | count + 1, path => if path.isEmpty then [] else path :: parentTexts count (parentText path)

/-- The first of some paths created as a directory, the others being its parents in turn. -/
def mkdirChain (files : Files) : List Bytes → Files × Option Fault
  | [] => (files, none)
  | path :: parents =>
    match files.stat path with
    | .ok .directory => (files, none)
    | .ok _ => (files, some (Cause.notDirectory.fault "mkdir" [path]))
    | .error _ =>
      match mkdirChain files parents with
      | (files, some fault) => (files, some fault)
      | (files, none) =>
        match files.mkdir path with
        | .ok files => (files, none)
        | .error cause =>
          -- A path that ends in a dot is there once its parents are.
          if files.isPlainDirectory path then (files, none)
          else (files, some (cause.fault "mkdir" [path]))

/-- A directory created with all its parents, unless it exists. -/
def mkdirAll (files : Files) (path : Bytes) : Files × Option Fault :=
  if path.isEmpty then (files, some (Cause.missing.fault "mkdir" [path]))
  else files.mkdirChain (parentTexts (path.length + 1) path)

/-- An entry moved over another one, as far as their kinds allow and both names may be taken away. Two names of one
file are both kept. -/
def renameEntry (files : Files) (source target : Bytes) : Except Cause Files := do
  match ← files.resolve false source with
  | .free _ _ => .error .missing
  | .taken oldPlace old =>
    let spot ← if target.isEmpty then .error .missing else files.resolve false (withoutSlash target)
    let isDirectory := decide (old = .directory)
    match spot with
    | .free place _ =>
      if endsWithSlash target && !isDirectory then .error .notDirectory
      else if isDirectory && oldPlace.isPrefixOf place then .error .invalid
      else if files.pinned.contains oldPlace then .error .notPermitted
      else .ok (files.move oldPlace place)
    | .taken place existing =>
      -- The order of the questions decides which cause is told.
      if endsWithSlash target && !isDirectory then .error .notDirectory
      else if files.isOneFile oldPlace place then .ok files
      else if files.pinned.contains oldPlace || files.pinned.contains place then .error .notPermitted
      else if isDirectory && existing ≠ .directory then .error .notDirectory
      else if !isDirectory && existing = .directory then .error .isDirectory
      else if isDirectory && oldPlace.isPrefixOf place then .error .invalid
      else if files.hasEntriesBelow place then .error .notEmpty
      else .ok ((files.erase place).move oldPlace place)

/-- A file renamed. Nothing is ever renamed onto another directory. -/
def rename (files : Files) (source target : Bytes) : Files × Option Fault :=
  let failed : Cause → Files × Option Fault := fun cause =>
    (files, some (cause.fault "rename" [source, target]))
  let renamed : Files × Option Fault :=
    match files.renameEntry source target with
    | .ok files => (files, none)
    | .error cause => failed cause
  -- A directory under the new name is found before the system is asked, and stays what it is.
  match files.resolve false target with
  | .ok (.taken place .directory) =>
    match files.resolve false source with
    | .error cause => failed cause
    | .ok (.free _ _) => failed .missing
    | .ok (.taken oldPlace _) => if source = target || oldPlace ≠ place then failed .present else renamed
  | _ => renamed

/-- A file, a link or an empty directory removed, if its name may be taken away. -/
def remove (files : Files) (path : Bytes) : Files × Option Fault :=
  match files.resolve false path with
  | .error cause => (files, some (cause.fault "remove" [path]))
  | .ok (.free _ _) => (files, some (Cause.missing.fault "remove" [path]))
  | .ok (.taken place entry) =>
    if files.pinned.contains place then (files, some (Cause.notPermitted.fault "remove" [path]))
    else if entry = .directory && files.hasEntriesBelow place then
      (files, some (Cause.notEmpty.fault "remove" [path]))
    else (files.erase place, none)

/-- Whatever is at a path removed, with everything below it. -/
def removeAll (files : Files) (path : Bytes) : Files :=
  match files.resolve false path with
  | .ok (.taken place _) => files.eraseAll place
  | _ => files

/-- A symbolic link created at a free place. -/
def symlink (files : Files) (target path : Bytes) : Files :=
  match files.resolve false path with
  | .ok (.free place _) => files.put place (.link target)
  | _ => files

/-- The entries below the working directory, by their relative paths in bytewise order. -/
def listing (files : Files) : List (Bytes × Entry) :=
  let depth := files.workingDirectory.length
  let below := files.entries.filterMap fun (place, entry) =>
    if depth < place.length && files.workingDirectory.isPrefixOf place then
      some (Bytes.joinWith "/" (place.drop depth), entry)
    else none
  below.mergeSort fun a b => !Bytes.less b.1 a.1

end Files

end MobilitySweep
