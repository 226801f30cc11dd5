import MobilitySweep.Files.Operations
import MobilitySweep.Sweep.Layout
import MobilitySweep.Text.Quoted

/-! # Confinement and provisioning

The files of a sweep stay below its root: a path is accepted when, after links on its existing
directories are followed, it lies in the root. The directories of a layout are created on demand.
-/

namespace MobilitySweep

namespace Files

/-- Why a path is refused. -/
inductive Unconfined where
  | emptyPath
  | noRoot
  | nullByte
  | outside (path root : Bytes)
deriving DecidableEq, Repr

/-- The refusal as a fault. -/
def Unconfined.fault (reason : Unconfined) : Fault :=
  .plain ("path validation failed: " ++ match reason with
    | emptyPath => ("path is empty" : Bytes)
    | noRoot => "no root directory configured"
    | nullByte => "path contains null byte"
    | outside path root =>
      Quoted.quote (Path.redact path) ++ " is outside sweep root " ++ Quoted.quote (Path.redact root))

/-- Components, last one first, with the links of the deepest existing directory followed; names below
it are kept. -/
def resolveExisting (files : Files) : List Bytes → Place
  | [] => []
  | name :: above =>
    -- The whole is tried first, then the directories above it.
    match files.evaluate? (above.reverse ++ [name]) with
    | some place => place
    | none => resolveExisting files above ++ [name]

/-- The absolute form of a path. -/
def absolutePath (files : Files) (path : Bytes) : Bytes :=
  Path.absolute files.workingPath (Path.clean path)

/-- The place a path stands for: links on its directories are followed, its last name is kept. -/
def resolvedPath (files : Files) (path : Bytes) : Bytes :=
  match (Path.components (files.absolutePath path)).reverse with
  | [] => Path.ofComponents true []
  | name :: above => Path.ofComponents true (files.resolveExisting above ++ [name])

/-- The place a root stands for, all links followed as far as it exists. -/
def resolvedRoot (files : Files) (root : Bytes) : Bytes :=
  Path.ofComponents true (files.resolveExisting (Path.components (files.absolutePath root)).reverse)

/-- A path checked to lie in a root. -/
def validatePath (files : Files) (path root : Bytes) : Except Unconfined Unit :=
  if path.isEmpty then .error .emptyPath
  else if root.isEmpty then .error .noRoot
  else if path.contains 0 then .error .nullByte
  else if Path.isBelow (files.resolvedPath path) (files.resolvedRoot root) then .ok ()
  else .error (.outside (files.absolutePath path) (files.absolutePath root))

/-- Paths checked in order. -/
def validatePaths (files : Files) (root : Bytes) : List Bytes → Except Unconfined Unit
  | [] => .ok ()
  | path :: rest =>
    match files.validatePath path root with
    | .ok () => validatePaths files root rest
    | .error reason => .error reason

/-- Directories created unless they exist, in order, up to the first failure. -/
def ensureDirectories (files : Files) : List Bytes → Files × Option Fault
  | [] => (files, none)
  | path :: rest =>
    if path.isEmpty then (files, some (.plain "ensure dirs: empty directory name"))
    else
      match files.stat path with
      | .ok .directory => ensureDirectories files rest
      | .ok _ => (files, some (.plain ("ensure dirs: " ++ path ++ " exists and is not a directory")))
      | .error .missing =>
        match files.mkdirAll path with
        | (files, none) => ensureDirectories files rest
        | (files, some fault) => (files, some (fault.within ("ensure dirs: creating " ++ path)))
      | .error cause =>
        (files, some ((cause.fault "stat" [path]).within ("ensure dirs: stat " ++ path)))

end Files

namespace Layout

/-- The directories of a layout created, once all of them are known to lie in its root. -/
def provision (l : Layout) (files : Files) : Files × Option Fault :=
  match files.validatePaths l.root l.directories with
  | .error reason => (files, some (reason.fault.within "provisioning layout"))
  | .ok () =>
    match files.ensureDirectories l.directories with
    | (files, none) => (files, none)
    | (files, some fault) => (files, some (fault.within "provisioning layout"))

end Layout

end MobilitySweep
