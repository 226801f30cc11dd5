import MobilitySweep.Text.Bytes

/-! # Path texts

Paths as texts with slashes, and their lexical normal form: empty and single-dot components vanish,
and a double dot cancels the component before it. Nothing here looks at any file.
-/

namespace MobilitySweep

namespace Path

/-- Whether a path starts at the root. -/
def isAbsolute (path : Bytes) : Bool := path.head? == some ('/' : UInt8)

/-- The components of a path as written, empty ones included. -/
def pieces (path : Bytes) : List Bytes := Bytes.splitOn '/' path

/-- The components of a path as written, without empty ones. -/
def names (path : Bytes) : List Bytes := (pieces path).filter (!·.isEmpty)

/-- The component for the directory itself. -/
def here : Bytes := "."

/-- The component for the directory above. -/
def above : Bytes := ".."

/-- One more component on a stack of normalised ones: above the root is the root, and above a relative
start stays written out. -/
def push (absolute : Bool) (stack : List Bytes) (name : Bytes) : List Bytes :=
  if name.isEmpty || name = here then stack
  else if name = above then
    match stack with
    | [] => if absolute then [] else [above]
    | top :: rest => if top = above then above :: top :: rest else rest
  else name :: stack

/-- The normalised components. -/
def components (path : Bytes) : List Bytes :=
  ((pieces path).foldl (push (isAbsolute path)) []).reverse

/-- A path made of components. -/
def ofComponents (absolute : Bool) (parts : List Bytes) : Bytes :=
  if absolute then "/" ++ Bytes.joinWith "/" parts
  else if parts.isEmpty then here
  else Bytes.joinWith "/" parts

/-- The normal form of a path. -/
def clean (path : Bytes) : Bytes := ofComponents (isAbsolute path) (components path)

/-- Paths put behind one another, normalised; empty ones in front are ignored, and nothing but empty
ones gives the empty path. -/
def join : List Bytes → Bytes
  | [] => []
  | path :: rest => if path.isEmpty then join rest else clean (Bytes.joinWith "/" (path :: rest))

/-- A path split behind its last slash. -/
def splitLast (path : Bytes) : Bytes × Bytes :=
  let name := (path.reverse.takeWhile (· ≠ ('/' : UInt8))).reverse
  (path.take (path.length - name.length), name)

/-- The directory part, normalised. -/
def directory (path : Bytes) : Bytes := clean (splitLast path).1

/-- The last component; the root is its own, and so is the empty path's dot. -/
def base (path : Bytes) : Bytes :=
  if path.isEmpty then here
  else
    let stripped := (path.reverse.dropWhile (· = ('/' : UInt8))).reverse
    if stripped.isEmpty then "/" else (splitLast stripped).2

/-- The absolute form of a path seen from a working directory. -/
def absolute (workingDirectory path : Bytes) : Bytes :=
  if isAbsolute path then clean path else join [workingDirectory, path]

/-- A path cut to its last two components, for messages. -/
def redact (path : Bytes) : Bytes :=
  if path.isEmpty then []
  else
    let cleaned := clean path
    let parent := base (directory cleaned)
    if parent = here || parent = "/" then base cleaned
    else ".../" ++ parent ++ "/" ++ base cleaned

/-- Whether a path equals another one or lies below it, component by component. -/
def isBelow (path root : Bytes) : Bool :=
  path = root ||
    (((Bytes.dropSuffix? "/" root).getD root) ++ "/").isPrefixOf path

end Path

end MobilitySweep
