import MobilitySweep.Yaml.Event

/-! # YAML documents

The first document of a stream as a tree of nodes. Aliases refer to anchored nodes by number, also to
nodes that contain them; the anchored nodes stand in a table beside the tree.
-/

namespace MobilitySweep

namespace Yaml

/-- A node with its tag in short form and the line of its start, counted from one. An alias carries the
number of the anchor it refers to and the place where it stands, which tells aliases apart. -/
inductive Node where
  | scalar (tag : Bytes) (line : Nat) (value : Bytes)
  | sequence (tag : Bytes) (line : Nat) (items : List Node)
  | mapping (tag : Bytes) (line : Nat) (entries : List (Node × Node))
  | aliased (name : Bytes) (line : Nat) (target : Nat) (place : Nat)
deriving Inhabited

namespace Node

/-- The tag; an alias has none of its own. -/
def tag : Node → Bytes
  | scalar tag _ _ => tag
  | sequence tag _ _ => tag
  | mapping tag _ _ => tag
  | aliased _ _ _ _ => []

/-- The line where a node starts. -/
def line : Node → Nat
  | scalar _ line _ => line
  | sequence _ line _ => line
  | mapping _ line _ => line
  | aliased _ line _ _ => line

/-- The text of a node: a scalar's value, or the name of an alias. -/
def text : Node → Bytes
  | scalar _ _ value => value
  | sequence _ _ _ => []
  | mapping _ _ _ => []
  | aliased name _ _ _ => name

/-- Whether two nodes are of one kind and have the same text, which makes them the same key. -/
def sameKey (a b : Node) : Bool :=
  a.text = b.text &&
    match a, b with
    | scalar _ _ _, scalar _ _ _ => true
    | sequence _ _ _, sequence _ _ _ => true
    | mapping _ _ _, mapping _ _ _ => true
    | aliased _ _ _ _, aliased _ _ _ _ => true
    | _, _ => false

/-- Whether a key asks for other mappings to be merged in. -/
def isMerge : Node → Bool
  | scalar tag _ value => tag = Tag.merge && value = "<<"
  | _ => false

end Node

/-- A document: its root and the anchored nodes by number. -/
structure Document where
  root : Node
  anchored : List (Nat × Node)
deriving Inhabited

/-- A collection under construction with its anchor, if it has one. Children are kept in reverse; in a
mapping keys and values alternate. -/
structure Frame where
  isMapping : Bool
  tag : Bytes
  line : Nat
  anchor : Option Nat
  children : List Node
deriving Inhabited

/-- The construction of a document: open collections, innermost first, names of anchors with their
numbers, latest first, finished anchored nodes, and the root once it is finished. -/
structure Draughting where
  frames : List Frame
  names : List (Bytes × Nat)
  anchored : List (Nat × Node)
  root : Option Node
deriving Inhabited

namespace Draughting

/-- Keys and values taken from an alternating list. -/
def pairs : List Node → List (Node × Node)
  | key :: value :: rest => (key, value) :: pairs rest
  | _ => []

/-- A finished node put where it belongs. -/
def place (d : Draughting) (n : Node) : Draughting :=
  match d.frames with
  | frame :: rest => { d with frames := { frame with children := n :: frame.children } :: rest }
  | [] => { d with root := some n }

/-- A new anchor registered, if a name is given. -/
def register (d : Draughting) (anchor : Bytes) : Option Nat × Draughting :=
  if anchor.isEmpty then (none, d)
  else (some d.names.length, { d with names := (anchor, d.names.length) :: d.names })

/-- A node kept under its anchor. -/
def keep (d : Draughting) (anchor : Option Nat) (n : Node) : Draughting :=
  match anchor with
  | some number => { d with anchored := (number, n) :: d.anchored }
  | none => d

/-- The tag of a scalar: its own, or by its form if it is plain. -/
def scalarTag (tag value : Bytes) (style : ScalarStyle) : Bytes :=
  if !tag.isEmpty && tag ≠ "!" then Tag.short tag
  else if style ≠ .plain then Tag.str
  else if value = "<<" then Tag.merge
  else (classify true value).tag

/-- The tag of a collection. -/
def collectionTag (tag standard : Bytes) : Bytes :=
  if !tag.isEmpty && tag ≠ "!" then Tag.short tag else standard

/-- A collection opened. -/
def openFrame (d : Draughting) (isMapping : Bool) (anchor tag : Bytes) (line : Nat) : Draughting :=
  let (number, d) := d.register anchor
  { d with frames := ⟨isMapping, tag, line, number, []⟩ :: d.frames }

/-- The innermost collection finished. -/
def closeFrame (d : Draughting) : Draughting :=
  match d.frames with
  | frame :: rest =>
    let children := frame.children.reverse
    let n : Node :=
      if frame.isMapping then .mapping frame.tag frame.line (pairs children)
      else .sequence frame.tag frame.line children
    ({ d with frames := rest }.keep frame.anchor n).place n
  | [] => d

/-- One event taken into account. -/
def take (d : Draughting) (e : Event) : Except Flaw Draughting :=
  let line := e.start.line + 1
  match e.kind with
  | .aliased name =>
    match d.names.find? (·.1 = name) with
    | some (_, number) => .ok (d.place (.aliased name line number e.start.index))
    | none => .error (.unknownAnchor name)
  | .scalar anchor tag value style =>
    let (number, d) := d.register anchor
    let n : Node := .scalar (scalarTag tag value style) line value
    .ok ((d.keep number n).place n)
  | .sequenceStart anchor tag => .ok (d.openFrame false anchor (collectionTag tag Tag.sequence) line)
  | .mappingStart anchor tag => .ok (d.openFrame true anchor (collectionTag tag Tag.mapping) line)
  | .sequenceEnd | .mappingEnd => .ok d.closeFrame
  | _ => .ok d

/-- Events taken up to the end of the first document, or of the stream. -/
def complete : Nat → Draughting → Parser → Except Flaw Draughting
  | 0, d, _ => .ok d
  | count + 1, d, p => do
    let (e, p) ← p.step
    match p.flaw?, e.kind with
    | some flaw, _ => .error flaw
    | none, .documentEnd | none, .streamEnd => return d
    | none, _ => complete count (← d.take e) p

end Draughting

/-- The first document of a stream, if there is one. The number of events is bounded by the length of
the stream. -/
def Document.ofBytes (bytes : Bytes) : Except Flaw (Option Document) := do
  let p := Parser.ofBytes bytes
  let d ← Draughting.complete (16 * p.tokens.bound + 64) ⟨[], [], [], none⟩ p
  return d.root.map fun root => ⟨root, d.anchored⟩

end Yaml

end MobilitySweep
