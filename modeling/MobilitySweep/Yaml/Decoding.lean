import MobilitySweep.Text.Bytes
import MobilitySweep.Yaml.Node

/-! # Decoding documents into settings

Nodes are decoded into settings of known kinds. Mismatches are collected, so that one reading reports
all of them; a few faults end the reading at once. A setting keeps its value where the document says
nothing, or null.
-/

namespace MobilitySweep

namespace Yaml

/-- Why decoding ends at once. -/
inductive Abort where
  | unfitForm (form text tag : Bytes)
  | invalidBase64
  | mergeWantsMapping
  | containsItself (name : Bytes)
  | excessiveAliasing
deriving DecidableEq, Repr

/-- The wording of an abort. -/
def Abort.message : Abort → Bytes
  | unfitForm form text tag =>
    "cannot decode " ++ form ++ " " ++ [(96 : UInt8)] ++ text ++ [(96 : UInt8)] ++ " as a " ++ tag
  | invalidBase64 => "!!binary value contains invalid base64 data"
  | mergeWantsMapping => "map merge requires map or sequence of maps as the value"
  | containsItself name => "anchor '" ++ name ++ "' value contains itself"
  | excessiveAliasing => "document contains excessive aliasing"

/-- The state of decoding: the mismatches so far in reverse, how many nodes were decoded and how many of
them through aliases, and the aliases being followed. -/
structure Decoding where
  mismatches : List Bytes
  decoded : Nat
  aliased : Nat
  following : List Nat
deriving Inhabited

namespace Decoding

/-- A fresh state: the document itself is the first node counted. -/
def start : Decoding := ⟨[], 1, 0, []⟩

/-- A mismatch noted. -/
def note (d : Decoding) (message : Bytes) : Decoding := { d with mismatches := message :: d.mismatches }

/-- A value as it is shown in a mismatch: long ones are cut. -/
def shown (text : Bytes) : Bytes :=
  let cut : Bytes := if 10 < text.length then text.take 7 ++ "..." else text
  " " ++ [(96 : UInt8)] ++ cut ++ [(96 : UInt8)]

/-- The mismatch of a node with the kind of setting it is decoded into. A scalar with the tag of a
collection is shown whole behind its tag. -/
def mismatch (d : Decoding) (n : Node) (wanted : Bytes) : Decoding :=
  let value := if n.tag = Tag.sequence || n.tag = Tag.mapping then n.text else shown n.text
  d.note ("line " ++ Decimal.ofNat n.line ++ ": cannot unmarshal " ++ n.tag ++ value ++ " into " ++ wanted)

/-- Whether aliased nodes are too large a share of the decoded ones: more than 99 in 100 of up to 400000
nodes, more than 10 in 100 from 4000000 on, and a share that falls evenly between the two. -/
def isExcessive (aliased decoded : Nat) : Bool :=
  if decoded ≤ 400000 then 99 * decoded < 100 * aliased
  else if 4000000 ≤ decoded then decoded < 10 * aliased
  else (99 * 3600000 - 89 * (decoded - 400000)) * decoded < 360000000 * aliased

/-- One more node counted; too large a share of aliased nodes is refused once there are many. -/
def count (d : Decoding) : Except Abort Decoding :=
  let d := { d with
    decoded := d.decoded + 1
    aliased := if d.following.isEmpty then d.aliased else d.aliased + 1 }
  if 100 < d.aliased && 1000 < d.decoded && isExcessive d.aliased d.decoded then .error .excessiveAliasing
  else .ok d

end Decoding

/-- The node an alias stands for, and the state in which it is decoded. -/
def follow (document : Document) (d : Decoding) (name : Bytes) (target place : Nat) :
    Except Abort (Option Node × Decoding) :=
  if d.following.contains place then .error (.containsItself name)
  else
    .ok ((document.anchored.find? (·.1 = target)).map (·.2), { d with following := place :: d.following })

/-- A decoder for one kind of setting: from the current value to the new one, with a flag that says
whether the node gave a value. -/
abbrev Decoder (α : Type) := Node → α → Decoding → Except Abort (Bool × α × Decoding)

/-- A decoder that also accepts aliases of what it accepts. The count bounds the chain of aliases. -/
def throughAliases {α : Type} (document : Document) (decoder : Decoder α) : Nat → Decoder α
  | 0, _, current, d => .ok (false, current, d)
  | depth + 1, n, current, d => do
    let d ← d.count
    match n with
    | .aliased name _ target place =>
      let (found, inside) ← follow document d name target place
      match found with
      | none => return (false, current, d)
      | some node =>
        let (good, value, after) ← throughAliases document decoder depth node current inside
        return (good, value, { after with following := d.following })
    | _ => decoder n current d

/-- The value of a scalar node. -/
def scalarValue (tag text : Bytes) : Except Abort (Bytes × Value) :=
  if tag = Tag.str then .ok (Tag.str, .text text)
  else match resolve? tag text with
    | none => .error (.unfitForm (classify (tag = Tag.timestamp) text).tag text tag)
    | some (found, value) =>
      if found = Tag.binary then
        match Base64.decode? text with
        | none => .error .invalidBase64
        | some bytes => .ok (Tag.binary, .text bytes)
      else .ok (found, value)

/-- A decoder for scalars: how a value of some form becomes a setting, given the text as written. -/
def scalarDecoder {α : Type} (wanted : Bytes) (convert : Bytes → Bytes → Value → Option α) : Decoder α :=
  fun n current d =>
    match n with
    | .scalar tag _ text => do
      let (found, value) ← scalarValue tag text
      match value with
      | .null => return (false, current, d)
      | value =>
        match convert found text value with
        | some x => return (true, x, d)
        | none => return (false, current, d.mismatch n wanted)
    | _ => .ok (false, current, d.mismatch n wanted)

/-- Cutting a floating-point number to a 64-bit integer; numbers below the range give the least one. -/
def cutFloat : Binary64 → Option Int64
  | .nan => none
  | .infinite negative => if negative then some Int64.minValue else none
  | .finite negative units =>
    let whole := units / Binary64.one
    if negative then
      if Nat.pow 2 63 < whole then some Int64.minValue else some (Int64.ofInt (-(whole : Int)))
    else if Nat.pow 2 63 < units / Binary64.one || (whole = Nat.pow 2 63 && units % Binary64.one ≠ 0) then none
    else if whole = Nat.pow 2 63 then some Int64.minValue
    else some (Int64.ofNat whole)

/-- Integers: also floating-point numbers, cut. -/
def int64Of (_ _ : Bytes) : Value → Option Int64
  | .int n => some n
  | .unsigned n => if n < Nat.pow 2 63 then some (Int64.ofNat n) else none
  | .float x => cutFloat x
  | _ => none

/-- Truth values: also the words of older documents. -/
def boolOf (_ _ : Bytes) : Value → Option Bool
  | .bool b => some b
  | .text t =>
    if t = "y" || t = "Y" || t = "yes" || t = "Yes" || t = "YES" || t = "on" || t = "On" || t = "ON" then
      some true
    else if t = "n" || t = "N" || t = "no" || t = "No" || t = "NO" || t = "off" || t = "Off" || t = "OFF" then
      some false
    else none
  | _ => none

/-- Texts: any scalar as it was written, or the decoded bytes. -/
def textOf (found text : Bytes) : Value → Option Bytes
  | .text t => if found = Tag.binary then some t else some text
  | _ => some text

/-- Durations: only texts. -/
def durationOf (_ _ : Bytes) : Value → Option Duration
  | .text t => Duration.read? t
  | _ => none

/-- The items that decode, in order; items that are null or do not fit are left out. -/
def decodeItems {α : Type} (initial : α) (item : Decoder α) :
    List Node → List α → Decoding → Except Abort (List α × Decoding)
  | [], found, d => .ok (found.reverse, d)
  | n :: rest, found, d => do
    let (good, x, d) ← item n initial d
    decodeItems initial item rest (if good then x :: found else found) d

/-- Whether two keys of a mapping are the same: every later occurrence is a mismatch. -/
def repeatedKeys : List (Node × Node) → Decoding → Decoding
  | [], d => d
  | (key, _) :: rest, d =>
    let d := rest.foldl (fun d entry =>
      if key.sameKey entry.1 then
        d.note ("line " ++ Decimal.ofNat entry.1.line ++ ": mapping key " ++ Quoted.quote entry.1.text ++
          " already defined at line " ++ Decimal.ofNat key.line)
      else d) d
    repeatedKeys rest d

/-- A decoder for lists; null makes the list unset. -/
def listDecoder {α : Type} (wanted : Bytes) (initial : α) (item : Decoder α) : Decoder (Option (List α)) :=
  fun n current d =>
    match n with
    | .sequence _ _ items => do
      let (found, d) ← decodeItems initial item items [] d
      return (true, some found, d)
    | .scalar tag _ text => do
      let (_, value) ← scalarValue tag text
      match value with
      | .null => return (true, none, d)
      | _ => return (false, current, d.mismatch n wanted)
    | .mapping _ _ entries =>
      let checked := repeatedKeys entries d
      if checked.mismatches.length = d.mismatches.length then .ok (false, current, d.mismatch n wanted)
      else .ok (false, current, checked)
    | .aliased _ _ _ _ => .ok (false, current, d)

/-- A decoder that reports repeated keys of a mapping before the mismatch itself. -/
def checkingKeys {α : Type} (decoder : Decoder α) : Decoder α := fun n current d =>
  match n with
  | .mapping _ _ entries =>
    let checked := repeatedKeys entries d
    if checked.mismatches.length = d.mismatches.length then decoder n current d
    else .ok (false, current, checked)
  | _ => decoder n current d

/-- A setting that can be unset by null. A list or a mapping with the tag of null is held against the
setting that may be unset, and any other node against its value. -/
def optionalDecoder {α : Type} (initial : α) (wanted : Bytes) (decoder : Decoder α) : Decoder (Option α) :=
  fun n current d => do
    match n with
    | .scalar tag _ text =>
      match (← scalarValue tag text).2 with
      | .null => return (true, none, d)
      | _ =>
        let (good, x, d) ← decoder n (current.getD initial) d
        return (good, some x, d)
    | _ =>
      if n.tag = Tag.null then return (false, current, d.mismatch n wanted)
      else
        let (good, x, d) ← decoder n (current.getD initial) d
        return (good, some x, d)

/-! ## Records -/

/-- A field of a record: its name and how a node changes it. -/
structure Slot (α : Type) where
  name : Bytes
  decode : Node → α → Decoding → Except Abort (α × Decoding)

/-- A field from a decoder and the way into the record. -/
def Slot.of {α β : Type} (name : Bytes) (decoder : Decoder β) (get : α → β) (set : α → β → α) : Slot α :=
  ⟨name, fun n record d => do
    let (_, x, d) ← decoder n (get record) d
    return (set record x, d)⟩

/-- The state of decoding one mapping into a record: fields already set in it, and the keys that take
precedence over merged ones. -/
structure RecordState (α : Type) where
  record : α
  decoding : Decoding
  done : List Bytes
  precedence : Option (List Bytes)
  merge : Option Node

/-- One entry of a mapping taken into a record. -/
def takeEntry {α : Type} (wanted : Bytes) (fields : List (Slot α)) (key : Decoder Bytes)
    (entry : Node × Node) (s : RecordState α) : Except Abort (RecordState α) := do
  if entry.1.isMerge then return { s with merge := some entry.2 }
  else
    let (good, name, d) ← key entry.1 [] s.decoding
    let s := { s with decoding := d }
    if !good then return s
    else
      match s.precedence with
      | some names =>
        if names.contains name then return s
        else takeField { s with precedence := some (name :: names) } name
      | none => takeField s name
where
  /-- The value of a known field decoded; a second value for it is a mismatch. -/
  takeField (s : RecordState α) (name : Bytes) : Except Abort (RecordState α) := do
    match fields.find? (·.name = name) with
    | none => return s
    | some field =>
      if s.done.contains name then
        return { s with
          decoding := s.decoding.note
            ("line " ++ Decimal.ofNat entry.1.line ++ ": field " ++ name ++ " already set in type " ++ wanted) }
      else
        let (record, d) ← field.decode entry.2 s.record s.decoding
        return { s with record := record, decoding := d, done := name :: s.done }

/-- The entries of a mapping taken into a record. -/
def takeEntries {α : Type} (wanted : Bytes) (fields : List (Slot α)) (key : Decoder Bytes) :
    List (Node × Node) → RecordState α → Except Abort (RecordState α)
  | [], s => .ok s
  | entry :: rest, s => do takeEntries wanted fields key rest (← takeEntry wanted fields key entry s)

/-- The names of the keys of a mapping, which take precedence over merged ones. -/
def keyNames (key : Decoder Bytes) : List (Node × Node) → List Bytes → Decoding →
    Except Abort (List Bytes × Decoding)
  | [], names, d => .ok (names, d)
  | (node, _) :: rest, names, d => do
    let (good, name, d) ← key node [] d
    keyNames key rest (if good then name :: names else names) d

/-- Whether a node is a mapping that can be merged, or an alias of one. -/
def isMergeable (document : Document) : Node → Bool
  | .mapping _ _ _ => true
  | .aliased _ _ target _ =>
    match document.anchored.find? (·.1 = target) with
    | some (_, .mapping _ _ _) => true
    | some _ => false
    | none => true
  | _ => false

/-- What a merge key brings in: the items of a list, or the node itself. -/
def mergedNodes : Node → List Node
  | .sequence _ _ items => items
  | n => [n]

mutual

/-- A mapping decoded into a record, with the keys that take precedence, if it is merged into another
one. The count bounds the depth of merging. -/
def recordMapping {α : Type} (document : Document) (wanted : Bytes) (fields : List (Slot α))
    (key : Decoder Bytes) (depth : Nat) (entries : List (Node × Node))
    (precedence : Option (List Bytes)) (record : α) (d : Decoding) :
    Except Abort (α × Option (List Bytes) × Decoding) :=
  match depth with
  | 0 => .ok (record, precedence, d)
  | depth + 1 => do
    let checked := repeatedKeys entries d
    if checked.mismatches.length ≠ d.mismatches.length then return (record, precedence, checked)
    else
      let s ← takeEntries wanted fields key entries ⟨record, d, [], precedence, none⟩
      match s.merge with
      | none => return (s.record, s.precedence, s.decoding)
      | some merge =>
        let (names, d) ← match s.precedence with
          | some names => pure (names, s.decoding)
          | none => keyNames key entries [] s.decoding
        let (record, names, d) ←
          recordMerged document wanted fields key depth (mergedNodes merge) names s.record d
        return (record, if s.precedence.isSome then some names else none, d)

/-- Merged mappings decoded into a record, the earlier ones first. What is no mapping is refused when it
is reached. -/
def recordMerged {α : Type} (document : Document) (wanted : Bytes) (fields : List (Slot α))
    (key : Decoder Bytes) (depth : Nat) (nodes : List Node) (names : List Bytes) (record : α)
    (d : Decoding) : Except Abort (α × List Bytes × Decoding) :=
  match depth with
  | 0 => .ok (record, names, d)
  | depth + 1 =>
    match nodes with
    | [] => .ok (record, names, d)
    | n :: rest => do
      if !isMergeable document n then throw .mergeWantsMapping
      let d ← d.count
      let (record, names, d) ← match n with
        | .mapping _ _ entries => do
          let (record, precedence, d) ←
            recordMapping document wanted fields key depth entries (some names) record d
          pure (record, precedence.getD names, d)
        | .aliased name _ target place => do
          let (found, inside) ← follow document d name target place
          match found with
          | some node =>
            let (record, names, after) ←
              recordMerged document wanted fields key depth [node] names record inside
            pure (record, names, { after with following := d.following })
          | none => pure (record, names, d)
        | _ => pure (record, names, d)
      recordMerged document wanted fields key depth rest names record d

end

/-- A decoder for records. -/
def recordDecoder {α : Type} (document : Document) (wanted : Bytes) (fields : List (Slot α))
    (key : Decoder Bytes) (depth : Nat) : Decoder α := fun n record d =>
  match n with
  | .mapping _ _ entries => do
    let (record, _, d) ← recordMapping document wanted fields key depth entries none record d
    return (true, record, d)
  | .scalar tag _ text => do
    let (_, value) ← scalarValue tag text
    match value with
    | .null => return (false, record, d)
    | _ => return (false, record, d.mismatch n wanted)
  | _ => .ok (false, record, d.mismatch n wanted)

end Yaml

end MobilitySweep
