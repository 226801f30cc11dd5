import MobilitySweep.Files.Operations
import MobilitySweep.Text.Bytes

/-! # Classes of bytes and patterns

A class is written in brackets as single bytes, ranges and names, or as everything but those.
-/

namespace MobilitySweep

namespace Shell

/-- A class of bytes: those in some ranges, or all others. -/
structure ByteClass where
  ranges : List (UInt8 × UInt8)
  isNegated : Bool
deriving DecidableEq, Repr, Inhabited

namespace ByteClass

/-- Whether a byte is in a class. -/
def contains (c : ByteClass) (b : UInt8) : Bool :=
  (c.ranges.any fun (low, high) => low ≤ b && b ≤ high) != c.isNegated

/-- The other bytes. -/
def complement (c : ByteClass) : ByteClass := { c with isNegated := !c.isNegated }

/-- The classes with names. -/
def named : List (String × List (UInt8 × UInt8)) :=
  [("alpha", [(65, 90), (97, 122)]), ("digit", [(48, 57)]), ("alnum", [(48, 57), (65, 90), (97, 122)]),
    ("upper", [(65, 90)]), ("lower", [(97, 122)]), ("space", [(9, 13), (32, 32)]), ("blank", [(9, 9), (32, 32)]),
    ("punct", [(33, 47), (58, 64), (91, 96), (123, 126)]), ("print", [(32, 126)]), ("graph", [(33, 126)]),
    ("cntrl", [(0, 31), (127, 127)]), ("xdigit", [(48, 57), (65, 70), (97, 102)])]

/-- The ranges of a name. -/
def ranges? (name : Bytes) : Option (List (UInt8 × UInt8)) :=
  (named.find? fun entry => Bytes.ofString entry.1 = name).map (·.2)

/-- The bytes of names in programs: letters, digits and the underscore. -/
def word : ByteClass := ⟨[(48, 57), (65, 90), (95, 95), (97, 122)], false⟩

/-- Blanks of all kinds. -/
def space : ByteClass := ⟨[(9, 13), (32, 32)], false⟩

/-- The class with both cases of each of its letters. -/
def withBothCases (c : ByteClass) : ByteClass :=
  let letters := (List.range 26).flatMap fun n =>
    let upper : UInt8 := 65 + UInt8.ofNat n
    let lower : UInt8 := 97 + UInt8.ofNat n
    let plain : ByteClass := { c with isNegated := false }
    if plain.contains upper || plain.contains lower then [(upper, upper), (lower, lower)] else []
  { c with ranges := c.ranges ++ letters }

end ByteClass

end Shell

/-! ## Patterns

Patterns match whole texts: a star stands for any text, a question mark for any byte, and brackets for
a class of bytes. What is quoted stands for itself. A pattern for paths is matched name by name.
-/

namespace Shell

/-- A byte of an expanded word, with whether it was quoted. -/
structure Mark where
  byte : UInt8
  quoted : Bool
deriving DecidableEq, Repr

/-- An expanded word or a field of it. -/
abbrev Field := List Mark

namespace Field

/-- A text as a field. -/
def ofBytes (quoted : Bool) (text : Bytes) : Field := text.map (⟨·, quoted⟩)

/-- The text of a field. -/
def toBytes (field : Field) : Bytes := field.map (·.byte)

end Field

/-- Whether a mark is a given byte with its special meaning. -/
def Mark.isSpecial (mark : Mark) (b : UInt8) : Bool := mark.byte = b && !mark.quoted

/-- The name of a class between colons, and what follows its bracket. -/
def className? (text : Field) : Option (List (UInt8 × UInt8) × Field) :=
  match text with
  | bracket :: colon :: rest =>
    let name := rest.takeWhile (·.byte ≠ 58)
    let behind := rest.drop name.length
    if bracket.isSpecial 91 && colon.isSpecial 58 && (behind.take 2).map (·.byte) = [58, 93] then
      (ByteClass.ranges? (Field.toBytes name)).map fun ranges => (ranges, behind.drop 2)
    else none
  | _ => none

/-- The ranges of a class up to its closing bracket, and what follows it. -/
def classRanges : Nat → Bool → Field → Option (List (UInt8 × UInt8) × Field)
  | 0, _, _ => none
  | _, _, [] => none
  | steps + 1, first, mark :: rest =>
    if mark.isSpecial 93 && !first then some ([], rest)
    else
      let (own, behind) : List (UInt8 × UInt8) × Field := match className? (mark :: rest), rest with
        | some found, _ => found
        | none, dash :: last :: behind =>
          if dash.isSpecial 45 && !last.isSpecial 93 then ([(mark.byte, last.byte)], behind)
          else ([(mark.byte, mark.byte)], rest)
        | none, _ => ([(mark.byte, mark.byte)], rest)
      (classRanges steps false behind).map fun (ranges, rest) => (own ++ ranges, rest)

/-- The class behind an opening bracket: which bytes are in it, and what follows it. -/
def byteClass? (pattern : Field) : Option (ByteClass × Field) :=
  let (negated, body) := match pattern with
    | mark :: rest => if mark.isSpecial 33 || mark.isSpecial 94 then (true, rest) else (false, pattern)
    | [] => (false, [])
  (classRanges (body.length + 1) true body).map fun (ranges, rest) => (⟨ranges, negated⟩, rest)

/-- Whether a pattern matches a text, in at most so many steps. -/
def matchesWithin : Nat → Field → Bytes → Bool
  | 0, _, _ => false
  | _, [], text => text.isEmpty
  | steps + 1, mark :: rest, text =>
    if mark.isSpecial 42 then
      (List.range (text.length + 1)).any fun n => matchesWithin steps rest (text.drop n)
    else
      match text with
      | [] => false
      | b :: behind =>
        if mark.isSpecial 63 then matchesWithin steps rest behind
        else if mark.isSpecial 91 then
          match byteClass? rest with
          | some (bytes, rest) => bytes.contains b && matchesWithin steps rest behind
          | none => b = 91 && matchesWithin steps rest behind
        else mark.byte = b && matchesWithin steps rest behind

/-- Whether a pattern matches a text. -/
def isMatch (pattern : Field) (text : Bytes) : Bool := matchesWithin (pattern.length + 1) pattern text

/-- Whether a field has anything special in it. -/
def isPattern (field : Field) : Bool :=
  field.any fun mark => mark.isSpecial 42 || mark.isSpecial 63 || mark.isSpecial 91

/-- A text without its shortest or longest start that a pattern matches. -/
def withoutStart (longest : Bool) (pattern : Field) (text : Bytes) : Bytes :=
  let lengths := List.range (text.length + 1)
  match (if longest then lengths.reverse else lengths).find? fun n => isMatch pattern (text.take n) with
  | some n => text.drop n
  | none => text

/-- A text without its shortest or longest end that a pattern matches. -/
def withoutEnd (longest : Bool) (pattern : Field) (text : Bytes) : Bytes :=
  let lengths := List.range (text.length + 1)
  match (if longest then lengths else lengths.reverse).find? fun n => isMatch pattern (text.drop n) with
  | some n => text.take n
  | none => text

/-- The names in a directory in bytewise order. -/
def namesIn (files : Files) (path : Bytes) : List Bytes :=
  match files.resolve true (if path.isEmpty then "." else path) with
  | .ok (.taken place .directory) =>
    let names := files.entries.filterMap fun (entry, _) =>
      if entry.length = place.length + 1 && place.isPrefixOf entry then entry.getLast? else none
    names.mergeSort fun a b => !Bytes.less b a
  | _ => []

/-- The fields between slashes. -/
def componentsOf (field : Field) : List Field :=
  let step : Field × List Field → Mark → Field × List Field := fun (current, done) mark =>
    if mark.byte = 47 then ([], current.reverse :: done) else (mark :: current, done)
  let (current, done) := field.foldl step ([], [])
  (current.reverse :: done).reverse

/-- Paths continued by one more component. -/
def continued (files : Files) (component : Field) (paths : List Bytes) : List Bytes :=
  if isPattern component then
    paths.flatMap fun path =>
      let isShown (name : Bytes) : Bool := name.head? ≠ some 46 || (component.head?.map (·.byte)) = some 46
      ((namesIn files path).filter fun name => isMatch component name && isShown name).map (path ++ ·)
  else paths.map (· ++ component.toBytes)

/-- Paths continued by some components. -/
def pathsAlong (files : Files) : List Field → List Bytes → List Bytes
  | [], paths => paths
  | [last], paths => continued files last paths
  | component :: rest, paths => pathsAlong files rest ((continued files component paths).map (· ++ [47]))

/-- The paths that a field matches; the field itself if there are none. -/
def pathsMatching (files : Files) (field : Field) : List Bytes :=
  if isPattern field then
    match (pathsAlong files (componentsOf field) [[]]).filter fun path =>
      match files.linkStat path with
      | .ok _ => true
      | .error _ => false with
    | [] => [field.toBytes]
    | paths => paths
  else [field.toBytes]

end Shell

end MobilitySweep
