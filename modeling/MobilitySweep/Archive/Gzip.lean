import MobilitySweep.Archive.Inflate
import MobilitySweep.Digest.Checksums
import MobilitySweep.Text.Utf8

/-! # Archive members

An archive is a sequence of members, each with a header, compressed data, and a trailer that holds a
check value and the size. Archives are written as one member with stored blocks; members of any kind
are read.
-/

namespace MobilitySweep

namespace Archive

/-- A number in little-endian bytes. -/
def littleEndian : Nat → Nat → Bytes
  | 0, _ => []
  | width + 1, n => UInt8.ofNat (n % 256) :: littleEndian width (n / 256)

/-- The number of little-endian bytes. -/
def ofLittleEndian : Bytes → Nat
  | [] => 0
  | b :: rest => b.toNat + 256 * ofLittleEndian rest

/-! ## Writing -/

/-- The most bytes of a stored block. -/
def storedLimit : Nat := 65535

/-- One stored block. -/
def storedPiece (final : Bool) (piece : Bytes) : Bytes :=
  (if final then (1 : UInt8) else 0) :: littleEndian 2 piece.length ++
    littleEndian 2 (storedLimit - piece.length) ++ piece

/-- A text in stored blocks, at most so many. -/
def stored : Nat → Bytes → Bytes
  | 0, text => storedPiece true text
  | count + 1, text =>
    if text.length ≤ storedLimit then storedPiece true text
    else storedPiece false (text.take storedLimit) ++ stored count (text.drop storedLimit)

/-- A name in the one-byte alphabet of headers, if every character has a place there. -/
def headerName? (name : Bytes) : Option Bytes :=
  (Utf8.decode name).mapM fun g => match g with
    | .char c => if 0 < c.toNat && c.toNat ≤ 255 then some (UInt8.ofNat c.toNat) else none
    | .stray _ => none

/-- The start of every member: two marks, the method, the flags, the time as far as it fits, and two hints. -/
def headerStart (flags : UInt8) (time : Nat) : Bytes := [0x1f, 0x8b, 8, flags] ++ littleEndian 4 time ++ [2, 255]

/-- The header flag for a name. -/
def nameFlag : UInt8 := 8

/-- The trailer of a text. -/
def trailer (text : Bytes) : Bytes :=
  littleEndian 4 (Crc32.checksum text).toNat ++ littleEndian 4 text.length

/-- A text as an archive with a name in its header and the time at which the text was written. -/
def pack? (name : Bytes) (time : Nat) (text : Bytes) : Option Bytes :=
  (headerName? name).map fun name =>
    headerStart nameFlag time ++ name ++ [0] ++ stored text.length text ++ trailer text

/-! ## Reading -/

/-- Why an archive cannot be read to its end. -/
inductive Unreadable where
  | ended
  | truncated
  | header
  | checksum
  | corrupt (offset : Nat)
  | strangeLength
deriving DecidableEq, Repr

/-- The wording of a reason. -/
def Unreadable.message : Unreadable → Bytes
  | ended => "EOF"
  | truncated => "unexpected EOF"
  | header => "gzip: invalid header"
  | checksum => "gzip: invalid checksum"
  | corrupt offset => "flate: corrupt input before offset " ++ (Nat.toDigits 10 offset).map Char.toUInt8
  | strangeLength => "flate: internal error: unexpected length code"

/-- A number of bytes off the input. -/
def takeExactly (count : Nat) (input : Bytes) : Except Unreadable (Bytes × Bytes) :=
  let piece := input.take count
  if piece.length = count then .ok (piece, input.drop count)
  else if piece.isEmpty then .error .ended
  else .error .truncated

/-- The most bytes of a text in a header, its end mark included. -/
def headerTextLimit : Nat := 512

/-- A text in a header up to its end mark, which has to come within a limit. -/
def takeText (input : Bytes) : Except Unreadable (Bytes × Bytes) :=
  let piece := (input.take headerTextLimit).takeWhile (· ≠ 0)
  if piece.length = headerTextLimit then .error .header
  else if piece.length = input.length then .error .ended
  else .ok (piece, input.drop (piece.length + 1))

/-- What a header says about its member. -/
structure Header where
  name : Bytes
deriving DecidableEq, Repr, Inhabited

/-- Whether a flag is set. -/
def flagged (flags flag : UInt8) : Bool := flags &&& flag ≠ 0

/-- The header of a member. The check value of a header covers its fixed part only. -/
def readHeader (input : Bytes) : Except Unreadable (Header × Bytes) := do
  let (fixed, input) ← takeExactly 10 input
  if fixed.take 3 ≠ [0x1f, 0x8b, 8] then .error .header
  else
    let flags := fixed.getD 3 0
    let input ← if flagged flags 4 then do
        let (size, input) ← takeExactly 2 input
        let (_, input) ← takeExactly (ofLittleEndian size) input
        pure input
      else pure input
    let (name, input) ← if flagged flags nameFlag then takeText input else pure ([], input)
    let input ← if flagged flags 16 then (takeText input).map (·.2) else pure input
    let input ← if flagged flags 2 then do
        let (sum, input) ← takeExactly 2 input
        if ofLittleEndian sum = (Crc32.checksum fixed).toNat % 65536 then pure input else .error .header
      else pure input
    return (⟨Utf8.encode (name.map fun b => Char.ofNat b.toNat)⟩, input)

/-- Output is passed on in blocks of this size; corrupt input loses the block under way. -/
def blockSize : Nat := 1048576

/-- The part of a text in full blocks. -/
def fullBlocks (text : Bytes) : Bytes := text.take (text.length / blockSize * blockSize)

/-- The data and trailer of a member: the text that is delivered, and the input behind the member or why
reading ends here. -/
def readMember (input : Bytes) : Bytes × Except Unreadable Bytes :=
  let (i, damage) := inflate input
  let text := i.output.reverse
  match damage with
  | some (.corrupt offset) => (fullBlocks text, .error (.corrupt offset))
  | some .strangeLength => (fullBlocks text, .error .strangeLength)
  | some .truncated => (text, .error .truncated)
  | some .cutShort => (text, .error .ended)
  | none =>
    (text, do
      let (sums, rest) ← takeExactly 8 i.source.rest
      if sums = trailer text then .ok rest else .error .checksum)

/-- The members behind a header, at most so many: the texts delivered, in reverse, and why reading
ended. -/
def readMembers : Nat → List Bytes → Bytes → List Bytes × Unreadable
  | 0, done, _ => (done, .truncated)
  | count + 1, done, input =>
    match readMember input with
    | (text, .error reason) => (text :: done, reason)
    | (text, .ok rest) =>
      match readHeader rest with
      | .error reason => (text :: done, reason)
      | .ok (_, rest) => readMembers count (text :: done) rest

/-- The texts of all members behind the first header, and the reason if reading did not come to the
end of the input. -/
def unpack (input : Bytes) : Bytes × Option Unreadable :=
  let (texts, reason) := readMembers (input.length + 1) [] input
  (texts.reverse.flatten, if reason = .ended then none else some reason)

end Archive

end MobilitySweep
