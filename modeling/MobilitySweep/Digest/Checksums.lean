import MobilitySweep.Text.Bytes

/-! # Checksums

Short digests of byte texts: the check of gzip files, and the hash that seeds of runs are derived with.
-/

namespace MobilitySweep

/-! ## CRC-32

The cyclic redundancy check of archives, with the reflected polynomial, bit by bit.
-/

namespace Crc32

/-- One bit shifted out. -/
def shift (crc : UInt32) : UInt32 :=
  if crc &&& 1 = 1 then (crc >>> 1) ^^^ 0xEDB88320 else crc >>> 1

/-- One byte fed into the register. -/
def feed (crc : UInt32) (b : UInt8) : UInt32 :=
  shift (shift (shift (shift (shift (shift (shift (shift (crc ^^^ b.toUInt32))))))))

/-- The check value of a text. -/
def checksum (text : Bytes) : UInt32 := ~~~ (text.foldl feed 0xFFFFFFFF)

/-! ## The check of files

The same polynomial with the highest bit first, over a text and its length. -/

/-- One bit shifted out at the upper end. -/
def raise (crc : UInt32) : UInt32 :=
  if crc &&& 0x80000000 ≠ 0 then (crc <<< 1) ^^^ 0x04C11DB7 else crc <<< 1

/-- One byte fed in at the upper end. -/
def feedHigh (crc : UInt32) (b : UInt8) : UInt32 :=
  raise (raise (raise (raise (raise (raise (raise (raise (crc ^^^ (b.toUInt32 <<< 24)))))))))

/-- The bytes of a length, lowest first, without zeros at the end; so many at most. -/
def lengthBytes : Nat → Nat → Bytes
  | 0, _ => []
  | count + 1, n => if n = 0 then [] else UInt8.ofNat (n % 256) :: lengthBytes count (n / 256)

/-- The check value of a file. -/
def fileChecksum (text : Bytes) : UInt32 :=
  ~~~ ((lengthBytes 8 text.length).foldl feedHigh (text.foldl feedHigh 0))

end Crc32

/-! ## The 64-bit xxHash with seed zero

A fast hash of a text: stripes of 32 bytes feed four lanes, the rest is mixed in by words of eight,
four and one bytes, and a final avalanche spreads every bit.
-/

namespace XxHash

def prime1 : UInt64 := 0x9E3779B185EBCA87
def prime2 : UInt64 := 0xC2B2AE3D27D4EB4F
def prime3 : UInt64 := 0x165667B19E3779F9
def prime4 : UInt64 := 0x85EBCA77C2B2AE63
def prime5 : UInt64 := 0x27D4EB2F165667C5

/-- Rotation to the left. -/
def rotate (x : UInt64) (n : UInt64) : UInt64 := (x <<< n) ||| (x >>> (64 - n))

/-- A word of bytes with the first byte lowest. -/
def littleEndian : Bytes → UInt64
  | [] => 0
  | b :: rest => b.toUInt64 ||| (littleEndian rest <<< 8)

/-- One lane fed with a word. -/
def round (lane input : UInt64) : UInt64 := rotate (lane + input * prime2) 31 * prime1

/-- A lane merged into the hash. -/
def mergeLane (hash lane : UInt64) : UInt64 := (hash ^^^ round 0 lane) * prime1 + prime4

/-- The stripes of a text fed into the lanes, and the bytes that fill no stripe. The count bounds the
number of stripes. -/
def stripes : Nat → UInt64 × UInt64 × UInt64 × UInt64 → Bytes → (UInt64 × UInt64 × UInt64 × UInt64) × Bytes
  | 0, lanes, text => (lanes, text)
  | count + 1, (v1, v2, v3, v4), text =>
    let word : Nat → UInt64 := fun i => littleEndian ((text.drop (8 * i)).take 8)
    stripes count (round v1 (word 0), round v2 (word 1), round v3 (word 2), round v4 (word 3)) (text.drop 32)

/-- The last bytes mixed into the hash: words of eight, then one of four, then single bytes. -/
def remainder : Nat → UInt64 → Bytes → UInt64
  | 0, hash, _ => hash
  | fuel + 1, hash, text =>
    if 8 ≤ text.length then
      remainder fuel (rotate (hash ^^^ round 0 (littleEndian (text.take 8))) 27 * prime1 + prime4) (text.drop 8)
    else if 4 ≤ text.length then
      remainder fuel (rotate (hash ^^^ (littleEndian (text.take 4) * prime1)) 23 * prime2 + prime3) (text.drop 4)
    else match text with
      | [] => hash
      | b :: rest => remainder fuel (rotate (hash ^^^ (b.toUInt64 * prime5)) 11 * prime1) rest

/-- The final spreading. -/
def avalanche (hash : UInt64) : UInt64 :=
  let h1 := (hash ^^^ (hash >>> 33)) * prime2
  let h2 := (h1 ^^^ (h1 >>> 29)) * prime3
  h2 ^^^ (h2 >>> 32)

/-- The hash of a text. -/
def hash (text : Bytes) : UInt64 :=
  let size := text.length
  let start : UInt64 × Bytes :=
    if 32 ≤ size then
      let ((v1, v2, v3, v4), rest) :=
        stripes (size / 32) (prime1 + prime2, prime2, 0, 0 - prime1) text
      let mixed := rotate v1 1 + rotate v2 7 + rotate v3 12 + rotate v4 18
      (mergeLane (mergeLane (mergeLane (mergeLane mixed v1) v2) v3) v4, rest)
    else (prime5, text)
  avalanche (remainder (size + 1) (start.1 + UInt64.ofNat size) start.2)

end XxHash

end MobilitySweep
