import MobilitySweep.Text.Quoted

/-! # SHA-256

The digest of a text as the standard defines it: the text is padded to blocks of 64 bytes, and each
block updates eight 32-bit words.
-/

namespace MobilitySweep

namespace Sha256

/-- Eight working words. -/
structure Words where
  a : UInt32
  b : UInt32
  c : UInt32
  d : UInt32
  e : UInt32
  f : UInt32
  g : UInt32
  h : UInt32

/-- The words before the first block. -/
def initial : Words :=
  ⟨0x6a09e667, 0xbb67ae85, 0x3c6ef372, 0xa54ff53a, 0x510e527f, 0x9b05688c, 0x1f83d9ab, 0x5be0cd19⟩

/-- The constants of the sixty-four rounds. -/
def roundConstants : List UInt32 :=
  [0x428a2f98, 0x71374491, 0xb5c0fbcf, 0xe9b5dba5, 0x3956c25b, 0x59f111f1, 0x923f82a4, 0xab1c5ed5,
   0xd807aa98, 0x12835b01, 0x243185be, 0x550c7dc3, 0x72be5d74, 0x80deb1fe, 0x9bdc06a7, 0xc19bf174,
   0xe49b69c1, 0xefbe4786, 0x0fc19dc6, 0x240ca1cc, 0x2de92c6f, 0x4a7484aa, 0x5cb0a9dc, 0x76f988da,
   0x983e5152, 0xa831c66d, 0xb00327c8, 0xbf597fc7, 0xc6e00bf3, 0xd5a79147, 0x06ca6351, 0x14292967,
   0x27b70a85, 0x2e1b2138, 0x4d2c6dfc, 0x53380d13, 0x650a7354, 0x766a0abb, 0x81c2c92e, 0x92722c85,
   0xa2bfe8a1, 0xa81a664b, 0xc24b8b70, 0xc76c51a3, 0xd192e819, 0xd6990624, 0xf40e3585, 0x106aa070,
   0x19a4c116, 0x1e376c08, 0x2748774c, 0x34b0bcb5, 0x391c0cb3, 0x4ed8aa4a, 0x5b9cca4f, 0x682e6ff3,
   0x748f82ee, 0x78a5636f, 0x84c87814, 0x8cc70208, 0x90befffa, 0xa4506ceb, 0xbef9a3f7, 0xc67178f2]

/-- Rotation to the right. -/
def rotate (x : UInt32) (n : UInt32) : UInt32 := (x >>> n) ||| (x <<< (32 - n))

/-- One round with its constant and its word of the schedule. -/
def round (w : Words) (constant word : UInt32) : Words :=
  let s1 := rotate w.e 6 ^^^ rotate w.e 11 ^^^ rotate w.e 25
  let choice := (w.e &&& w.f) ^^^ (~~~ w.e &&& w.g)
  let t1 := w.h + s1 + choice + constant + word
  let s0 := rotate w.a 2 ^^^ rotate w.a 13 ^^^ rotate w.a 22
  let majority := (w.a &&& w.b) ^^^ (w.a &&& w.c) ^^^ (w.b &&& w.c)
  ⟨t1 + (s0 + majority), w.a, w.b, w.c, w.d + t1, w.e, w.f, w.g⟩

/-- The next word of the schedule after the last sixteen, given with the latest first. -/
def nextWord : List UInt32 → UInt32
  | [_, w2, _, _, _, _, w7, _, _, _, _, _, _, _, w15, w16] =>
    let s0 := rotate w15 7 ^^^ rotate w15 18 ^^^ (w15 >>> 3)
    let s1 := rotate w2 17 ^^^ rotate w2 19 ^^^ (w2 >>> 10)
    w16 + s0 + w7 + s1
  | _ => 0

/-- The rounds of one block: the first sixteen take the block's words, the others the extended
schedule, whose last sixteen words are kept with the latest first. -/
def rounds : List UInt32 → List UInt32 → List UInt32 → Words → Words
  | [], _, _, w => w
  | k :: ks, word :: block, recent, w => rounds ks block (word :: recent) (round w k word)
  | k :: ks, [], recent, w =>
    let word := nextWord recent
    rounds ks [] (word :: recent.take 15) (round w k word)

/-- The words of a block, four bytes each with the first byte highest. -/
def blockWords : Bytes → List UInt32
  | b0 :: b1 :: b2 :: b3 :: rest =>
    (b0.toUInt32 <<< 24 ||| b1.toUInt32 <<< 16 ||| b2.toUInt32 <<< 8 ||| b3.toUInt32) :: blockWords rest
  | _ => []

/-- One block folded into the words. -/
def block (w : Words) (bytes : Bytes) : Words :=
  let v := rounds roundConstants (blockWords bytes) [] w
  ⟨w.a + v.a, w.b + v.b, w.c + v.c, w.d + v.d, w.e + v.e, w.f + v.f, w.g + v.g, w.h + v.h⟩

/-- The bytes of a number from the highest, for a fixed count of bytes. -/
def bigEndian : Nat → Nat → Bytes
  | 0, _ => []
  | count + 1, n => bigEndian count (n / 256) ++ [UInt8.ofNat (n % 256)]

/-- The text with its padding: a one bit, zeros, and the length in bits. -/
def padding (length : Nat) : Bytes :=
  0x80 :: List.replicate ((119 - length % 64) % 64) 0 ++ bigEndian 8 (length * 8)

/-- Full blocks folded as they fill up; the bytes of the open block are kept in reverse with their
count. -/
def absorb (state : Words × Nat × Bytes) (b : UInt8) : Words × Nat × Bytes :=
  let (w, count, recent) := state
  if count = 63 then (block w (b :: recent).reverse, 0, []) else (w, count + 1, b :: recent)

/-- The words that a text leaves, from those before its first block. -/
def wordsAfter (start : Words) (text : Bytes) : List UInt32 :=
  let fresh : Words × Nat × Bytes := (start, 0, [])
  let (w, _, _) := (padding text.length).foldl absorb (text.foldl absorb fresh)
  [w.a, w.b, w.c, w.d, w.e, w.f, w.g, w.h]

/-- Words in hexadecimal. -/
def hexWords (words : List UInt32) : Bytes := words.flatMap fun word => Quoted.hex 8 word.toNat

/-- The digest of a text in hexadecimal. -/
def hexDigest (text : Bytes) : Bytes := hexWords (wordsAfter initial text)

/-- The words before the first block of the shorter digest. -/
def shortInitial : Words :=
  ⟨0xc1059ed8, 0x367cd507, 0x3070dd17, 0xf70e5939, 0xffc00b31, 0x68581511, 0x64f98fa7, 0xbefa4fa4⟩

/-- The digest of 224 bits in hexadecimal: other words at the start, and the last one left out. -/
def shortHexDigest (text : Bytes) : Bytes := hexWords ((wordsAfter shortInitial text).take 7)

end Sha256

end MobilitySweep
