import MobilitySweep.Digest.Sha256

/-! # Further hashes

The other digests that programs print beside SHA-256.
-/

namespace MobilitySweep

/-! ## MD5

The digest of a text by four words of 32 bits. Each block of 64 bytes is gone through four times, each
time in another order and with another way to mix the words.
-/

namespace Md5

/-- Four working words. -/
structure Words where
  a : UInt32
  b : UInt32
  c : UInt32
  d : UInt32

/-- The words before the first block. -/
def initial : Words := ⟨0x67452301, 0xefcdab89, 0x98badcfe, 0x10325476⟩

/-- The constants of the sixty-four rounds. -/
def roundConstants : List UInt32 :=
  [0xd76aa478, 0xe8c7b756, 0x242070db, 0xc1bdceee, 0xf57c0faf, 0x4787c62a, 0xa8304613, 0xfd469501,
   0x698098d8, 0x8b44f7af, 0xffff5bb1, 0x895cd7be, 0x6b901122, 0xfd987193, 0xa679438e, 0x49b40821,
   0xf61e2562, 0xc040b340, 0x265e5a51, 0xe9b6c7aa, 0xd62f105d, 0x02441453, 0xd8a1e681, 0xe7d3fbc8,
   0x21e1cde6, 0xc33707d6, 0xf4d50d87, 0x455a14ed, 0xa9e3e905, 0xfcefa3f8, 0x676f02d9, 0x8d2a4c8a,
   0xfffa3942, 0x8771f681, 0x6d9d6122, 0xfde5380c, 0xa4beea44, 0x4bdecfa9, 0xf6bb4b60, 0xbebfbc70,
   0x289b7ec6, 0xeaa127fa, 0xd4ef3085, 0x04881d05, 0xd9d4d039, 0xe6db99e5, 0x1fa27cf8, 0xc4ac5665,
   0xf4292244, 0x432aff97, 0xab9423a7, 0xfc93a039, 0x655b59c3, 0x8f0ccc92, 0xffeff47d, 0x85845dd1,
   0x6fa87e4f, 0xfe2ce6e0, 0xa3014314, 0x4e0811a1, 0xf7537e82, 0xbd3af235, 0x2ad7d2bb, 0xeb86d391]

/-- Rotation to the left. -/
def rotate (x : UInt32) (n : UInt32) : UInt32 := (x <<< n) ||| (x >>> (32 - n))

/-- How three words are mixed in a pass. -/
def mixed (pass : Nat) (b c d : UInt32) : UInt32 :=
  match pass with
  | 0 => (b &&& c) ||| (~~~ b &&& d)
  | 1 => (d &&& b) ||| (~~~ d &&& c)
  | 2 => b ^^^ c ^^^ d
  | _ => c ^^^ (b ||| ~~~ d)

/-- The word of the block that a round takes. -/
def wordIndex (pass number : Nat) : Nat :=
  match pass with
  | 0 => number
  | 1 => (5 * number + 1) % 16
  | 2 => (3 * number + 5) % 16
  | _ => (7 * number) % 16

/-- By how much a round rotates. -/
def turn (pass number : Nat) : UInt32 :=
  let turns : List (List UInt32) := [[7, 12, 17, 22], [5, 9, 14, 20], [4, 11, 16, 23], [6, 10, 15, 21]]
  (turns.getD pass []).getD (number % 4) 0

/-- The rounds of one block from a number on. -/
def rounds (block : List UInt32) : Nat → List UInt32 → Words → Words
  | _, [], w => w
  | number, constant :: rest, w =>
    let pass := number / 16
    let sum := mixed pass w.b w.c w.d + w.a + constant + block.getD (wordIndex pass number) 0
    rounds block (number + 1) rest ⟨w.d, w.b + rotate sum (turn pass number), w.b, w.c⟩

/-- The bytes of a word in the other order. -/
def reversed (word : UInt32) : UInt32 :=
  (word <<< 24) ||| ((word &&& (0xff00 : UInt32)) <<< 8) ||| ((word >>> 8) &&& (0xff00 : UInt32)) ||| (word >>> 24)

/-- One block folded into the words. -/
def block (w : Words) (bytes : Bytes) : Words :=
  let v := rounds ((Sha256.blockWords bytes).map reversed) 0 roundConstants w
  ⟨w.a + v.a, w.b + v.b, w.c + v.c, w.d + v.d⟩

/-- What follows a text of some length: a one bit, zeros, and the length in bits with its lowest byte
first. -/
def padding (length : Nat) : Bytes :=
  0x80 :: List.replicate ((119 - length % 64) % 64) 0 ++ (Sha256.bigEndian 8 (length * 8)).reverse

/-- Full blocks folded as they fill up; the bytes of the open block are kept in reverse with their
count. -/
def absorb (state : Words × Nat × Bytes) (b : UInt8) : Words × Nat × Bytes :=
  let (w, count, recent) := state
  if count = 63 then (block w (b :: recent).reverse, 0, []) else (w, count + 1, b :: recent)

/-- The digest of a text in hexadecimal. -/
def hexDigest (text : Bytes) : Bytes :=
  let start : Words × Nat × Bytes := (initial, 0, [])
  let (w, _, _) := (padding text.length).foldl absorb (text.foldl absorb start)
  Sha256.hexWords ([w.a, w.b, w.c, w.d].map reversed)

end Md5

/-! ## SHA-1

The digest of a text by five words of 32 bits. The schedule of a block of 64 bytes is extended to eighty
words, and each of them takes part in one round.
-/

namespace Sha1

/-- Five working words. -/
structure Words where
  a : UInt32
  b : UInt32
  c : UInt32
  d : UInt32
  e : UInt32

/-- The words before the first block. -/
def initial : Words := ⟨0x67452301, 0xefcdab89, 0x98badcfe, 0x10325476, 0xc3d2e1f0⟩

/-- Rotation to the left. -/
def rotate (x : UInt32) (n : UInt32) : UInt32 := (x <<< n) ||| (x >>> (32 - n))

/-- How three words are mixed in a round, with the constant that is added. -/
def mixed (number : Nat) (b c d : UInt32) : UInt32 :=
  if number < 20 then ((b &&& c) ||| (~~~ b &&& d)) + 0x5a827999
  else if number < 40 then (b ^^^ c ^^^ d) + 0x6ed9eba1
  else if number < 60 then ((b &&& c) ||| (b &&& d) ||| (c &&& d)) + 0x8f1bbcdc
  else (b ^^^ c ^^^ d) + 0xca62c1d6

/-- One round with its number and its word of the schedule. -/
def round (w : Words) (number : Nat) (word : UInt32) : Words :=
  ⟨rotate w.a 5 + mixed number w.b w.c w.d + w.e + word, w.a, rotate w.b 30, w.c, w.d⟩

/-- The next word of the schedule after the last sixteen, given with the latest first. -/
def nextWord : List UInt32 → UInt32
  | [_, _, w3, _, _, _, _, w8, _, _, _, _, _, w14, _, w16] => rotate (w3 ^^^ w8 ^^^ w14 ^^^ w16) 1
  | _ => 0

/-- So many rounds of one block: the first sixteen take the block's words, the others the extended
schedule, whose last sixteen words are kept with the latest first. -/
def rounds : Nat → List UInt32 → List UInt32 → Words → Words
  | 0, _, _, w => w
  | left + 1, word :: block, recent, w => rounds left block (word :: recent) (round w (79 - left) word)
  | left + 1, [], recent, w =>
    let word := nextWord recent
    rounds left [] (word :: recent.take 15) (round w (79 - left) word)

/-- One block folded into the words. -/
def block (w : Words) (bytes : Bytes) : Words :=
  let v := rounds 80 (Sha256.blockWords bytes) [] w
  ⟨w.a + v.a, w.b + v.b, w.c + v.c, w.d + v.d, w.e + v.e⟩

/-- Full blocks folded as they fill up; the bytes of the open block are kept in reverse with their
count. -/
def absorb (state : Words × Nat × Bytes) (b : UInt8) : Words × Nat × Bytes :=
  let (w, count, recent) := state
  if count = 63 then (block w (b :: recent).reverse, 0, []) else (w, count + 1, b :: recent)

/-- The digest of a text in hexadecimal. -/
def hexDigest (text : Bytes) : Bytes :=
  let start : Words × Nat × Bytes := (initial, 0, [])
  let (w, _, _) := (Sha256.padding text.length).foldl absorb (text.foldl absorb start)
  Sha256.hexWords [w.a, w.b, w.c, w.d, w.e]

end Sha1

/-! ## SHA-512

The digest of a text by eight words of 64 bits: the text is padded to blocks of 128 bytes, and each
block updates the words in eighty rounds.
-/

namespace Sha512

/-- Eight working words. -/
structure Words where
  a : UInt64
  b : UInt64
  c : UInt64
  d : UInt64
  e : UInt64
  f : UInt64
  g : UInt64
  h : UInt64

/-- The words before the first block. -/
def initial : Words :=
  ⟨0x6a09e667f3bcc908, 0xbb67ae8584caa73b, 0x3c6ef372fe94f82b, 0xa54ff53a5f1d36f1,
   0x510e527fade682d1, 0x9b05688c2b3e6c1f, 0x1f83d9abfb41bd6b, 0x5be0cd19137e2179⟩

/-- The words before the first block of the shorter digest. -/
def shortInitial : Words :=
  ⟨0xcbbb9d5dc1059ed8, 0x629a292a367cd507, 0x9159015a3070dd17, 0x152fecd8f70e5939,
   0x67332667ffc00b31, 0x8eb44a8768581511, 0xdb0c2e0d64f98fa7, 0x47b5481dbefa4fa4⟩

/-- The constants of the eighty rounds. -/
def roundConstants : List UInt64 :=
  [0x428a2f98d728ae22, 0x7137449123ef65cd, 0xb5c0fbcfec4d3b2f, 0xe9b5dba58189dbbc,
   0x3956c25bf348b538, 0x59f111f1b605d019, 0x923f82a4af194f9b, 0xab1c5ed5da6d8118,
   0xd807aa98a3030242, 0x12835b0145706fbe, 0x243185be4ee4b28c, 0x550c7dc3d5ffb4e2,
   0x72be5d74f27b896f, 0x80deb1fe3b1696b1, 0x9bdc06a725c71235, 0xc19bf174cf692694,
   0xe49b69c19ef14ad2, 0xefbe4786384f25e3, 0x0fc19dc68b8cd5b5, 0x240ca1cc77ac9c65,
   0x2de92c6f592b0275, 0x4a7484aa6ea6e483, 0x5cb0a9dcbd41fbd4, 0x76f988da831153b5,
   0x983e5152ee66dfab, 0xa831c66d2db43210, 0xb00327c898fb213f, 0xbf597fc7beef0ee4,
   0xc6e00bf33da88fc2, 0xd5a79147930aa725, 0x06ca6351e003826f, 0x142929670a0e6e70,
   0x27b70a8546d22ffc, 0x2e1b21385c26c926, 0x4d2c6dfc5ac42aed, 0x53380d139d95b3df,
   0x650a73548baf63de, 0x766a0abb3c77b2a8, 0x81c2c92e47edaee6, 0x92722c851482353b,
   0xa2bfe8a14cf10364, 0xa81a664bbc423001, 0xc24b8b70d0f89791, 0xc76c51a30654be30,
   0xd192e819d6ef5218, 0xd69906245565a910, 0xf40e35855771202a, 0x106aa07032bbd1b8,
   0x19a4c116b8d2d0c8, 0x1e376c085141ab53, 0x2748774cdf8eeb99, 0x34b0bcb5e19b48a8,
   0x391c0cb3c5c95a63, 0x4ed8aa4ae3418acb, 0x5b9cca4f7763e373, 0x682e6ff3d6b2b8a3,
   0x748f82ee5defb2fc, 0x78a5636f43172f60, 0x84c87814a1f0ab72, 0x8cc702081a6439ec,
   0x90befffa23631e28, 0xa4506cebde82bde9, 0xbef9a3f7b2c67915, 0xc67178f2e372532b,
   0xca273eceea26619c, 0xd186b8c721c0c207, 0xeada7dd6cde0eb1e, 0xf57d4f7fee6ed178,
   0x06f067aa72176fba, 0x0a637dc5a2c898a6, 0x113f9804bef90dae, 0x1b710b35131c471b,
   0x28db77f523047d84, 0x32caab7b40c72493, 0x3c9ebe0a15c9bebc, 0x431d67c49c100d4c,
   0x4cc5d4becb3e42b6, 0x597f299cfc657e2a, 0x5fcb6fab3ad6faec, 0x6c44198c4a475817]

/-- Rotation to the right. -/
def rotate (x : UInt64) (n : UInt64) : UInt64 := (x >>> n) ||| (x <<< (64 - n))

/-- One round with its constant and its word of the schedule. -/
def round (w : Words) (constant word : UInt64) : Words :=
  let s1 := rotate w.e 14 ^^^ rotate w.e 18 ^^^ rotate w.e 41
  let choice := (w.e &&& w.f) ^^^ (~~~ w.e &&& w.g)
  let t1 := w.h + s1 + choice + constant + word
  let s0 := rotate w.a 28 ^^^ rotate w.a 34 ^^^ rotate w.a 39
  let majority := (w.a &&& w.b) ^^^ (w.a &&& w.c) ^^^ (w.b &&& w.c)
  ⟨t1 + (s0 + majority), w.a, w.b, w.c, w.d + t1, w.e, w.f, w.g⟩

/-- The next word of the schedule after the last sixteen, given with the latest first. -/
def nextWord : List UInt64 → UInt64
  | [_, w2, _, _, _, _, w7, _, _, _, _, _, _, _, w15, w16] =>
    let s0 := rotate w15 1 ^^^ rotate w15 8 ^^^ (w15 >>> 7)
    let s1 := rotate w2 19 ^^^ rotate w2 61 ^^^ (w2 >>> 6)
    w16 + s0 + w7 + s1
  | _ => 0

/-- The rounds of one block: the first sixteen take the block's words, the others the extended
schedule, whose last sixteen words are kept with the latest first. -/
def rounds : List UInt64 → List UInt64 → List UInt64 → Words → Words
  | [], _, _, w => w
  | k :: ks, word :: block, recent, w => rounds ks block (word :: recent) (round w k word)
  | k :: ks, [], recent, w =>
    let word := nextWord recent
    rounds ks [] (word :: recent.take 15) (round w k word)

/-- The words of a block, eight bytes each with the first byte highest. -/
def blockWords : List UInt32 → List UInt64
  | high :: low :: rest => (high.toUInt64 <<< 32 ||| low.toUInt64) :: blockWords rest
  | _ => []

/-- One block folded into the words. -/
def block (w : Words) (bytes : Bytes) : Words :=
  let v := rounds roundConstants (blockWords (Sha256.blockWords bytes)) [] w
  ⟨w.a + v.a, w.b + v.b, w.c + v.c, w.d + v.d, w.e + v.e, w.f + v.f, w.g + v.g, w.h + v.h⟩

/-- What follows a text of some length: a one bit, zeros, and the length in bits. -/
def padding (length : Nat) : Bytes :=
  0x80 :: List.replicate ((239 - length % 128) % 128) 0 ++ Sha256.bigEndian 16 (length * 8)

/-- Full blocks folded as they fill up; the bytes of the open block are kept in reverse with their
count. -/
def absorb (state : Words × Nat × Bytes) (b : UInt8) : Words × Nat × Bytes :=
  let (w, count, recent) := state
  if count = 127 then (block w (b :: recent).reverse, 0, []) else (w, count + 1, b :: recent)

/-- The words that a text leaves, from those before its first block. -/
def wordsAfter (start : Words) (text : Bytes) : List UInt64 :=
  let fresh : Words × Nat × Bytes := (start, 0, [])
  let (w, _, _) := (padding text.length).foldl absorb (text.foldl absorb fresh)
  [w.a, w.b, w.c, w.d, w.e, w.f, w.g, w.h]

/-- Words in hexadecimal. -/
def hexWords (words : List UInt64) : Bytes := words.flatMap fun word => Quoted.hex 16 word.toNat

/-- The digest of a text in hexadecimal. -/
def hexDigest (text : Bytes) : Bytes := hexWords (wordsAfter initial text)

/-- The digest of 384 bits in hexadecimal: other words at the start, and the last two left out. -/
def shortHexDigest (text : Bytes) : Bytes := hexWords ((wordsAfter shortInitial text).take 6)

end Sha512

end MobilitySweep
