import MobilitySweep.Text.Bytes

/-! # Compressed data

Prefix codes over a source of bits, and the data compressed with them.
-/

namespace MobilitySweep

/-! ## Bits and prefix codes

Compressed data is a sequence of bits, lowest bit of each byte first. Bytes are taken from the input
only when their bits are asked for, and the number of bytes taken so far is what messages about bad
input mention.
-/

namespace Archive

/-- Input with the bits taken from it and not yet used; the offset counts the bytes taken. -/
structure BitSource where
  rest : Bytes
  offset : Nat
  bits : Nat
  count : Nat
deriving DecidableEq, Repr, Inhabited

namespace BitSource

/-- A source at the start of its input. -/
def ofBytes (input : Bytes) : BitSource := ⟨input, 0, 0, 0⟩

/-- One more byte taken, if there is one. -/
def more? (s : BitSource) : Option BitSource :=
  match s.rest with
  | [] => none
  | b :: rest => some ⟨rest, s.offset + 1, s.bits + b.toNat * Nat.pow 2 s.count, s.count + 8⟩

/-- Bytes taken until a number of bits is at hand, at most so many bytes. -/
def fill : Nat → Nat → BitSource → Option BitSource
  | 0, wanted, s => if wanted ≤ s.count then some s else none
  | bytes + 1, wanted, s => if wanted ≤ s.count then some s else (s.more?).bind (fill bytes wanted)

/-- At least so many bits at hand. -/
def need? (s : BitSource) (wanted : Nat) : Option BitSource := fill wanted wanted s

/-- Bits at hand dropped. -/
def drop (s : BitSource) (used : Nat) : BitSource :=
  { s with bits := s.bits / Nat.pow 2 used, count := s.count - used }

/-- The number in the next bits, which are used up. -/
def take? (s : BitSource) (width : Nat) : Option (Nat × BitSource) :=
  (s.need? width).map fun s => (s.bits % Nat.pow 2 width, s.drop width)

end BitSource

end Archive

/-! ## Prefix codes

A code is given by the length of each symbol's codeword; codewords of one length are consecutive
numbers in the order of their symbols. A usable code is complete, or a single codeword of one bit;
where no symbol has a codeword, the code before stays in use.
-/

namespace Archive

/-- A prefix code: how many codewords each length from one up has, the symbols in the order of their
codewords, how many bits are asked for before a symbol is looked up, and how many tell codewords
apart. -/
structure Code where
  counts : List Nat
  symbols : Array Nat
  least : Nat
  reach : Nat
deriving Repr, Inhabited

namespace Code

/-- The longest codeword. -/
def longest : Nat := 15

/-- The part of all bit sequences that the lengths up to a bound use, and the bound. -/
def used (counts : List Nat) : Nat := counts.foldl (fun code count => code * 2 + count) 0

/-- The code without codewords. -/
def empty : Code := ⟨[], #[], 0, longest⟩

/-- The code once no new one has been given: bits are no longer asked for ahead, and codewords that
differ only behind their ninth bit are no longer told apart. -/
def kept (c : Code) : Code := { c with least := 0, reach := 9 }

/-- The code with given lengths after another one; a length of zero means that a symbol has no
codeword. -/
def ofLengths? (before : Code) (lengths : List Nat) : Option Code :=
  let counts := (List.range longest).map fun n => lengths.countP (· = n + 1)
  let symbols := (List.range longest).flatMap fun n =>
    lengths.zipIdx.filterMap fun (length, symbol) => if length = n + 1 then some symbol else none
  let usedLengths := lengths.filter (0 < ·)
  match usedLengths.min?, usedLengths.max? with
  | some least, some largest =>
    let total := used (counts.take largest)
    if total = Nat.pow 2 largest || (total = 1 && largest = 1) then
      some ⟨counts, symbols.toArray, least, longest⟩
    else none
  | _, _ => some before.kept

/-- The symbol whose codeword the given bits start with, and its length. -/
def lookup (symbols : Array Nat) : List Nat → Nat → Nat → Nat → Nat → Nat → Option (Nat × Nat)
  | [], _, _, _, _, _ => none
  | count :: rest, length, bits, code, first, index =>
    let code := code + bits % 2
    if code < first + count then (symbols[index + (code - first)]?).map fun symbol => (symbol, length)
    else lookup symbols rest (length + 1) (bits / 2) (code * 2) ((first + count) * 2) (index + count)

/-- The symbol at the start of some bits, as if zeros followed them. -/
def symbol? (c : Code) (bits : Nat) : Option (Nat × Nat) :=
  lookup c.symbols c.counts 1 (bits % Nat.pow 2 c.reach) 0 0 0

/-- The outcome of reading a symbol. -/
inductive Reading where
  | symbol (value : Nat) (source : BitSource)
  | unknown (source : BitSource)
  | short (source : BitSource)

/-- A symbol read with a number of bits at hand; longer codewords ask for more, at most so often. -/
def readFrom (c : Code) : Nat → Nat → BitSource → Reading
  | 0, _, s => .unknown s
  | tries + 1, wanted, s =>
    match s.need? wanted with
    | none => .short s
    | some s =>
      match c.symbol? s.bits with
      | none => .unknown s
      | some (value, length) =>
        if length ≤ s.count then .symbol value (s.drop length) else readFrom c tries length s

/-- The next symbol. -/
def read (c : Code) (s : BitSource) : Reading := c.readFrom (longest + 2) c.least s

end Code

end Archive

/-! ## Inflating

Compressed data is a sequence of blocks: stored bytes, or symbols of a fixed or a described code that
stand for bytes and for copies of earlier output.
-/

namespace Archive

/-- How compressed data can be damaged. -/
inductive Damage where
  | corrupt (offset : Nat)
  | strangeLength
  | truncated
  | cutShort
deriving DecidableEq, Repr

/-- The codes that were described last: for symbols and for distances. -/
structure Codes where
  symbols : Code
  distances : Code
deriving Inhabited

/-- The codes before any is described. -/
def Codes.none : Codes := ⟨.empty, .empty⟩

/-- The state of inflating: the input, the output so far in reverse with its length, and the codes that
were described last. -/
structure Inflation where
  source : BitSource
  output : Bytes
  size : Nat
  codes : Codes
deriving Inhabited

namespace Inflation

/-- How far back copies may reach. -/
def window : Nat := 32768

/-- One more byte of output. -/
def put (i : Inflation) (b : UInt8) : Inflation := { i with output := b :: i.output, size := i.size + 1 }

/-- A copy of earlier output, which repeats itself when it is longer than its distance. -/
def copy (i : Inflation) (length distance : Nat) : Inflation :=
  let piece := (i.output.take distance).reverse
  let copied := (List.replicate (length / distance + 1) piece).flatten.take length
  { i with output := copied.reverse ++ i.output, size := i.size + length }

/-- The input replaced. -/
def on (i : Inflation) (source : BitSource) : Inflation := { i with source := source }

/-- The damage of input that names nothing. -/
def corrupt (i : Inflation) : Inflation × Option Damage := (i, some (.corrupt i.source.offset))

end Inflation

/-- The shortest length and the number of extra bits of each length symbol. -/
def lengthBases : List (Nat × Nat) :=
  [(3, 0), (4, 0), (5, 0), (6, 0), (7, 0), (8, 0), (9, 0), (10, 0), (11, 1), (13, 1), (15, 1), (17, 1),
    (19, 2), (23, 2), (27, 2), (31, 2), (35, 3), (43, 3), (51, 3), (59, 3), (67, 4), (83, 4), (99, 4),
    (115, 4), (131, 5), (163, 5), (195, 5), (227, 5), (258, 0)]

/-- The shortest distance and the number of extra bits of a distance symbol. -/
def distanceBase (symbol : Nat) : Nat × Nat :=
  if symbol < 4 then (symbol + 1, 0)
  else
    let extra := (symbol - 2) / 2
    (Nat.pow 2 (extra + 1) + 1 + symbol % 2 * Nat.pow 2 extra, extra)

/-- The number of distance symbols. -/
def distanceSymbols : Nat := 30

/-- The lengths of the fixed code. -/
def fixedLengths : List Nat :=
  List.replicate 144 8 ++ List.replicate 112 9 ++ List.replicate 24 7 ++ List.replicate 8 8

/-- The lowest bits of a number in reverse. -/
def reversed : Nat → Nat → Nat
  | 0, _ => 0
  | width + 1, n => n % 2 * Nat.pow 2 width + reversed width (n / 2)

/-- A distance symbol: five plain bits under the fixed code, a codeword otherwise. Plain bits that are
missing look like the end of the data. -/
def distanceSymbol (code : Option Code) (i : Inflation) : Except (Inflation × Option Damage) (Nat × Inflation) :=
  match code with
  | none =>
    match i.source.take? 5 with
    | none => .error (i, some .cutShort)
    | some (bits, source) => .ok (reversed 5 bits, i.on source)
  | some code =>
    match code.read i.source with
    | .symbol value source => .ok (value, i.on source)
    | .unknown source => .error (i.on source).corrupt
    | .short _ => .error (i, some .truncated)

/-- A copy whose length symbol has been read. -/
def copyBlock (distances : Option Code) (base extra : Nat) (i : Inflation) :
    Except (Inflation × Option Damage) Inflation := do
  let some (more, source) := i.source.take? extra | .error (i, some .cutShort)
  let (symbol, i) ← distanceSymbol distances (i.on source)
  if distanceSymbols ≤ symbol then .error i.corrupt
  else
    let (least, bits) := distanceBase symbol
    let some (further, source) := i.source.take? bits | .error (i, some .cutShort)
    let i := i.on source
    let distance := least + further
    if min i.size Inflation.window < distance then .error i.corrupt
    else .ok (i.copy (base + more) distance)

/-- The symbols of a block up to its end, at most so many. -/
def symbols (literals : Code) (distances : Option Code) : Nat → Inflation → Inflation × Option Damage
  | 0, i => (i, some .truncated)
  | count + 1, i =>
    match literals.read i.source with
    | .short _ => (i, some .truncated)
    | .unknown source => (i.on source).corrupt
    | .symbol value source =>
      let i := i.on source
      if value < 256 then symbols literals distances count (i.put (UInt8.ofNat value))
      else if value = 256 then (i, none)
      else
        match lengthBases[value - 257]? with
        | none => i.corrupt
        | some (base, extra) =>
          match copyBlock distances base extra i with
          | .error failed => failed
          | .ok i => symbols literals distances count i

/-- The order in which the lengths of the code of lengths are given. -/
def lengthOrder : List Nat := [16, 17, 18, 0, 8, 7, 9, 6, 10, 5, 11, 4, 12, 3, 13, 2, 14, 1, 15]

/-- A number of three-bit lengths, in reverse. -/
def smallLengths : Nat → List Nat → BitSource → Option (List Nat × BitSource)
  | 0, done, s => some (done, s)
  | count + 1, done, s => do
    let (length, s) ← s.take? 3
    smallLengths count (length :: done) s

/-- The lengths of the described codes, in reverse, until so many are known. -/
def codeLengths (code : Code) (wanted : Nat) : Nat → List Nat → BitSource → Except (BitSource × Damage) (List Nat × BitSource)
  | 0, _, s => .error (s, .truncated)
  | count + 1, done, s =>
    if wanted ≤ done.length then .ok (done, s)
    else
      match code.read s with
      | .short s => .error (s, .truncated)
      | .unknown s => .error (s, .corrupt s.offset)
      | .symbol value s =>
        if value < 16 then codeLengths code wanted count (value :: done) s
        else if 18 < value then .error (s, .strangeLength)
        else
          match value, done with
          | 16, [] => .error (s, .corrupt s.offset)
          | _, _ =>
            let (repeated, least, width) :=
              if value = 16 then (done.headD 0, 3, 2) else if value = 17 then (0, 3, 3) else (0, 11, 7)
            match s.take? width with
            | none => .error (s, .truncated)
            | some (more, s) =>
              if wanted < done.length + least + more then .error (s, .corrupt s.offset)
              else codeLengths code wanted count (List.replicate (least + more) repeated ++ done) s

/-- The described codes of a block, after those described before. The code of lengths comes between two
codes of symbols. Every block ends with the symbol for its end, and every block but the last is followed
by another one, so that many bits may be asked for at once. -/
def describedCodes (before : Codes) (final : Bool) (s : BitSource) :
    Except (BitSource × Damage) (Codes × BitSource) := do
  let some s := s.need? 14 | .error (s, .truncated)
  let literalCount := s.bits % 32 + 257
  let distanceCount := s.bits / 32 % 32 + 1
  let lengthCount := s.bits / 1024 % 16 + 4
  if 286 < literalCount || distanceSymbols < distanceCount then .error (s, .corrupt s.offset)
  else
    let some (given, s) := smallLengths lengthCount [] (s.drop 14) | .error (s, .truncated)
    let given := given.reverse
    let lengths := (List.range 19).map fun symbol =>
      ((lengthOrder.zip given).find? (·.1 = symbol)).map (·.2) |>.getD 0
    let some code := Code.ofLengths? before.symbols lengths | .error (s, .corrupt s.offset)
    let wanted := literalCount + distanceCount
    let (lengths, s) ← codeLengths code wanted (wanted + 1) [] s
    let lengths := lengths.reverse
    let literalLengths := lengths.take literalCount
    match Code.ofLengths? code literalLengths,
        Code.ofLengths? before.distances (lengths.drop literalCount) with
    | some literals, some distances =>
      let least := max literals.least (literalLengths.getD 256 0) + (if final then 0 else 10)
      .ok (⟨{ literals with least := least }, distances⟩, s)
    | _, _ => .error (s, .corrupt s.offset)

/-- The bytes of a stored block. -/
def storedBlock (i : Inflation) : Inflation × Option Damage :=
  let s := i.source.drop (i.source.count % 8)
  let held := s.count / 8
  let offset := s.offset + held
  let head := (List.range held).map (fun n => UInt8.ofNat (s.bits / Nat.pow 256 n)) ++ s.rest.take (4 - held)
  let rest := s.rest.drop (4 - held)
  if head.length < 4 then (i.on ⟨[], offset + s.rest.length, 0, 0⟩, some .truncated)
  else
    let offset := offset + (4 - held)
    let byte (n : Nat) : Nat := (head.getD n 0).toNat
    let length := byte 0 + 256 * byte 1
    if byte 2 + 256 * byte 3 + length ≠ 65535 then (i.on ⟨rest, offset, 0, 0⟩).corrupt
    else
      let piece := rest.take length
      let next : Inflation := { i with
        source := ⟨rest.drop length, offset + piece.length, 0, 0⟩
        output := piece.reverse ++ i.output
        size := i.size + piece.length }
      (next, if piece.length < length then some .truncated else none)

/-- One block: whether it was the last one, and how it ended. -/
def block (i : Inflation) : Bool × Inflation × Option Damage :=
  match i.source.take? 3 with
  | none => (true, i, some .truncated)
  | some (header, source) =>
    let final := header % 2 = 1
    let i := i.on source
    let budget := 8 * source.rest.length + source.count + 8
    match header / 2 with
    | 0 => (final, storedBlock i)
    | 1 =>
      match Code.ofLengths? .empty fixedLengths with
      | some code => (final, symbols code none budget i)
      | none => (final, i.corrupt)
    | 2 =>
      match describedCodes i.codes final source with
      | .error (source, damage) => (final, i.on source, some damage)
      | .ok (codes, source) =>
        (final, symbols codes.symbols (some codes.distances) budget { i with source := source, codes := codes })
    | _ => (final, i.corrupt)

/-- Blocks up to the last one or the first damage, at most so many. -/
def blocks : Nat → Inflation → Inflation × Option Damage
  | 0, i => (i, some .truncated)
  | count + 1, i =>
    match block i with
    | (_, i, some damage) => (i, some damage)
    | (true, i, none) => (i, none)
    | (false, i, none) => blocks count i

/-- Compressed data at the start of an input inflated: the damage if there is any, and the state at the
end. No code is described before the first block. -/
def inflate (input : Bytes) : Inflation × Option Damage :=
  blocks (8 * input.length + 1) ⟨.ofBytes input, [], 0, .none⟩

end Archive

end MobilitySweep
