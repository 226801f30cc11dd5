import MobilitySweep.Shell.Utility

/-! # Bytes and blocks

Programs that show contents byte by byte, and programs that copy and split them block by block.
-/

namespace MobilitySweep

/-! ## Dumps

The bytes of an input in rows behind their addresses, as characters or as numbers of some size and base.
Several formats stand one below the other, and their columns are spread over the same width.
-/

namespace Shell

/-- How the bytes of a field are shown. -/
inductive FieldKind where
  | named
  | character
  | signed
  | unsigned
  | octal
  | hexadecimal
deriving DecidableEq, Repr

/-- A format of a dump: the kind and the size of its fields, and whether the text of a row stands behind
it. -/
structure FieldFormat where
  kind : FieldKind
  size : Nat
  showsText : Bool
deriving DecidableEq, Repr

namespace FieldFormat

/-- The most characters of a field: three, or as many as the greatest number of the size takes. -/
def width (f : FieldFormat) : Nat :=
  let most := Nat.pow 256 f.size - 1
  match f.kind with
  | .named | .character => 3
  | .signed => (Decimal.ofNat (Nat.pow 256 f.size / 2)).length + 1
  | .unsigned => (Decimal.ofNat most).length
  | .octal => (Nat.toDigits 8 most).length
  | .hexadecimal => 2 * f.size

/-- The names of the bytes that are no visible characters. -/
def names : List String :=
  ["nul", "soh", "stx", "etx", "eot", "enq", "ack", "bel", "bs", "ht", "nl", "vt", "ff", "cr", "so", "si", "dle",
    "dc1", "dc2", "dc3", "dc4", "nak", "syn", "etb", "can", "em", "sub", "esc", "fs", "gs", "rs", "us", "sp"]

/-- A number in a base with leading zeros. -/
def digits (base width n : Nat) : Bytes :=
  let text := (Nat.toDigits base n).map Char.toUInt8
  List.replicate (width - text.length) 48 ++ text

/-- A byte as a character, with the escapes of a few. -/
def characterText (b : UInt8) : Bytes :=
  match b.toNat with
  | 0 => "\\0"
  | 7 => "\\a"
  | 8 => "\\b"
  | 9 => "\\t"
  | 10 => "\\n"
  | 11 => "\\v"
  | 12 => "\\f"
  | 13 => "\\r"
  | n => if 32 ≤ n && n < 127 then [b] else digits 8 3 n

/-- A byte by its name; the highest bit does not count. -/
def nameText (b : UInt8) : Bytes :=
  let n := b.toNat % 128
  if n = 127 then "del" else if h : n < names.length then Bytes.ofString (names.get ⟨n, h⟩) else [UInt8.ofNat n]

/-- The text of a field. -/
def text (f : FieldFormat) (bytes : Bytes) : Bytes :=
  let n := bytes.foldr (fun b n => b.toNat + 256 * n) 0
  match f.kind with
  | .named => nameText (bytes.headD 0)
  | .character => characterText (bytes.headD 0)
  | .signed => if n < Nat.pow 256 f.size / 2 then Decimal.ofNat n else 45 :: Decimal.ofNat (Nat.pow 256 f.size - n)
  | .unsigned => Decimal.ofNat n
  | .octal => digits 8 f.width n
  | .hexadecimal => digits 16 f.width n

/-- The size that a type has, by a letter or a number, and what follows it. -/
def readSize (given : Bytes) : Nat × Bytes :=
  match given with
  | 67 :: rest => (1, rest)
  | 83 :: rest => (2, rest)
  | 73 :: rest => (4, rest)
  | 76 :: rest => (8, rest)
  | _ =>
    let digits := given.takeWhile Bytes.isDigit
    (if digits.isEmpty then 4 else Bytes.digitsValue digits, given.drop digits.length)

/-- The formats that a text asks for, in at most so many steps; else what is wrong with it. -/
def read (whole : Bytes) : Nat → Bytes → Except Bytes (List FieldFormat)
  | 0, _ => .ok []
  | _, [] => .ok []
  | steps + 1, letter :: rest => do
    let kind? : Option FieldKind := match Char.ofNat letter.toNat with
      | 'a' => some .named
      | 'c' => some .character
      | 'd' => some .signed
      | 'u' => some .unsigned
      | 'o' => some .octal
      | 'x' => some .hexadecimal
      | _ => none
    match kind? with
    | none => .error ("invalid character " ++ inQuotes [letter] ++ " in type string " ++ inQuotes whole)
    | some kind =>
      let (size, rest) := if kind = .named || kind = .character then (1, rest) else readSize rest
      if !([1, 2, 4, 8] : List Nat).contains size then
        .error ("invalid type string " ++ inQuotes whole ++ ";\nthis system doesn't provide a " ++ Decimal.ofNat size ++
          "-byte integral type")
      else
        let showsText := rest.head? = some 122
        pure (⟨kind, size, showsText⟩ :: (← read whole steps (if showsText then rest.tail else rest)))

/-- The format that an option alone stands for. -/
def ofLetter? (letter : UInt8) : Option FieldFormat :=
  match Char.ofNat letter.toNat with
  | 'a' => some ⟨.named, 1, false⟩
  | 'b' => some ⟨.octal, 1, false⟩
  | 'c' => some ⟨.character, 1, false⟩
  | 'd' => some ⟨.unsigned, 2, false⟩
  | 'i' => some ⟨.signed, 4, false⟩
  | 'l' => some ⟨.signed, 8, false⟩
  | 'o' => some ⟨.octal, 2, false⟩
  | 's' => some ⟨.signed, 2, false⟩
  | 'x' | 'h' => some ⟨.hexadecimal, 2, false⟩
  | _ => none

end FieldFormat

/-- The pieces of a text of some length each, at most so many. -/
def pieces (length : Nat) : Nat → Bytes → List Bytes
  | 0, _ => []
  | _, [] => []
  | count + 1, text => text.take length :: pieces length count (text.drop length)

/-- The layout of a dump: its formats, the bytes of a row and the base of addresses, if they are shown. -/
structure Dump where
  formats : List FieldFormat
  rowSize : Nat
  radix : Option Nat
  showsRepeats : Bool

namespace Dump

/-- An address; those in hexadecimal have one digit less. -/
def address (d : Dump) (place : Nat) : Bytes :=
  match d.radix with
  | none => []
  | some radix => FieldFormat.digits radix (if radix = 16 then 6 else 7) place

/-- The width of all fields of a row with the blanks between them. -/
def width (d : Dump) : Nat := (d.formats.map fun f => (f.width + 1) * (d.rowSize / f.size)).foldl max 0

/-- The fields of a row in a format. The blanks are spread evenly before the fields. -/
def fields (d : Dump) (f : FieldFormat) (row : Bytes) : Bytes :=
  let count := d.rowSize / f.size
  let blanks := d.width - f.width * count
  let texts := (pieces f.size (row.length + 1) row).map fun bytes =>
    f.text ((bytes ++ List.replicate f.size 0).take f.size)
  let spread := texts.zipIdx.flatMap fun (text, i) =>
    let own := blanks * (count - i) / count - blanks * (count - i - 1) / count
    filled false false (own + f.width) text
  let missing := count - texts.length
  if f.showsText then
    spread ++ List.replicate (missing * (f.width + 1)) 32 ++ [32, 32, 62] ++
      row.map (fun b => if 32 ≤ b && b < 127 then b else 46) ++ [60]
  else spread

/-- The lines of a row. -/
def row (d : Dump) (place : Nat) (bytes : Bytes) : Bytes :=
  let start := d.address place
  d.formats.zipIdx.flatMap fun (f, i) =>
    (if i = 0 then start else List.replicate start.length 32) ++ d.fields f bytes ++ [10]

/-- The rows from a place on: full ones that repeat the one before are told by one mark. -/
def rows (d : Dump) (total : Nat) : Nat → Option Bytes → Bool → List Bytes → Bytes
  | _, _, _, [] => []
  | place, last, isMarked, bytes :: rest =>
    if !d.showsRepeats && last = some bytes && bytes.length = d.rowSize && place + d.rowSize ≤ total then
      (if isMarked then [] else [42, 10]) ++ d.rows total (place + d.rowSize) last true rest
    else d.row place bytes ++ d.rows total (place + d.rowSize) (some bytes) false rest

end Dump

namespace Programs

/-- The bytes of inputs in rows. -/
def od (args : List Bytes) : Act Nat :=
  let long := [("address-radix", 'A'), ("skip-bytes", 'j'), ("read-bytes", 'N'), ("format", 't'),
    ("output-duplicates", 'v'), ("width", 'w')]
  Act.withOptions "od" 1 ⟨"abcdhiloxsv", "AjNtw", long, false⟩ args fun given => do
    let asked : Except Bytes (List (List FieldFormat)) := given.options.mapM fun (letter, value) =>
      if letter = 116 then FieldFormat.read value (value.length + 1) value
      else .ok (FieldFormat.ofLetter? letter).toList
    let radix? : Option (Option Nat) := match (given.value? 'A').getD [111] with
      | [111] => some (some 8)
      | [100] => some (some 10)
      | [120] => some (some 16)
      | [110] => some none
      | _ => none
    match asked, radix? with
    | _, none =>
      Act.report ("od: invalid output address radix " ++ inQuotes ((given.value? 'A').getD []) ++
        "; it must be one character from [doxn]")
      pure 1
    | .error message, _ =>
      Act.report ("od: " ++ message)
      pure 1
    | .ok formats, some radix =>
      let formats := if formats.flatten.isEmpty then [⟨.octal, 2, false⟩] else formats.flatten
      let rowSize := ((given.value? 'w').map Bytes.digitsValue).getD 16
      let index := (← get).streams.length
      modify fun p => (p.withStream []).1
      let status ← Act.inputs "od" given.operands fun _ content => modify fun p => p.emit (.stream index) content
      let content := (← get).contentOf (.stream index)
      let skipped := ((given.value? 'j').map Bytes.digitsValue).getD 0
      if content.length < skipped then
        Act.report "od: cannot skip past end of combined input"
        return 1
      let content := content.drop skipped
      let content := match given.value? 'N' with
        | some count => content.take (Bytes.digitsValue count)
        | none => content
      let isUnread := content.isEmpty && status ≠ 0 && given.operands.length = 1
      let d : Dump := ⟨formats, max rowSize 1, radix, given.has 'v'⟩
      let total := skipped + content.length
      Act.put (d.rows total skipped none false (pieces d.rowSize (content.length + 1) content))
      if radix.isSome && !isUnread then Act.put (d.address total ++ [10])
      pure status

end Programs

end Shell

/-! ## Files in blocks

Programs that take files apart: one copies a number of blocks from some place to another, one writes the
pieces of its input to files of their own.
-/

namespace Shell

/-- A size in bytes with a unit behind it. -/
def sizeOf? (text : Bytes) : Option Nat :=
  let digits := text.takeWhile Bytes.isDigit
  let unit := text.drop digits.length
  let factor? : Option Nat :=
    if unit.isEmpty || unit = "c" then some 1
    else if unit = "w" then some 2
    else if unit = "b" then some 512
    else if unit = "kB" || unit = "KB" then some 1000
    else if unit = "k" || unit = "K" || unit = "KiB" then some 1024
    else if unit = "MB" then some 1000000
    else if unit = "M" || unit = "MiB" then some 1048576
    else if unit = "GB" then some 1000000000
    else if unit = "G" || unit = "GiB" then some 1073741824
    else none
  if digits.isEmpty then none else factor?.map (Bytes.digitsValue digits * ·)

/-- What a copy of blocks is asked for: its ends, the sizes of blocks read and written, how many are copied,
how many are passed over at either end, how bytes are changed, and how much is told. -/
structure BlockCopy where
  source : Option Bytes
  target : Option Bytes
  readSize : Nat
  writeSize : Nat
  isJoint : Bool
  count : Option Nat
  skipped : Nat
  sought : Nat
  changes : List Bytes
  talk : Bytes
deriving Repr

namespace BlockCopy

/-- A copy as it is without operands. -/
def usual : BlockCopy := ⟨none, none, 512, 512, false, none, 0, 0, [], []⟩

/-- The changes that are known. -/
def knownChanges : List String :=
  ["ucase", "lcase", "notrunc", "sync", "fsync", "fdatasync", "noerror", "swab", "excl", "nocreat", "sparse", "block",
    "unblock", "ascii", "ebcdic", "ibm"]

/-- A copy with one more operand; else what is wrong with it, and whether help is pointed to. -/
def withOperand (c : BlockCopy) (word : Bytes) : Except (Bytes × Bool) BlockCopy :=
  let name := word.takeWhile (· ≠ 61)
  let value := word.drop (name.length + 1)
  let number : Except (Bytes × Bool) Nat := match sizeOf? value with
    | some n => .ok n
    | none => .error ("invalid number: " ++ inQuotes value, false)
  let size : Except (Bytes × Bool) Nat := do
    let n ← number
    if n = 0 then .error ("invalid number: " ++ inQuotes value, false) else pure n
  let unknown : Except (Bytes × Bool) BlockCopy := .error ("unrecognized operand " ++ inQuotes word, true)
  if name.length = word.length then unknown
  else if name = "if" then .ok { c with source := some value }
  else if name = "of" then .ok { c with target := some value }
  else if name = "bs" then size.map fun n => { c with readSize := n, writeSize := n, isJoint := true }
  else if name = "ibs" then size.map fun n => { c with readSize := n }
  else if name = "obs" then size.map fun n => { c with writeSize := n }
  else if name = "count" then number.map fun n => { c with count := some n }
  else if name = "skip" || name = "iseek" then number.map fun n => { c with skipped := n }
  else if name = "seek" || name = "oseek" then number.map fun n => { c with sought := n }
  else if name = "iflag" || name = "oflag" || name = "cbs" then .ok c
  else if name = "status" then
    if value = "none" || value = "noxfer" || value = "progress" then .ok { c with talk := value }
    else .error ("invalid status level: " ++ inQuotes value, true)
  else if name = "conv" then
    let asked := Bytes.splitOn 44 value
    match asked.find? fun change => !knownChanges.any (Bytes.ofString · = change) with
    | some change => .error ("invalid conversion: " ++ inQuotes change, true)
    | none => .ok { c with changes := c.changes ++ asked }
  else unknown

/-- Whether a change is asked for. -/
def changesBy (c : BlockCopy) (name : Bytes) : Bool := c.changes.contains name

/-- Neighbouring bytes exchanged. -/
def swapped : Bytes → Bytes
  | a :: b :: rest => b :: a :: swapped rest
  | rest => rest

/-- Bytes with the changes made. -/
def changed (c : BlockCopy) (text : Bytes) : Bytes :=
  let text := if c.changesBy "ucase" then text.map fun b => if 97 ≤ b && b ≤ 122 then b - 32 else b else text
  let text := if c.changesBy "lcase" then text.map fun b => if 65 ≤ b && b ≤ 90 then b + 32 else b else text
  let text := if c.changesBy "swab" then swapped text else text
  if c.changesBy "sync" then text ++ List.replicate ((c.readSize - text.length % c.readSize) % c.readSize) 0 else text

/-- A number of full and of partial blocks. -/
def records (size length : Nat) : Bytes :=
  Decimal.ofNat (length / size) ++ [43] ++ [if length % size = 0 then 48 else 49]

/-- A number of bytes with a unit of some base and one place, rounded up. -/
def shortSize (base : Nat) (units : List Bytes) (n : Nat) : Bytes :=
  match units with
  | [] => Decimal.ofNat n
  | [unit] => Decimal.ofNat n ++ [32] ++ unit
  | unit :: others =>
    if n < base then Decimal.ofNat n ++ [32] ++ unit
    else scaled others n base
where
  /-- The number in the first unit that is large enough. -/
  scaled : List Bytes → Nat → Nat → Bytes
    | [], n, _ => Decimal.ofNat n
    | unit :: rest, n, size =>
      if n < size * base || rest.isEmpty then
        let tenths := (n * 10 + size - 1) / size
        (if tenths < 100 then Decimal.ofNat (tenths / 10) ++ [46] ++ Decimal.ofNat (tenths % 10)
          else Decimal.ofNat ((n + size - 1) / size)) ++ [32] ++ unit
      else scaled rest n (size * base)

/-- How much was copied. -/
def summary (n : Nat) : Bytes :=
  let decimal := shortSize 1000 ["B", "kB", "MB", "GB", "TB"] n
  let binary := shortSize 1024 ["B", "KiB", "MiB", "GiB", "TiB"] n
  let noun : Bytes := if n = 1 then " byte" else " bytes"
  let shown : Bytes := if n < 1000 then [] else if n < 1024 then " (" ++ decimal ++ ")" else " (" ++ decimal ++ ", " ++ binary ++ ")"
  Decimal.ofNat n ++ noun ++ shown ++ " copied, 0.0001 s, " ++ decimal ++ "/s"

end BlockCopy

namespace Programs

/-- A file with bytes written at a place: what was there before stays, and what was behind as well if that is
asked for. -/
def overwritten (old : Bytes) (place : Nat) (text : Bytes) (keepsRest : Bool) : Bytes :=
  (old ++ List.replicate place 0).take place ++ text ++ (if keepsRest then old.drop (place + text.length) else [])

/-- What is told about a copy. -/
def tellCopy (c : BlockCopy) (readLength written : Nat) : Act Unit := do
  if c.talk ≠ "none" then
    Act.report (BlockCopy.records c.readSize readLength ++ " records in")
    Act.report (BlockCopy.records c.writeSize written ++ " records out")
    if c.talk ≠ "noxfer" then Act.report (BlockCopy.summary written)

/-- The bytes that a copy reads; else its status. -/
def copySource (c : BlockCopy) : Act (Except Nat Bytes) := do
  let passed := c.skipped * c.readSize
  let wanted := c.count.map (· * c.readSize)
  match c.source with
  | none =>
    let _ ← if passed = 0 then pure ([], true) else Act.readUpTo none (some passed)
    match wanted with
    | some n => pure (.ok (← Act.readUpTo none (some n)).1)
    | none => pure (.ok (← Act.readAll))
  | some path =>
    if path = "/dev/zero" || path = "/dev/urandom" || path = "/dev/random" then
      match wanted with
      | some n => pure (.ok (List.replicate n 0))
      | none => Act.finish .deadline
    else
      match ← Act.contentAt path with
      | .ok content =>
        if content.length < passed then Act.report ("dd: " ++ path ++ ": cannot skip to specified offset")
        let content := content.drop passed
        pure (.ok (match wanted with
          | some n => content.take n
          | none => content))
      | .error .isDirectory =>
        Act.report ("dd: error reading " ++ inQuotes path ++ ": Is a directory")
        tellCopy c 0 0
        pure (.error 1)
      | .error cause =>
        Act.report ("dd: failed to open " ++ inQuotes path ++ ": " ++ reasonOf cause)
        pure (.error 1)

/-- A number of blocks copied. -/
def dd (args : List Bytes) : Act Nat := do
  let operands := args.filter fun (word : Bytes) => word ≠ "--"
  match operands.foldlM BlockCopy.withOperand .usual with
  | .error (message, pointsToHelp) =>
    Act.report ("dd: " ++ message)
    if pointsToHelp then Act.report (helpHint "dd")
    pure 1
  | .ok c =>
    match ← copySource c with
    | .error status => pure status
    | .ok found =>
      let text := c.changed found
      match c.target with
      | none =>
        Act.put text
        tellCopy c found.length text.length
        pure 0
      | some path =>
        if ("/dev/" : Bytes).isPrefixOf path then
          if path = "/dev/stdout" then Act.put text
          else if path = "/dev/stderr" then Act.write 2 text
          tellCopy c found.length text.length
          pure 0
        else
          let files := (← get).files
          let old := match files.stat path with
            | .ok (.file content) => content.toBytes
            | _ => []
          match files.writablePlace path with
          | .error cause =>
            Act.report ("dd: failed to open " ++ inQuotes path ++ ": " ++ reasonOf cause)
            pure 1
          | .ok _ =>
            let whole := overwritten old (c.sought * c.writeSize) text (c.changesBy "notrunc")
            let (files, fault) := files.writeFile path whole
            let status ← Act.changed files fault
            tellCopy c found.length text.length
            pure status

/-- The ending of a numbered piece: so many letters or digits. -/
def pieceEnding (digits : Bool) : Nat → Nat → Bytes
  | 0, _ => []
  | width + 1, n =>
    let base := if digits then 10 else 26
    pieceEnding digits width (n / base) ++ [UInt8.ofNat ((if digits then 48 else 97) + n % base)]

/-- Groups of so many members, at most so many groups. -/
def groups {α : Type} (size : Nat) : Nat → List α → List (List α)
  | 0, _ => []
  | _, [] => []
  | count + 1, members => members.take size :: groups size count (members.drop size)

/-- Texts written to the files of some names. -/
def writePieces : List (Bytes × Bytes) → Act Nat
  | [] => pure 0
  | (path, text) :: rest => do
    let (files, fault) := (← get).files.writeFile path text
    let status ← Act.changed files fault
    let others ← writePieces rest
    pure (if others = 0 then status else others)

/-- The pieces of an input written to files of their own. -/
def split (args : List Bytes) : Act Nat :=
  let long := [("lines", 'l'), ("bytes", 'b'), ("number", 'n'), ("numeric-suffixes", 'd'), ("suffix-length", 'a')]
  Act.withOptions "split" 1 ⟨"dx", "lbnaC", long, false⟩ args fun given => do
    match given.operands.drop 2 with
    | extra :: _ =>
      Act.report ("split: extra operand " ++ inQuotes extra)
      Act.report (helpHint "split")
      return 1
    | [] => pure ()
    let path := given.operands.headD [45]
    let start := given.operands.getD 1 "x"
    let content? ← if path = [45] then pure (.ok (← Act.readAll)) else Act.contentAt path
    match content? with
    | .error cause =>
      Act.report ("split: cannot open " ++ inQuotes path ++ " for reading: " ++ reasonOf cause)
      pure 1
    | .ok content =>
      let count (letter : Char) (usual : Nat) : Nat := ((given.value? letter).bind sizeOf?).getD usual
      if given.has 'l' && count 'l' 0 = 0 then
        Act.report ("split: invalid number of lines: " ++ inQuotes ((given.value? 'l').getD []))
        return 1
      if given.has 'b' && count 'b' 0 = 0 then
        Act.report ("split: invalid number of bytes: " ++ inQuotes ((given.value? 'b').getD []))
        return 1
      let parts : List Bytes :=
        if given.has 'b' then pieces (count 'b' 1) (content.length + 1) content
        else if given.has 'n' then
          let size := content.length / max 1 (count 'n' 1)
          (List.range (count 'n' 1)).map fun i =>
            let rest := content.drop (i * size)
            if i + 1 = count 'n' 1 then rest else rest.take size
        else (groups (count 'l' 1000) (content.length + 1) (linesOf content)).map List.flatten
      let width := count 'a' 2
      writePieces (parts.zipIdx.map fun (part, i) => (start ++ pieceEnding (given.has 'd') width i, part))

end Programs

end Shell

end MobilitySweep
