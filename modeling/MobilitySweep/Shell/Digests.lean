import MobilitySweep.Digest.Checksums
import MobilitySweep.Digest.Hashes
import MobilitySweep.Shell.Utility

/-! # Digests of files

Programs that write the digests of their inputs, a line for each, and that check files against such
lines.
-/

namespace MobilitySweep

namespace Shell

/-- A digest that a program writes: the name of the program, the name of the digest, and how it is found. -/
structure DigestKind where
  program : Bytes
  title : Bytes
  digest : Bytes → Bytes

/-- What a check of files came to: lines that are none, files that could not be read, digests that differ,
and those that agree. -/
structure CheckTally where
  unread : Nat
  missing : Nat
  different : Nat
  right : Nat
deriving DecidableEq, Repr

/-- The digest and the path that a line gives. -/
def digestLine? (length : Nat) (line : Bytes) : Option (Bytes × Bytes) :=
  let isHex (b : UInt8) : Bool := Bytes.isDigit b || (97 ≤ b && b ≤ 102) || (65 ≤ b && b ≤ 70)
  let digest := line.take length
  let path := line.drop (length + 2)
  let mark := (line.drop length).take 2
  if digest.length = length && digest.all isHex && (mark = [32, 32] || mark = [32, 42]) && !path.isEmpty then
    some (digest.map fun b => if 65 ≤ b && b ≤ 70 then b + 32 else b, path)
  else none

namespace Programs

/-- One line of a check. -/
def checkLine (kind : DigestKind) (isQuiet isSilent : Bool) (line : Bytes) (t : CheckTally) : Act CheckTally := do
  match digestLine? (kind.digest []).length line with
  | none => pure { t with unread := t.unread + 1 }
  | some (digest, path) =>
    match ← Act.contentAt path with
    | .error cause =>
      Act.report (kind.program ++ ": " ++ inNeededQuotes path ++ ": " ++ reasonOf cause)
      if !isSilent then Act.put (path ++ ": FAILED open or read\n")
      pure { t with missing := t.missing + 1 }
    | .ok content =>
      if kind.digest content = digest then
        if !isQuiet && !isSilent then Act.put (path ++ ": OK\n")
        pure { t with right := t.right + 1 }
      else
        if !isSilent then Act.put (path ++ ": FAILED\n")
        pure { t with different := t.different + 1 }

/-- The lines of a check in turn. -/
def checkLines (kind : DigestKind) (isQuiet isSilent : Bool) : List Bytes → CheckTally → Act CheckTally
  | [], t => pure t
  | line :: rest, t => do checkLines kind isQuiet isSilent rest (← checkLine kind isQuiet isSilent line t)

/-- Files checked against the lines of an input. -/
def checkDigests (kind : DigestKind) (isQuiet isSilent : Bool) (title content : Bytes) : Act Bool := do
  let lines := (linesOf content).map lineText
  let t ← checkLines kind isQuiet isSilent lines ⟨0, 0, 0, 0⟩
  let warn (count : Nat) (one many : Bytes) : Act Unit := do
    if count ≠ 0 && !isSilent then
      Act.report (kind.program ++ ": WARNING: " ++ Decimal.ofNat count ++ (if count = 1 then one else many))
  if t.missing + t.different + t.right = 0 then
    Act.report (kind.program ++ ": " ++ title ++ ": no properly formatted checksum lines found")
    pure false
  else
    warn t.unread " line is improperly formatted" " lines are improperly formatted"
    warn t.missing " listed file could not be read" " listed files could not be read"
    warn t.different " computed checksum did NOT match" " computed checksums did NOT match"
    pure (t.missing = 0 && t.different = 0)

/-- The digest of every input, or a check of files against the lines of the inputs. -/
def digests (kind : DigestKind) (args : List Bytes) : Act Nat :=
  let long := [("binary", 'b'), ("text", 't'), ("check", 'c'), ("quiet", 'q'), ("status", 's'), ("tag", 'g'),
    ("warn", 'w'), ("strict", 'r'), ("zero", 'z'), ("ignore-missing", 'i')]
  Act.withOptions kind.program 1 ⟨"btczw", "", long, false⟩ args fun given => do
    if given.has 'c' then
      let index := (← get).streams.length
      modify fun p => (p.withStream []).1
      let status ← Act.inputs kind.program given.operands fun path content => do
        let title : Bytes := if path.isEmpty || path = [45] then "'standard input'" else inNeededQuotes path
        if !(← checkDigests kind (given.has 'q') (given.has 's') title content) then
          modify fun p => p.emit (.stream index) [1]
      pure (if ((← get).contentOf (.stream index)).isEmpty then status else 1)
    else
      let ending : Bytes := if given.has 'z' then [0] else [10]
      Act.inputs kind.program given.operands fun path content =>
        let path := if path.isEmpty then [45] else path
        let digest := kind.digest content
        Act.put ((if given.has 'g' then kind.title ++ " (" ++ path ++ ") = " ++ digest
          else digest ++ (if given.has 'b' then [32, 42] else [32, 32]) ++ path) ++ ending)

/-- The check value and the size of every input. -/
def cksum (args : List Bytes) : Act Nat :=
  Act.withOptions "cksum" 1 ⟨"", "a", [("algorithm", 'a')], false⟩ args fun given =>
    Act.inputs "cksum" given.operands fun path content =>
      Act.put (Decimal.ofNat (Crc32.fileChecksum content).toNat ++ [32] ++ Decimal.ofNat content.length ++
        (if path.isEmpty then [] else [32] ++ path) ++ [10])

/-- The programs that write digests. -/
def digestKinds : List DigestKind :=
  [⟨"md5sum", "MD5", Md5.hexDigest⟩, ⟨"sha1sum", "SHA1", Sha1.hexDigest⟩, ⟨"sha224sum", "SHA224", Sha256.shortHexDigest⟩,
    ⟨"sha256sum", "SHA256", Sha256.hexDigest⟩, ⟨"sha384sum", "SHA384", Sha512.shortHexDigest⟩,
    ⟨"sha512sum", "SHA512", Sha512.hexDigest⟩]

end Programs

end Shell

end MobilitySweep
