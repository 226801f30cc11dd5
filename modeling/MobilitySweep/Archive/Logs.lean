import MobilitySweep.Archive.Gzip
import MobilitySweep.Digest.Sha256
import MobilitySweep.Files.Operations
import MobilitySweep.Number.Decimal
import MobilitySweep.Steps

/-! # Archiving logs

A log is packed beside itself under a temporary name, renamed once it is complete, and only then is the
plain log removed, so that the name of an archive never stands for less than all of it.
-/

namespace MobilitySweep

namespace Archive

/-- The ending of archive names. -/
def ending : Bytes := ".gz"

/-- The ending of files that are not complete yet. -/
def temporaryEnding : Bytes := ".tmp"

/-- The archive of a file. -/
def pathFor (path : Bytes) : Bytes := path ++ ending

/-- An action on files that may fail. -/
def attempt (action : Files → Files × Option Fault) : Steps Files (Option Fault) :=
  .act fun files =>
    let (files, fault) := action files
    (fault, files)

/-- What is left of an opened file once another path was created, and when that was written: nothing, and just now,
if the file itself was emptied. -/
def remaining (path created : Bytes) (opened : Entry) (time : Nat) (files : Files) : Entry × Nat :=
  if files.isSameFile path created then (.file (.bytes []), files.moment) else (opened, time)

/-- The reason for which a name fits into no header. -/
def unfitName : Bytes := "gzip.Write: non-Latin-1 header string"

/-- What goes into the archive of an opened file that was written at some time. -/
def packed (path : Bytes) (opened : Entry) (time : Nat) : Except Fault Bytes := do
  let content ← (Files.readOpened path opened).mapError (·.within "compressing log")
  let text := content.toBytes
  match pack? (Path.base path) time text with
  | some archive => .ok archive
  | none =>
    -- The header is written with the first bytes of the text, or on closing if there are none.
    let activity : Bytes := if text.isEmpty then "closing gzip writer" else "compressing log"
    .error (.plain (activity ++ ": " ++ unfitName))

/-- A file replaced by its archive: the path of the archive if there is one, and the failure. -/
def compress (path : Bytes) : Steps Files (Bytes × Option Fault) := do
  match ← Steps.look fun files => (files.openFile path, files.timeOf path) with
  | (.error fault, _) => return ([], some (fault.within "opening log"))
  | (.ok opened, written) =>
    let archive := pathFor path
    let temporary := archive ++ temporaryEnding
    -- Every failure takes the draft away again; whether that succeeds is not asked.
    let discard := Steps.change fun (files : Files) => (files.remove temporary).1
    match ← attempt (·.create temporary) with
    | some fault => return ([], some (fault.within "creating archive"))
    | none =>
      let (left, time) ← Steps.look (remaining path temporary opened written)
      match packed path left time with
      | .error fault =>
        discard
        return ([], some fault)
      | .ok bytes =>
        Steps.change fun (files : Files) => files.append temporary bytes
        match ← attempt (·.rename temporary archive) with
        | some fault =>
          discard
          return ([], some (fault.within "renaming archive"))
        | none =>
          -- The archive is complete from here on, so its path is returned even if the log stays.
          match ← attempt (·.remove path) with
          | some fault => return (archive, some (fault.within "removing plain log"))
          | none => return (archive, none)

/-- The most bytes of a text that an archive may hold. -/
def sizeLimit : Nat := 1073741824

/-- What is delivered of an unpacked text: all of it, or the first byte beyond the limit is the last one and the
failure is that of the size. -/
def delivered (text : Bytes) (damage : Option Fault) : Bytes × Option Fault :=
  if sizeLimit < text.length then
    (text.take (sizeLimit + 1),
      some (.plain ("decompressed archive exceeds maximum size of " ++ Decimal.ofNat sizeLimit ++ " bytes")))
  else (text, damage)

/-- The text of an archive as far as it can be read, and the failure. -/
def decompress (files : Files) (path : Bytes) : Bytes × Option Fault :=
  match files.openFile path with
  | .error fault => ([], some (fault.within "opening archive"))
  | .ok opened =>
    match Files.readOpened path opened with
    | .error fault => ([], some (fault.within "creating gzip reader"))
    | .ok content =>
      match readHeader content.toBytes with
      | .error reason => ([], some (.plain ("creating gzip reader: " ++ reason.message)))
      | .ok (_, input) =>
        let (text, reason) := unpack input
        delivered text (reason.map fun r => .plain ("decompressing archive: " ++ r.message))

/-- The name in the header of an archive. -/
def nameIn? (files : Files) (path : Bytes) : Option Bytes :=
  match files.contentAt path with
  | .error _ => none
  | .ok content =>
    match readHeader content.toBytes with
    | .error _ => none
    | .ok (header, _) => some header.name

/-- The digest of a file. -/
def checksum (files : Files) (path : Bytes) : Except Fault Bytes := do
  let opened ← (files.openFile path).mapError (·.within "opening file")
  let content ← (Files.readOpened path opened).mapError (·.within "hashing file")
  return "sha256:" ++ Sha256.hexDigest content.toBytes

end Archive

end MobilitySweep
