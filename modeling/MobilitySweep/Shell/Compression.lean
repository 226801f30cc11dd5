import MobilitySweep.Archive.Gzip
import MobilitySweep.Shell.Permissions

/-! # Files packed and unpacked

Files are replaced by archives under a longer name and archives by the files in them, or both are written
to the output.
-/

namespace MobilitySweep

namespace Shell

/-- Why an archive is not unpacked to its end: it is none, it stops too early, its data or its check value is
wrong, or something stands behind it. -/
inductive ArchiveFlaw where
  | noArchive
  | cut
  | data
  | checksum
  | rest
deriving DecidableEq, Repr

namespace ArchiveFlaw

/-- The wording of a flaw. -/
def message : ArchiveFlaw → Bytes
  | noArchive => "not in gzip format"
  | cut => "unexpected end of file"
  | data => "invalid compressed data--format violated"
  | checksum => "invalid compressed data--crc error"
  | rest => "decompression OK, trailing garbage ignored"

/-- The status for a flaw. -/
def status : ArchiveFlaw → Nat
  | rest => 2
  | _ => 1

end ArchiveFlaw

/-- The texts of the members of an archive, at most so many, and what is wrong with it. -/
def unpacked : Nat → Bool → Bytes → Bytes × Option ArchiveFlaw
  | 0, _, _ => ([], some .cut)
  | count + 1, isFirst, input =>
    if input.isEmpty then ([], if isFirst then some .cut else none)
    else
      match Archive.readHeader input with
      | .error .header => ([], some (if isFirst then .noArchive else .rest))
      | .error _ =>
        let isArchive := (input.take 2).isPrefixOf [0x1f, 0x8b]
        ([], some (if !isFirst then .rest else if isArchive then .cut else .noArchive))
      | .ok (_, data) =>
        match Archive.readMember data with
        | (text, .ok behind) =>
          let (more, flaw) := unpacked count false behind
          (text ++ more, flaw)
        | (text, .error .checksum) => (text, some .checksum)
        | (text, .error .ended) | (text, .error .truncated) => (text, some .cut)
        | (text, .error _) => (text, some .data)

namespace Programs

/-- What is packed and unpacked, and where it goes. -/
structure Packing where
  isUnpacking : Bool
  isShown : Bool
  isForced : Bool
  isKept : Bool
  isTested : Bool
  isQuiet : Bool
  isDeep : Bool
  ending : Bytes

namespace Packing

/-- A complaint about a file. -/
def refuse (p : Packing) (status : Nat) (message : Bytes) : Act Nat := do
  if !(p.isQuiet && status = 2) then Act.report ("gzip: " ++ message)
  pure status

/-- A content packed or unpacked to the output. -/
def display (p : Packing) (name content : Bytes) : Act Nat := do
  if p.isUnpacking then
    let (text, flaw) := unpacked (content.length + 1) true content
    if !p.isTested then Act.put text
    match flaw with
    | some flaw =>
      Act.report []
      p.refuse flaw.status (name ++ ": " ++ flaw.message)
    | none => pure 0
  else
    Act.put ((Archive.pack? [] 0 content).getD [])
    pure 0

/-- A file replaced by another one, unless that is there already. -/
def replace (p : Packing) (path target content : Bytes) : Act Nat := do
  let files := (← get).files
  if files.exists? target && !p.isForced then
    p.refuse 2 (target ++ " already exists;\tnot overwritten")
  else
    let (files, fault) := files.writeFile target content
    let _ ← Act.changed (if p.isKept then files else files.removeAll path) fault
    pure 0

/-- The path of an archive: the path itself, or the one with the ending where that is what is there. -/
def sought (p : Packing) (files : Files) (path : Bytes) : Bytes :=
  if !p.isUnpacking || files.exists? path || p.ending.isSuffixOf path then path else path ++ p.ending

/-- One file packed or unpacked. -/
def file (p : Packing) (given : Bytes) : Act Nat := do
  let files := (← get).files
  let path := p.sought files given
  match files.linkStat path with
  | .error cause => p.refuse 1 (path ++ ": " ++ reasonOf cause)
  | .ok .directory => p.refuse 2 (path ++ " is a directory -- ignored")
  | .ok entry =>
    let isLink := match entry with
      | .link _ => true
      | _ => false
    if isLink && !p.isShown && !p.isForced && !p.isTested then p.refuse 1 (path ++ ": " ++ reasonOf .tooManyLinks)
    else
      match ← Act.contentAt path with
      | .error cause => p.refuse 1 (path ++ ": " ++ reasonOf cause)
      | .ok content =>
        if p.isShown || p.isTested then p.display path content
        else if p.isUnpacking then
          if !p.ending.isSuffixOf path then p.refuse 2 (path ++ ": unknown suffix -- ignored")
          else
            let target := path.take (path.length - p.ending.length)
            match unpacked (content.length + 1) true content with
            | (text, none) => p.replace path target text
            | (text, some flaw) =>
              if flaw = .rest then
                let _ ← p.replace path target text
              Act.report []
              p.refuse flaw.status (path ++ ": " ++ flaw.message)
        else if p.ending.isSuffixOf path && !p.isForced then
          if !p.isQuiet then Act.report ("gzip: " ++ path ++ " already has " ++ p.ending ++ " suffix -- unchanged")
          pure 0
        else p.replace path (path ++ p.ending) ((Archive.pack? (Path.base path) (files.timeOf path) content).getD [])

end Packing

/-- Files packed or unpacked. -/
def gzip (args : List Bytes) : Act Nat := do
  let long := [("stdout", 'c'), ("to-stdout", 'c'), ("decompress", 'd'), ("uncompress", 'd'), ("force", 'f'),
    ("keep", 'k'), ("test", 't'), ("quiet", 'q'), ("recursive", 'r'), ("suffix", 'S'), ("verbose", 'v'),
    ("no-name", 'n'), ("name", 'N'), ("fast", '1'), ("best", '9'), ("list", 'l'), ("rsyncable", '\x01')]
  match (OptionTable.mk "acdfhklLnNqrtvV123456789" "bS" long false).read none args with
  | .error message =>
    Act.report ("gzip: " ++ message)
    Act.report "Try `gzip --help' for more information."
    pure 1
  | .ok given =>
    let p : Packing :=
      { isUnpacking := given.has 'd' || given.has 't' || given.has 'l'
        isShown := given.has 'c'
        isForced := given.has 'f'
        isKept := given.has 'k'
        isTested := given.has 't'
        isQuiet := given.has 'q'
        isDeep := given.has 'r'
        ending := (given.value? 'S').getD ".gz" }
    if given.operands.isEmpty then p.display "stdin" (← Act.readAll)
    else
      let files := (← get).files
      let paths := if p.isDeep then
          (given.operands.flatMap (pathsBelow files depthLimit)).filter fun path => !files.isPlainDirectory path
        else given.operands
      let statuses ← paths.mapM fun path => do
        if path = [45] then p.display "stdin" (← Act.readAll) else p.file path
      pure (if statuses.contains 1 then 1 else statuses.foldl max 0)

end Programs

end Shell

end MobilitySweep
