import MobilitySweep.Cli.Run
import Std.Time.DateTime.Timestamp

/-! # The program

The outer layer. The files below the working directory are read into a tree, the command line is run on
that tree, and what has changed is written back. A ledger lives in the tree only: how a database engine
keeps it on disk is not known here.
-/

namespace MobilitySweep

namespace Program

/-- The tree with what a directory entry stands for, and all below it. What cannot be read is left out. -/
partial def gather (place : Place) (files : Files) (entry : IO.FS.DirEntry) : IO Files := do
  let here := place ++ [Bytes.ofString entry.fileName]
  try
    if ← entry.path.isDir then
      (← entry.path.readDir).foldlM (gather here) (files.put here .directory)
    else
      let content ← IO.FS.readBinFile entry.path
      return files.put here (.file (.bytes content.toList))
  catch _ => return files

/-- The files below the working directory. -/
def snapshot : IO Files := do
  let directory ← IO.currentDir
  let place := Path.components (Bytes.ofString directory.toString)
  (← directory.readDir).foldlM (gather place) (.fresh place)

/-- A path for the system. -/
def outer (path : Bytes) : String := Utf8.toString path

/-- One entry written. -/
def store (path : Bytes) : Entry → IO Unit
  | .directory => IO.FS.createDirAll (outer path)
  | .file (.bytes text) => IO.FS.writeBinFile (outer path) (ByteArray.mk text.toArray)
  | .file (.ledger _) => pure ()
  | .link _ => pure ()

/-- One entry removed. -/
def discard (path : Bytes) : Entry → IO Unit
  | .directory => IO.FS.removeDir (outer path)
  | _ => IO.FS.removeFile (outer path)

/-- The difference between two trees written. -/
def writeBack (before after : Files) : IO Unit := do
  for (path, entry) in after.listing do
    if !before.listing.contains (path, entry) then store path entry
  for (path, entry) in before.listing.reverse do
    if !after.listing.any (·.1 = path) then discard path entry

/-- The words of a text that can be names of variables. -/
def names (text : Bytes) : List Bytes :=
  (Bytes.splitOn ' ' (text.map fun b => if Environment.isNameChar b then b else 32)).filter (!·.isEmpty)

/-- The variables that override settings. -/
def overriding : List Bytes :=
  ["COWTRACE_ROOT", "COWTRACE_WORKERS", "COWTRACE_REPETITIONS", "COWTRACE_SEED", "COWTRACE_RESUME",
    "COWTRACE_SIMULATOR_ENABLED", "COWTRACE_SIMULATOR_COMMAND", "COWTRACE_SIMULATOR_TIMEOUT",
    "COWTRACE_LEDGER", "COWTRACE_LOG_LEVEL"]

/-- The configuration file that a command line asks for. -/
def configPath (line : List Bytes) : Bytes :=
  match Cli.Request.read line with
  | .ok (.execute _ arguments) =>
    match arguments.text? "config" with
    | some (b :: path) => b :: path
    | _ => Config.defaultFile
  | _ => Config.defaultFile

/-- The variables that a command line can depend on: those that override settings, and those that its
configuration may mention. -/
def environment (line : List Bytes) (files : Files) : IO Environment := do
  let mentioned := match files.contentAt (configPath line) with
    | .ok content => names content.toBytes
    | .error _ => []
  let values ← (overriding ++ mentioned).eraseDups.mapM fun name => do
    return (← IO.getEnv (Utf8.toString name)).map fun value => (name, Bytes.ofString value)
  return values.filterMap id

/-- The present moment. -/
def now : IO Instant := do
  let time ← Std.Time.Timestamp.now
  return (Instant.ofCivil ⟨1970, 1, 1, 0, 0, 0, 0⟩).add time.toNanosecondsSinceUnixEpoch.toInt

/-- Random bytes as a number. -/
def draw (count : USize) : IO Nat := do
  return (← IO.getRandomBytes count).toList.foldl (fun n b => n * 256 + b.toNat) 0

/-- A random identity in the usual groups of hexadecimal digits. -/
def identity : IO Bytes := do
  let digits := Quoted.hex 32 (← draw 16)
  let variant := Quoted.hex 1 (8 + (← draw 1) % 4)
  return Bytes.joinWith "-" [digits.take 8, (digits.drop 8).take 4, "4" ++ (digits.drop 13).take 3,
    variant ++ (digits.drop 17).take 3, digits.drop 20]

/-- The surroundings of a command line. -/
def surroundings (line : List Bytes) (files : Files) : IO Cli.Surroundings := do
  return {
    environment := ← environment line files
    clock := ⟨← now, 1⟩
    identity := ← identity
    seed := Int64.ofNat ((← draw 8) / 2)
    schedules := [] }

/-- A command line run in the working directory: whether it succeeded. -/
def run (line : List Bytes) : IO Bool := do
  let before ← snapshot
  let (outcome, after) := Cli.run (← surroundings line before) line before
  writeBack before after
  (← IO.getStdout).write (ByteArray.mk outcome.output.toArray)
  let complaint := match outcome.fault with
    | some fault => [fault.message]
    | none => []
  for message in outcome.messages ++ complaint do
    (← IO.getStderr).write (ByteArray.mk (message ++ [(10 : UInt8)]).toArray)
  return outcome.fault.isNone

end Program

end MobilitySweep

/-- The program: it ends with status 1 if its command line fails. -/
def main (arguments : List String) : IO UInt32 := do
  return if ← MobilitySweep.Program.run (arguments.map MobilitySweep.Bytes.ofString) then 0 else 1
