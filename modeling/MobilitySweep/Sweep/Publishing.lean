import MobilitySweep.Archive.Logs
import MobilitySweep.Mobility.Writing
import MobilitySweep.Sweep.Template

/-! # Publishing files

Traces and simulator configurations are written under a temporary name and renamed once they are
complete, so that their own names never stand for part of them.
-/

namespace MobilitySweep

/-- Where publishing failed. -/
inductive Unpublished where
  | create (fault : Fault)
  | rename (fault : Fault)
deriving DecidableEq, Repr

namespace Unpublished

/-- The failure with the activities that its two stages are part of. -/
def fault (atCreate atRename : Bytes) : Unpublished → Fault
  | create fault => fault.within atCreate
  | rename fault => fault.within atRename

end Unpublished

/-- A text put under a path by way of a temporary name, which is removed again if it cannot take the
path. -/
def publish (path text : Bytes) : Steps Files (Option Unpublished) := do
  let temporary := path ++ Archive.temporaryEnding
  match ← Archive.attempt (·.create temporary) with
  | some fault => return some (.create fault)
  | none =>
    Steps.change fun (files : Files) => files.append temporary text
    match ← Archive.attempt (·.rename temporary path) with
    | some fault =>
      Steps.change fun (files : Files) => (files.remove temporary).1
      return some (.rename fault)
    | none => return none

namespace Trace

/-- A complete trace put under a path: what the generator did, and the failure. Nothing is generated
when the file cannot be created. -/
def produce (path : Bytes) (p : Params) (o : Options) (source : Pcg) : Steps Files (Stats × Option Fault) := do
  match Generator.create p o source with
  | .error cause => return (⟨0, 0, 0⟩, some cause.fault)
  | .ok generator =>
    let (sink, last, _) := generator.run .unlimited
    match ← publish path sink.toBytes with
    | none => return (last.stats, none)
    | some failure =>
      let fault := failure.fault "creating trace file" "renaming trace file"
      match failure with
      | .create _ => return (⟨0, 0, 0⟩, some fault)
      | .rename _ => return (last.stats, some fault)

end Trace

namespace Template

/-- A template read from a file. -/
def load (files : Files) (path placeholder : Bytes) : Except Fault Template := do
  let content ← (files.contentAt path).mapError (·.within "reading simulator template")
  (create content.toBytes placeholder).mapError fun cause => cause.fault.within ("simulator template " ++ path)

/-- The configuration of a trace put under a path. -/
def write (t : Template) (path traceName : Bytes) : Steps Files (Option Fault) := do
  let failure ← publish path (t.render traceName)
  return failure.map (·.fault "writing simulator config" "renaming simulator config")

end Template

end MobilitySweep
