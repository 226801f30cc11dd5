import MobilitySweep.Config.Basic
import MobilitySweep.Fault
import MobilitySweep.Yaml.Decoding

/-! # Reading configurations

A configuration file is a YAML mapping of sections. Settings that it does not mention keep their
defaults, and keys that no setting has are passed over.
-/

namespace MobilitySweep

namespace Config

open Yaml

/-- Why a configuration file is refused. -/
inductive Unreadable where
  | flaw (cause : Flaw)
  | abort (cause : Abort)
  | mismatches (lines : List Bytes)

/-- The wording of a refusal. -/
def Unreadable.message : Unreadable → Bytes
  | flaw cause => "yaml: " ++ cause.message
  | abort cause => "yaml: " ++ cause.message
  | mismatches lines => "yaml: unmarshal errors:\n  " ++ Bytes.joinWith "\n  " lines

/-- The decoders of the kinds of settings, for one document. -/
structure Kinds where
  int : Decoder Int64
  seed : Decoder (Option Int64)
  bool : Decoder Bool
  text : Decoder Bytes
  duration : Decoder Duration
  ints : Decoder (Option (List Int64))
  texts : Decoder (Option (List Bytes))

/-- The decoders for a document. -/
def kinds (document : Document) : Kinds :=
  let scalar {α : Type} (wanted : Bytes) (convert : Bytes → Bytes → Value → Option α) : Decoder α :=
    throughAliases document (checkingKeys (scalarDecoder wanted convert)) 2
  let int := scalar "int" int64Of
  let text := scalar "string" textOf
  { int := int
    seed := throughAliases document
      (checkingKeys (optionalDecoder 0 "*int64" (scalarDecoder "int64" int64Of))) 2
    bool := scalar "bool" boolOf
    text := text
    duration := scalar "time.Duration" durationOf
    ints := throughAliases document (listDecoder "[]int" 0 int) 2
    texts := throughAliases document (listDecoder "[]string" [] text) 2 }

/-- How deep mappings may be merged into one another. -/
def mergeDepth : Nat := 1000000

/-- A section of settings. -/
def group {α : Type} (document : Document) (wanted : Bytes) (fields : List (Slot α)) : Decoder α :=
  throughAliases document (recordDecoder document wanted fields (kinds document).text mergeDepth) 2

/-- The sweep settings. -/
def sweepFields (k : Kinds) : List (Slot SweepSettings) :=
  [ .of "node_distances" k.ints (·.nodeDistances) fun s x => { s with nodeDistances := x },
    .of "swap_couples" k.ints (·.swapCouples) fun s x => { s with swapCouples := x },
    .of "shuffle_distances" k.ints (·.shuffleDistances) fun s x => { s with shuffleDistances := x },
    .of "repetitions" k.int (·.repetitions) fun s x => { s with repetitions := x },
    .of "workers" k.int (·.workers) fun s x => { s with workers := x },
    .of "seed" k.seed (·.seed) fun s x => { s with seed := x },
    .of "resume" k.bool (·.resume) fun s x => { s with resume := x } ]

/-- The generator settings. -/
def generatorFields (k : Kinds) : List (Slot GeneratorSettings) :=
  [ .of "nodes" k.int (·.nodes) fun s x => { s with nodes := x },
    .of "duration" k.int (·.duration) fun s x => { s with duration := x },
    .of "sample_interval" k.int (·.sampleInterval) fun s x => { s with sampleInterval := x } ]

/-- The layout settings. -/
def layoutFields (k : Kinds) : List (Slot Layout) :=
  [ .of "root" k.text (·.root) fun s x => { s with root := x },
    .of "positions" k.text (·.positions) fun s x => { s with positions := x },
    .of "configs" k.text (·.configs) fun s x => { s with configs := x },
    .of "results" k.text (·.results) fun s x => { s with results := x } ]

/-- The simulator settings. -/
def simulatorFields (k : Kinds) : List (Slot SimulatorSettings) :=
  [ .of "enabled" k.bool (·.enabled) fun s x => { s with enabled := x },
    .of "template" k.text (·.template) fun s x => { s with template := x },
    .of "placeholder" k.text (·.placeholder) fun s x => { s with placeholder := x },
    .of "command" k.text (·.command) fun s x => { s with command := x },
    .of "args" k.texts (·.args) fun s x => { s with args := x },
    .of "timeout" k.duration (·.timeout) fun s x => { s with timeout := x },
    .of "compress" k.bool (·.compress) fun s x => { s with compress := x } ]

/-- The sections of a configuration. -/
def fields (document : Document) : List (Slot Config) :=
  let k := kinds document
  [ .of "sweep" (group document "config.SweepConfig" (sweepFields k)) (·.sweep)
      fun c x => { c with sweep := x },
    .of "generator" (group document "config.GeneratorConfig" (generatorFields k)) (·.generator)
      fun c x => { c with generator := x },
    .of "layout" (group document "config.LayoutConfig" (layoutFields k)) (·.layout)
      fun c x => { c with layout := x },
    .of "simulator" (group document "config.SimulatorConfig" (simulatorFields k)) (·.simulator)
      fun c x => { c with simulator := x },
    .of "ledger" (group document "config.LedgerConfig" [.of "path" k.text id fun _ x => x])
      (·.ledgerPath) fun c x => { c with ledgerPath := x },
    .of "logging" (group document "config.LoggingConfig" [.of "level" k.text id fun _ x => x])
      (·.logLevel) fun c x => { c with logLevel := x } ]

/-- A configuration read over a given one. -/
def readOver (base : Config) (text : Bytes) : Except Unreadable Config := do
  match ← (Document.ofBytes text).mapError .flaw with
  | none => return base
  | some document =>
    let (_, config, d) ←
      (group document "config.Config" (fields document) document.root base .start).mapError .abort
    if d.mismatches.isEmpty then return config
    else .error (.mismatches d.mismatches.reverse)

end Config

end MobilitySweep
