import MobilitySweep.Config.Basic
import MobilitySweep.Text.Json
import MobilitySweep.Yaml.Printed

/-! # Configurations as text

A configuration as a YAML document, section by section, which reads back as itself, and as a JSON
value.
-/

namespace MobilitySweep

namespace Config

open Yaml

/-- One setting on lines of its own, ended by a line break. -/
def setting (name : Bytes) (value : Bytes) : Bytes :=
  "    " ++ name ++ ": " ++ Printed.line value

/-- A list of scalars, one item a line. -/
def listSetting (name : Bytes) (items : List Bytes) : Bytes :=
  if items.isEmpty then setting name "[]"
  else ("    " : Bytes) ++ name ++ ":\n" ++
    items.flatMap fun item => ("        - " : Bytes) ++ Printed.line item

/-- A truth value. -/
def boolText (b : Bool) : Bytes := if b then "true" else "false"

/-- A text setting. -/
def textSetting (name value : Bytes) : Bytes := setting name (Printed.text 8 value)

/-- A list of integers. -/
def intsSetting (name : Bytes) (values : Option (List Int64)) : Bytes :=
  listSetting name ((values.getD []).map Decimal.ofInt64)

/-- The configuration as a YAML document. -/
def toYaml (c : Config) : Bytes :=
  "sweep:\n" ++ intsSetting "node_distances" c.sweep.nodeDistances ++
    intsSetting "swap_couples" c.sweep.swapCouples ++
    intsSetting "shuffle_distances" c.sweep.shuffleDistances ++
    setting "repetitions" (Decimal.ofInt64 c.sweep.repetitions) ++
    setting "workers" (Decimal.ofInt64 c.sweep.workers) ++
    (match c.sweep.seed with
      | some seed => setting "seed" (Decimal.ofInt64 seed)
      | none => []) ++
    setting "resume" (boolText c.sweep.resume) ++
  "generator:\n" ++ setting "nodes" (Decimal.ofInt64 c.generator.nodes) ++
    setting "duration" (Decimal.ofInt64 c.generator.duration) ++
    setting "sample_interval" (Decimal.ofInt64 c.generator.sampleInterval) ++
  "layout:\n" ++ textSetting "root" c.layout.root ++ textSetting "positions" c.layout.positions ++
    textSetting "configs" c.layout.configs ++ textSetting "results" c.layout.results ++
  "simulator:\n" ++ setting "enabled" (boolText c.simulator.enabled) ++
    textSetting "template" c.simulator.template ++ textSetting "placeholder" c.simulator.placeholder ++
    textSetting "command" c.simulator.command ++
    listSetting "args" ((c.simulator.args.getD []).map (Printed.text 10)) ++
    (if c.simulator.timeout.nanos = 0 then []
      else textSetting "timeout" c.simulator.timeout.toText) ++
    setting "compress" (boolText c.simulator.compress) ++
  "ledger:\n" ++ textSetting "path" c.ledgerPath ++
  "logging:\n" ++ textSetting "level" c.logLevel

/-- A list that may be unset. -/
def jsonList {α : Type} (item : α → Json) : Option (List α) → Json
  | none => .null
  | some items => .list (items.map item)

/-- The configuration as a JSON value. -/
def toJson (c : Config) : Json :=
  .object [
    ("sweep", .object (
      [(("node_distances" : Bytes), jsonList .ofInt64 c.sweep.nodeDistances),
        ("swap_couples", jsonList .ofInt64 c.sweep.swapCouples),
        ("shuffle_distances", jsonList .ofInt64 c.sweep.shuffleDistances),
        ("repetitions", .ofInt64 c.sweep.repetitions),
        ("workers", .ofInt64 c.sweep.workers)] ++
      (match c.sweep.seed with
        | some seed => [(("seed" : Bytes), Json.ofInt64 seed)]
        | none => []) ++
      [(("resume" : Bytes), Json.bool c.sweep.resume)])),
    ("generator", .object [
      ("nodes", .ofInt64 c.generator.nodes),
      ("duration", .ofInt64 c.generator.duration),
      ("sample_interval", .ofInt64 c.generator.sampleInterval)]),
    ("layout", .object [
      ("root", .text c.layout.root),
      ("positions", .text c.layout.positions),
      ("configs", .text c.layout.configs),
      ("results", .text c.layout.results)]),
    ("simulator", .object (
      [(("enabled" : Bytes), Json.bool c.simulator.enabled),
        ("template", .text c.simulator.template),
        ("placeholder", .text c.simulator.placeholder),
        ("command", .text c.simulator.command),
        ("args", jsonList .text c.simulator.args)] ++
      (if c.simulator.timeout.nanos = 0 then []
        else [(("timeout" : Bytes), Json.ofInt64 c.simulator.timeout.nanos)]) ++
      [(("compress" : Bytes), Json.bool c.simulator.compress)])),
    ("ledger", .object [("path", .text c.ledgerPath)]),
    ("logging", .object [("level", .text c.logLevel)])]

end Config

end MobilitySweep
