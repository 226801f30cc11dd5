import MobilitySweep.Config.Basic
import MobilitySweep.Fault
import MobilitySweep.Log.Line

/-! # Validation

A configuration is accepted when every combination of the sweep can be generated and every setting is
usable. The first violation is reported, in a fixed order.
-/

namespace MobilitySweep

namespace Config

/-- Why a configuration is refused. -/
inductive Invalid where
  | emptyAxis
  | repetitions (value : Int64)
  | workers (value : Int64)
  | combination (params : Params) (cause : Params.Invalid)
  | generator (cause : Options.Invalid)
  | emptyDirectory
  | noTemplate
  | noPlaceholder
  | noCommand
  | negativeTimeout (value : Duration)
  | logLevel (name : Bytes)
deriving DecidableEq, Repr

/-- The wording of a refusal. -/
def Invalid.message : Invalid → Bytes
  | emptyAxis => "every sweep axis needs at least one value"
  | repetitions n => "repetitions must be at least 1, got " ++ Decimal.ofInt64 n
  | workers n => "workers must be at least 1, got " ++ Decimal.ofInt64 n
  | combination p cause => "combination " ++ p.toText ++ ": " ++ cause.fault.message
  | generator cause => "generator: " ++ cause.fault.message
  | emptyDirectory => "layout directories must not be empty"
  | noTemplate => "simulator template must be set"
  | noPlaceholder => "simulator placeholder must be set"
  | noCommand => "simulator command must be set when the simulator is enabled"
  | negativeTimeout d => "simulator timeout must be non-negative, got " ++ d.toText
  | logLevel name =>
    "invalid log level: " ++ name ++ " (valid: info, debug, trace, or empty for default)"

/-- The refusal as a fault. -/
def Invalid.fault (cause : Invalid) : Fault :=
  ⟨.invalidConfig, "invalid configuration: " ++ cause.message⟩

/-- A combination checked. -/
def validateCombination (p : Params) : Except Invalid Unit := p.validate.mapError (.combination p)

/-- The combinations of the axes checked one after another, up to the first that cannot be generated. -/
def validateCombinations (s : SweepSettings) : Except Invalid Unit :=
  forM (s.nodeDistances.getD []) fun distance =>
    forM (s.swapCouples.getD []) fun couples =>
      forM (s.shuffleDistances.getD []) fun shuffle => validateCombination ⟨distance, couples, shuffle⟩

/-- The sweep settings checked. -/
def validateSweep (s : SweepSettings) : Except Invalid Unit :=
  if (s.nodeDistances.getD []).isEmpty || (s.swapCouples.getD []).isEmpty ||
      (s.shuffleDistances.getD []).isEmpty then .error .emptyAxis
  else if s.repetitions < 1 then .error (.repetitions s.repetitions)
  else if s.workers < 1 then .error (.workers s.workers)
  else validateCombinations s

/-- The layout checked. -/
def validateLayout (l : Layout) : Except Invalid Unit :=
  if l.root.isEmpty || l.positions.isEmpty || l.configs.isEmpty || l.results.isEmpty then
    .error .emptyDirectory
  else .ok ()

/-- The simulator settings checked. -/
def validateSimulator (s : SimulatorSettings) : Except Invalid Unit :=
  if s.template.isEmpty then .error .noTemplate
  else if s.placeholder.isEmpty then .error .noPlaceholder
  else if s.enabled && s.command.isEmpty then .error .noCommand
  else if s.timeout.nanos < 0 then .error (.negativeTimeout s.timeout)
  else .ok ()

/-- The whole configuration checked, up to the first violation. -/
def validate (c : Config) : Except Invalid Unit := do
  validateSweep c.sweep
  (c.options 0).validate.mapError .generator
  validateLayout c.layout
  validateSimulator c.simulator
  if Log.Level.isName c.logLevel then .ok () else .error (.logLevel c.logLevel)

end Config

end MobilitySweep
