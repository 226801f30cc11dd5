import MobilitySweep.Config.Basic
import MobilitySweep.Config.Load
import MobilitySweep.Files.Operations

/-! # Configuration sources

What the environment and a configuration file contribute to the effective configuration.
-/

namespace MobilitySweep

/-! ## The environment

Environment variables override settings of a configuration, and some settings may mention variables in
their text.
-/

/-- The variables of the environment. -/
abbrev Environment := List (Bytes × Bytes)

namespace Environment

/-- The value of a variable that is set. -/
def lookup? (env : Environment) (name : Bytes) : Option Bytes := (env.find? (·.1 = name)).map (·.2)

/-- The value of a variable; an unset one is empty. -/
def get (env : Environment) (name : Bytes) : Bytes := (env.lookup? name).getD []

/-- The value of a variable unless it is empty. -/
def nonEmpty? (env : Environment) (name : Bytes) : Option Bytes :=
  match env.get name with
  | [] => none
  | value => some value

/-- The characters that are variables by themselves. -/
def isSpecial (b : UInt8) : Bool :=
  ("*#$@!?-" : Bytes).contains b || Bytes.isDigit b

/-- The characters of variable names. -/
def isNameChar (b : UInt8) : Bool :=
  b = '_' || Bytes.isDigit b || (97 ≤ b && b ≤ 122) || (65 ≤ b && b ≤ 90)

/-- What follows a dollar sign: the name of a variable and how many bytes it takes. Without a closing
brace the opening one is taken alone, and empty braces are taken whole; both name nothing. -/
def reference (rest : Bytes) : Bytes × Nat :=
  match rest with
  | [] => ([], 0)
  | b :: more =>
    if b = '\x7b' then
      match more with
      | c :: 125 :: _ => if isSpecial c then ([c], 3) else braced more
      | _ => braced more
    else if isSpecial b then ([b], 1)
    else
      let name := rest.takeWhile isNameChar
      (name, name.length)
where
  /-- The name between braces. -/
  braced (more : Bytes) : Bytes × Nat :=
    let name := more.takeWhile (· ≠ ('\x7d' : UInt8))
    if name.length = more.length then ([], 1)
    else if name.isEmpty then ([], 2)
    else (name, name.length + 2)

/-- Text with its variables replaced, the result so far in reverse, and the number of bytes still to be
passed over. A dollar sign before anything else stays. -/
def expandScan (env : Environment) : Bytes → Nat → Bytes → Bytes
  | done, _, [] => done.reverse
  | done, passed + 1, _ :: rest => expandScan env done passed rest
  | done, 0, b :: rest =>
    if b = '$' && !rest.isEmpty then
      let (name, width) := reference rest
      if name.isEmpty then
        if width = 0 then expandScan env (b :: done) 0 rest else expandScan env done width rest
      else expandScan env ((env.get name).reverse ++ done) width rest
    else expandScan env (b :: done) 0 rest

/-- Text with its variables replaced, if a braced one may be among them. -/
def expand (env : Environment) (text : Bytes) : Bytes :=
  if Bytes.occursIn "$\x7b" text then expandScan env [] 0 text else text

end Environment

namespace Config

/-- The settings that may mention variables expanded. -/
def expandVariables (env : Environment) (c : Config) : Config :=
  { c with simulator := { c.simulator with
    command := env.expand c.simulator.command
    template := env.expand c.simulator.template
    args := c.simulator.args.map fun args => args.map env.expand } }

/-- A setting changed by a variable that is not empty and can be read. -/
def override {α : Type} (env : Environment) (name : Bytes) (read : Bytes → Option α) (set : α → Config)
    (c : Config) : Config :=
  match (env.nonEmpty? name).bind read with
  | some x => set x
  | none => c

/-- An integer in a variable. -/
def readInt? (text : Bytes) : Option Int64 :=
  match Decimal.read text with
  | .ok n => some n
  | .error _ => none

/-- The words for yes. -/
def isYes (text : Bytes) : Bool := text = "true" || text = "1"

/-- The overrides of the environment applied. -/
def applyEnvironment (env : Environment) (c : Config) : Config :=
  let c := c.override env "COWTRACE_ROOT" some
    fun v => { c with layout := { c.layout with root := v } }
  let c := c.override env "COWTRACE_WORKERS" readInt?
    fun n => { c with sweep := { c.sweep with workers := n } }
  let c := c.override env "COWTRACE_REPETITIONS" readInt?
    fun n => { c with sweep := { c.sweep with repetitions := n } }
  let c := c.override env "COWTRACE_SEED" readInt?
    fun n => { c with sweep := { c.sweep with seed := some n } }
  let c := c.override env "COWTRACE_RESUME" some
    fun v => { c with sweep := { c.sweep with resume := isYes v } }
  let c := c.override env "COWTRACE_SIMULATOR_ENABLED" some
    fun v => { c with simulator := { c.simulator with enabled := isYes v } }
  let c := c.override env "COWTRACE_SIMULATOR_COMMAND" some
    fun v => { c with simulator := { c.simulator with command := v } }
  let c := c.override env "COWTRACE_SIMULATOR_TIMEOUT" Duration.read?
    fun d => { c with simulator := { c.simulator with timeout := d } }
  let c := match env.lookup? "COWTRACE_LEDGER" with
    | some path => { c with ledgerPath := path }
    | none => c
  c.override env "COWTRACE_LOG_LEVEL" some fun v => { c with logLevel := v }

end Config

/-! ## Configuration files

The effective configuration: defaults, overridden by a file, overridden by the environment. Without a
named file the default one is used if it exists.
-/

namespace Config

/-- The configuration of a file, whose unmentioned settings are the defaults. -/
def contentAt (files : Files) (env : Environment) (path : Bytes) : Except Fault Config := do
  let content ← (files.contentAt path).mapError (·.within "reading config file")
  let config ← (readOver standard content.toBytes).mapError fun cause =>
    .plain ("parsing config file: " ++ cause.message)
  return config.expandVariables env

/-- The effective configuration. -/
def load (files : Files) (env : Environment) (path : Bytes) : Except Fault Config := do
  let path := if path.isEmpty && files.exists? defaultFile then defaultFile else path
  let config ← if path.isEmpty then pure standard
    else (contentAt files env path).mapError (·.within "loading config file")
  return config.applyEnvironment env

end Config

end MobilitySweep
