import MobilitySweep.Fault
import MobilitySweep.Number.Decimal
import MobilitySweep.Text.Quoted

/-! # Flags of a command line

A flag is a switch, a text or an integer. Arguments are read from left to right: flags are set, with
the last setting of a flag in force, and all other arguments are kept in order. Two dashes alone end
the flags.
-/

namespace MobilitySweep

namespace Cli

/-- What a flag takes. Only switches have a one-letter form; an integer that has no value of its own has
the given one. -/
inductive FlagKind where
  | switch (letter : Option UInt8)
  | text
  | integer (standard : Int64)
deriving DecidableEq, Repr, Inhabited

/-- A flag with the line that explains it. -/
structure Flag where
  name : Bytes
  kind : FlagKind
  note : Bytes
deriving DecidableEq, Repr, Inhabited

/-- The value a flag is set to. -/
inductive FlagValue where
  | switch (on : Bool)
  | text (value : Bytes)
  | integer (value : Int64)
deriving DecidableEq, Repr, Inhabited

/-- Why arguments cannot be read. -/
inductive FlagFault where
  | malformed (argument : Bytes)
  | unknown (name : Bytes)
  | unknownLetter (letter : UInt8) (group : Bytes)
  | valueMissing (name : Bytes)
  | valueRefused (flag : Flag) (value reason : Bytes)
deriving DecidableEq, Repr, Inhabited

namespace Flag

/-- Whether a flag can stand without a value. -/
def isSwitch (f : Flag) : Bool :=
  match f.kind with
  | .switch _ => true
  | _ => false

/-- The one-letter form of a flag. -/
def letter? (f : Flag) : Option UInt8 :=
  match f.kind with
  | .switch letter => letter
  | _ => none

/-- A flag as it is written on a command line, with its one-letter form in front. -/
def written (f : Flag) : Bytes :=
  match f.letter? with
  | some letter => "-" ++ [letter] ++ ", --" ++ f.name
  | none => "--" ++ f.name

/-- A letter as it is shown in a report. A byte beyond ASCII is shown as the character that the first
byte of its own encoding stands for. -/
def shownLetter (letter : UInt8) : Bytes :=
  let c : Char :=
    if letter < 0x80 then Char.ofNat letter.toNat
    else if letter < 0xC0 then Char.ofNat 0xC2
    else Char.ofNat 0xC3
  if c = Char.ofNat 39 then "'\\''"
  else if c = '"' then "'\"'"
  else "'" ++ Quoted.glyph (.char c) ++ "'"

/-- The texts that stand for true. -/
def yes : List Bytes := ["1", "t", "T", "true", "TRUE", "True"]

/-- The texts that stand for false. -/
def no : List Bytes := ["0", "f", "F", "false", "FALSE", "False"]

/-- A value read for a flag. -/
def readValue (f : Flag) (value : Bytes) : Except FlagFault FlagValue :=
  match f.kind with
  | .text => .ok (.text value)
  | .switch _ =>
    if yes.contains value then .ok (.switch true)
    else if no.contains value then .ok (.switch false)
    else .error (.valueRefused f value (NumeralFault.report "ParseBool" value .syntactic))
  | .integer _ =>
    match Decimal.readAnyBase value with
    | .ok n => .ok (.integer n)
    | .error reason => .error (.valueRefused f value (reason.report "ParseInt" value))

/-- The flag of a name. -/
def named? (flags : List Flag) (name : Bytes) : Option Flag := flags.find? (·.name = name)

/-- The flag of a letter. -/
def lettered? (flags : List Flag) (letter : UInt8) : Option Flag := flags.find? (·.letter? = some letter)

/-- Whether an argument is a flag that takes the next argument as its value. A flag that nobody knows
counts as one. -/
def takesNext (flags : List Flag) (argument : Bytes) : Bool :=
  !argument.contains ('=' : UInt8) &&
    match argument with
    | 45 :: 45 :: name => !(named? flags name).any isSwitch
    | [45, letter] => (lettered? flags letter).isNone
    | _ => false

end Flag

/-- The report of a fault. -/
def FlagFault.message : FlagFault → Bytes
  | malformed argument => "bad flag syntax: " ++ argument
  | unknown name => "unknown flag: --" ++ name
  | unknownLetter letter group => "unknown shorthand flag: " ++ Flag.shownLetter letter ++ " in -" ++ group
  | valueMissing name => "flag needs an argument: --" ++ name
  | valueRefused flag value reason =>
    "invalid argument " ++ Quoted.quote value ++ " for " ++ Quoted.quote flag.written ++ " flag: " ++ reason

/-- Arguments after reading: the settings in order, and what is no flag. -/
structure Arguments where
  settings : List (Bytes × FlagValue)
  rest : List Bytes
deriving DecidableEq, Repr, Inhabited

namespace Arguments

/-- One more setting in front. -/
def setting (name : Bytes) (value : FlagValue) (a : Arguments) : Arguments :=
  { a with settings := (name, value) :: a.settings }

/-- One more plain argument in front. -/
def plain (argument : Bytes) (a : Arguments) : Arguments := { a with rest := argument :: a.rest }

/-- Settings of a group of letters behind one dash. A group that starts with the word test and a point
is meant for someone else and is passed over. -/
def letters (flags : List Flag) : Bytes → Except FlagFault (List (Bytes × FlagValue))
  | [] => .ok []
  | letter :: more =>
    if ("test." : Bytes).isPrefixOf (letter :: more) then .ok []
    else
      match Flag.lettered? flags letter with
      | none => .error (.unknownLetter letter (letter :: more))
      | some flag =>
        match more with
        | 61 :: value :: values => do
          let set ← flag.readValue (value :: values)
          return [(flag.name, set)]
        | _ => do
          let others ← letters flags more
          return (flag.name, .switch true) :: others

/-- A name with the value that is assigned to it behind an equals sign. -/
def assignment (text : Bytes) : Bytes × Option Bytes :=
  match text.dropWhile (· ≠ ('=' : UInt8)) with
  | [] => (text, none)
  | _ :: value => (text.takeWhile (· ≠ ('=' : UInt8)), some value)

/-- What a long flag asks for: a value that it brings or implies, or the next argument. -/
def long (flags : List Flag) (argument text : Bytes) : Except FlagFault (Flag × Option Bytes) :=
  match text with
  | 45 :: _ => .error (.malformed argument)
  | 61 :: _ => .error (.malformed argument)
  | text =>
    let (name, value) := assignment text
    match Flag.named? flags name with
    | none => .error (.unknown name)
    | some flag => .ok (flag, if value.isNone && flag.isSwitch then some "true" else value)

/-- Arguments read with the flags that may be set. -/
def read (flags : List Flag) : List Bytes → Except FlagFault Arguments
  | [] => .ok ⟨[], []⟩
  | argument :: more =>
    match argument with
    | [45, 45] => .ok ⟨[], more⟩
    | 45 :: 45 :: text => do
      match ← long flags argument text with
      | (flag, some value) =>
        let set ← flag.readValue value
        return (← read flags more).setting flag.name set
      | (flag, none) =>
        match more with
        | [] => .error (.valueMissing flag.name)
        | value :: others =>
          let set ← flag.readValue value
          return (← read flags others).setting flag.name set
    | 45 :: letter :: group => do
      let sets ← letters flags (letter :: group)
      let others ← read flags more
      return { others with settings := sets ++ others.settings }
    | _ => do return (← read flags more).plain argument

/-- The value a flag is set to last. -/
def value? (a : Arguments) (name : Bytes) : Option FlagValue :=
  (a.settings.reverse.find? (·.1 = name)).map (·.2)

/-- Whether a switch is on. -/
def isOn (a : Arguments) (name : Bytes) : Bool := a.value? name = some (.switch true)

/-- The text of a flag, if it is set. -/
def text? (a : Arguments) (name : Bytes) : Option Bytes :=
  match a.value? name with
  | some (.text value) => some value
  | _ => none

/-- The integer of a flag, if it is set. -/
def integer? (a : Arguments) (name : Bytes) : Option Int64 :=
  match a.value? name with
  | some (.integer value) => some value
  | _ => none

end Arguments

end Cli

end MobilitySweep
