import MobilitySweep.Cli.Command
import MobilitySweep.Text.Utf8

/-! # Requests and suggestions

For a word that is no command, the commands are suggested whose names start with it or are at most two
edits away from it, whatever the case of its letters.
-/

namespace MobilitySweep

namespace Cli

namespace Suggestion

/-- The rest of a row of distances: from the distances of the row before and the one on the left. -/
def extend (letter : UInt8) : Nat → Bytes → List Nat → List Nat
  | left, other :: name, diagonal :: above :: row =>
    let here := if letter = other then diagonal else min diagonal (min left above) + 1
    here :: extend letter here name (above :: row)
  | _, _, _ => []

/-- The row of distances for one more letter. -/
def nextRow (name : Bytes) (row : List Nat) (letter : UInt8) : List Nat :=
  let first := row.headD 0 + 1
  first :: extend letter first name row

/-- The least number of insertions, deletions and replacements of letters that turn one word into
another. -/
def distance (word name : Bytes) : Nat :=
  ((word.foldl (nextRow name) (List.range (name.length + 1))).getLast?).getD 0

/-- The largest distance of a suggestion. -/
def limit : Nat := 2

/-- Whether a command is suggested for a word. The help command never is. -/
def suits (word : Bytes) (c : Command) : Bool :=
  c ≠ .help && (distance word.lower c.name ≤ limit || word.lower.isPrefixOf c.name)

/-- The commands suggested for a word, as the end of a complaint about it. -/
def text (word : Bytes) (commands : List Command) : Bytes :=
  match commands.filter (suits word) with
  | [] => []
  | suited =>
    let line (c : Command) : Bytes := "\t" ++ c.name ++ "\n"
    "\n\nDid you mean this?\n" ++ suited.flatMap line

end Suggestion

end Cli

/-! ## What a command line asks for

The words of a command line lead down the tree of commands; flags may stand between them. The
arguments that are left are read with the flags of the command found. Asking for help wins over
everything but arguments that cannot be read.
-/

namespace Cli

namespace Search

/-- The words among arguments: neither flags nor their values. A flag that takes the last argument ends
the search. -/
def words (flags : List Flag) : List Bytes → List Bytes
  | [] => []
  | argument :: more =>
    if argument = "--" then []
    else if Flag.takesNext flags argument then
      match more with
      | _ :: next :: others => words flags (next :: others)
      | _ => []
    else if argument.isEmpty || argument.head? = some 45 then words flags more
    else argument :: words flags more

/-- The arguments without the first word of a name. -/
def without (flags : List Flag) (name : Bytes) : List Bytes → List Bytes
  | [] => []
  | argument :: more =>
    if argument = "--" then argument :: more
    else if Flag.takesNext flags argument then
      match more with
      | value :: others => argument :: value :: without flags name others
      | [] => [argument]
    else if argument = name then more
    else argument :: without flags name more

/-- One step down the tree, if the first word is a command there. -/
def descend : Command × List Bytes → Command × List Bytes := fun (c, arguments) =>
  match words c.flags arguments with
  | [] => (c, arguments)
  | word :: _ =>
    match c.child? word with
    | some d => (d, without c.flags word arguments)
    | none => (c, arguments)

/-- The command of a command line, and its arguments. No command is more than two steps down. -/
def find (arguments : List Bytes) : Command × List Bytes := descend (descend (.program, arguments))

/-- The first word that should have been a command. -/
def stray? (arguments : List Bytes) : Option Bytes :=
  match find arguments with
  | (.program, others) => (words Command.program.flags others).head?
  | _ => none

end Search

/-- What a command line asks for. -/
inductive Request where
  | help (command : Command)
  | unknownTopic (topic : List Bytes)
  | execute (command : Command) (arguments : Arguments)
deriving DecidableEq, Repr, Inhabited

/-- Why a command line asks for nothing. -/
inductive Misuse where
  | unknownCommand (word : Bytes)
  | flag (fault : FlagFault)
  | arity (complaint : Bytes)
deriving DecidableEq, Repr, Inhabited

/-- The report of a misuse. -/
def Misuse.message : Misuse → Bytes
  | unknownCommand word =>
    "unknown command " ++ Quoted.quote word ++ " for " ++ Quoted.quote Command.program.name ++
      Suggestion.text word Command.program.children
  | flag fault => fault.message
  | arity complaint => complaint

namespace Request

/-- The help that is asked for by the words of a topic. -/
def ofTopic (topic : List Bytes) : Request :=
  match Search.stray? topic with
  | some _ => .unknownTopic topic
  | none => .help (Search.find topic).1

/-- What a command line asks for. -/
def read (line : List Bytes) : Except Misuse Request :=
  match Search.stray? line with
  | some word => .error (.unknownCommand word)
  | none =>
    let (c, others) := Search.find line
    match Arguments.read (c.helpFlag :: c.flags) others with
    | .error fault => .error (.flag fault)
    | .ok arguments =>
      if arguments.isOn "help" || !c.isRunnable then .ok (.help c)
      else
        match c.arity.complaint? arguments.rest.length with
        | some complaint => .error (.arity complaint)
        | none => .ok (if c = .help then ofTopic arguments.rest else .execute c arguments)

end Request

end Cli

end MobilitySweep
