import MobilitySweep.Text.Bytes

/-! # Statements of shell scripts

Words with quotes, parameters and substitutions, redirections, and the statements that are built from
them. Substitutions keep their text; it is read when they are expanded.
-/

namespace MobilitySweep

namespace Shell

/-- The language of a script: the plain one, or the extended one, which has arrays, conditions in double
brackets, arithmetic commands, and more uses of parameters. -/
inductive Dialect where
  | plain
  | extended
deriving DecidableEq, Repr

/-- Which matches of a pattern are exchanged: the first one, all of them, or one at the start or end. -/
inductive Extent where
  | first
  | all
  | start
  | finish
deriving DecidableEq, Repr

/-- What becomes of a parameter's value: it is taken as it is or counted, gives way to an operand when
the parameter is unset (or empty, if that counts as unset), or loses an end that matches an operand. In
the extended language it may be cut, have matches exchanged or its case changed, be shown in quotes, name
another parameter, or give way to the keys of an array or to the names that start like it. -/
inductive Use where
  | value
  | length
  | fallback (evenEmpty : Bool)
  | assignment (evenEmpty : Bool)
  | demand (evenEmpty : Bool)
  | replacement (evenEmpty : Bool)
  | withoutStart (longest : Bool)
  | withoutEnd (longest : Bool)
  | slice
  | exchange (extent : Extent)
  | upperCase (all : Bool)
  | lowerCase (all : Bool)
  | inQuotes
  | indirect
  | keys
  | names
  | unknown
deriving DecidableEq, Repr

/-- A part of a word. In the extended language that may be the members of an array, or the output of a
script as a file. -/
inductive Part where
  | text (value : Bytes) (quoted : Bool)
  | parameter (name : Bytes) (use : Use) (operand : Bytes) (quoted : Bool)
  | command (script : Bytes) (quoted : Bool)
  | arithmetic (expression : Bytes) (quoted : Bool)
  | members (body : Bytes)
  | outputFile (script : Bytes)
deriving DecidableEq, Repr

/-- A word before its expansion. -/
abbrev Word := List Part

/-- How a descriptor is redirected. -/
inductive RedirectKind where
  | overwrite
  | replace
  | append
  | input
  | duplicate
  | document
  | text
  | overwriteBoth
  | appendBoth
deriving DecidableEq, Repr

/-- A redirection. -/
structure Redirect where
  descriptor : Nat
  kind : RedirectKind
  target : Word
deriving DecidableEq, Repr

/-- What follows an arm of a selection: nothing, the next arm without a look at its patterns, or the search
for another arm. -/
inductive ArmEnd where
  | stop
  | fallThrough
  | search
deriving DecidableEq, Repr

/-- A statement. The arms of a selection are statements of their own, each with those behind it. A program
may be launched under its name with arguments that are expanded already. The extended language has
conditions, arithmetic, and loops that are governed by arithmetic. -/
inductive Statement where
  | nothing
  | simple (line : Nat) (words : List Word) (redirects : List Redirect)
  | definition (name : Bytes) (body : Statement)
  | redirected (body : Statement) (redirects : List Redirect)
  | subshell (body : Statement)
  | background (body : Statement)
  | sequence (first second : Statement)
  | both (first second : Statement)
  | either (first second : Statement)
  | negation (body : Statement)
  | pipe (source sink : Statement)
  | conditional (test yes no : Statement)
  | loop (wanted : Bool) (test body : Statement)
  | each (name : Bytes) (items : Option (List Word)) (body : Statement)
  | selection (subject : Word) (arms : Statement)
  | arm (patterns : List Word) (body : Statement) (finish : ArmEnd) (rest : Statement)
  | launch (program : Bytes) (args : List Bytes)
  | condition (line : Nat) (words : List Word)
  | arithmetic (line : Nat) (expression : Bytes)
  | counting (start test next : Bytes) (body : Statement)
deriving DecidableEq, Repr, Inhabited

/-- The text of a word that has neither quotes nor anything to expand. -/
def plainText? : Word → Option Bytes
  | [.text value false] => some value
  | _ => none

/-- A first character of names. -/
def startsName (b : UInt8) : Bool := b = 95 || (97 ≤ b && b ≤ 122) || (65 ≤ b && b ≤ 90)

/-- A character of names. -/
def isNameChar (b : UInt8) : Bool := startsName b || Bytes.isDigit b

/-- Whether a text is a name. -/
def isName : Bytes → Bool
  | [] => false
  | b :: rest => startsName b && rest.all isNameChar

/-- A word that assigns: the name, in the extended language perhaps with a subscript, whether the value is
added to the one before, and the value. -/
structure Assignment where
  name : Bytes
  subscript : Option Word
  appends : Bool
  value : Word
deriving DecidableEq, Repr

/-- The parts of a word up to a bracket that closes a subscript, in reverse, and the text and parts behind
it. -/
def upToBracket : List Part → Word → Option (Word × Bytes × Word)
  | _, [] => none
  | done, .text value false :: rest =>
    let inside := value.takeWhile (· ≠ 93)
    if inside.length < value.length then some ((.text inside false :: done).reverse, value.drop (inside.length + 1), rest)
    else upToBracket (.text value false :: done) rest
  | done, part :: rest => upToBracket (part :: done) rest

/-- The assignment that a word is. -/
def assignment? (d : Dialect) : Word → Option Assignment
  | .text value false :: rest =>
    let name := value.takeWhile isNameChar
    if !isName name then none
    else
      match value.drop name.length with
      | 61 :: behind => some ⟨name, none, false, .text behind false :: rest⟩
      | 43 :: 61 :: behind => if d = .extended then some ⟨name, none, true, .text behind false :: rest⟩ else none
      | 91 :: behind =>
        if d = .plain then none
        else
          match upToBracket [] (.text behind false :: rest) with
          | some (subscript, 61 :: behind, rest) => some ⟨name, some subscript, false, .text behind false :: rest⟩
          | some (subscript, 43 :: 61 :: behind, rest) => some ⟨name, some subscript, true, .text behind false :: rest⟩
          | _ => none
      | _ => none
  | _ => none

end Shell

end MobilitySweep
