import MobilitySweep.Shell.Job
import MobilitySweep.Shell.Format

/-! # Conditions

Tests of texts, numbers and files, joined by words for not, and, or. With few operands the number of
operands decides what is an operator.
-/

namespace MobilitySweep

namespace Shell

namespace Condition

/-- Why a condition has no answer. -/
inductive Trouble where
  | noNumber (text : Bytes)
  | noArgument (operator : Bytes)
  | noClosing
  | unexpected (operator : Bytes)
deriving DecidableEq, Repr

/-- The wording of a trouble. -/
def Trouble.message : Trouble → Bytes
  | noNumber text => "Illegal number: " ++ text
  | noArgument operator => operator ++ ": argument expected"
  | noClosing => "closing paren expected"
  | unexpected operator => operator ++ ": unexpected operator"

/-- The operators before one operand. -/
def isUnary (word : Bytes) : Bool :=
  match word with
  | [45, letter] => ("bcdefghknprstuwxzLSGO" : Bytes).contains letter
  | _ => false

/-- The operators between two operands. -/
def binaryOperators : List Bytes :=
  ["=", "!=", "<", ">", "-eq", "-ne", "-ge", "-gt", "-le", "-lt", "-nt", "-ot", "-ef"]

/-- An operand as a number. -/
def number (text : Bytes) : Except Trouble Int :=
  let start := text.dropWhile fun b => b = 32 || b = 9
  match Decimal.read start with
  | .ok value => .ok value.toInt
  | .error _ => .error (.noNumber text)

/-- A test of one operand. -/
def unary (p : Job) (operator operand : Bytes) : Bool :=
  let files := p.files
  let entry := files.stat operand
  let isProgram := (files.programName? operand).any isInstalled
  let isDevice := operand = "/dev/null"
  let isDirectory := match entry with
    | .ok .directory => true
    | _ => false
  match operator.getD 1 0 with
  | 110 => !operand.isEmpty
  | 122 => operand.isEmpty
  | 101 | 114 | 119 | 79 | 71 => entry.toOption.isSome || isProgram || isDevice
  | 99 => isDevice
  | 102 => isProgram || match entry with
    | .ok (.file _) => true
    | _ => false
  | 100 => isDirectory
  | 120 => isDirectory || p.mayRun operand
  | 115 => match entry with
    | .ok (.file content) => !content.toBytes.isEmpty
    | .ok .directory => true
    | _ => false
  | 104 | 76 => match files.linkStat operand with
    | .ok (.link _) => true
    | _ => false
  | _ => false

/-- A test of two operands. -/
def binary (files : Files) (operator left right : Bytes) : Except Trouble Bool := do
  if operator = "=" then pure (left = right)
  else if operator = "!=" then pure (left ≠ right)
  else if operator = "<" then pure (Bytes.less left right)
  else if operator = ">" then pure (Bytes.less right left)
  else if operator = "-nt" || operator = "-ot" then pure false
  else if operator = "-ef" then
    match files.resolve true left, files.resolve true right with
    | .ok (.taken a _), .ok (.taken b _) => pure (files.isOneFile a b)
    | _, _ => pure false
  else
    let a ← number left
    let b ← number right
    if operator = "-eq" then pure (a = b)
    else if operator = "-ne" then pure (a ≠ b)
    else if operator = "-ge" then pure (b ≤ a)
    else if operator = "-gt" then pure (b < a)
    else if operator = "-le" then pure (a ≤ b)
    else pure (a < b)

/-- Whether a word with an operator's look is an operand where it stands. -/
def isOperand (behind : List Bytes) : Bool :=
  match behind with
  | [] => true
  | [_] => false
  | next :: _ => binaryOperators.contains next

/-- What joins conditions, from loose to tight. -/
inductive Level where
  | or
  | and
  | not
  | primary
deriving DecidableEq, Repr

/-- The value of a condition of some level at the start of words, and the words from its last one on, in
at most so many steps. -/
def evaluate (p : Job) : Nat → Level → List Bytes → Except Trouble (Bool × List Bytes)
  | 0, _, words => .ok (false, words)
  | steps + 1, .or, words => do
    let (value, rest) ← evaluate p steps .and words
    match rest.tail with
    | word :: more =>
      if word = "-o" then do
        let (other, rest) ← evaluate p steps .or more
        pure (value || other, rest)
      else pure (value, rest)
    | [] => pure (value, rest)
  | steps + 1, .and, words => do
    let (value, rest) ← evaluate p steps .not words
    match rest.tail with
    | word :: more =>
      if word = "-a" then do
        let (other, rest) ← evaluate p steps .and more
        pure (value && other, rest)
      else pure (value, rest)
    | [] => pure (value, rest)
  | steps + 1, .not, words =>
    match words with
    | word :: next :: more =>
      if word = "!" then do
        let (value, rest) ← evaluate p steps .not (next :: more)
        pure (!value, rest)
      else evaluate p steps .primary words
    | _ => evaluate p steps .primary words
  | steps + 1, .primary, words =>
    match words with
    | [] => pure (false, [])
    | word :: behind =>
      if word = "(" && !behind.isEmpty then do
        let (value, rest) ← evaluate p steps .or behind
        match rest.tail with
        | closing :: more => if closing = ")" then pure (value, closing :: more) else .error .noClosing
        | [] => .error .noClosing
      else if isUnary word && !isOperand behind then
        match behind with
        | operand :: _ => pure (unary p word operand, behind)
        | [] => .error (.noArgument word)
      else
        match behind with
        | operator :: right =>
          if binaryOperators.contains operator then
            match right with
            | other :: _ => do pure (← binary p.files operator word other, right)
            | [] => .error (.noArgument operator)
          else pure (!word.isEmpty, words)
        | [] => pure (!word.isEmpty, words)

/-- A whole condition: with three operands an operator in the middle comes first, and with four or
fewer a word for not in front applies to the rest. -/
def holds (p : Job) (words : List Bytes) : Except Trouble Bool := do
  let whole (words : List Bytes) : Except Trouble Bool := do
    let (value, rest) ← evaluate p (4 * words.length + 4) .or words
    match rest with
    | last :: _ :: _ => .error (.unexpected last)
    | _ => pure value
  let few (words : List Bytes) : Except Trouble Bool :=
    match words with
    | [left, operator, right] =>
      if binaryOperators.contains operator then binary p.files operator left right else whole words
    | _ => whole words
  match words with
  | [] => pure false
  | [_, operator, _] =>
    if binaryOperators.contains operator then few words
    else if words.head? = some [33] then do pure !(← few words.tail)
    else whole words
  | [first, _, _, _] => if first = "!" then do pure !(← few words.tail) else whole words
  | _ => whole words

end Condition

end Shell

end MobilitySweep
