import MobilitySweep.Shell.Statement
import MobilitySweep.Number.Decimal

/-! # Arithmetic

Expressions over 64-bit words, with variables and assignments. Sums and products wrap around; only a
division by zero fails. The extended language has powers, steps, sequences, bases of its own and elements
of arrays.
-/

namespace MobilitySweep

namespace Shell

/-- An expression. What stands behind an operator is kept for messages. -/
inductive Expression where
  | number (value : Int64)
  | named (name : Bytes)
  | assignment (name operator : Bytes) (value : Expression) (source : Bytes)
  | unary (operator : UInt8) (operand : Expression)
  | binary (operator : Bytes) (left right : Expression) (source : Bytes)
  | conditional (test yes no : Expression)
  | step (isUp isBefore : Bool) (name : Bytes)
deriving DecidableEq, Repr, Inhabited

/-- What an expression is written with. -/
inductive Symbol where
  | number (value : Int64)
  | name (text : Bytes)
  | operator (text : Bytes)
deriving DecidableEq, Repr

namespace Arithmetic

/-- Why an expression has no value. Where it matters, the rest of the text from there on comes with it. -/
inductive Trouble where
  | noPrimary (rest : Bytes)
  | noClosing (rest : Bytes)
  | noColon (rest : Bytes)
  | noEnd (rest : Bytes)
  | unknownOperator (rest : Bytes)
  | noVariable (rest : Bytes)
  | divisionByZero (rest : Bytes)
  | negativePower (rest : Bytes)
  | tooGreat (text : Bytes)
  | noNumber (text : Bytes)
  | endless (text : Bytes)
  | inside (text : Bytes) (trouble : Trouble)
deriving DecidableEq, Repr

/-- The operators, longer ones first. -/
def operators (d : Dialect) : List Bytes :=
  ("<<=" : Bytes) :: (">>=" : Bytes) :: pairs ++ (if d = .extended then [[42, 42]] else []) ++
    ("+-*/%<>=!~&|^?:()" : Bytes).map (fun b => [b]) ++ (if d = .extended then [[44]] else [])
where
  /-- Those of two bytes. -/
  pairs : List Bytes :=
    ["||", "&&", "==", "!=", "<=", ">=", "<<", ">>", "*=", "/=", "%=", "+=", "-=", "&=", "^=", "|="]

/-- The value of digits in a base of up to 64: letters of both cases are apart beyond 36. -/
def inBase (base : Nat) (digits : Bytes) : Option Nat :=
  let valueOf (b : UInt8) : Nat :=
    if Bytes.isDigit b then b.toNat - 48
    else if 97 ≤ b && b ≤ 122 then b.toNat - 87
    else if 65 ≤ b && b ≤ 90 then (if base ≤ 36 then b.toNat - 55 else b.toNat - 29)
    else if b = 64 then 62
    else 63
  if digits.all fun b => valueOf b < base then some (digits.foldl (fun n b => n * base + valueOf b) 0) else none

/-- A numeral in the base that its start announces, cut to 64 bits. -/
def numeral (d : Dialect) (text : Bytes) : Option Int64 :=
  let base := text.takeWhile Bytes.isDigit
  let behind := text.drop base.length
  if d = .extended && behind.head? = some 35 then
    if behind.tail.isEmpty then none else (inBase (Bytes.digitsValue base) behind.tail).map fun n => Int64.ofInt n
  else
    let (base, digits) := match text with
      | 48 :: 120 :: more | 48 :: 88 :: more => (16, more)
      | 48 :: b :: more => (8, b :: more)
      | _ => (10, text)
    match Decimal.readDigits base false 0 digits with
    | .ok value =>
      if digits.isEmpty then (if d = .extended then some 0 else none)
      else if d = .extended then some (Int64.ofInt value)
      else some (Int64.ofInt (min value 9223372036854775807))
    | .error .range =>
      if d = .extended then (inBase base digits).map fun n => Int64.ofInt n else some Int64.maxValue
    | .error .syntactic => none

/-- A character of names and numerals. -/
def isWordChar (b : UInt8) : Bool :=
  b = 95 || Bytes.isDigit b || (97 ≤ b && b ≤ 122) || (65 ≤ b && b ≤ 90)

/-- The subscript at the start of a text, with its brackets, and what follows it; the depth counts the
brackets that are open. -/
def subscript : Nat → Bytes → Bytes → Option (Bytes × Bytes)
  | _, _, [] => none
  | depth, done, b :: rest =>
    if b = 91 then subscript (depth + 1) (b :: done) rest
    else if b = 93 then
      if depth ≤ 1 then some ((b :: done).reverse, rest) else subscript (depth - 1) (b :: done) rest
    else subscript depth (b :: done) rest

/-- A blank. -/
def isBlank (b : UInt8) : Bool := b = 32 || b = 9 || b = 10

/-- The symbols of a text with what stands from each of them on, in at most so many steps; the one before
tells steps from signs. The plain language goes no further than a character that means nothing to it, which
is an operator without a name. -/
def symbols (d : Dialect) : Nat → Option Symbol → Bytes → Except Trouble (List (Symbol × Bytes))
  | 0, _, _ => .ok []
  | _, _, [] => .ok []
  | steps + 1, last, b :: rest =>
    let text := b :: rest
    if isBlank b then symbols d steps last rest
    else if isWordChar b then do
      let isPart (c : UInt8) : Bool := isWordChar c || (d = .extended && Bytes.isDigit b && (c = 35 || c = 64))
      let word := text.takeWhile isPart
      let behind := text.dropWhile isPart
      if Bytes.isDigit b then
        match numeral d word with
        | some value => pure ((.number value, text) :: (← symbols d steps (some (.number value)) behind))
        | none => .error (if d = .extended then .tooGreat text else .noEnd text)
      else
        let (name, behind) : Bytes × Bytes :=
          if d = .extended && behind.head? = some 91 then
            match subscript 0 [] behind with
            | some (inside, rest) => (word ++ inside, rest)
            | none => (word, behind)
          else (word, behind)
        pure ((.name name, text) :: (← symbols d steps (some (.name name)) behind))
    else
      let isAfterName := match last with
        | some (.name _) => true
        | _ => false
      let isBeforeName := (((rest.drop 1).dropWhile isBlank).head?).any startsName
      if d = .extended && (b = 43 || b = 45) && rest.head? = some b && (isAfterName || isBeforeName) then do
        let symbol := Symbol.operator [b, b]
        pure ((symbol, text) :: (← symbols d steps (some symbol) rest.tail))
      else
        match (operators d).find? fun operator => operator.isPrefixOf text with
        | some operator => do
          let symbol := Symbol.operator operator
          pure ((symbol, text) :: (← symbols d steps (some symbol) (text.drop operator.length)))
        | none =>
          if d = .plain then pure [(.operator [], text)]
          else .error (if last.isSome then .unknownOperator text else .noPrimary text)

/-- Symbols that are left, and what stands from the one before them on. -/
structure Left where
  symbols : List (Symbol × Bytes)
  last : Bytes

/-- Reading from symbols. -/
abbrev Descent := StateT Left (Except Trouble)

/-- How tightly an operator binds. -/
def strength (operator : Bytes) : Option Nat :=
  (levels.find? fun level => level.2.contains operator).map (·.1)
where
  /-- The operators by strength. -/
  levels : List (Nat × List Bytes) :=
    [(1, ["||"]), (2, ["&&"]), (3, ["|"]), (4, ["^"]), (5, ["&"]), (6, ["==", "!="]),
      (7, ["<", ">", "<=", ">="]), (8, ["<<", ">>"]), (9, ["+", "-"]), (10, ["*", "/", "%"]), (11, ["**"])]

/-- The operators that assign. -/
def assigning : List Bytes := ["=", "*=", "/=", "%=", "+=", "-=", "<<=", ">>=", "&=", "^=", "|="]

/-- What stands from the next symbol on, or from the last one. -/
def rest : Descent Bytes := do
  match (← get).symbols with
  | (_, text) :: _ => pure text
  | [] => pure (← get).last

/-- The next symbol passed over. -/
def advance : Descent Unit := modify fun left => match left.symbols with
  | (_, text) :: more => ⟨more, text⟩
  | [] => left

/-- Whether the next symbol is an operator, which is then passed over. -/
def takeOperator (text : Bytes) : Descent Bool := do
  match (← get).symbols with
  | (.operator found, _) :: _ =>
    if found = text then
      advance
      pure true
    else pure false
  | _ => pure false

/-- An operand with signs before it, at most so many. -/
def operand (expression : Descent Expression) : Nat → Descent Expression
  | 0 => do throw (.noPrimary (← rest))
  | count + 1 => do
    match (← get).symbols with
    | (.number value, _) :: _ =>
      advance
      pure (.number value)
    | (.name name, _) :: _ =>
      advance
      if ← takeOperator "++" then pure (.step true false name)
      else if ← takeOperator "--" then pure (.step false false name)
      else pure (.named name)
    | (.operator text, _) :: behind =>
      if text = "(" then
        advance
        let inner ← expression
        if ← takeOperator ")" then pure inner else throw (.noClosing (← rest))
      else if text = "+" || text = "-" || text = "!" || text = "~" then
        advance
        pure (.unary (text.headD 0) (← operand expression count))
      else if text = "++" || text = "--" then
        match behind with
        | (.name name, _) :: _ =>
          advance
          advance
          pure (.step (text = "++") true name)
        | _ => throw (.noPrimary (← rest))
      else throw (.noPrimary (← rest))
    | [] => throw (.noPrimary (← rest))

/-- What binds at least so tightly is joined to an expression, at most so often. Powers start from the
right. -/
def climb (next : Descent Expression) : Nat → Nat → Expression → Descent Expression
  | 0, _, left => pure left
  | count + 1, least, left => do
    match (← get).symbols with
    | (.operator text, _) :: _ =>
      match strength text with
      | some level =>
        if level < least then pure left
        else
          advance
          let source ← rest
          let right ← climb next count (if text = "**" then level else level + 1) (← next)
          climb next count least (.binary text left right source)
      | none => pure left
    | _ => pure left

/-- An expression that is no assignment, given how whole ones and those without sequences are read. -/
def choice (whole single : Descent Expression) (count : Nat) : Descent Expression := do
  let next := operand whole (count + 1)
  let test ← climb next (count + 1) 1 (← next)
  if ← takeOperator "?" then
    let yes ← whole
    if ← takeOperator ":" then pure (.conditional test yes (← single)) else throw (.noColon (← rest))
  else pure test

/-- An expression with others nested inside it at most so deep; a sequence only where that is said. -/
def expression : Nat → Bool → Descent Expression
  | 0, _ => do throw (.noPrimary (← rest))
  | depth + 1, isWhole => do
    let symbols := (← get).symbols
    let other := choice (expression depth true) (expression depth false) symbols.length
    let first ← match symbols with
      | (.name name, _) :: (.operator text, _) :: _ =>
        if assigning.contains text then do
          advance
          advance
          let source ← rest
          pure (.assignment name text (← expression depth false) source)
        else other
      | _ => other
    if !isWhole then pure first
    else if ← takeOperator "," then
      let source ← rest
      pure (.binary "," first (← expression depth true) source)
    else pure first

/-- The expression that a text is. -/
def parse (d : Dialect) (text : Bytes) : Except Trouble Expression := do
  let symbols ← symbols d (text.length + 1) none text
  if symbols.isEmpty then pure (.number 0)
  else
    let (result, left) ← (expression (symbols.length + 1) true).run ⟨symbols, []⟩
    match left.symbols with
    | [] => pure result
    | (.operator operator, rest) :: _ =>
      .error (if d = .extended && assigning.contains operator then .noVariable rest else .noEnd rest)
    | (_, rest) :: _ => .error (.noEnd rest)

/-- The word for a truth value. -/
def truth (b : Bool) : Int64 := if b then 1 else 0

/-- A power of a word by squares, with at most so many of them. -/
def power : Nat → Int64 → Nat → Int64
  | 0, _, _ => 1
  | squares + 1, base, exponent =>
    if exponent = 0 then 1
    else
      let half := power squares (base * base) (exponent / 2)
      if exponent % 2 = 1 then base * half else half

/-- The value of an operator on two words. -/
def combine (operator : Bytes) (a b : Int64) (source : Bytes) : Except Trouble Int64 :=
  if operator = "+" then .ok (a + b)
  else if operator = "-" then .ok (a - b)
  else if operator = "*" then .ok (a * b)
  else if operator = "/" then if b = 0 then .error (.divisionByZero source) else .ok (a / b)
  else if operator = "%" then if b = 0 then .error (.divisionByZero source) else .ok (a % b)
  else if operator = "<<" then .ok (a <<< b)
  else if operator = ">>" then .ok (a >>> b)
  else if operator = "&" then .ok (a &&& b)
  else if operator = "|" then .ok (a ||| b)
  else if operator = "^" then .ok (a ^^^ b)
  else if operator = "==" then .ok (truth (a = b))
  else if operator = "!=" then .ok (truth (a ≠ b))
  else if operator = "<" then .ok (truth (a < b))
  else if operator = ">" then .ok (truth (b < a))
  else if operator = "<=" then .ok (truth (a ≤ b))
  else if operator = "," then .ok b
  else if operator = "**" then
    if b < 0 then .error (.negativePower (source.dropWhile (· = 45)))
    else .ok (power 64 a b.toNatClampNeg)
  else .ok (truth (b ≤ a))

/-- Evaluation with the assignments made so far, the latest first. -/
abbrev Evaluation := StateT (List (Bytes × Int64)) (Except Trouble)

/-- The word that the text of a variable writes; no text is zero. -/
def wordOfText (text : Bytes) : Except Trouble Int64 :=
  let trimmed := text.dropWhile isBlank
  if trimmed.isEmpty then .ok 0
  else
    let (negative, digits) := Decimal.splitSign trimmed
    match numeral .plain digits with
    | some value => .ok (if negative then -value else value)
    | none => .error (.noNumber text)

/-- The value of an expression, given the values of variables. -/
def evaluate (lookUp : Bytes → Except Trouble Int64) : Expression → Evaluation Int64
  | .number value => pure value
  | .named name => valueOf name
  | .assignment name operator value source => do
    let operand ← evaluate lookUp value
    let result ← if operator = "=" then pure operand
      else do
        let old ← valueOf name
        match combine operator.dropLast old operand source with
        | .ok result => pure result
        | .error trouble => throw trouble
    modify ((name, result) :: ·)
    pure result
  | .step isUp isBefore name => do
    let old ← valueOf name
    let new := if isUp then old + 1 else old - 1
    modify ((name, new) :: ·)
    pure (if isBefore then new else old)
  | .unary operator operand => do
    let value ← evaluate lookUp operand
    pure (if operator = 45 then -value else if operator = 33 then truth (value = 0)
      else if operator = 126 then ~~~value else value)
  | .binary operator left right source => do
    let a ← evaluate lookUp left
    if operator = "&&" then
      if a = 0 then pure 0 else pure (truth ((← evaluate lookUp right) ≠ 0))
    else if operator = "||" then
      if a ≠ 0 then pure 1 else pure (truth ((← evaluate lookUp right) ≠ 0))
    else
      let b ← evaluate lookUp right
      match combine operator a b source with
      | .ok result => pure result
      | .error trouble => throw trouble
  | .conditional test yes no => do
    if (← evaluate lookUp test) ≠ 0 then evaluate lookUp yes else evaluate lookUp no
where
  /-- The value of a variable. -/
  valueOf (name : Bytes) : Evaluation Int64 := do
    match (← get).find? (·.1 = name) with
    | some (_, value) => pure value
    | none =>
      match lookUp name with
      | .ok value => pure value
      | .error trouble => throw trouble

/-- The value of a text and the assignments that it makes, given the values of variables. -/
def value (d : Dialect) (lookUp : Bytes → Except Trouble Int64) (text : Bytes) :
    Except Trouble (Int64 × List (Bytes × Int64)) := do
  let tree ← parse d text
  (evaluate lookUp tree).run []

/-- The value of the text that a variable has, where variables may stand for expressions, at most so deep. -/
def valueWithin (textOf : Bytes → Bytes) : Nat → Bytes → Except Trouble Int64
  | 0, name => .error (.endless name)
  | depth + 1, name =>
    let text := textOf name
    match value .extended (valueWithin textOf depth) text with
    | .ok (value, _) => .ok value
    | .error (.inside text trouble) => .error (.inside text trouble)
    | .error trouble => .error (.inside text trouble)

/-- The wording of a trouble with an expression in the plain language. -/
def Trouble.message (text : Bytes) : Trouble → Bytes
  | .noNumber value => "Illegal number: " ++ value
  | trouble => "arithmetic expression: " ++ reason trouble ++ ": \"" ++ text ++ "\""
where
  /-- What is missing or wrong. -/
  reason : Trouble → Bytes
    | .noPrimary _ | .unknownOperator _ => "expecting primary"
    | .noClosing _ => "expecting ')'"
    | .noColon _ => "expecting ':'"
    | .divisionByZero _ => "division by zero"
    | _ => "expecting EOF"

/-- The wording of a trouble with an expression in the extended language. -/
def Trouble.extendedMessage (text : Bytes) : Trouble → Bytes
  | .noPrimary rest => found "syntax error: operand expected" rest
  | .noClosing rest => found "missing `)'" rest
  | .noColon rest => found "`:' expected for conditional expression" rest
  | .noEnd rest => found "syntax error in expression" rest
  | .unknownOperator rest => found "syntax error: invalid arithmetic operator" rest
  | .noVariable rest => found "attempted assignment to non-variable" rest
  | .divisionByZero rest => found "division by 0" rest
  | .negativePower rest => found "exponent less than 0" rest
  | .tooGreat rest => found "value too great for base" rest
  | .noNumber rest => found "syntax error" rest
  | .endless rest => found "expression recursion level exceeded" rest
  | .inside text trouble => trouble.extendedMessage text
where
  /-- A reason with where it was found. -/
  found (reason rest : Bytes) : Bytes :=
    text.dropWhile isBlank ++ ": " ++ reason ++ " (error token is \"" ++ rest ++ "\")"

end Arithmetic

end Shell

end MobilitySweep
