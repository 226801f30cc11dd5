import MobilitySweep.Shell.RegularExpression
import MobilitySweep.Shell.Utility

/-! # Values of expressions given as words

Words are joined by operators of different strength; numbers, comparisons, parts of texts and matches of
expressions have values.
-/

namespace MobilitySweep

namespace Shell

namespace Calculation

/-- Why words have no value. -/
inductive Trouble where
  | missing (word : Bytes)
  | unexpected (word : Bytes)
  | noInteger
  | divisionByZero
  | noClosing (word : Bytes)
  | misprint (reason : Misprint)
deriving DecidableEq, Repr

/-- The wording of a trouble. -/
def Trouble.message : Trouble → Bytes
  | missing word => "syntax error: missing argument after " ++ inQuotes word
  | unexpected word => "syntax error: unexpected argument " ++ inQuotes word
  | noInteger => "non-integer argument"
  | divisionByZero => "division by zero"
  | noClosing word => "syntax error: expecting ')' after " ++ inQuotes word
  | misprint reason => reason.message

/-- The words ahead, and the one before them. -/
structure Reader where
  rest : List Bytes
  last : Bytes

/-- Reading values from words. -/
abbrev Descent := StateT Reader (Except Trouble)

/-- Whether a value counts as false. -/
def isNull (text : Bytes) : Bool :=
  text.isEmpty ||
    let digits := if text.head? = some 45 then text.tail else text
    !digits.isEmpty && digits.all (· = 48)

/-- The integer that a text is. -/
def integer? (text : Bytes) : Option Int :=
  let (negative, digits) : Bool × Bytes := match text with
    | 45 :: rest => (true, rest)
    | _ => (false, text)
  if digits.isEmpty || !digits.all Bytes.isDigit then none
  else some (if negative then -(Bytes.digitsValue digits : Int) else Bytes.digitsValue digits)

/-- The word for a truth value. -/
def truth (b : Bool) : Bytes := if b then [49] else [48]

/-- The next word, if it is one of some. -/
def takeWord (words : List Bytes) : Descent (Option Bytes) := do
  let r ← get
  match r.rest with
  | word :: rest =>
    if words.contains word then
      set (⟨rest, word⟩ : Reader)
      pure (some word)
    else pure none
  | [] => pure none

/-- What a text matches of an expression at its start: the first group, or the length. -/
def matched (text pattern : Bytes) : Except Trouble Bytes := do
  match Writing.read ⟨false, false, .words⟩ pattern with
  | .error reason => .error (.misprint reason)
  | .ok (m, groups) =>
    let s := MatchState.start text
    match RegularExpression.longest (m.expression.ends false s) with
    | some t => .ok (if groups = 0 then Decimal.ofNat (s.textTo t).length else t.group 1)
    | none => .ok (if groups = 0 then [48] else [])

/-- The value of an operator on two values. -/
def combine (operator a b : Bytes) : Except Trouble Bytes := do
  let compared : Ordering :=
    match integer? a, integer? b with
    | some x, some y => if x < y then .lt else if y < x then .gt else .eq
    | _, _ => if Bytes.less a b then .lt else if Bytes.less b a then .gt else .eq
  if operator = ":" then matched a b
  else if operator = "<" then pure (truth (compared = .lt))
  else if operator = "<=" then pure (truth (compared ≠ .gt))
  else if operator = "=" || operator = "==" then pure (truth (compared = .eq))
  else if operator = "!=" then pure (truth (compared ≠ .eq))
  else if operator = ">=" then pure (truth (compared ≠ .lt))
  else if operator = ">" then pure (truth (compared = .gt))
  else if operator = "&" then pure (if isNull a || isNull b then [48] else a)
  else if operator = "|" then pure (if !isNull a then a else if !isNull b then b else [48])
  else
    match integer? a, integer? b with
    | some x, some y =>
      if operator = "+" then pure (Decimal.ofInt (x + y))
      else if operator = "-" then pure (Decimal.ofInt (x - y))
      else if operator = "*" then pure (Decimal.ofInt (x * y))
      else if y = 0 then .error .divisionByZero
      else pure (Decimal.ofInt (if operator = "/" then x.tdiv y else x.tmod y))
    | _, _ => .error .noInteger

/-- The operators, weakest first. -/
def levels : List (List Bytes) :=
  [["|"], ["&"], ["<", "<=", "=", "==", "!=", ">=", ">"], ["+", "-"], ["*", "/", "%"], [":"]]

/-- A value with the operators of a level behind it, at most so many. -/
def joined (next : Descent Bytes) (operators : List Bytes) : Nat → Bytes → Descent Bytes
  | 0, left => pure left
  | count + 1, left => do
    match ← takeWord operators with
    | some operator =>
      let right ← next
      joined next operators count (← combine operator left right)
    | none => pure left

/-- The value of a single word or of a named operation. -/
def single (whole next : Descent Bytes) : Descent Bytes := do
  let r ← get
  match r.rest with
  | [] => throw (.missing r.last)
  | word :: rest =>
    set (⟨rest, word⟩ : Reader)
    if word = "(" then
      let value ← whole
      match ← takeWord [")"] with
      | some _ => pure value
      | none =>
        let r ← get
        throw (.noClosing r.last)
    else if word = ")" then throw (.unexpected word)
    else if word = "+" && !rest.isEmpty then
      set (⟨rest.tail, rest.headD []⟩ : Reader)
      pure (rest.headD [])
    else if word = "length" then pure (Decimal.ofNat (← next).length)
    else if word = "index" then
      let text ← next
      let wanted ← next
      pure (Decimal.ofNat ((text.findIdx? wanted.contains).elim 0 (· + 1)))
    else if word = "match" then
      let text ← next
      matched text (← next)
    else if word = "substr" then
      let text ← next
      let start ← next
      let length ← next
      match integer? start, integer? length with
      | some start, some length =>
        pure (if start ≤ 0 || length ≤ 0 then [] else (text.drop (start.toNat - 1)).take length.toNat)
      | _, _ => pure []
    else pure word

/-- A value whose operators are at least as strong as those of some levels. -/
def valueAt (one : Descent Bytes) (count : Nat) : List (List Bytes) → Descent Bytes
  | [] => one
  | operators :: stronger => do
    let left ← valueAt one count stronger
    joined (valueAt one count stronger) operators count left

/-- A value with others nested inside it at most so deep. -/
def value : Nat → Nat → Descent Bytes
  | 0, _ => throw (.missing [])
  | depth + 1, count => valueAt (single (value depth count) (innermost depth count)) count levels
where
  /-- An operand of a named operation. -/
  innermost : Nat → Nat → Descent Bytes
    | 0, _ => throw (.missing [])
    | depth + 1, count => single (value depth count) (innermost depth count)

/-- The value of words. -/
def evaluate (words : List Bytes) : Except Trouble Bytes := do
  let (result, r) ← (value (words.length + 1) (words.length + 1)).run ⟨words, []⟩
  match r.rest with
  | [] => .ok result
  | word :: _ => .error (.unexpected word)

end Calculation

/-- The prime factors of a number from a divisor on, smallest first, in at most so many steps. -/
def primeFactors : Nat → Nat → Nat → List Nat
  | 0, _, n => [n]
  | steps + 1, divisor, n =>
    if n ≤ 1 then []
    else if n < divisor * divisor then [n]
    else if n % divisor = 0 then divisor :: primeFactors steps divisor (n / divisor)
    else primeFactors steps (if divisor = 2 then 3 else divisor + 2) n

/-- How many divisors are tried. -/
def divisorLimit : Nat := 1000000

namespace Programs

/-- The prime factors of numbers. -/
def factor (args : List Bytes) : Act Nat :=
  Act.withOptions "factor" 1 ⟨"h", "", [("exponents", 'h')], false⟩ args fun given => do
    let words ← if given.operands.isEmpty then do
        pure ((Bytes.splitOn 32 ((← Act.readAll).map fun b => if b = 10 || b = 9 then 32 else b)).filter (!·.isEmpty))
      else pure given.operands
    Act.forEach (fun word => do
      let digits := (word.dropWhile (· = 32)).dropWhile (· = 43)
      if digits.isEmpty || !digits.all Bytes.isDigit then
        Act.report ("factor: " ++ inQuotes word ++ " is not a valid positive integer")
        pure 1
      else
        let n := Bytes.digitsValue digits
        let factors := if n = 0 then [] else primeFactors divisorLimit 2 n
        Act.put (Decimal.ofNat n ++ [58] ++ factors.flatMap (fun f => [32] ++ Decimal.ofNat f) ++ [10])
        pure 0) words

/-- The value of an expression; nothing and zero count as a failure. -/
def expr (args : List Bytes) : Act Nat := do
  let words := if args.head? = some [45, 45] then args.tail else args
  if words.isEmpty then
    let _ ← missingOperand "expr" "operand"
    return 2
  match Calculation.evaluate words with
  | .ok value =>
    Act.put (value ++ [10])
    pure (if Calculation.isNull value then 1 else 0)
  | .error trouble =>
    Act.report ("expr: " ++ trouble.message)
    pure 2

end Programs

end Shell

end MobilitySweep
