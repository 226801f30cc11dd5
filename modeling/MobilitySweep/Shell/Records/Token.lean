import MobilitySweep.Number.Binary64
import MobilitySweep.Number.Reading
import MobilitySweep.Shell.Format
import MobilitySweep.Shell.RegularExpression

/-! # Record programs

The syntax of programs over records, and the tokens that they are made of.
-/

namespace MobilitySweep

/-! ## Record scripts

A record script is a list of rules: what records a rule is for, and what is done with them. Records are
cut into fields; values are numbers and texts at once, and arrays are addressed by texts.
-/

namespace Shell

namespace Records

/-- An expression. -/
inductive Expression where
  | number (value : Binary64)
  | text (value : Bytes)
  | pattern (matcher : Matcher)
  | named (name : Bytes)
  | field (index : Expression)
  | element (array : Bytes) (subscripts : List Expression)
  | assignment (operator : Bytes) (target value : Expression)
  | conditional (test yes no : Expression)
  | both (first second : Expression)
  | either (first second : Expression)
  | has (array : Bytes) (subscripts : List Expression)
  | matching (isNegated : Bool) (subject pattern : Expression)
  | comparison (operator : Bytes) (left right : Expression)
  | joined (left right : Expression)
  | binary (operator : UInt8) (left right : Expression)
  | unary (operator : UInt8) (operand : Expression)
  | step (isUp isBefore : Bool) (target : Expression)
  | call (name : Bytes) (args : List Expression)
  | builtin (name : Bytes) (args : List Expression)
  | line (target : Option Expression)
  | lineOfFile (path : Expression) (target : Option Expression)
  | lineOfCommand (command : Expression) (target : Option Expression)
  | group (members : List Expression)
deriving Repr, Inhabited

/-- Where output goes. -/
inductive Output where
  | plain
  | file (path : Expression) (appends : Bool)
  | pipe (command : Expression)
deriving Repr, Inhabited

/-- What is done. -/
inductive Action where
  | nothing
  | expression (value : Expression)
  | print (items : List Expression) (output : Output)
  | printf (items : List Expression) (output : Output)
  | conditional (test : Expression) (yes no : Action)
  | loop (test : Option Expression) (next body : Action)
  | loopAfter (test : Expression) (body : Action)
  | each (name array : Bytes) (body : Action)
  | sequence (first second : Action)
  | next
  | nextFile
  | leave
  | resume
  | exit (status : Option Expression)
  | comeBack (value : Option Expression)
  | delete (array : Bytes) (subscripts : Option (List Expression))
deriving Repr, Inhabited

/-- What records a rule is for. -/
inductive Occasion where
  | start
  | finish
  | always
  | test (value : Expression)
  | range (first last : Expression)
deriving Repr, Inhabited

/-- A rule; without an action records are written. -/
structure Rule where
  occasion : Occasion
  action : Option Action
deriving Repr, Inhabited

/-- A function. -/
structure Function where
  name : Bytes
  parameters : List Bytes
  body : Action
deriving Repr, Inhabited

/-- A record script. -/
structure Script where
  rules : List Rule
  functions : List Function
deriving Repr, Inhabited

/-- Whether an expression can be assigned to. -/
def Expression.isTarget : Expression → Bool
  | named _ | field _ | element _ _ => true
  | _ => false

end Records

end Shell

/-! ## Tokens of record scripts

Whether a slash divides or opens an expression depends on the token before it.
-/

namespace Shell

namespace Records

/-- What is wrong with a script, and the line where that is seen. -/
inductive Flaw where
  | near (text : Bytes)
  | missing (symbol text : Bytes)
  | openText (start : Bytes)
  | openPattern (start : Bytes)
  | unexpectedByte (b : UInt8)
  | unknownFunction (name : Bytes)
  | misprint (source reason : Bytes)
  | outOfPlace (word : Bytes)
  | outsideFunction
deriving DecidableEq, Repr

/-- Whether an operator of an expression lacks what it is applied to; classes are passed over. The mark is
the byte that something has to follow, if it does not stand there yet. -/
def lacksOperand : Nat → Option UInt8 → Bytes → Bool
  | 0, _, _ => false
  | _, wanting, [] => wanting = some 124
  | steps + 1, wanting, b :: rest =>
    if b = 92 then lacksOperand steps none rest.tail
    else if b = 91 then lacksOperand steps none (behindBracket rest)
    else if b = 42 || b = 43 || b = 63 || b = 41 then wanting.isSome || lacksOperand steps none rest
    else if b = 124 then wanting.isSome || lacksOperand steps (some b) rest
    else if b = 40 then lacksOperand steps (some b) rest
    else lacksOperand steps none rest
where
  /-- What follows the class that a bracket opens. -/
  behindBracket (text : Bytes) : Bytes :=
    let text := if text.head? = some 94 then text.tail else text
    let text := if text.head? = some 93 then text.tail else text
    (text.dropWhile (· ≠ 93)).tail

/-- Whether a sign for the start of a text is repeated. -/
def repeatsStart (source : Bytes) : Bool := source.head? = some 94 && (source.getD 1 0 = 42 || source.getD 1 0 = 43)

/-- The expression that a text is, or what is wrong with it. -/
def readPattern (source : Bytes) : Except Bytes Matcher :=
  if repeatsStart source then .error "syntax error ^* or ^+"
  else if !source.isEmpty && lacksOperand (source.length + 1) (some 0) source then .error "missing operand"
  else
    match Writing.read ⟨true, false, .controls⟩ source with
    | .ok (matcher, _) => .ok matcher
    | .error .openGroup => .error "missing ')'"
    | .error .openBracket | .error .emptyBracket | .error .unknownClass => .error "bad class -- [], [^] or ["
    | .error .badInterval => .error "bad interval expression"
    | .error reason => .error reason.message

/-- What a script is made of. -/
inductive Token where
  | number (value : Binary64) (text : Bytes)
  | text (value : Bytes)
  | pattern (source : Bytes)
  | name (text : Bytes)
  | caller (text : Bytes)
  | keyword (text : Bytes)
  | builtin (text : Bytes)
  | symbol (text : Bytes)
  | lineEnd
  | finish
  | flaw (flaw : Flaw)
deriving DecidableEq, Repr

/-- The words with a meaning of their own. -/
def keywords : List String :=
  ["BEGIN", "END", "function", "func", "if", "else", "while", "for", "do", "break", "continue", "next", "nextfile",
    "exit", "return", "delete", "in", "getline", "print", "printf"]

/-- The functions that every script has. -/
def builtins : List String :=
  ["length", "substr", "index", "split", "sub", "gsub", "match", "sprintf", "sin", "cos", "atan2", "exp", "log", "sqrt",
    "int", "rand", "srand", "tolower", "toupper", "system", "close", "fflush"]

/-- The symbols, longer ones first. -/
def symbols : List String :=
  ["+=", "-=", "*=", "/=", "%=", "^=", "==", "<=", ">=", "!=", "++", "--", "&&", "||", ">>", "!~", "\x7b", "\x7d",
    "(", ")", "[", "]", ";", ",", "+", "-", "*", "/", "%", "^", "!", ">", "<", "|", "?", ":", "~", "$", "="]

/-- The numeral at the start of a text: its value, and what follows it. -/
def numeral (text : Bytes) : Binary64 × Bytes :=
  let whole := text.takeWhile Bytes.isDigit
  let rest := text.drop whole.length
  let (places, rest) : Bytes × Bytes := match rest with
    | 46 :: more => (more.takeWhile Bytes.isDigit, more.dropWhile Bytes.isDigit)
    | _ => ([], rest)
  let (power, rest) : Int × Bytes := match rest with
    | e :: more =>
      if e = 101 || e = 69 then
        let (negative, digits) : Bool × Bytes := match more with
          | 45 :: behind => (true, behind)
          | 43 :: behind => (false, behind)
          | _ => (false, more)
        let exponent := digits.takeWhile Bytes.isDigit
        if exponent.isEmpty then (0, rest)
        else
          let value : Int := min (Bytes.digitsValue exponent) 100000
          (if negative then -value else value, digits.drop exponent.length)
      else (0, rest)
    | [] => (0, rest)
  (Reading.decimalValue false (Bytes.digitsValue (whole ++ places)) (power - (places.length : Int)), rest)

/-- The text of a constant up to its closing quote, and what follows it. Backslashes before other bytes
stay. -/
def quotedText : Nat → Bytes → Bytes → Option (Bytes × Bytes)
  | 0, _, _ => none
  | _, _, [] => none
  | steps + 1, done, b :: rest =>
    if b = 34 then some (done.reverse, rest)
    else if b = 10 then none
    else if b = 92 then
      match rest with
      | [] => none
      | c :: more =>
        if c = 34 then quotedText steps (c :: done) more
        else if c = 10 then quotedText steps done more
        else
          match escape? rest with
          | some (text, behind) => quotedText steps (text.reverse ++ done) behind
          | none => quotedText steps (b :: done) rest
    else quotedText steps (b :: done) rest

/-- The source of an expression up to its closing slash, and what follows it. -/
def patternText : Bool → Bytes → Bytes → Option (Bytes × Bytes)
  | _, _, [] => none
  | inBrackets, done, [b] => if b = 47 && !inBrackets then some (done.reverse, []) else none
  | inBrackets, done, b :: c :: rest =>
    if b = 92 then patternText inBrackets (if c = 47 then c :: done else c :: b :: done) rest
    else if b = 10 then none
    else if b = 47 && !inBrackets then some (done.reverse, c :: rest)
    else patternText (if inBrackets then b ≠ 93 else b = 91) (b :: done) (c :: rest)

/-- Whether a value ends with a token, so that a slash behind it divides. -/
def endsValue : Option Token → Bool
  | some (.number _ _) | some (.text _) | some (.pattern _) | some (.name _) | some (.builtin _) => true
  | some (.symbol text) => [Bytes.ofString ")", Bytes.ofString "]", Bytes.ofString "++", Bytes.ofString "--",
      Bytes.ofString "$"].contains text
  | _ => false

/-- A character of names. -/
def isNamePart (b : UInt8) : Bool :=
  b = 95 || Bytes.isDigit b || (97 ≤ b && b ≤ 122) || (65 ≤ b && b ≤ 90)

/-- The start of a text that a message shows. -/
def shownStart (text : Bytes) : Bytes := (text.takeWhile (· ≠ 10)).take 11

/-- The tokens of a text behind a token, with their lines, in at most so many steps. -/
def tokensFrom : Nat → Nat → Option Token → Bytes → List (Token × Nat)
  | 0, _, _, _ => []
  | _, line, _, [] => [(.lineEnd, line), (.finish, line + 1)]
  | steps + 1, line, last, b :: rest =>
    let text := b :: rest
    let go (token : Token) (rest : Bytes) : List (Token × Nat) := (token, line) :: tokensFrom steps line (some token) rest
    if b = 32 || b = 9 || b = 13 then tokensFrom steps line last rest
    else if b = 10 then (.lineEnd, line) :: tokensFrom steps (line + 1) (some .lineEnd) rest
    else if b = 92 && rest.head? = some 10 then tokensFrom steps (line + 1) last rest.tail
    else if b = 35 then tokensFrom steps line last (rest.dropWhile (· ≠ 10))
    else if b = 34 then
      match quotedText (rest.length + 1) [] rest with
      | some (value, behind) => go (.text value) behind
      | none => [(.flaw (.openText (shownStart text)), line)]
    else if b = 47 && !endsValue last then
      match patternText false [] rest with
      | some (source, behind) => go (.pattern source) behind
      | none => [(.flaw (.openPattern (shownStart text)), line)]
    else if Bytes.isDigit b || (b = 46 && (rest.head?).any Bytes.isDigit) then
      let (value, behind) := numeral text
      go (.number value (text.take (text.length - behind.length))) behind
    else if isNamePart b then
      let word := text.takeWhile isNamePart
      let behind := text.drop word.length
      let isOne (names : List String) : Bool := names.any fun name => Bytes.ofString name = word
      if isOne keywords then go (.keyword word) behind
      else if isOne builtins then go (.builtin word) behind
      else if behind.head? = some 40 then go (.caller word) behind
      else go (.name word) behind
    else
      match symbols.find? fun symbol => (Bytes.ofString symbol).isPrefixOf text with
      | some symbol => go (.symbol (Bytes.ofString symbol)) (text.drop (Bytes.ofString symbol).length)
      | none => [(.flaw (.unexpectedByte b), line)]

/-- The tokens of a script. -/
def tokens (script : Bytes) : List (Token × Nat) := tokensFrom (script.length + 1) 1 none script

/-- A token as messages show it. -/
def Token.shown : Token → Bytes
  | .number _ written => written
  | .text value => [34] ++ value ++ [34]
  | .pattern source => [47] ++ source ++ [47]
  | .name word | .caller word | .keyword word | .builtin word | .symbol word => word
  | .lineEnd => "end of line"
  | .finish => "end of file"
  | .flaw _ => []

/-- The wording of a flaw on a line, in a file of its own or not. -/
def Flaw.message (file : Bytes) (line : Nat) : Flaw → Bytes
  | near text => place ++ "syntax error at or near " ++ text
  | missing symbol text => place ++ "missing " ++ symbol ++ " near " ++ text
  | openText start => place ++ "runaway string constant " ++ start ++ " ..."
  | openPattern start => place ++ "runaway regular expression " ++ start ++ " ..."
  | unexpectedByte b => "awk: " ++ Decimal.ofNat line ++ ": unexpected character '" ++ [b] ++ "'"
  | unknownFunction name => place ++ "function " ++ name ++ " never defined"
  | misprint source reason => place ++ "regular expression compile failed (" ++ reason ++ ")\n" ++ source
  | outOfPlace word => place ++ "improper use of " ++ word
  | outsideFunction => place ++ "return outside function body"
where
  /-- The line in front of a message. -/
  place : Bytes := "awk: " ++ file ++ "line " ++ Decimal.ofNat line ++ ": "

end Records

end Shell

end MobilitySweep
