import MobilitySweep.Text.Bytes

/-! # Statements

The tokens and the grammar of the statements that a pragma value may carry.
-/

namespace MobilitySweep

/-! ## Tokens of database statements

The words, numbers, texts and marks of a statement, each as it was written. A token that is none of
these is broken, and nothing is read behind it.
-/

namespace Ledger

/-- The tokens of a statement. Quotes are kept beside what they enclose. -/
inductive Token where
  | word (raw : Bytes)
  | text (raw inner : Bytes)
  | quoted (raw inner : Bytes)
  | number (raw : Bytes)
  | blob (raw : Bytes)
  | placeholder (raw : Bytes)
  | mark (raw : Bytes)
  | broken (raw : Bytes)
deriving DecidableEq, Repr

namespace Token

/-- A token as it was written. -/
def raw : Token → Bytes
  | word raw => raw
  | text raw _ => raw
  | quoted raw _ => raw
  | number raw => raw
  | blob raw => raw
  | placeholder raw => raw
  | mark raw => raw
  | broken raw => raw

/-- White space between tokens. -/
def isBlank (b : UInt8) : Bool := b = 32 || b = 9 || b = 10 || b = 12 || b = 13

/-- Bytes that start words. -/
def startsWord (b : UInt8) : Bool := (97 ≤ Bytes.lowerByte b && Bytes.lowerByte b ≤ 122) || b = '_' || 128 ≤ b

/-- Bytes within words. -/
def isWordByte (b : UInt8) : Bool := startsWord b || Bytes.isDigit b || b = '$'

/-- A digit to the base sixteen. -/
def isHexDigit (b : UInt8) : Bool := Bytes.isDigit b || (97 ≤ Bytes.lowerByte b && Bytes.lowerByte b ≤ 102)

/-! ## Quotes -/

/-- Text up to the closing quote, where a doubled quote stands for one, and the rest behind it. -/
def quotedText (quote : UInt8) : Bytes → Option (Bytes × Bytes)
  | [] => none
  | b :: rest =>
    if b ≠ quote then (quotedText quote rest).map fun (inner, rest) => (b :: inner, rest)
    else match rest with
      | c :: more =>
        if c = quote then (quotedText quote more).map fun (inner, rest) => (quote :: inner, rest)
        else some ([], rest)
      | [] => some ([], [])

/-- A token in quotes, which has to be closed. -/
def inQuotes (quote : UInt8) (rest : Bytes) : Token :=
  match quotedText quote rest with
  | some (inner, behind) =>
    let raw := quote :: rest.take (rest.length - behind.length)
    if quote = '\'' then .text raw inner else .quoted raw inner
  | none => .broken (quote :: rest)

/-- A token in brackets, which have to be closed. -/
def inBrackets (rest : Bytes) : Token :=
  let inner := rest.takeWhile (· ≠ (']' : UInt8))
  if inner.length < rest.length then .quoted (('[' : UInt8) :: inner ++ [(']' : UInt8)]) inner
  else .broken (('[' : UInt8) :: rest)

/-- Hexadecimal digits in quotes behind their mark; the digits have to come in pairs. -/
def inHexQuotes (mark : UInt8) (rest : Bytes) : Token :=
  let digits := rest.takeWhile isHexDigit
  match rest.drop digits.length with
  | quote :: _ =>
    if quote = '\'' && digits.length % 2 = 0 then .blob (mark :: '\'' :: digits ++ [quote])
    else
      let inner := rest.takeWhile (· ≠ ('\'' : UInt8))
      .broken (mark :: '\'' :: rest.take (inner.length + 1))
  | [] => .broken (mark :: '\'' :: rest)

/-! ## Numbers -/

/-- Digits with separators among them. -/
def isNumeral (b : UInt8) : Bool := Bytes.isDigit b || b = '_'

/-- A decimal number at the start of a text: digits, a fraction and an exponent. -/
def decimalText (text : Bytes) : Bytes :=
  let whole := text.takeWhile isNumeral
  let fraction : Bytes := match text.drop whole.length with
    | b :: rest => if b = '.' then b :: rest.takeWhile isNumeral else []
    | [] => []
  let exponent : Bytes := match text.drop (whole.length + fraction.length) with
    | e :: sign :: rest =>
      if Bytes.lowerByte e ≠ 'e' then []
      else if Bytes.isDigit sign then e :: (sign :: rest).takeWhile isNumeral
      else if (sign = '+' || sign = '-') && (rest.head?.map Bytes.isDigit).getD false then
        e :: sign :: rest.takeWhile isNumeral
      else []
    | _ => []
  whole ++ fraction ++ exponent

/-- A number at the start of a text: hexadecimal digits behind their mark, or a decimal number. -/
def numberText (text : Bytes) : Bytes :=
  match text with
  | zero :: base :: digit :: rest =>
    if zero = '0' && Bytes.lowerByte base = 'x' && isHexDigit digit then
      zero :: base :: digit :: rest.takeWhile fun b => isHexDigit b || b = '_'
    else decimalText text
  | text => decimalText text

/-- A number, which must not run into a word. -/
def ofNumber (text : Bytes) : Token :=
  let number := numberText text
  let tail := (text.drop number.length).takeWhile isWordByte
  if tail.isEmpty then .number number else .broken (number ++ tail)

/-! ## Placeholders and marks -/

/-- The rest of a named placeholder: word bytes, pairs of colons, and at last a text in parentheses
without blanks. The flag says that a word byte was seen; a parenthesis that is not closed breaks the
token. -/
def placeholderRest : Bool → Bytes → Option Bytes × Bytes
  | named, [] => (if named then some [] else none, [])
  | named, b :: rest =>
    if isWordByte b then
      let (good, taken) := placeholderRest true rest
      (good.map (b :: ·), b :: taken)
    else if b = '(' && named then
      let inner := rest.takeWhile fun c => !(isBlank c || c = 11 || c = ')')
      match rest.drop inner.length with
      | close :: _ =>
        if close = ')' then (some (b :: inner ++ [close]), b :: inner ++ [close]) else (none, b :: inner)
      | [] => (none, b :: inner)
    else match b, rest with
      | b, c :: more =>
        if b = ':' && c = ':' then
          let (good, taken) := placeholderRest named more
          (good.map fun text => b :: c :: text, b :: c :: taken)
        else (if named then some [] else none, [])
      | _, [] => (if named then some [] else none, [])

/-- A named placeholder. -/
def ofPlaceholder (first : UInt8) (rest : Bytes) : Token :=
  match placeholderRest false rest with
  | (some name, _) => .placeholder (first :: name)
  | (none, taken) => .broken (first :: taken)

/-- The marks of two or three bytes. -/
def longMarks : List String := ["->>", "->", "==", "<=", "<>", "<<", ">=", ">>", "!=", "||"]

/-- A mark at the start of a text. -/
def ofMark (first : UInt8) (rest : Bytes) : Token :=
  match longMarks.find? fun known => (Bytes.ofString known).isPrefixOf (first :: rest) with
  | some known => .mark known
  | none => if ("(),;=+-*/%<>|&~." : Bytes).contains first then .mark [first] else .broken [first]

/-- The token at the start of a text that starts with no blank. -/
def first (b : UInt8) (rest : Bytes) : Token :=
  if Bytes.lowerByte b = 'x' && rest.head? = some ('\'' : UInt8) then inHexQuotes b (rest.drop 1)
  else if startsWord b then .word ((b :: rest).takeWhile isWordByte)
  else if Bytes.isDigit b || (b = '.' && (rest.head?.map Bytes.isDigit).getD false) then ofNumber (b :: rest)
  else if b = '\'' || b = '"' || b = 96 then inQuotes b rest
  else if b = '[' then inBrackets rest
  else if b = '?' then .placeholder (b :: rest.takeWhile Bytes.isDigit)
  else if b = '$' || b = '@' || b = '#' || b = ':' then ofPlaceholder b rest
  else ofMark b rest

/-! ## Whole texts -/

/-- The text behind the end of a comment between slashes and stars. -/
def behindComment : Bytes → Bytes
  | a :: b :: rest => if a = '*' && b = '/' then rest else behindComment (b :: rest)
  | _ => []

/-- The text behind what stands between tokens at its start, if anything does: blanks, a byte order
mark, a comment up to the end of the line behind two dashes, or one between slashes and stars. -/
def gap? : Bytes → Option Bytes
  | a :: b :: c :: rest =>
    if isBlank a then some ((b :: c :: rest).dropWhile fun x => isBlank x || x = 11)
    else if a = '-' && b = '-' then some ((c :: rest).dropWhile (· ≠ 10))
    else if a = '/' && b = '*' then some (behindComment (c :: rest))
    else if a = 0xEF && b = 0xBB && c = 0xBF then some rest
    else none
  | [a, b] =>
    if isBlank a then some ([b].dropWhile fun x => isBlank x || x = 11)
    else if a = '-' && b = '-' then some []
    else none
  | [a] => if isBlank a then some [] else none
  | [] => none

/-- The tokens of a text up to the first broken one. The count bounds their number. -/
def scan : Nat → Bytes → List Token
  | 0, _ => []
  | _, [] => []
  | count + 1, b :: rest =>
    match gap? (b :: rest) with
    | some behind => scan count behind
    | none =>
      match first b rest with
      | .broken raw => [.broken raw]
      | token => token :: scan count ((b :: rest).drop token.raw.length)

/-- The tokens of a text; a zero byte ends it. -/
def ofText (text : Bytes) : List Token :=
  let text := text.takeWhile (· ≠ 0)
  scan text.length text

/-! ## Words -/

/-- The words that are never names. -/
def reserved : List String :=
  ["add", "all", "alter", "and", "as", "autoincrement", "between", "case", "check", "collate", "commit",
    "constraint", "create", "default", "deferrable", "delete", "distinct", "drop", "else", "escape",
    "except", "exists", "foreign", "from", "group", "having", "in", "index", "insert", "intersect", "into",
    "is", "isnull", "join", "limit", "not", "nothing", "notnull", "null", "on", "or", "order", "primary",
    "references", "returning", "select", "set", "table", "then", "to", "transaction", "union", "unique",
    "update", "using", "values", "when", "where"]

/-- Whether a token is a given keyword. -/
def isKeyword (keyword : Bytes) : Token → Bool
  | word raw => raw.map Bytes.lowerByte = keyword
  | _ => false

/-- The name that a token is, if it is one: a word that is not reserved, or anything in quotes. -/
def name? : Token → Option Bytes
  | word raw =>
    let lower := raw.map Bytes.lowerByte
    if reserved.any fun known => lower = Bytes.ofString known then none else some raw
  | text _ inner => some inner
  | quoted _ inner => some inner
  | _ => none

end Token

end Ledger

/-! ## Database statements

What can be asked of the database of a ledger before its tables are there: settings, transactions, and
plain selections. A text may hold several statements, divided by semicolons.
-/

namespace Ledger

/-- A setting that a statement makes, or asks for if it has no value. The schema is the one named in
front of it, as it was written. -/
structure Setting where
  schema : Option Token
  name : Bytes
  value : Option Bytes
deriving DecidableEq, Repr

/-- The statements of a database. A selection mentions columns, tables and placeholders; a change is of
one table; the start of a transaction may take hold of the database for writing. Others are passed over. -/
inductive Statement where
  | nothing
  | setting (s : Setting)
  | start (writing : Bool)
  | commit
  | rollback
  | select (star : Bool) (columns tables placeholders : List Bytes)
  | change (table : Bytes)
  | other
deriving DecidableEq, Repr

namespace Statement

/-- Why a statement is refused. -/
inductive Flaw where
  | near (text : Bytes)
  | unrecognized (text : Bytes)
  | incomplete
  | noTables
  | noTable (name : Bytes)
  | noColumn (name : Bytes)
  | unknownDatabase (name : Bytes)
  | unsupportedEncoding (name : Bytes)
  | unwritableDirectory
  | nestedTransaction
  | inactive (activity : Bytes)
  | fixedSafety
  | fixedJournal (direction : Bytes)
deriving DecidableEq, Repr

/-- The wording of a flaw. -/
def Flaw.message : Flaw → Bytes
  | near text => "near \"" ++ text ++ "\": syntax error"
  | unrecognized text => "unrecognized token: \"" ++ text ++ "\""
  | incomplete => "incomplete input"
  | noTables => "no tables specified"
  | noTable name => "no such table: " ++ name
  | noColumn name => "no such column: " ++ name
  | unknownDatabase name => "unknown database " ++ name
  | unsupportedEncoding name => "unsupported encoding: " ++ name
  | unwritableDirectory => "not a writable directory"
  | nestedTransaction => "cannot start a transaction within a transaction"
  | inactive activity => "cannot " ++ activity ++ " - no transaction is active"
  | fixedSafety => "Safety level may not be changed inside a transaction"
  | fixedJournal direction => "cannot change " ++ direction ++ " wal mode from within a transaction"

/-- The flaw of tokens that do not continue a statement. -/
def unexpected : List Token → Flaw
  | [] => .incomplete
  | .broken raw :: _ => .unrecognized raw
  | token :: _ => .near token.raw

/-- The end of a statement: a semicolon, or the end of the text. -/
def ended {α : Type} (result : α) : List Token → Except Flaw (α × List Token)
  | [] => .ok (result, [])
  | token :: rest => if token = .mark ";" then .ok (result, rest) else .error (unexpected (token :: rest))

/-- A name at the start of some tokens. -/
def name (tokens : List Token) : Except Flaw (Bytes × List Token) :=
  match tokens with
  | token :: rest =>
    match token.name? with
    | some name => .ok (name, rest)
    | none => .error (unexpected tokens)
  | [] => .error .incomplete

/-- Tokens without a keyword in front, if it is there. -/
def without (keyword : Bytes) : List Token → List Token
  | token :: rest => if token.isKeyword keyword then rest else token :: rest
  | [] => []

/-! ## Settings -/

/-- A number without separators of digits. -/
def isPlainNumber (raw : Bytes) : Bool := !raw.contains ('_' : UInt8)

/-- A value at the start of some tokens: a name, one of three keywords, or a number with a sign. -/
def value (tokens : List Token) : Except Flaw (Bytes × List Token) :=
  match tokens with
  | .number raw :: rest => if isPlainNumber raw then .ok (raw, rest) else .error (unexpected tokens)
  | .mark sign :: .number raw :: rest =>
    if (sign = "+" || sign = "-") && isPlainNumber raw then .ok (if sign = "-" then sign ++ raw else raw, rest)
    else .error (unexpected (if sign = "+" || sign = "-" then .number raw :: rest else tokens))
  | .mark sign :: rest => .error (unexpected (if sign = "+" || sign = "-" then rest else tokens))
  | .word raw :: rest =>
    if (["on", "delete", "default"] : List String).any fun known => raw.map Bytes.lowerByte = Bytes.ofString known then
      .ok (raw, rest)
    else name tokens
  | tokens => name tokens

/-- The value of a setting behind its name, if it has one. -/
def assigned (tokens : List Token) : Except Flaw (Option Bytes × List Token) :=
  match tokens with
  | .mark m :: rest =>
    if m = "=" || m = "==" then do
      let (v, rest) ← value rest
      return (some v, rest)
    else if m = "(" then do
      let (v, rest) ← value rest
      match rest with
      | .mark close :: behind => if close = ")" then return (some v, behind) else throw (unexpected rest)
      | _ => throw (unexpected rest)
    else return (none, tokens)
  | _ => return (none, tokens)

/-- A setting, perhaps behind the name of a schema. -/
def settingOf (tokens : List Token) : Except Flaw (Setting × List Token) := do
  let (first, rest) ← name tokens
  let (schema, called, rest) ← match rest with
    | .mark m :: behind =>
      if m = "." then do
        let (second, rest) ← name behind
        pure (tokens.head?, second, rest)
      else pure (none, first, rest)
    | _ => pure (none, first, rest)
  let (v, rest) ← assigned rest
  return (⟨schema, called, v⟩, rest)

/-! ## Selections -/

/-- What a selection mentions, in reverse. -/
structure Mentions where
  star : Bool
  columns : List Bytes
  tables : List Bytes
  placeholders : List Bytes

/-- The statement that mentions something. -/
def Mentions.statement (m : Mentions) : Statement :=
  .select m.star m.columns.reverse m.tables.reverse m.placeholders.reverse

/-- Tokens passed over to the end of a statement. -/
def passOver : List Token → Except Flaw (Statement × List Token)
  | [] => .ok (.other, [])
  | .broken raw :: _ => .error (.unrecognized raw)
  | token :: rest => if token = .mark ";" then .ok (.other, rest) else passOver rest

/-- The marks between two values. -/
def isOperator (mark : Bytes) : Bool :=
  ["+", "-", "*", "/", "%", "|", "&", "<", ">", "=", "->>", "->", "==", "<=", "<>", "<<", ">=", ">>", "!=",
    "||"].any fun (known : String) => mark = Bytes.ofString known

/-- The keywords between two values. -/
def isOperatorWord (token : Token) : Bool :=
  ["and", "or", "is", "like", "glob", "regexp", "match"].any fun (known : String) =>
    token.isKeyword (Bytes.ofString known)

/-- A column at the start of some tokens: names with dots between them. -/
def columnRest : Bytes → List Token → Bytes × List Token
  | column, .mark m :: token :: rest =>
    if m = "." then
      match token.name? with
      | some name => columnRest (column ++ "." ++ name) rest
      | none => (column, .mark m :: token :: rest)
    else (column, .mark m :: token :: rest)
  | column, rest => (column, rest)

/-- The tables of a selection. -/
def sources (m : Mentions) (tokens : List Token) : Except Flaw (Statement × List Token) := do
  let (table, rest) ← name tokens
  let (_, behind) ← passOver rest
  return ({ m with tables := table :: m.tables }.statement, behind)

mutual

/-- A value of a selection at the start of some tokens, inside so many parentheses. What is more than
values, operators and parentheses is passed over. -/
def operand (steps depth : Nat) (fresh : Bool) (m : Mentions) (tokens : List Token) :
    Except Flaw (Statement × List Token) :=
  match steps, tokens with
  | 0, _ => passOver tokens
  | _, [] => .error .incomplete
  | steps + 1, token :: rest =>
    match token with
    | .number _ | .blob _ | .text _ _ => operator steps depth m rest
    | .placeholder raw => operator steps depth { m with placeholders := raw :: m.placeholders } rest
    | .quoted raw inner =>
      let (column, behind) := columnRest inner rest
      if raw.head? = some ('"' : UInt8) && behind.length = rest.length then operator steps depth m rest
      else operator steps depth { m with columns := column :: m.columns } behind
    | .word raw =>
      let lower := raw.map Bytes.lowerByte
      if lower = "not" then operand steps depth false m rest
      else if lower = "null" || lower = "true" || lower = "false" then operator steps depth m rest
      else if lower = "case" || lower = "cast" || lower = "exists" || lower = "raise" then passOver rest
      else if lower = "select" || lower = "values" || lower = "with" then
        if 0 < depth then passOver rest else .error (.near raw)
      else if rest.head? = some (.mark "(") then passOver rest
      else match token.name? with
        | none => .error (.near raw)
        | some name =>
          let (column, behind) := columnRest name rest
          operator steps depth { m with columns := column :: m.columns } behind
    | .mark mark =>
      if mark = "+" || mark = "-" || mark = "~" then operand steps depth false m rest
      else if mark = "(" then operand steps (depth + 1) false m rest
      else if mark = "*" && fresh then operator steps depth { m with star := true } rest
      else .error (unexpected tokens)
    | .broken raw => .error (.unrecognized raw)

/-- What follows a value of a selection: an operator, the next value, another name for it, or what
follows all values. -/
def operator (steps depth : Nat) (m : Mentions) (tokens : List Token) : Except Flaw (Statement × List Token) :=
  match steps, tokens with
  | 0, _ => passOver tokens
  | _, [] => if depth = 0 then .ok (m.statement, []) else .error .incomplete
  | steps + 1, token :: rest =>
    match token with
    | .mark mark =>
      if isOperator mark then operand steps depth false m rest
      else if mark = ")" && 0 < depth then operator steps (depth - 1) m rest
      else if mark = "," then if depth = 0 then operand steps depth true m rest else passOver rest
      else if depth = 0 then ended m.statement tokens
      else .error (unexpected tokens)
    | token =>
      if isOperatorWord token then
        operand steps depth false m rest
      else if 0 < depth then
        match token with
        | .word _ => passOver rest
        | _ => .error (unexpected tokens)
      else if token.isKeyword "as" then
        match name rest with
        | .ok (_, behind) => renamed steps m behind
        | .error flaw => .error flaw
      else if token.isKeyword "from" then sources m rest
      else match token.name? with
        | some _ => renamed steps m rest
        | none =>
          match token with
          | .word raw =>
            if (["where", "group", "having", "order", "limit", "union", "except", "intersect", "in", "between",
                "not", "isnull", "notnull", "collate", "escape"] : List String).any fun known =>
                raw.map Bytes.lowerByte = Bytes.ofString known then passOver rest
            else .error (.near raw)
          | _ => .error (unexpected tokens)

/-- What follows another name for a value. -/
def renamed (steps : Nat) (m : Mentions) (tokens : List Token) : Except Flaw (Statement × List Token) :=
  match steps, tokens with
  | 0, _ => passOver tokens
  | _, [] => .ok (m.statement, [])
  | steps + 1, token :: rest =>
    if token = .mark "," then operand steps 0 true m rest
    else if token.isKeyword "from" then sources m rest
    else match token with
      | .word raw =>
        if token.name?.isNone && !token.isKeyword "as" then passOver rest else .error (.near raw)
      | _ => ended m.statement tokens

end

/-- A selection behind its keyword. -/
def selection (tokens : List Token) : Except Flaw (Statement × List Token) :=
  operand (2 * tokens.length + 2) 0 true ⟨false, [], [], []⟩ (without "all" (without "distinct" tokens))

/-! ## Transactions and changes -/

/-- The word and the name that may stand behind the verb of a transaction. -/
def transaction (result : Statement) (tokens : List Token) : Except Flaw (Statement × List Token) :=
  match tokens with
  | token :: rest =>
    if token.isKeyword "transaction" then
      match rest with
      | next :: behind => if next.name?.isSome then ended result behind else ended result rest
      | [] => ended result []
    else ended result tokens
  | [] => ended result []

/-- The start of a transaction, of one of three kinds. -/
def startOf (tokens : List Token) : Except Flaw (Statement × List Token) :=
  match tokens with
  | kind :: rest =>
    if kind.isKeyword "deferred" then transaction (.start false) rest
    else if kind.isKeyword "immediate" || kind.isKeyword "exclusive" then transaction (.start true) rest
    else transaction (.start false) tokens
  | [] => transaction (.start false) []

/-- A change of the table at the start of some tokens; one that asks whether the table is there is
passed over. -/
def changeOf (tokens : List Token) : Except Flaw (Statement × List Token) := do
  if (tokens.head?.map (·.isKeyword "if")).getD false then passOver tokens
  else
    let (table, rest) ← name tokens
    let (_, behind) ← passOver rest
    return (.change table, behind)

/-- A change of a table behind its verb, where a keyword has to follow that. -/
def changeBehind (keyword : Bytes) (tokens : List Token) : Except Flaw (Statement × List Token) :=
  match tokens with
  | token :: rest => if token.isKeyword keyword then changeOf rest else passOver tokens
  | [] => .error .incomplete

/-- The verbs of the statements that are passed over. -/
def otherVerbs : List String :=
  ["alter", "analyze", "attach", "create", "detach", "explain", "reindex", "release", "savepoint", "vacuum",
    "values", "with"]

/-- The statement that starts with a verb. -/
def ofVerb (verb : Token) (rest : List Token) : Except Flaw (Statement × List Token) :=
  if verb.isKeyword "pragma" then do
    let (made, rest) ← settingOf rest
    ended (.setting made) rest
  else if verb.isKeyword "select" then selection rest
  else if verb.isKeyword "begin" then startOf rest
  else if verb.isKeyword "commit" || verb.isKeyword "end" then transaction .commit rest
  else if verb.isKeyword "rollback" then transaction .rollback rest
  else if verb.isKeyword "delete" then changeBehind "from" rest
  else if verb.isKeyword "drop" then changeBehind "table" rest
  else if verb.isKeyword "insert" || verb.isKeyword "replace" then changeBehind "into" rest
  else if verb.isKeyword "update" then changeOf rest
  else if otherVerbs.any fun known => verb.isKeyword (Bytes.ofString known) then passOver rest
  else .error (unexpected (verb :: rest))

/-- The first statement of some tokens, and the tokens behind it. -/
def first (tokens : List Token) : Except Flaw (Statement × List Token) :=
  match tokens with
  | [] => .ok (.nothing, [])
  | token :: rest => if token = .mark ";" then .ok (.nothing, rest) else ofVerb token rest

end Statement

end Ledger

end MobilitySweep
