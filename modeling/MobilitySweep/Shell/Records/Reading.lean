import MobilitySweep.Shell.Records.Token

/-! # Reading record scripts

Expressions are read by descent through the strengths of their operators. Two values side by side are
joined. Inside output statements a greater sign opens a file and does not compare.
-/

namespace MobilitySweep

namespace Shell

namespace Records

/-- Reading from tokens with their lines; a flaw is found on a line. -/
abbrev Descent := StateT (List (Token × Nat)) (Except (Flaw × Nat))

/-- What has another meaning around an expression: a greater sign, or the word for membership. -/
structure Setting where
  hasFiles : Bool
  hasMembers : Bool
deriving DecidableEq, Repr

/-- The usual setting. -/
def Setting.usual : Setting := ⟨false, false⟩

namespace Descent

/-- The next token. -/
def peek : Descent Token := do
  match ← get with
  | (token, _) :: _ => pure token
  | [] => pure .finish

/-- The line of the next token. -/
def line : Descent Nat := do
  match ← get with
  | (_, line) :: _ => pure line
  | [] => pure 1

/-- The next token passed over. -/
def advance : Descent Unit := modify List.tail

/-- How many tokens are left. -/
def left : Descent Nat := do pure ((← get).length)

/-- The next token is refused. -/
def refuse {α : Type} : Descent α := do
  match ← peek with
  | .flaw flaw => throw (flaw, ← line)
  | token => throw (.near token.shown, ← line)

/-- Whether the next token is a symbol, which is then passed over. -/
def takeSymbol (text : Bytes) : Descent Bool := do
  if (← peek) = .symbol text then
    advance
    pure true
  else pure false

/-- Whether the next token is a keyword, which is then passed over. -/
def takeKeyword (text : Bytes) : Descent Bool := do
  if (← peek) = .keyword text then
    advance
    pure true
  else pure false

/-- A symbol that has to follow. -/
def needSymbol (text : Bytes) : Descent Unit := do
  if !(← takeSymbol text) then
    match ← peek with
    | .flaw flaw => throw (flaw, ← line)
    | token =>
      if text = ")" || text = [125] then throw (.missing text token.shown, ← line) else refuse

/-- Ends of lines passed over. -/
def skipLines : Descent Unit := modify fun tokens => tokens.dropWhile fun (token, _) => token = .lineEnd

/-- Ends of lines and of statements passed over. -/
def skipEnds : Descent Unit :=
  modify fun tokens => tokens.dropWhile fun (token, _) => token = .lineEnd || token = .symbol ";"

/-- The next symbol if it is one of some. -/
def oneOf (texts : List String) : Descent (Option Bytes) := do
  match ← peek with
  | .symbol found =>
    if texts.any fun text => Bytes.ofString text = found then
      advance
      pure (some found)
    else pure none
  | _ => pure none

/-- Expressions divided by commas, at most so many. -/
def listOf (expression : Descent Expression) : Nat → Descent (List Expression)
  | 0 => refuse
  | count + 1 => do
    let first ← expression
    if ← takeSymbol "," then
      skipLines
      pure (first :: (← listOf expression count))
    else pure [first]

/-- The arguments behind an opening parenthesis. -/
def arguments (expression : Descent Expression) : Descent (List Expression) := do
  skipLines
  if ← takeSymbol ")" then pure []
  else
    let args ← listOf expression (← left)
    skipLines
    needSymbol ")"
    pure args

/-- Whether a token can start a value that is joined to one before it. -/
def startsValue : Token → Bool
  | .number _ _ | .text _ | .pattern _ | .name _ | .caller _ | .builtin _ => true
  | .symbol text => [Bytes.ofString "$", Bytes.ofString "(", Bytes.ofString "!", Bytes.ofString "++", Bytes.ofString "--",
      Bytes.ofString "-", Bytes.ofString "+"].contains text
  | _ => false

/-- Whether a value behind another one starts with a token. Signs would be operators there. -/
def joinsValue (token : Token) : Bool :=
  startsValue token && token ≠ .symbol "!" && token ≠ .symbol "-" && token ≠ .symbol "+"

/-- A pattern as an expression. -/
def pattern (source : Bytes) : Descent Expression := do
  match readPattern source with
  | .ok matcher => pure (.pattern matcher)
  | .error reason => throw (.misprint source reason, ← line)

/-- The subscripts behind an opening bracket. -/
def subscripts (expression : Descent Expression) : Descent (List Expression) := do
  let found ← listOf expression (← left)
  needSymbol "]"
  pure found

/-- What can be assigned to, if it stands next. -/
def target? (expression value : Descent Expression) : Descent (Option Expression) := do
  match ← peek with
  | .name name =>
    advance
    if ← takeSymbol "[" then pure (some (.element name (← subscripts expression))) else pure (some (.named name))
  | .symbol text =>
    if text = "$" then
      advance
      pure (some (.field (← value)))
    else pure none
  | _ => pure none

/-- A value without operators around it, given how whole expressions and such values are read. -/
def primary (expression value : Descent Expression) : Descent Expression := do
  let token ← peek
  match token with
  | .number n _ =>
    advance
    pure (.number n)
  | .text t =>
    advance
    pure (.text t)
  | .pattern source =>
    advance
    pattern source
  | .name _ =>
    match ← target? expression value with
    | some found => pure found
    | none => refuse
  | .caller name =>
    advance
    advance
    pure (.call name (← arguments expression))
  | .builtin name =>
    advance
    if ← takeSymbol "(" then pure (.builtin name (← arguments expression))
    else if name = "length" then pure (.builtin name [])
    else refuse
  | .keyword word =>
    if word = "getline" then
      advance
      let target ← target? expression value
      if ← takeSymbol "<" then pure (.lineOfFile (← value) target) else pure (.line target)
    else refuse
  | .symbol text =>
    if text = "(" then
      advance
      skipLines
      let members ← listOf expression (← left)
      skipLines
      needSymbol ")"
      match members with
      | [one] => pure (.group [one])
      | _ =>
        if (← peek) = .keyword "in" then pure (.group members) else refuse
    else if text = "$" then
      match ← target? expression value with
      | some found => pure found
      | none => refuse
    else if text = "++" || text = "--" then
      advance
      let found ← value
      if found.isTarget then pure (.step (text = "++") true found) else refuse
    else if text = "-" || text = "+" || text = "!" then
      advance
      pure (.unary (text.headD 0) (← value))
    else refuse
  | _ => refuse

/-- A value with a step behind it, and powers of it, given how values are read. -/
def power (one : Descent Expression) : Nat → Descent Expression
  | 0 => refuse
  | count + 1 => do
    let base ← one
    let base ← if base.isTarget then do
        match ← oneOf ["++", "--"] with
        | some text => pure (.step (text = "++") false base)
        | none => pure base
      else pure base
    if ← takeSymbol "^" then
      match ← oneOf ["-", "+", "!"] with
      | some sign => pure (.binary 94 base (.unary (sign.headD 0) (← power one count)))
      | none => pure (.binary 94 base (← power one count))
    else pure base

/-- A value with signs before it, at most so many. -/
def signed (powers : Descent Expression) : Nat → Descent Expression
  | 0 => refuse
  | count + 1 => do
    match ← oneOf ["!", "-", "+"] with
    | some sign => pure (.unary (sign.headD 0) (← signed powers count))
    | none => powers

/-- Values joined by operators of one strength, at most so many. -/
def chain (next : Descent Expression) (operators : List String) : Nat → Expression → Descent Expression
  | 0, left => pure left
  | count + 1, left => do
    match ← oneOf operators with
    | some operator =>
      let right ← next
      chain next operators count (.binary (operator.headD 0) left right)
    | none => pure left

/-- Values side by side, at most so many. -/
def sideBySide (next : Descent Expression) : Nat → Expression → Descent Expression
  | 0, left => pure left
  | count + 1, left => do
    if joinsValue (← peek) then
      let right ← next
      sideBySide next count (.joined left right)
    else pure left

/-- Lines read from commands, at most so many. -/
def piped (expression value : Descent Expression) : Nat → Expression → Descent Expression
  | 0, left => pure left
  | count + 1, left => do
    match ← get with
    | (.symbol [124], _) :: (.keyword word, _) :: rest =>
      if word = "getline" then
        set rest
        let target ← target? expression value
        piped expression value count (.lineOfCommand left target)
      else pure left
    | _ => pure left

/-- A comparison. -/
def comparison (setting : Setting) (next : Descent Expression) : Descent Expression := do
  let left ← next
  let operators := ["<", "<=", "==", "!=", ">="] ++ (if setting.hasFiles then [] else [">"])
  match ← oneOf operators with
  | some operator => pure (.comparison operator left (← next))
  | none => pure left

/-- Matches of a value, at most so many. -/
def matchings (next : Descent Expression) : Nat → Expression → Descent Expression
  | 0, left => pure left
  | count + 1, left => do
    match ← oneOf ["~", "!~"] with
    | some operator =>
      let right : Expression ← match ← next with
        | .text source => pattern source
        | other => pure other
      matchings next count (.matching (operator = "!~") left right)
    | none => pure left

/-- Memberships of a value, at most so many. -/
def memberships (setting : Setting) : Nat → Expression → Descent Expression
  | 0, left => pure left
  | count + 1, left => do
    if setting.hasMembers then pure left
    else if ← takeKeyword "in" then
      match ← peek with
      | .name array =>
        advance
        let subscripts := match left with
          | .group members => members
          | other => [other]
        memberships setting count (.has array subscripts)
      | _ => refuse
    else pure left

/-- Conditions that have to hold together, or one of which has to, at most so many. -/
def logical (next : Descent Expression) (operator : Bytes) (join : Expression → Expression → Expression) :
    Nat → Expression → Descent Expression
  | 0, left => pure left
  | count + 1, left => do
    if ← takeSymbol operator then
      skipLines
      let right ← next
      logical next operator join count (join left right)
    else pure left

/-- The operators that assign. -/
def assigning : List String := ["=", "+=", "-=", "*=", "/=", "%=", "^="]

/-- An expression in a setting, given how expressions and values inside it are read. -/
def whole (setting : Setting) (inner innerHere value : Descent Expression) (count : Nat) : Descent Expression := do
  let powers := power value count
  let factors : Descent Expression := do chain (signed powers count) ["*", "/", "%"] count (← signed powers count)
  let terms : Descent Expression := do chain factors ["+", "-"] count (← factors)
  let texts : Descent Expression := do piped inner value count (← sideBySide terms count (← terms))
  let compared := comparison setting texts
  let matched : Descent Expression := do matchings compared count (← compared)
  let members : Descent Expression := do memberships setting count (← matched)
  let conjunctions : Descent Expression := do logical members "&&" .both count (← members)
  let first ← logical conjunctions "||" .either count (← conjunctions)
  if ← takeSymbol "?" then
    skipLines
    let yes ← innerHere
    skipLines
    needSymbol ":"
    skipLines
    pure (.conditional first yes (← innerHere))
  else if first.isTarget then
    match ← oneOf assigning with
    | some operator =>
      skipLines
      pure (.assignment operator first (← innerHere))
    | none => pure first
  else pure first

/-- A value with others nested inside it at most so deep. -/
def expression : Nat → Setting → Descent Expression
  | 0, _ => refuse
  | depth + 1, setting => do
    let count ← left
    whole setting (expression depth .usual) (expression depth setting) (valueWithin depth depth) (count + 1)
where
  /-- A value without operators, at most so deep. -/
  valueWithin (outer : Nat) : Nat → Descent Expression
    | 0 => refuse
    | depth + 1 => primary (expression outer .usual) (valueWithin outer depth)

/-- How deep expressions may be nested. -/
def expressionDepth : Nat := 200

/-- A whole expression. -/
def value (setting : Setting) : Descent Expression := expression expressionDepth setting

/-- Whether a token ends a statement. -/
def endsStatement (token : Token) : Bool :=
  token = .lineEnd || token = .finish || token = .symbol ";" || token = .symbol [125]

/-- Whether a token ends the items of an output statement. -/
def endsItems (token : Token) : Bool :=
  endsStatement token || token = .symbol ">" || token = .symbol ">>" || token = .symbol "|"

/-- Items in parentheses that nothing but an output follows, if they stand next. -/
def grouped? : Descent (Option (List Expression)) := fun tokens =>
  match tokens with
  | (.symbol [40], _) :: rest =>
    match (arguments (value .usual)).run rest with
    | .ok (items, behind) =>
      if (behind.head?).any fun (token, _) => endsItems token then .ok (some items, behind) else .ok (none, tokens)
    | .error _ => .ok (none, tokens)
  | _ => .ok (none, tokens)

/-- The items of an output statement, and where they go. -/
def outputItems : Descent (List Expression × Output) := do
  let items ← if endsItems (← peek) then pure []
    else
      match ← grouped? with
      | some items => pure items
      | none => listOf (value ⟨true, false⟩) (← left)
  if ← takeSymbol ">" then pure (items, .file (← value .usual) false)
  else if ← takeSymbol ">>" then pure (items, .file (← value .usual) true)
  else if ← takeSymbol "|" then pure (items, .pipe (← value .usual))
  else pure (items, .plain)

/-- A statement that is no block. -/
def simple : Descent Action := do
  match ← peek with
  | .keyword word =>
    if word = "print" || word = "printf" then
      advance
      let (items, output) ← outputItems
      pure (if word = "print" then .print items output else .printf items output)
    else if word = "delete" then
      advance
      match ← peek with
      | .name array =>
        advance
        if ← takeSymbol "[" then pure (.delete array (some (← subscripts (value .usual))))
        else pure (.delete array none)
      | _ => refuse
    else pure (.expression (← value .usual))
  | _ => pure (.expression (← value .usual))

/-- The end of a statement. -/
def finishStatement : Descent Unit := do
  match ← peek with
  | .lineEnd => advance
  | .symbol text =>
    if text = ";" then advance
    else if text = [125] then pure ()
    else refuse
  | .finish => pure ()
  | _ => refuse

/-- The value behind a word, if there is one. -/
def optional : Descent (Option Expression) := do
  if endsStatement (← peek) then pure none else some <$> value .usual

/-- The statements of a block, at most so many. -/
def members (action : Descent Action) : Nat → Descent Action
  | 0 => refuse
  | count + 1 => do
    skipEnds
    if ← takeSymbol [125] then pure .nothing
    else if (← peek) = .finish then throw (.missing [125] "end of file", ← line)
    else
      let first ← action
      pure (.sequence first (← members action count))

/-- The loop over the subscripts of an array, if it stands next. -/
def each? : Descent (Option (Bytes × Bytes)) := do
  match ← get with
  | (.name name, _) :: (.keyword word, _) :: (.name array, _) :: (.symbol [41], _) :: rest =>
    if word = "in" then
      set rest
      pure (some (name, array))
    else pure none
  | _ => pure none

/-- A statement, given how those inside it are read. -/
def compound (action : Descent Action) : Descent Action := do
  match ← peek with
  | .symbol text =>
    if text = [123] then
      advance
      members action (← left)
    else if text = ";" then
      advance
      pure .nothing
    else
      let found ← simple
      finishStatement
      pure found
  | .keyword word =>
    if word = "if" then
      advance
      needSymbol "("
      let test ← value .usual
      needSymbol ")"
      skipLines
      let yes ← action
      let before ← get
      skipEnds
      if ← takeKeyword "else" then
        skipLines
        pure (.conditional test yes (← action))
      else
        set before
        pure (.conditional test yes .nothing)
    else if word = "while" then
      advance
      needSymbol "("
      let test ← value .usual
      needSymbol ")"
      if ← takeSymbol ";" then pure (.loop (some test) .nothing .nothing)
      else
        skipLines
        pure (.loop (some test) .nothing (← action))
    else if word = "do" then
      advance
      skipLines
      let body ← action
      skipEnds
      if !(← takeKeyword "while") then refuse
      needSymbol "("
      let test ← value .usual
      needSymbol ")"
      finishStatement
      pure (.loopAfter test body)
    else if word = "for" then
      advance
      needSymbol "("
      match ← each? with
      | some (name, array) =>
        skipLines
        pure (.each name array (← action))
      | none =>
        let start ← if (← peek) = .symbol ";" then pure .nothing else simple
        needSymbol ";"
        skipLines
        let test ← if (← peek) = .symbol ";" then pure none else some <$> value .usual
        needSymbol ";"
        skipLines
        let further ← if (← peek) = .symbol ")" then pure .nothing else simple
        needSymbol ")"
        if ← takeSymbol ";" then pure (.sequence start (.loop test further .nothing))
        else
          skipLines
          pure (.sequence start (.loop test further (← action)))
    else
      let found : Action ← if word = "next" then do
          advance
          pure .next
        else if word = "nextfile" then do
          advance
          pure .nextFile
        else if word = "break" then do
          advance
          pure .leave
        else if word = "continue" then do
          advance
          pure .resume
        else if word = "exit" then do
          advance
          pure (.exit (← optional))
        else if word = "return" then do
          advance
          pure (.comeBack (← optional))
        else simple
      finishStatement
      pure found
  | _ =>
    let found ← simple
    finishStatement
    pure found

/-- A statement with others nested inside it at most so deep. -/
def action : Nat → Descent Action
  | 0 => refuse
  | depth + 1 => compound (action depth)

/-- How deep statements may be nested. -/
def actionDepth : Nat := 200

/-- A block that has to follow. -/
def block : Descent Action := do
  if (← peek) = .symbol [123] then action actionDepth else refuse

/-- Names divided by commas, at most so many. -/
def parameters : Nat → Descent (List Bytes)
  | 0 => refuse
  | count + 1 => do
    skipLines
    match ← peek with
    | .name name =>
      advance
      if ← takeSymbol "," then pure (name :: (← parameters count)) else pure [name]
    | _ => pure []

/-- The rules and functions of a script, at most so many. -/
def items : Nat → Script → Descent Script
  | 0, done => pure done
  | count + 1, done => do
    skipEnds
    let add (occasion : Occasion) (action : Option Action) : Script :=
      { done with rules := done.rules ++ [⟨occasion, action⟩] }
    match ← peek with
    | .finish => pure done
    | .keyword word =>
      if word = "BEGIN" || word = "END" then
        advance
        let body ← block
        items count (add (if word = "BEGIN" then .start else .finish) (some body))
      else if word = "function" || word = "func" then
        advance
        let name ← match ← peek with
          | .name name | .caller name => pure name
          | _ => refuse
        advance
        needSymbol "("
        let names ← parameters (← left)
        needSymbol ")"
        skipLines
        let body ← block
        items count { done with functions := done.functions ++ [⟨name, names, body⟩] }
      else
        let test ← value .usual
        let (occasion, action) ← rest test
        items count (add occasion action)
    | .symbol text =>
      if text = [123] then
        let body ← block
        items count (add .always (some body))
      else
        let test ← value .usual
        let (occasion, action) ← rest test
        items count (add occasion action)
    | _ =>
      let test ← value .usual
      let (occasion, action) ← rest test
      items count (add occasion action)
where
  /-- What follows the test of a rule. -/
  rest (test : Expression) : Descent (Occasion × Option Action) := do
    let occasion ← if ← takeSymbol "," then do
        skipLines
        pure (.range test (← value .usual))
      else pure (.test test)
    if (← peek) = .symbol [123] then pure (occasion, some (← block))
    else
      finishStatement
      pure (occasion, none)

end Descent

/-- Whether some action inside another one is of a kind. -/
def Action.contains (isWanted : Action → Bool) : Action → Bool
  | .sequence first second => first.contains isWanted || second.contains isWanted
  | .conditional _ yes no => yes.contains isWanted || no.contains isWanted
  | .loop _ advance body => advance.contains isWanted || body.contains isWanted
  | .loopAfter _ body | .each _ _ body => body.contains isWanted
  | other => isWanted other

/-- What stands in a rule where it has no meaning. -/
def Rule.flaw? (r : Rule) : Option Flaw :=
  let isFor (kind : Action → Bool) : Bool := r.action.any (·.contains kind)
  let hasRecord := match r.occasion with
    | .start | .finish => false
    | _ => true
  if isFor fun a => match a with
    | .comeBack _ => true
    | _ => false
  then some .outsideFunction
  else if !hasRecord && isFor fun a => match a with
    | .next => true
    | _ => false
  then some (.outOfPlace "next")
  else if !hasRecord && isFor fun a => match a with
    | .nextFile => true
    | _ => false
  then some (.outOfPlace "nextfile")
  else none

/-- The script that a text is. -/
def parse (text : Bytes) : Except (Flaw × Nat) Script := do
  let found := tokens text
  let (script, _) ← (Descent.items (found.length + 1) ⟨[], []⟩).run found
  let lastLine := ((found.getLast?).map (·.2)).getD 1
  match script.rules.findSome? Rule.flaw? with
  | some flaw => .error (flaw, lastLine - 1)
  | none => pure ()
  let callers := found.filterMap fun (token, _) => match token with
    | .caller name => some name
    | _ => none
  match callers.find? fun name => !script.functions.any (·.name = name) with
  | some name => .error (.unknownFunction name, lastLine)
  | none => .ok script

end Records

end Shell

end MobilitySweep
