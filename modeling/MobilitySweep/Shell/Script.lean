import MobilitySweep.Shell.Token

/-! # Reading statements

Statements are read from tokens by descent. A word is a keyword only where a command may start, so a
statement ends where a keyword closes the one around it. A script is read command by command: what
stands before a flaw has been read already.
-/

namespace MobilitySweep

namespace Shell

/-- What statements are read in: a language, and the names that stand for tokens where a command starts. -/
structure Grammar where
  dialect : Dialect
  aliases : List (Bytes × List Token)

/-- Reading from tokens with their lines; a flaw is found on a line. -/
abbrev Descent := ReaderT Grammar (StateT (List (Token × Nat)) (Except (Flaw × Nat)))

/-- The words with a meaning of their own where a command may start. -/
def keywords : List Bytes :=
  ["!", "case", "do", "done", "elif", "else", "esac", "fi", "for", "if", "in", "then", "until", "while",
    "\x7b", "\x7d"]

/-- The keyword a token is. -/
def keyword? : Token → Option Bytes
  | .word word => (plainText? word).filter keywords.contains
  | _ => none

/-- A text in double quotes, as messages show symbols. -/
def shownSymbol (text : Bytes) : Bytes := "\"" ++ text ++ "\""

/-- A token as messages show it. -/
def shownToken (token : Token) : Bytes :=
  match token with
  | .word _ =>
    match keyword? token with
    | some keyword => shownSymbol keyword
    | none => "word"
  | .redirect _ _ => "redirection"
  | .operator text => if text = [10] then "newline" else shownSymbol text
  | _ => "end of file"

/-- A token as it stands in a script, as far as that is known. -/
def sourceOf (token : Token) : Bytes :=
  match token with
  | .word word => word.flatMap fun (part : Part) => match part with
    | .text value _ => value
    | .parameter name _ _ _ => 36 :: name
    | _ => []
  | .redirect _ .overwrite => ">"
  | .redirect _ .replace => ">|"
  | .redirect _ .append => ">>"
  | .redirect _ .input => "<"
  | .redirect _ .duplicate => ">&"
  | .redirect _ .document => "<<"
  | .redirect _ .text => "<<<"
  | .redirect _ .overwriteBoth => "&>"
  | .redirect _ .appendBoth => "&>>"
  | .operator text => if text = [10] then "newline" else text
  | .arithmetic expression => "((" ++ expression ++ "))"
  | _ => "end of file"

namespace Descent

/-- The next token. -/
def peek : Descent Token := do
  match ← get with
  | (token, _) :: _ => pure token
  | [] => pure .finish

/-- The line of the next token. -/
def line : Descent Nat := do
  match ← get with
  | (_, line) :: _ => pure line
  | [] => pure 1

/-- The next token passed over. -/
def advance : Descent Unit := modify List.tail

/-- The next token is refused; something else may have been wanted. -/
def refuse {α : Type} (wanted : Option Bytes) : Descent α := do
  match ← peek with
  | .flaw flaw => throw (flaw, ← line)
  | token =>
    let shown := if (← read).dialect = .extended then sourceOf token else shownToken token
    throw (.unexpected shown wanted, ← line)

/-- Line ends passed over. -/
def skipLines : Descent Unit :=
  modify fun tokens => tokens.dropWhile fun (token, _) => token = .operator [10]

/-- Whether the next token is an operator, which is then passed over. -/
def takeOperator (text : Bytes) : Descent Bool := do
  if (← peek) = .operator text then
    advance
    pure true
  else pure false

/-- Whether the next token is a keyword, which is then passed over. -/
def takeKeyword (text : Bytes) : Descent Bool := do
  if keyword? (← peek) = some text then
    advance
    pure true
  else pure false

/-- An operator that has to follow. -/
def needOperator (text : Bytes) : Descent Unit := do
  if !(← takeOperator text) then refuse (some (shownSymbol text))

/-- A keyword that has to follow. -/
def needKeyword (text : Bytes) : Descent Unit := do
  if !(← takeKeyword text) then refuse (some (shownSymbol text))

/-- The word behind a redirection. -/
def target : Descent Word := do
  match ← peek with
  | .word word =>
    advance
    pure word
  | _ => refuse none

/-- Redirections, at most so many. -/
def redirects : Nat → Descent (List Redirect)
  | 0 => pure []
  | count + 1 => do
    match ← peek with
    | .redirect descriptor kind =>
      advance
      let word ← target
      pure (⟨descriptor, kind, word⟩ :: (← redirects count))
    | _ => pure []

/-- How many tokens are left. -/
def left : Descent Nat := do pure ((← get).length)

/-- The commands that no function may be named for. -/
def reserved : List String :=
  [".", ":", "break", "continue", "eval", "exec", "exit", "export", "readonly", "return", "set", "shift", "times",
    "trap", "unset"]

/-- The words and redirections of a simple command, at most so many; a single word with parentheses
behind it defines a function. -/
def simple (command : Descent Statement) (start : Nat) : Nat → List Word → List Redirect → Descent Statement
  | 0, words, redirects => pure (.simple start words redirects)
  | count + 1, words, redirects => do
    match ← peek with
    | .word word =>
      advance
      simple command start count (words ++ [word]) redirects
    | .redirect descriptor kind =>
      advance
      let word ← target
      simple command start count words (redirects ++ [⟨descriptor, kind, word⟩])
    | token =>
      match words with
      | [word] =>
        let d := (← read).dialect
        if token = .operator "(" && redirects.isEmpty && (assignment? d word).isNone then
          advance
          match ← peek with
          | .word other =>
            let shown : Bytes := if d = .extended then sourceOf (.word other) else "word"
            throw (.unexpected shown (some (shownSymbol ")")), ← line)
          | _ => needOperator ")"
          match plainText? word with
          | some name =>
            if d = .plain && (!isName name || (reserved.any fun own => Bytes.ofString own = name)) then
              throw (.functionName, ← line)
            skipLines
            pure (.definition name (← command))
          | none => throw (.functionName, ← line)
        else pure (.simple start words redirects)
      | _ => pure (.simple start words redirects)

/-- The commands of a pipeline behind the first one, at most so many. -/
def sinks (command : Descent Statement) : Nat → Descent (List (Statement × Bool))
  | 0 => pure []
  | count + 1 => do
    if ← takeOperator "|" then
      skipLines
      let next ← command
      pure ((next, false) :: (← sinks command count))
    else if ← takeOperator "|&" then
      skipLines
      let next ← command
      pure ((next, true) :: (← sinks command count))
    else pure []

/-- Commands joined by pipes, through some of which messages go as well. -/
def joined (first : Statement) : List (Statement × Bool) → Statement
  | [] => first
  | (next, hasMessages) :: rest =>
    .pipe (if hasMessages then .redirected first [⟨2, .duplicate, [.text [49] false]⟩] else first) (joined next rest)

/-- A pipeline. -/
def pipeline (command : Descent Statement) : Descent Statement := do
  let negated ← takeKeyword "!"
  let first ← command
  let body := joined first (← sinks command (← left))
  pure (if negated then .negation body else body)

/-- What depends on the statements so far, at most so often. -/
def dependents (command : Descent Statement) : Nat → Statement → Descent Statement
  | 0, done => pure done
  | count + 1, done => do
    if ← takeOperator "&&" then
      skipLines
      dependents command count (.both done (← pipeline command))
    else if ← takeOperator "||" then
      skipLines
      dependents command count (.either done (← pipeline command))
    else pure done

/-- Pipelines that depend on one another. -/
def chain (command : Descent Statement) : Descent Statement := do
  dependents command (← left) (← pipeline command)

/-- Statements in turn; nothing in front is left out. -/
def followed : Statement → Statement → Statement
  | .nothing, next => next
  | done, next => .sequence done next

/-- The tokens that close the statement around a list. -/
def closesList (token : Token) : Bool :=
  token = .operator ")" || token = .operator ";;" || token = .operator ";&" || token = .operator ";;&" ||
    match keyword? token with
    | some keyword => closing.contains keyword
    | none => false
where
  /-- The keywords among them. -/
  closing : List Bytes := ["do", "done", "elif", "else", "esac", "fi", "then", "\x7d"]

/-- The list inside a statement, at most so many members. It may be empty only where that is said. -/
def members (command : Descent Statement) : Nat → Bool → Statement → Descent Statement
  | 0, _, done => pure done
  | count + 1, mayEnd, done => do
    skipLines
    let token ← peek
    if token = .finish || (mayEnd && closesList token) then pure done
    else
      let next ← chain command
      if ← takeOperator "&" then members command count true (followed done (.background next))
      else if ← takeOperator ";" then members command count true (followed done next)
      else if (← peek) = .operator [10] then members command count true (followed done next)
      else pure (followed done next)

/-- The list inside a statement. -/
def list (command : Descent Statement) (mayBeEmpty : Bool) : Descent Statement := do
  members command (← left) mayBeEmpty .nothing

/-- What follows the test of a conditional, with at most so many further tests. -/
def branches (command : Descent Statement) : Nat → Descent Statement
  | 0 => pure .nothing
  | count + 1 => do
    let test ← list command false
    needKeyword "then"
    let yes ← list command false
    if ← takeKeyword "elif" then
      pure (.conditional test yes (← branches command count))
    else
      let no ← if ← takeKeyword "else" then list command false else pure .nothing
      needKeyword "fi"
      pure (.conditional test yes no)

/-- Words up to anything else, at most so many. -/
def words : Nat → Descent (List Word)
  | 0 => pure []
  | count + 1 => do
    match ← peek with
    | .word word =>
      advance
      pure (word :: (← words count))
    | _ => pure []

/-- The patterns of an arm, at most so many. -/
def patterns : Nat → Descent (List Word)
  | 0 => pure []
  | count + 1 => do
    let first ← match ← peek with
      | .word word =>
        advance
        pure word
      | _ => pure []
    if ← takeOperator "|" then pure (first :: (← patterns count)) else pure [first]

/-- The arms of a selection, at most so many. -/
def arms (command : Descent Statement) : Nat → Descent Statement
  | 0 => pure .nothing
  | count + 1 => do
    skipLines
    if ← takeKeyword "esac" then pure .nothing
    else
      let _ ← takeOperator "("
      let alternatives ← patterns (← left)
      needOperator ")"
      let body ← list command true
      skipLines
      if ← takeKeyword "esac" then pure (.arm alternatives body .stop .nothing)
      else if ← takeOperator ";&" then pure (.arm alternatives body .fallThrough (← arms command count))
      else if ← takeOperator ";;&" then pure (.arm alternatives body .search (← arms command count))
      else
        needOperator ";;"
        pure (.arm alternatives body .stop (← arms command count))

/-- A test of one operand. -/
def isUnaryTest (word : Bytes) : Bool :=
  match word with
  | [45, letter] => ("abcdefghknprstuvwxzLNRSGO" : Bytes).contains letter
  | _ => false

/-- The words of a condition up to an operator; they may not be missing, nor more than three. -/
def conditionWords : Descent Statement := do
  let start ← line
  let found ← words 3
  match found with
  | [] => refuse none
  | [first, second] =>
    if isUnaryTest ((plainText? first).getD []) then pure (.condition start found)
    else throw (.condition "conditional binary operator expected" (sourceOf (.word second)), start)
  | _ => pure (.condition start found)

/-- What is asked in a condition, at most so often: words, or a condition in parentheses. -/
def conditionTerm (inner : Descent Statement) : Nat → Descent Statement
  | 0 => refuse none
  | count + 1 => do
    skipLines
    if ← takeOperator "(" then
      let body ← inner
      skipLines
      needOperator ")"
      pure body
    else if keyword? (← peek) = some "!" then
      advance
      pure (.negation (← conditionTerm inner count))
    else conditionWords

/-- Terms that have to hold together, at most so many. -/
def conditionTerms (term : Descent Statement) : Nat → Statement → Descent Statement
  | 0, done => pure done
  | count + 1, done => do
    skipLines
    if ← takeOperator "&&" then conditionTerms term count (.both done (← term)) else pure done

/-- A condition with others nested inside it at most so deep. -/
def condition : Nat → Descent Statement
  | 0 => refuse none
  | depth + 1 => do
    let term := conditionTerm (condition depth) (← left)
    let first ← conditionTerms term (← left) (← term)
    skipLines
    if ← takeOperator "||" then pure (.either first (← condition depth)) else pure first

/-- The parts of a text between semicolons. -/
def loopParts (text : Bytes) : Bytes × Bytes × Bytes :=
  match Bytes.splitOn 59 text with
  | [start, test, next] => (start, test, next)
  | _ => ([], [], [])

/-- The loop that arithmetic governs. -/
def countingLoop (command : Descent Statement) (expression : Bytes) : Descent Statement := do
  advance
  let _ ← takeOperator ";"
  skipLines
  let (start, test, next) := loopParts expression
  let body ← if ← takeKeyword "\x7b" then do
      let body ← list command false
      needKeyword "\x7d"
      pure body
    else do
      needKeyword "do"
      let body ← list command false
      needKeyword "done"
      pure body
  pure (.counting start test next body)

/-- A function that a word of its own announces. -/
def announcedFunction (command : Descent Statement) : Descent Statement := do
  advance
  match ← peek with
  | .word word =>
    advance
    if ← takeOperator "(" then needOperator ")"
    skipLines
    pure (.definition ((plainText? word).getD []) (← command))
  | _ => refuse none

/-- The loop over items. -/
def eachLoop (command : Descent Statement) : Descent Statement := do
  let name ← match ← peek with
    | .word word =>
      match plainText? word with
      | some name => if isName name then pure name else throw (.loopVariable, ← line)
      | none => throw (.loopVariable, ← line)
    | _ => throw (.loopVariable, ← line)
  advance
  skipLines
  let items ← if ← takeKeyword "in" then do
      let items ← words (← left)
      if !(← takeOperator ";") && !(← takeOperator [10]) then refuse none
      pure (some items)
    else do
      let _ ← takeOperator ";"
      pure none
  skipLines
  needKeyword "do"
  let body ← list command false
  needKeyword "done"
  pure (.each name items body)

/-- Names that stand for tokens replaced where a command starts, at most so many and none of them twice. -/
def replaceNames : Nat → List Bytes → Descent Unit
  | 0, _ => pure ()
  | count + 1, replaced => do
    match ← get with
    | (token, line) :: rest =>
      let name : Bytes := match token with
        | .word word => (plainText? word).getD []
        | _ => []
      match (← read).aliases.find? fun entry => entry.1 = name && !replaced.contains name with
      | some (_, tokens) =>
        set (tokens.map (·, line) ++ rest)
        replaceNames count (name :: replaced)
      | none => pure ()
    | [] => pure ()

/-- A command, given how the commands inside it are read. -/
def compound (command : Descent Statement) : Descent Statement := do
  replaceNames ((← read).aliases.length) []
  let start ← line
  let token ← peek
  let inner : Option (Descent Statement) :=
    if token = .operator "(" then some do
      advance
      let body ← list command false
      needOperator ")"
      pure (.subshell body)
    else if token = .operator "[[" then some do
      advance
      let body ← condition (← left)
      skipLines
      needOperator "]]"
      pure body
    else if token = .operator "function" then some (announcedFunction command)
    else
      match token with
      | .arithmetic expression => some do
        advance
        pure (.arithmetic start expression)
      | _ =>
      match keyword? token with
      | some keyword =>
        if keyword = "\x7b" then some do
          advance
          let body ← list command false
          needKeyword "\x7d"
          pure body
        else if keyword = "if" then some do
          advance
          branches command (← left)
        else if keyword = "while" || keyword = "until" then some do
          advance
          let test ← list command false
          needKeyword "do"
          let body ← list command false
          needKeyword "done"
          pure (.loop (keyword = "while") test body)
        else if keyword = "for" then some do
          advance
          match ← peek with
          | .arithmetic expression => countingLoop command expression
          | _ => eachLoop command
        else if keyword = "case" then some do
          advance
          let subject ← match ← peek with
            | .word word =>
              advance
              pure word
            | _ => refuse (some "word")
          skipLines
          needKeyword "in"
          pure (.selection subject (← arms command (← left)))
        else some (refuse none)
      | none => none
  match inner with
  | some inner =>
    let body ← inner
    match ← redirects (← left) with
    | [] => pure body
    | changes => pure (.redirected body changes)
  | none =>
    match token with
    | .word _ | .redirect _ _ => simple command start (← left) [] []
    | _ => refuse none

/-- A command with others nested inside it at most so deep. -/
def command : Nat → Descent Statement
  | 0 => refuse none
  | depth + 1 => compound (command depth)

/-- The members of one complete command: all up to the end of its line, at most so many. -/
def complete (depth : Nat) : Nat → Statement → Descent Statement
  | 0, done => pure done
  | count + 1, done => do
    if ← takeOperator [10] then pure done
    else if (← peek) = .finish then pure done
    else
      let next ← chain (command depth)
      if ← takeOperator "&" then complete depth count (followed done (.background next))
      else if ← takeOperator ";" then complete depth count (followed done next)
      else if ← takeOperator [10] then pure (followed done next)
      else if (← peek) = .finish then pure (followed done next)
      else refuse none

end Descent

/-- The first complete command of some tokens, and the tokens behind it; none at the end. -/
def nextStatement (g : Grammar) (tokens : List (Token × Nat)) :
    Except (Flaw × Nat) (Option (Statement × List (Token × Nat))) :=
  match tokens with
  | [] | (.finish, _) :: _ => .ok none
  | _ =>
    let count := tokens.length + (g.aliases.map (·.2.length)).foldl (· + ·) 1
    (((Descent.complete count count .nothing).run g).run tokens).map some

/-- The grammar of a language in which names stand for texts. The extended language replaces none in
scripts. -/
def Grammar.of (d : Dialect) (aliases : List (Bytes × Bytes)) : Grammar :=
  if d = .extended then ⟨d, []⟩
  else ⟨d, aliases.map fun (name, text) => (name, ((tokens d text).map (·.1)).filter (· ≠ .finish))⟩

end Shell

end MobilitySweep
