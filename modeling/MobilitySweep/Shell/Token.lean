import MobilitySweep.Shell.Format
import MobilitySweep.Shell.Statement

/-! # Tokens of shell scripts

A script is cut into words, operators and redirections. What stands in quotes or behind a dollar sign
belongs to one word, however many blanks it has. The bodies of documents follow the line on which they
are announced.
-/

namespace MobilitySweep

namespace Shell

/-- Why a script cannot be read. -/
inductive Flaw where
  | openQuote (mark : UInt8)
  | openBackquote
  | openBrace
  | openArithmetic
  | openParenthesis
  | loopVariable
  | functionName
  | unexpected (found : Bytes) (wanted : Option Bytes)
  | condition (reason : Bytes) (found : Bytes)
deriving DecidableEq, Repr

/-- The wording of a flaw. -/
def Flaw.message : Flaw → Bytes
  | openQuote _ => "Unterminated quoted string"
  | openBackquote => "EOF in backquote substitution"
  | openBrace => "Missing '\x7d'"
  | openArithmetic => "Missing '))'"
  | openParenthesis => "end of file unexpected (expecting \")\")"
  | loopVariable => "Bad for loop variable"
  | functionName => "Bad function name"
  | unexpected found none => found ++ " unexpected"
  | unexpected found (some wanted) => found ++ " unexpected (expecting " ++ wanted ++ ")"
  | condition reason _ => reason

/-- The wording of a flaw in the extended language, and whether the line is shown with it. -/
def Flaw.extendedMessage : Flaw → Bytes × Bool
  | openQuote mark => ("unexpected EOF while looking for matching `" ++ [mark] ++ "'", false)
  | openBackquote => ("unexpected EOF while looking for matching ``'", false)
  | openBrace => ("unexpected EOF while looking for matching `\x7d'", false)
  | openArithmetic | openParenthesis => ("unexpected EOF while looking for matching `)'", false)
  | loopVariable | functionName => ("syntax error", false)
  | unexpected found _ =>
    if found = "end of file" then ("syntax error: unexpected end of file", false)
    else ("syntax error near unexpected token `" ++ found ++ "'", true)
  | condition reason _ => (reason, true)

/-- What a script is made of. The extended language has arithmetic as a command. -/
inductive Token where
  | word (value : Word)
  | arithmetic (expression : Bytes)
  | redirect (descriptor : Nat) (kind : RedirectKind)
  | operator (text : Bytes)
  | document (body : Word)
  | flaw (flaw : Flaw)
  | finish
deriving DecidableEq, Repr

/-- The quotes a place of a text is in. -/
inductive Quotes where
  | none
  | single
  | double
deriving DecidableEq, Repr

/-- The text up to a closing mark, and what follows it. Opening marks on the way have to be closed
first, and marks in quotes do not count. Single quotes may be without meaning. -/
def upToClosing (opening closing : UInt8) (plain : Bool) :
    Quotes → Nat → Bytes → Bytes → Option (Bytes × Bytes)
  | _, _, _, [] => .none
  | .single, depth, done, b :: rest =>
    upToClosing opening closing plain (if b = 39 then .none else .single) depth (b :: done) rest
  | quotes, depth, done, 92 :: c :: rest => upToClosing opening closing plain quotes depth (c :: 92 :: done) rest
  | .double, depth, done, b :: rest =>
    upToClosing opening closing plain (if b = 34 then .none else .double) depth (b :: done) rest
  | .none, depth, done, b :: rest =>
    if b = 39 && !plain then upToClosing opening closing plain .single depth (b :: done) rest
    else if b = 34 then upToClosing opening closing plain .double depth (b :: done) rest
    else if b = opening then upToClosing opening closing plain .none (depth + 1) (b :: done) rest
    else if b = closing then
      match depth with
      | 0 => some (done.reverse, rest)
      | depth + 1 => upToClosing opening closing plain .none depth (b :: done) rest
    else upToClosing opening closing plain .none depth (b :: done) rest

/-- The text up to a closing backquote, without the backslashes that protect it, and what follows. -/
def backquoted (quoted : Bool) : Bytes → Bytes → Option (Bytes × Bytes)
  | _, [] => none
  | done, 96 :: rest => some (done.reverse, rest)
  | done, 92 :: c :: rest =>
    if c = 96 || c = 92 || c = 36 || (quoted && c = 34) then backquoted quoted (c :: done) rest
    else backquoted quoted (c :: 92 :: done) rest
  | done, b :: rest => backquoted quoted (b :: done) rest

/-- The parameters that are no names. -/
def specialParameters : Bytes := "@*#?$!-"

/-- The parameter at the start of a text, and what follows it. -/
def parameterName? : Bytes → Option (Bytes × Bytes)
  | [] => none
  | b :: rest =>
    if startsName b then some ((b :: rest).takeWhile isNameChar, (b :: rest).dropWhile isNameChar)
    else if Bytes.isDigit b || specialParameters.contains b then some ([b], rest)
    else none

/-- The use of a parameter that the text behind its name asks for in the extended language only. -/
def extendedUse : Bytes → Use × Bytes
  | 58 :: rest => (.slice, rest)
  | 47 :: 47 :: rest => (.exchange .all, rest)
  | 47 :: 35 :: rest => (.exchange .start, rest)
  | 47 :: 37 :: rest => (.exchange .finish, rest)
  | 47 :: rest => (.exchange .first, rest)
  | 94 :: 94 :: _ => (.upperCase true, [])
  | 94 :: _ => (.upperCase false, [])
  | 44 :: 44 :: _ => (.lowerCase true, [])
  | 44 :: _ => (.lowerCase false, [])
  | [64, 81] => (.inQuotes, [])
  | [64, 85] => (.upperCase true, [])
  | [64, 117] => (.upperCase false, [])
  | [64, 76] => (.lowerCase true, [])
  | _ => (.unknown, [])

/-- The use of a parameter that the text behind its name asks for, with its operand. -/
def useOf (d : Dialect) : Bytes → Use × Bytes
  | [] => (.value, [])
  | 58 :: 45 :: rest => (.fallback true, rest)
  | 58 :: 61 :: rest => (.assignment true, rest)
  | 58 :: 63 :: rest => (.demand true, rest)
  | 58 :: 43 :: rest => (.replacement true, rest)
  | 45 :: rest => (.fallback false, rest)
  | 61 :: rest => (.assignment false, rest)
  | 63 :: rest => (.demand false, rest)
  | 43 :: rest => (.replacement false, rest)
  | 35 :: 35 :: rest => (.withoutStart true, rest)
  | 35 :: rest => (.withoutStart false, rest)
  | 37 :: 37 :: rest => (.withoutEnd true, rest)
  | 37 :: rest => (.withoutEnd false, rest)
  | rest => if d = .extended then extendedUse rest else (.unknown, [])

/-- The name of a parameter in braces and what follows it. In the extended language a subscript belongs to
the name. -/
def bracedName? (d : Dialect) (text : Bytes) : Option (Bytes × Bytes) :=
  let digits := text.takeWhile Bytes.isDigit
  let found := if digits.isEmpty then parameterName? text else some (digits, text.drop digits.length)
  match found with
  | some (name, 91 :: rest) =>
    if d = .extended && isName name then
      match upToClosing 91 93 false .none 0 [] rest with
      | some (subscript, behind) => some (name ++ [91] ++ subscript ++ [93], behind)
      | none => none
    else found
  | _ => found

/-- A parameter written in braces. -/
def bracedParameter (d : Dialect) (quoted : Bool) (body : Bytes) : Part :=
  let bad : Part := .parameter body .unknown [] quoted
  let special : Option Part := match body with
    | 35 :: more =>
      match bracedName? d more with
      | some (name, []) => some (.parameter name .length [] quoted)
      | _ => none
    | 33 :: more =>
      if d = .plain || more.isEmpty then none
      else
        match bracedName? d more with
        | some (name, []) =>
          let isList := ("[@]" : Bytes).isSuffixOf name || ("[*]" : Bytes).isSuffixOf name
          some (.parameter name (if isList then .keys else .indirect) [] quoted)
        | some (name, [mark]) =>
          if mark = 42 || mark = 64 then some (.parameter name .names [mark] quoted) else some bad
        | some (name, rest) => some (.parameter name .indirect rest quoted)
        | none => none
    | _ => none
  match special with
  | some part => part
  | none =>
    match bracedName? d body with
    | some (name, rest) =>
      let (use, operand) := useOf d rest
      if use = .unknown then bad else .parameter name use operand quoted
    | none => bad

/-- The bytes that a code point is written with. -/
def codePointBytes (code : Nat) : Bytes := Bytes.ofString (String.ofList [Char.ofNat code])

/-- The text up to a closing single quote with its escapes, and what follows, in at most so many steps. -/
def escapedQuote : Nat → Bytes → Bytes → Option (Bytes × Bytes)
  | 0, _, _ => none
  | _, _, [] => none
  | steps + 1, done, b :: rest =>
    if b = 39 then some (done.reverse, rest)
    else if b ≠ 92 then escapedQuote steps (b :: done) rest
    else
      match rest with
      | [] => none
      | c :: more =>
        let hex (most : Nat) : Bytes := (more.take most).takeWhile fun b => (Decimal.digitValue? b).any (· < 16)
        let valueOf (digits : Bytes) : Nat := digits.foldl (fun n b => n * 16 + (Decimal.digitValue? b).getD 0) 0
        if c = 120 && !(hex 2).isEmpty then
          escapedQuote steps (UInt8.ofNat (valueOf (hex 2)) :: done) (more.drop (hex 2).length)
        else if c = 117 && !(hex 4).isEmpty then
          escapedQuote steps ((codePointBytes (valueOf (hex 4))).reverse ++ done) (more.drop (hex 4).length)
        else if c = 99 then escapedQuote steps (more.headD 0 % 32 :: done) more.tail
        else if c = 39 || c = 34 || c = 63 then escapedQuote steps (c :: done) more
        else if c = 69 then escapedQuote steps (27 :: done) more
        else
          match escape? rest with
          | some (text, behind) => escapedQuote steps (text.reverse ++ done) behind
          | none => escapedQuote steps (b :: done) rest

/-- What stands behind a dollar sign, and what follows it. A dollar sign before anything else stands
for itself. -/
def afterDollar (d : Dialect) (quoted : Bool) (rest : Bytes) : Except Flaw (Part × Bytes) :=
  match rest with
  | 40 :: 40 :: more =>
    match upToClosing 40 41 true .none 0 [] more with
    | some (expression, 41 :: behind) => .ok (.arithmetic expression quoted, behind)
    | _ =>
      if d = .extended then
        match script (40 :: more) with
        | .ok found => .ok found
        | .error _ => .error .openArithmetic
      else .error .openArithmetic
  | 40 :: more => script more
  | 91 :: more =>
    match if d = .extended then upToClosing 91 93 true .none 0 [] more else none with
    | some (expression, behind) => .ok (.arithmetic expression quoted, behind)
    | none => .ok (.text [36] quoted, rest)
  | 123 :: more =>
    match upToClosing 123 125 quoted .none 0 [] more with
    | some (body, behind) => .ok (bracedParameter d quoted body, behind)
    | none => .error .openBrace
  | 39 :: more =>
    if d = .extended && !quoted then
      match escapedQuote (more.length + 1) [] more with
      | some (text, behind) => .ok (.text text true, behind)
      | none => .error (.openQuote 39)
    else .ok (.text [36] quoted, rest)
  | 34 :: _ => if d = .extended && !quoted then .ok (.text [] true, rest) else .ok (.text [36] quoted, rest)
  | _ =>
    match parameterName? rest with
    | some (name, behind) => .ok (.parameter name .value [] quoted, behind)
    | none => .ok (.text [36] quoted, rest)
where
  /-- A script up to its closing parenthesis. -/
  script (more : Bytes) : Except Flaw (Part × Bytes) :=
    match upToClosing 40 41 false .none 0 [] more with
    | some (script, behind) => .ok (.command script quoted, behind)
    | none => .error .openParenthesis

/-- What a text is read as: a word that ends at a blank or an operator, the inside of double quotes, a
document, an operand that takes everything, such an operand inside double quotes, or an expression for
matching, in which parentheses and bars belong to the word. -/
inductive Mode where
  | word
  | expression
  | quoted
  | document
  | operand
  | quotedOperand
deriving DecidableEq, Repr

/-- The bytes that end a word. -/
def endsWord (b : UInt8) : Bool := (" \t\n;&|<>()" : Bytes).contains b

/-- A part put before the parts so far, which are in reverse; plain texts that meet are joined. -/
def addPart (part : Part) (done : List Part) : List Part :=
  match part, done with
  | .text value quoted, .text before same :: rest =>
    if quoted = same then .text (before ++ value) quoted :: rest else part :: done
  | _, _ => part :: done

/-- Whether parts in reverse are the start of an assignment, behind which members of an array may stand. -/
def startsMembers (done : List Part) : Bool :=
  match done.reverse with
  | [.text value false] =>
    let name := value.takeWhile isNameChar
    let behind := value.drop name.length
    isName name && (behind = [61] || behind = [43, 61])
  | _ => false

/-- Whether a byte ends a word that is read in some mode. -/
def endsIn (mode : Mode) (b : UInt8) : Bool :=
  match mode with
  | .word => endsWord b
  | .expression => b = 32 || b = 9 || b = 10 || b = 59 || b = 38
  | _ => false

/-- The parts of a text in reverse, put before those so far, and what follows the text. -/
def readParts (d : Dialect) : Nat → Mode → List Part → Bytes → Except Flaw (List Part × Bytes)
  | 0, _, done, text => .ok (done, text)
  | _, .quoted, _, [] => .error (.openQuote 34)
  | _, _, done, [] => .ok (done, [])
  | steps + 1, mode, done, b :: rest =>
    let isQuoted := mode = .quoted || mode = .document || mode = .quotedOperand
    if mode = .quoted && b = 34 then .ok (done, rest)
    else if d = .extended && mode = .word && b = 40 && startsMembers done then
      match upToClosing 40 41 false .none 0 [] rest with
      | some (body, rest) => readParts d steps mode (.members body :: done) rest
      | none => .error .openParenthesis
    else if endsIn mode b then .ok (done, b :: rest)
    else if b = 36 then do
      let (part, rest) ← afterDollar d isQuoted rest
      readParts d steps mode (addPart part done) rest
    else if b = 96 then
      match backquoted (mode = .quoted) [] rest with
      | some (script, rest) => readParts d steps mode (.command script isQuoted :: done) rest
      | none => .error .openBackquote
    else if b = 92 then
      match rest with
      | [] => .ok (addPart (.text [b] true) done, [])
      | c :: more =>
        if c = 10 then readParts d steps mode done more
        else if !isQuoted || c = 36 || c = 96 || c = 92 || (c = 34 && mode = .quoted) then
          readParts d steps mode (addPart (.text [c] true) done) more
        else readParts d steps mode (addPart (.text [b, c] true) done) more
    else if mode = .quotedOperand && b = 34 then readParts d steps mode done rest
    else if isQuoted then readParts d steps mode (addPart (.text [b] true) done) rest
    else if b = 39 then
      let inside := rest.takeWhile (· ≠ 39)
      if inside.length < rest.length then
        readParts d steps mode (addPart (.text inside true) done) (rest.drop (inside.length + 1))
      else .error (.openQuote 39)
    else if b = 34 then do
      let (done, rest) ← readParts d steps .quoted (addPart (.text [] true) done) rest
      readParts d steps mode done rest
    else readParts d steps mode (addPart (.text [b] false) done) rest

/-- A text read as a whole. -/
def wordOf (d : Dialect) (mode : Mode) (text : Bytes) : Except Flaw Word :=
  (readParts d (text.length + 1) mode [] text).map fun (parts, _) => parts.reverse

/-- A document announced: whether tabs before its lines are dropped, the line that ends it, and whether
it is taken as it is. -/
structure Announcement where
  indented : Bool
  ending : Bytes
  literal : Bool
deriving DecidableEq, Repr

/-- The announcement with a given word. -/
def Announcement.ofWord (indented : Bool) (word : Word) : Announcement :=
  ⟨indented, word.flatMap fun (part : Part) => match part with
      | .text value _ => value
      | _ => [],
    word.any fun (part : Part) => match part with
      | .text _ quoted => quoted
      | _ => false⟩

/-- The text of a document, and what follows it: at most so many lines. -/
def documentText (a : Announcement) : Nat → Bytes → Bytes × Bytes
  | 0, text => ([], text)
  | _, [] => ([], [])
  | lines + 1, text =>
    let line := text.takeWhile (· ≠ 10)
    let rest := text.drop (line.length + 1)
    let line := if a.indented then line.dropWhile (· = 9) else line
    if line = a.ending then ([], rest)
    else
      let (more, behind) := documentText a lines rest
      (line ++ [10] ++ more, behind)

/-- The documents of a line, and what follows them. -/
def documents (d : Dialect) : List Announcement → Bytes → List Token × Bytes
  | [], text => ([], text)
  | a :: rest, text =>
    let (body, text) := documentText a (text.length + 1) text
    let token : Token :=
      if a.literal then .document [.text body true]
      else
        match wordOf d .document body with
        | .ok word => .document word
        | .error flaw => .flaw flaw
    let (tokens, text) := documents d rest text
    (token :: tokens, text)

/-- The redirection that starts with a byte, and what follows it; a document may drop tabs. -/
def redirection (d : Dialect) (b : UInt8) (rest : Bytes) : RedirectKind × Bool × Bytes :=
  match b, rest with
  | 62, 62 :: more => (.append, false, more)
  | 62, 38 :: more => (.duplicate, false, more)
  | 62, 124 :: more => (.replace, false, more)
  | 60, 38 :: more => (.duplicate, false, more)
  | 60, 60 :: 45 :: more => (.document, true, more)
  | 60, 60 :: 60 :: more => if d = .extended then (.text, false, more) else (.document, false, 60 :: more)
  | 60, 60 :: more => (.document, false, more)
  | 60, 62 :: more => (.append, false, more)
  | 60, _ => (.input, false, rest)
  | _, _ => (.overwrite, false, rest)

/-- The operator at the start of a text, and what follows it. -/
def operator? (d : Dialect) : Bytes → Option (Bytes × Bytes)
  | 38 :: 38 :: rest => some ("&&", rest)
  | 124 :: 124 :: rest => some ("||", rest)
  | 124 :: 38 :: rest => if d = .extended then some ("|&", rest) else some ("|", 38 :: rest)
  | 59 :: 59 :: 38 :: rest => if d = .extended then some (";;&", rest) else some (";;", 38 :: rest)
  | 59 :: 59 :: rest => some (";;", rest)
  | 59 :: 38 :: rest => if d = .extended then some (";&", rest) else some (";", 38 :: rest)
  | b :: rest => if (";&|()" : Bytes).contains b then some ([b], rest) else none
  | [] => none

/-- The lines of a text. -/
def lineCount (text : Bytes) : Nat := text.count 10

/-- Where a token is read: whether a command may start there, whether it stands in a condition, and whether
an expression for matching follows. -/
structure Situation where
  startsCommand : Bool
  isCondition : Bool
  isExpression : Bool
deriving DecidableEq, Repr

/-- The start of a script. -/
def Situation.start : Situation := ⟨true, false, false⟩

/-- The words behind which a command may start. -/
def leadingWords : List String :=
  ["!", "do", "elif", "else", "for", "if", "then", "until", "while", "\x7b", "time"]

/-- The situation behind a token. -/
def Situation.behind (s : Situation) (token : Token) : Situation :=
  match token with
  | .operator text =>
    if text = "[[" then ⟨false, true, false⟩
    else if text = "]]" then ⟨false, false, false⟩
    else ⟨text ≠ ")" && text ≠ "function", s.isCondition, false⟩
  | .word word =>
    let text := (plainText? word).getD []
    ⟨s.startsCommand && leadingWords.any (Bytes.ofString · = text), s.isCondition, s.isCondition && text = "=~"⟩
  | _ => ⟨false, s.isCondition, false⟩

/-- What only the extended language reads in some other way: a token, and what follows it. -/
def extendedToken? (s : Situation) (text : Bytes) : Option (Token × Bytes) :=
  match text with
  | 38 :: 62 :: 62 :: rest => some (.redirect 1 .appendBoth, rest)
  | 38 :: 62 :: rest => some (.redirect 1 .overwriteBoth, rest)
  | 62 :: 38 :: rest =>
    let target := rest.dropWhile fun b => b = 32 || b = 9
    let isName := target.head?.any fun c => !Bytes.isDigit c && c ≠ 45 && c ≠ 36 && c ≠ 10
    if s.isCondition || !isName then none else some (.redirect 1 .overwriteBoth, target)
  | 60 :: 40 :: rest =>
    (upToClosing 40 41 false .none 0 [] rest).map fun (script, behind) => (.word [.outputFile script], behind)
  | 40 :: 40 :: rest =>
    if s.startsCommand then
      match upToClosing 40 41 true .none 0 [] rest with
      | some (expression, 41 :: behind) => some (.arithmetic expression, behind)
      | _ => none
    else none
  | 91 :: 91 :: b :: rest =>
    if s.startsCommand && (b = 32 || b = 9 || b = 10) then some (.operator "[[", b :: rest) else none
  | 93 :: 93 :: rest =>
    if s.isCondition && (rest.isEmpty || endsWord (rest.headD 0)) then some (.operator "]]", rest) else none
  | b :: rest =>
    if s.isCondition && (b = 60 || b = 62) then some (.word [.text [b] false], rest)
    else if s.startsCommand && ("function " : Bytes).isPrefixOf text then some (.operator "function", text.drop 9)
    else none
  | [] => none

/-- The tokens of a text with their lines, given how many lines the script has, where they are read, the
documents that are announced, and whether the next word announces one. -/
def tokensFrom (d : Dialect) (total : Nat) :
    Nat → Situation → List Announcement → Option Bool → Bytes → List (Token × Nat)
  | 0, _, _, _, _ => []
  | steps + 1, s, announced, indented, text =>
    let line (rest : Bytes) : Nat := 1 + total - lineCount rest
    match text with
    | [] => [(.finish, line [])]
    | b :: rest =>
      if b = 32 || b = 9 then tokensFrom d total steps s announced indented rest
      else if b = 92 && rest.head? = some 10 then tokensFrom d total steps s announced indented rest.tail
      else if b = 35 then tokensFrom d total steps s announced indented (rest.dropWhile (· ≠ 10))
      else if b = 10 then
        let (bodies, behind) := documents d announced rest
        (.operator [10], line text) :: bodies.map (·, line rest) ++
          tokensFrom d total steps (s.behind (.operator [10])) [] none behind
      else
        match if d = .extended && !s.isExpression then extendedToken? s text else none with
        | some (token, behind) => (token, line behind) :: tokensFrom d total steps (s.behind token) announced none behind
        | none =>
          if (b = 60 || b = 62) && !s.isExpression then
            let (kind, tabs, behind) := redirection d b rest
            (.redirect (if b = 60 then 0 else 1) kind, line rest) ::
              tokensFrom d total steps { s with startsCommand := false } announced
                (if kind = .document then some tabs else none) behind
          else
            match if s.isExpression then none else operator? d text with
            | some (operator, behind) =>
              (.operator operator, line behind) ::
                tokensFrom d total steps (s.behind (.operator operator)) announced none behind
            | none =>
              let number := rest.head?.any fun c => c = 60 || c = 62
              if Bytes.isDigit b && number && !s.isCondition then
                let (kind, tabs, behind) := redirection d (rest.headD 0) rest.tail
                (.redirect (b.toNat - 48) kind, line rest) ::
                  tokensFrom d total steps { s with startsCommand := false } announced
                    (if kind = .document then some tabs else none) behind
              else
                match readParts d (text.length + 1) (if s.isExpression then .expression else .word) [] text with
                | .error flaw => [(.flaw flaw, line text)]
                | .ok (parts, behind) =>
                  let word := parts.reverse
                  let announced := match indented with
                    | some tabs => announced ++ [.ofWord tabs word]
                    | none => announced
                  (.word word, line behind) :: tokensFrom d total steps (s.behind (.word word)) announced none behind

/-- Documents put where they are announced. -/
def attachDocuments : List (Token × Nat) → List Word → List (Token × Nat)
  | [], _ => []
  | (.redirect descriptor .document, line) :: (.word _, next) :: rest, bodies =>
    (.redirect descriptor .document, line) :: (.word (bodies.headD []), next) :: attachDocuments rest bodies.tail
  | (.document _, _) :: rest, bodies => attachDocuments rest bodies
  | token :: rest, bodies => token :: attachDocuments rest bodies

/-- The tokens of a script with their lines. -/
def tokens (d : Dialect) (script : Bytes) : List (Token × Nat) :=
  let all := tokensFrom d (lineCount script) (script.length + 1) .start [] none script
  attachDocuments all (all.filterMap fun (token, _) => match token with
    | .document body => some body
    | _ => none)

end Shell

end MobilitySweep
