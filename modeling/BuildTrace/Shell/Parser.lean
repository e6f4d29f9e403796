import BuildTrace.Shell.Lexer

/-!
# Reading shell scripts

A script is read one line of commands at a time, together with the lines that belong to it: what
stands in front of a mistake is still good, and an alias that a command defines is known from the
next line on.
-/

namespace BuildTrace.Shell

namespace Parser

/-! ## Tokens -/

/-- The depth up to which commands may stand inside one another. -/
def depthLimit : Nat := 1000000

/-- The next token at the beginning of a command. -/
def atCommand : Lexer.Expectation := { allowsReserved := true, allowsAlias := true }

/-- The next token at the beginning of a command that may stand behind line ends. -/
def behindNewlines : Lexer.Expectation := { atCommand with skipsNewlines := true }

/-- Read the token again. -/
def hold (token : Token) : Reader Unit := Reader.modify fun s => { s with held := some token }

/-- The token stands where it cannot. -/
def unexpected {α : Type} (found : Token) (expected : Option Token := none) : Reader α :=
  Reader.fail (.unexpected found expected)

/-- Read a document behind the line; its number. -/
def addDocument (mark : Word) (isQuoted stripsTabs : Bool) : Reader Nat := fun s =>
  let text := mark.flatMap fun
    | .text value _ => value
    | .quotes parts => parts.flatMap fun
      | .text value _ => value
      | _ => []
    | _ => []
  let document : PendingDocument :=
    { number := s.nextDocument, mark := text, expands := !isQuoted, stripsTabs }
  .ok (s.nextDocument,
    { s with pending := s.pending ++ [document], nextDocument := s.nextDocument + 1 })

/-- The word can be the target of a copy, as far as it can be told. -/
def isGoodCopy (target : Word) : Bool :=
  match target.plain? with
  | some [c] => c.isDigit || c = '-'
  | some _ => false
  | none => true

/-- The word may be the name of a function. -/
def functionName? (word : Word) : Option String :=
  word.plain?.bind fun name =>
    let text := String.ofList name
    if isName name && !specialCommands.contains text then some text else none

/-- The second command behind the first one. -/
def join : Option Script → Script → Script
  | none, second => second
  | some first, second => .sequence first second

/-! ## Commands -/

mutual

/-- The commands of a substitution. -/
def substitution : Nat → CommandReader
  | 0, _ => Reader.fail .openQuote
  | fuel + 1, closes => do
    let s ← Reader.get
    -- What is held back belongs to the commands around these.
    Reader.set { s with held := none, pending := [] }
    let script ← list fuel false true none
    if closes then
      let token ← Lexer.next (substitution fuel) fuel {}
      if !token.isOperator ")" then unexpected token (some (.operator ")"))
    Reader.modify fun t => { t with held := s.held, pending := s.pending ++ t.pending }
    return script.getD .empty

/-- A list of commands behind those that were read. At the top, it ends with the line; `mayEnd`
tells whether it may end in front of what closes a list. -/
def list : Nat → (isTop mayEnd : Bool) → Option Script → Reader (Option Script)
  | 0, _, _, _ => Reader.fail .openQuote
  | fuel + 1, isTop, mayEnd, before => do
    let token ← Lexer.next (substitution fuel) fuel { atCommand with skipsNewlines := !isTop }
    match token with
    | .newline => return before
    | .finish =>
      hold token
      return before
    | _ =>
      hold token
      if !isTop && mayEnd && token.endsList then return before
      else
        let command ← conjunction fuel
        let token ← Lexer.next (substitution fuel) fuel {}
        let command := if token.isOperator "&" then .background command else command
        let before := join before command
        match token with
        | .finish =>
          hold token
          return some before
        | .newline =>
          hold token
          list fuel isTop true (some before)
        | _ =>
          if token.isOperator "&" || token.isOperator ";" then
            list fuel isTop true (some before)
          else if isTop then unexpected token
          else
            hold token
            return some before

/-- A list of commands that is not empty. -/
def commands : Nat → Reader Script
  | 0 => Reader.fail .openQuote
  | fuel + 1 => do
    let script ← list fuel false false none
    return script.getD .empty

/-- Pipelines joined by `&&` and `||`. -/
def conjunction : Nat → Reader Script
  | 0 => Reader.fail .openQuote
  | fuel + 1 => do
    let first ← pipeline fuel {}
    conjunctionAfter fuel first

/-- The command that was read and what is joined to it. -/
def conjunctionAfter : Nat → Script → Reader Script
  | 0, _ => Reader.fail .openQuote
  | fuel + 1, first => do
    let token ← Lexer.next (substitution fuel) fuel {}
    if token.isOperator "&&" then
      let second ← pipeline fuel behindNewlines
      conjunctionAfter fuel (.both first second)
    else if token.isOperator "||" then
      let second ← pipeline fuel behindNewlines
      conjunctionAfter fuel (.either first second)
    else
      hold token
      return first

/-- Commands joined by `|`. -/
def pipeline : Nat → Lexer.Expectation → Reader Script
  | 0, _ => Reader.fail .openQuote
  | fuel + 1, e => do
    let token ← Lexer.next (substitution fuel) fuel e
    let negated := token.isReserved "!"
    if !negated then hold token
    let first ← command fuel (if negated then atCommand else {})
    let rest ← pipelineAfter fuel
    let script := if rest.isEmpty then first else .pipeline (first :: rest)
    return if negated then .negation script else script

/-- The commands behind a `|`. -/
def pipelineAfter : Nat → Reader (List Script)
  | 0 => Reader.fail .openQuote
  | fuel + 1 => do
    let token ← Lexer.next (substitution fuel) fuel {}
    if token.isOperator "|" then
      let next ← command fuel behindNewlines
      return next :: (← pipelineAfter fuel)
    else
      hold token
      return []

/-- A command. -/
def command : Nat → Lexer.Expectation → Reader Script
  | 0, _ => Reader.fail .openQuote
  | fuel + 1, e => do
    let line := (← Reader.get).line
    let token ← Lexer.next (substitution fuel) fuel e
    match token with
    | .word _ _ | .redirection _ =>
      hold token
      simple fuel
    | .operator "(" =>
      let body ← commands fuel
      expect fuel (.operator ")")
      return .subshell line body (← redirections fuel)
    | .reserved "\x7b" =>
      let body ← commands fuel
      close fuel line "\x7d" body
    | .reserved "if" =>
      let body ← branches fuel
      close fuel line "fi" body
    | .reserved "while" | .reserved "until" =>
      let condition ← commands fuel
      expect fuel (.reserved "do")
      let body ← commands fuel
      close fuel line "done" (.loop (token.isReserved "until") condition body)
    | .reserved "for" =>
      match ← Lexer.next (substitution fuel) fuel {} with
      | .word w false =>
        match w.plain? with
        | some name =>
          if isName name then
            let words ← loopWords fuel
            expectAt fuel behindNewlines (.reserved "do")
            let body ← commands fuel
            close fuel line "done" (.each line (String.ofList name) words body)
          else Reader.fail .loopVariable
        | none => Reader.fail .loopVariable
      | _ => Reader.fail .loopVariable
    | .reserved "case" =>
      match ← Lexer.next (substitution fuel) fuel {} with
      | .word subject _ =>
        expectAt fuel behindNewlines (.reserved "in")
        let branches ← choices fuel
        withRedirections fuel line (.choice line subject branches)
      | found => unexpected found (some (.word [] false))
    | _ => unexpected token

/-- Skip the token, which has to stand here. -/
def expect : Nat → Token → Reader Unit
  | 0, _ => Reader.fail .openQuote
  | fuel + 1, expected => expectAt fuel {} expected

/-- Skip the token, which has to stand at such a place. -/
def expectAt : Nat → Lexer.Expectation → Token → Reader Unit
  | 0, _, _ => Reader.fail .openQuote
  | fuel + 1, e, expected => do
    let token ← Lexer.next (substitution fuel) fuel e
    let isGood :=
      match expected with
      | .operator sign => token.isOperator sign
      | .reserved word => token.isReserved word
      | _ => false
    if !isGood then unexpected token (some expected)

/-- The command in front of the word that closes it, with its redirections. -/
def close : Nat → (line : Nat) → String → Script → Reader Script
  | 0, _, _, _ => Reader.fail .openQuote
  | fuel + 1, line, word, body => do
    expect fuel (.reserved word)
    withRedirections fuel line body

/-- The command with the redirections behind it. -/
def withRedirections : Nat → (line : Nat) → Script → Reader Script
  | 0, _, _ => Reader.fail .openQuote
  | fuel + 1, line, body => do
    let directed ← redirections fuel
    return if directed.isEmpty then body else .redirected line body directed

/-- The redirections that stand behind a command. -/
def redirections : Nat → Reader (List Redirection)
  | 0 => Reader.fail .openQuote
  | fuel + 1 => do
    let token ← Lexer.next (substitution fuel) fuel atCommand
    match token with
    | .redirection sign =>
      let first ← target fuel sign
      return first :: (← redirections fuel)
    | _ =>
      hold token
      return []

/-- The redirection with the target behind its sign. -/
def target : Nat → RedirectionSign → Reader Redirection
  | 0, _ => Reader.fail .openQuote
  | fuel + 1, sign => do
    let isDocument := sign.direction.isNone
    match ← Lexer.next (substitution fuel) fuel { isLiteral := isDocument } with
    | .word word isQuoted =>
      match sign.direction with
      | none => return .document sign.stream (← addDocument word isQuoted sign.stripsTabs)
      | some direction => return .to sign.stream direction word
    | found => unexpected found

/-- The words of a loop; all arguments if there are none. -/
def loopWords : Nat → Reader (List Word)
  | 0 => Reader.fail .openQuote
  | fuel + 1 => do
    let token ← Lexer.next (substitution fuel) fuel behindNewlines
    if token.isReserved "in" then wordsUpTo fuel
    else
      if !token.isOperator ";" then hold token
      return [[.quotes [.parameter "@" .plain false []]]]

/-- The words up to the end of a line or a semicolon. -/
def wordsUpTo : Nat → Reader (List Word)
  | 0 => Reader.fail .openQuote
  | fuel + 1 => do
    let token ← Lexer.next (substitution fuel) fuel {}
    match token with
    | .word word _ => return word :: (← wordsUpTo fuel)
    | .newline => return []
    | _ => if token.isOperator ";" then return [] else unexpected token

/-- The branches of a choice up to its end. -/
def choices : Nat → Reader (List (List Word × Option Script))
  | 0 => Reader.fail .openQuote
  | fuel + 1 => do
    let e : Lexer.Expectation := { skipsNewlines := true, allowsReserved := true }
    let token ← Lexer.next (substitution fuel) fuel e
    if token.isReserved "esac" then return []
    else
      -- The opening bracket may be left out.
      if !token.isOperator "(" then hold token
      let patterns ← patterns fuel
      let body ← list fuel false true none
      let token ← Lexer.next (substitution fuel) fuel e
      if token.isReserved "esac" then return [(patterns, body)]
      else if token.isOperator ";;" then return (patterns, body) :: (← choices fuel)
      else unexpected token (some (.operator ";;"))

/-- The patterns of a branch, up to the bracket behind them. -/
def patterns : Nat → Reader (List Word)
  | 0 => Reader.fail .openQuote
  | fuel + 1 => do
    let token ← Lexer.next (substitution fuel) fuel {}
    let pattern : Word :=
      match token with
      | .word word _ => word
      | .reserved word => [.text word.toList false]
      | _ => []
    let token ← Lexer.next (substitution fuel) fuel {}
    if token.isOperator "|" then return pattern :: (← patterns fuel)
    else if token.isOperator ")" then return [pattern]
    else unexpected token (some (.operator ")"))

/-- A condition and what depends on it, behind `if` or `elif`. -/
def branches : Nat → Reader Script
  | 0 => Reader.fail .openQuote
  | fuel + 1 => do
    let condition ← commands fuel
    expect fuel (.reserved "then")
    let first ← commands fuel
    let token ← Lexer.next (substitution fuel) fuel {}
    if token.isReserved "elif" then return .branch condition first (some (← branches fuel))
    else if token.isReserved "else" then return .branch condition first (some (← commands fuel))
    else
      hold token
      return .branch condition first none

/-- A simple command or a function. -/
def simple : Nat → Reader Script
  | 0 => Reader.fail .openQuote
  | fuel + 1 => do
    let line := (← Reader.get).line
    simpleAfter fuel line true [] [] []

/-- A simple command behind the parts of it that were read. -/
def simpleAfter : Nat → (line : Nat) → (allowsAlias : Bool) → List (String × Word) → List Word →
    List Redirection → Reader Script
  | 0, _, _, _, _, _ => Reader.fail .openQuote
  | fuel + 1, line, allowsAlias, assignments, words, directed => do
    let token ← Lexer.next (substitution fuel) fuel { allowsAlias }
    match token with
    | .word word _ =>
      -- Behind the first word nothing is a setting any more.
      match if allowsAlias then word.assignment? else none with
      | some a => simpleAfter fuel line true (assignments ++ [a]) words directed
      | none => simpleAfter fuel line false assignments (words ++ [word]) directed
    | .redirection sign =>
      let r ← target fuel sign
      simpleAfter fuel line allowsAlias assignments words (directed ++ [r])
    | _ =>
      -- A single word in front of a bracket is the name of a function.
      match token.isOperator "(", assignments, words, directed with
      | true, [], [word], [] =>
        expect fuel (.operator ")")
        match functionName? word with
        | none => Reader.fail .functionName
        | some name =>
          let line := (← Reader.get).line
          let body ← command fuel behindNewlines
          return .function line name body
      | _, _, _, _ =>
        hold token
        return .simple line assignments words directed

end

/-! ## Scripts -/

/-- The commands of the next line, none at the end of the script, and what is left then. -/
def nextLine (s : Source) : Except Mistake (Option Script × Source) := do
  let s := { s with held := none, pending := [] }
  let isAtEnd := fun (s : Source) => s.next?.isNone
  match ← list depthLimit true false none s with
  | (some script, s) => .ok (some script, s)
  | (none, s) => .ok (if isAtEnd s then none else some .empty, s)

end Parser

end BuildTrace.Shell
