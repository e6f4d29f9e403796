import BuildTrace.Shell.Source

/-!
# Cutting shell scripts into tokens

A script is cut into tokens as far as a reader of commands asks for them. Where a word holds the
script of a substitution, that script is read as commands at once; the reader of commands is
therefore a parameter.
-/

namespace BuildTrace.Shell

/-- The reader of commands: of those up to a bracket that closes them, which is skipped, or else of
those up to anything that ends a list of commands. -/
abbrev CommandReader := (closes : Bool) → Reader Script

namespace Lexer

/-! ## Where a text ends -/

/-- What ends a text. -/
inductive Closer where
  /-- What ends a word. -/
  | word
  /-- A double quote. -/
  | quote
  /-- The brace behind a parameter. -/
  | brace
  /-- The brackets behind an expression. -/
  | brackets
  /-- The end of a document. -/
  | document
  deriving DecidableEq

/-- What is around a text. -/
structure Context where
  /-- What ends the text. -/
  closer : Closer
  /-- The text is quoted. -/
  isQuoted : Bool := false
  /-- The text stands between the braces of a parameter. -/
  inBraces : Bool := false
  /-- The document the text is in. -/
  document : Option PendingDocument := none
  /-- Nothing is expanded. -/
  isLiteral : Bool := false
  /-- A quote inside quotes is open. -/
  isOpen : Bool := false
  /-- The number of open brackets in an expression. -/
  depth : Nat := 0

/-- A character without a meaning in any context. -/
def isOrdinary (c : Char) : Bool :=
  !"\\'\"$\x60\x7d\n \t;&|<>()".toList.contains c

/-- The parts, the last one first, with a text behind them. -/
def addText (value : List Char) (isQuoted : Bool) : List Part → List Part
  | .text before q :: rest =>
    if q = isQuoted then .text (before ++ value) q :: rest
    else .text value isQuoted :: .text before q :: rest
  | parts => if value.isEmpty then parts else .text value isQuoted :: parts

/-- The word of parts where the script ends. -/
def endOfScript (ctx : Context) (parts : List Part) : Reader Word :=
  match ctx.closer with
  | .word | .document => pure parts.reverse
  | .quote => Reader.fail (if ctx.document.isNone then .openQuote else .openBrace)
  | .brace =>
    Reader.fail (if ctx.isQuoted && ctx.document.isNone then .openQuote else .openBrace)
  | .brackets => Reader.fail .openExpression

/-! ## Documents -/

/-- What is left behind the line that ends a document, if it begins here. -/
def behindMark? : List Char → Source → Option Source
  | [], s =>
    match s.next? with
    | some ('\n', s) => some s
    | some _ => none
    | none => some { s with layers := [] }
  | c :: mark, s =>
    match s.next? with
    | some (d, s) => if c = d then behindMark? mark s else none
    | none => none

/-- Begin a line of a document: nothing if the document ends here. Behind tabs that do not count, a
backslash at the end of a line stands for itself; it is given. -/
def beginLine (document : Option PendingDocument) : Reader (Option (List Char)) := fun s =>
  match document with
  | none => .ok (some [], s)
  | some d =>
    let s := if d.expands then s.joined else s
    let (tabs, t) := if d.stripsTabs then s.takeWhile (· = '\t') else ([], s)
    match behindMark? d.mark t with
    | some rest => .ok (none, rest)
    | none =>
      if tabs.isEmpty then .ok (some [], s)
      else
        match t.next? with
        | some ('\\', u) =>
          match u.next? with
          | some ('\n', v) => .ok (some ['\\', '\n'], v)
          | _ => .ok (some [], t)
        | _ => .ok (some [], t)

/-- The text of a document in which nothing is expanded. -/
def literalDocument (d : PendingDocument) : Nat → List Char → Reader (List Char)
  | 0, text => pure text
  | fuel + 1, text => do
    match ← beginLine (some d) with
    | none => return text
    | some begun =>
      let line ← Reader.takeWhile (· != '\n')
      match ← Reader.raw with
      | some c => literalDocument d fuel (text ++ begun ++ line ++ [c])
      | none => return text ++ begun ++ line

/-! ## Parts of words -/

/-- The text up to the next single quote. -/
def singleQuoted : Nat → List Char → Reader (List Char)
  | 0, _ => Reader.fail .openQuote
  | fuel + 1, text => do
    let text := text ++ (← Reader.takeWhile fun c => c != '\'' && c != '\n')
    match ← Reader.raw with
    | none => Reader.fail .openQuote
    | some c => if c = '\'' then return text else singleQuoted fuel (text ++ [c])

/-- The script between backquotes. -/
def backquoted (isQuoted : Bool) : Nat → List Char → Reader (List Char)
  | 0, _ => Reader.fail .openBackquote
  | fuel + 1, text => do
    match ← Reader.next with
    | none => Reader.fail .openBackquote
    | some '\\' =>
      match ← Reader.raw with
      | none => Reader.fail .openBackquote
      | some d =>
        -- The script inside has only the backslashes that mean something to it.
        let isDropped := ['\\', '\x60', '$'].contains d || (isQuoted && d = '"')
        backquoted isQuoted fuel (text ++ if isDropped then [d] else ['\\', d])
    | some c => if c = '\x60' then return text else backquoted isQuoted fuel (text ++ [c])

/-- Read the commands of a text of its own. -/
def commandsOf (commands : CommandReader) (text : List Char) : Reader Script := fun s =>
  let inner : Source :=
    { layers := [⟨text, none, false⟩]
      aliases := s.aliases
      documents := s.documents
      nextDocument := s.nextDocument }
  match commands false inner with
  | .error e => .error e
  | .ok (script, inner) =>
    .ok (script, { s with documents := inner.documents, nextDocument := inner.nextDocument })

/-- The characters at the front that satisfy `p`, over line ends that are joined. -/
def nextWhile (p : Char → Bool) : Nat → Reader (List Char)
  | 0 => pure []
  | fuel + 1 => do
    match ← Reader.peek with
    | some c =>
      if p c then
        discard Reader.next
        return c :: (← nextWhile p fuel)
      else return []
    | none => return []

/-- The modifier of a parameter, whether an empty value counts as missing, and whether a pattern
follows. -/
def modifier : Reader (Modifier × Bool × Bool) := do
  let colon ← Reader.skip ':'
  match ← Reader.next with
  | some '\x7d' => return (.plain, colon, false)
  | some '-' => return (.fallback, colon, false)
  | some '+' => return (.replacement, colon, false)
  | some '?' => return (.message, colon, false)
  | some '=' => return (.assignment, colon, false)
  | some c =>
    if !colon && (c = '%' || c = '#') then
      let longest ← Reader.skip c
      return (.cut (c = '%') longest, false, true)
    else return (.bad, colon, false)
  | none => return (.bad, colon, false)

/-- The name of a parameter between braces. -/
def parameterName (fuel : Nat) : Reader (Option String) := do
  match ← Reader.peek with
  | some c =>
    if beginsName c then return some (String.ofList (← nextWhile isNameChar fuel))
    else if c.isDigit then return some (String.ofList (← nextWhile Char.isDigit fuel))
    else if isSpecial c then
      discard Reader.next
      return some c.toString
    else return none
  | none => return none

/-- The name of the parameter between braces whose length is taken, if one is. -/
def lengthName (fuel : Nat) : Reader (Option String) := do
  let start ← Reader.get
  if ← Reader.skip '#' then
    match ← Reader.peek with
    | some c =>
      if isNameChar c then return ← parameterName fuel
      else
        discard Reader.next
        -- The sign is a parameter itself: it asks for a length only if another one is behind it.
        if c != '\x7d' && (← Reader.peek) = some '\x7d' then
          return some (if isSpecial c then c.toString else "")
    | none => pure ()
  Reader.set start
  return none

mutual

/-- The parts up to the end of a text, behind those that were read, the last one first. -/
def parts (commands : CommandReader) : Nat → Context → List Part → Reader Word
  | 0, _, _ => Reader.fail .openQuote
  | fuel + 1, ctx, before => do
    let plain ← Reader.takeWhile isOrdinary
    if !plain.isEmpty then parts commands fuel ctx (addText plain ctx.isQuoted before)
    else
      let start ← Reader.get
      match ← Reader.next with
      | none => endOfScript ctx before
      | some c =>
        let literal := fun (text : List Char) =>
          parts commands fuel ctx (addText text ctx.isQuoted before)
        if c = '\n' && ctx.closer != .word then
          let before := addText ['\n'] ctx.isQuoted before
          match ← beginLine ctx.document with
          | none => endOfScript ctx before
          | some begun => parts commands fuel ctx (addText begun ctx.isQuoted before)
        else if c = '\\' then
          match ← Reader.raw with
          | none => parts commands fuel ctx (addText ['\\'] true before)
          | some d =>
            -- Between quotes, a backslash stands for itself, but for what has a meaning there.
            let isKept := ctx.isQuoted && !(['\\', '\x60', '$'].contains d) &&
              (d != '"' || (ctx.document.isSome && !ctx.inBraces)) && (d != '\x7d' || !ctx.inBraces)
            parts commands fuel ctx (addText (if isKept then ['\\', d] else [d]) true before)
        else if c = '\'' then
          if ctx.isQuoted then literal [c]
          else
            let text ← singleQuoted fuel []
            parts commands fuel ctx (.quotes [.text text true] :: before)
        else if c = '"' then
          if ctx.closer = .quote then return before.reverse
          else if !ctx.isQuoted then
            let inner : Context := { ctx with closer := .quote, isQuoted := true, isOpen := false }
            let quoted ← parts commands fuel inner []
            parts commands fuel ctx (.quotes quoted :: before)
          -- Between braces that are quoted, quotes switch back and forth.
          else if ctx.closer = .brace then
            parts commands fuel { ctx with isOpen := !ctx.isOpen } before
          else literal [c]
        else if c = '$' then
          let part ← dollar commands fuel ctx
          match part with
          | .text text q => parts commands fuel ctx (addText text q before)
          | part => parts commands fuel ctx (part :: before)
        else if c = '\x60' then
          if ctx.isLiteral then literal [c]
          else
            let text ← backquoted ctx.isQuoted fuel []
            let script ← commandsOf commands text
            parts commands fuel ctx (.output script :: before)
        else if c = '\x7d' then
          if ctx.closer = .brace && !ctx.isOpen then return before.reverse else literal [c]
        else if ctx.closer = .brackets && c = '(' then
          parts commands fuel { ctx with depth := ctx.depth + 1 } (addText [c] true before)
        else if ctx.closer = .brackets && c = ')' then
          -- Only a bracket without a partner in the expression may end it.
          if 0 < ctx.depth then
            parts commands fuel { ctx with depth := ctx.depth - 1 } (addText [c] true before)
          else if ← Reader.skip ')' then return before.reverse
          else literal [c]
        else if ctx.closer = .word then
          Reader.set start
          return before.reverse
        else literal [c]

/-- The part behind a dollar sign, which may stand for itself. -/
def dollar (commands : CommandReader) : Nat → Context → Reader Part
  | 0, _ => Reader.fail .openQuote
  | fuel + 1, ctx => do
    let itself : Part := .text ['$'] ctx.isQuoted
    if ctx.isLiteral then return itself
    else
      match ← Reader.peek with
      | none => return itself
      | some c =>
        if c = '(' then
          discard Reader.next
          if ← Reader.skip '(' then
            let inner : Context :=
              { closer := .brackets, isQuoted := true, document := ctx.document }
            return .number (← parts commands fuel inner [])
          else return .output (← commands true)
        else if c = '\x7b' then
          discard Reader.next
          braced commands fuel ctx
        else if beginsName c then
          return .parameter (String.ofList (← nextWhile isNameChar fuel)) .plain false []
        else if isSpecial c then
          discard Reader.next
          return .parameter c.toString .plain false []
        else return itself

/-- The parameter between braces. -/
def braced (commands : CommandReader) : Nat → Context → Reader Part
  | 0, _ => Reader.fail .openBrace
  | fuel + 1, ctx => do
    let word := fun (isPattern : Bool) =>
      let inner : Context :=
        { closer := .brace
          isQuoted := ctx.isQuoted && !isPattern
          inBraces := true
          document := ctx.document }
      parts commands fuel inner []
    match ← lengthName fuel with
    | some name =>
      let isGood := (← Reader.peek) = some '\x7d' && !name.isEmpty
      return .parameter name (if isGood then .length else .bad) false (← word false)
    | none =>
      match ← parameterName fuel with
      | none => return .parameter "" .bad false (← word false)
      | some name =>
        let (modifier, colon, isPattern) ← modifier
        if modifier = .plain && !colon then return .parameter name .plain false []
        else return .parameter name modifier colon (← word isPattern)

end

/-! ## Tokens -/

/-- A part of the word is quoted. -/
def isQuotedWord (word : Word) : Bool :=
  word.any fun
    | .text _ q => q
    | .quotes _ => true
    | _ => false

/-- Read the documents that begin behind the line. -/
def readDocuments (commands : CommandReader) : List PendingDocument → Reader Unit
  | [] => Reader.modify fun s => { s with pending := [] }
  | d :: rest => do
    let fuel := (← Reader.get).size + 2
    let text : Word ←
      if d.expands then
        let ctx : Context := { closer := .document, isQuoted := true, document := some d }
        match ← beginLine (some d) with
        | none => pure []
        | some begun => parts commands fuel ctx (addText begun true [])
      else do
        pure [.text (← literalDocument d fuel []) true]
    Reader.modify fun s => { s with documents := (d.number, text) :: s.documents }
    readDocuments commands rest

/-- The beginning of a redirection, at its sign. -/
def redirectionSign (stream : Option Nat) : Reader Token := do
  let sign := fun (standard : Nat) (direction : Direction) =>
    Token.redirection ⟨stream.getD standard, some direction, false⟩
  if ← Reader.skip '>' then
    if ← Reader.skip '>' then return sign 1 .append
    else if ← Reader.skip '|' then return sign 1 (.write true)
    else if ← Reader.skip '&' then return sign 1 .copy
    else return sign 1 (.write false)
  else
    discard (Reader.skip '<')
    if ← Reader.skip '<' then
      let stripsTabs ← Reader.skip '-'
      return .redirection ⟨stream.getD 0, none, stripsTabs⟩
    else if ← Reader.skip '&' then return sign 0 .copy
    else if ← Reader.skip '>' then return sign 0 .readWrite
    else return sign 0 .read

/-- The next token as it is written. With `isLiteral`, nothing is expanded in a word. -/
def written (commands : CommandReader) (isLiteral : Bool) : Nat → Reader Token
  | 0 => pure .finish
  | fuel + 1 => do
    let start ← Reader.get
    match ← Reader.next with
    | none =>
      readDocuments commands (← Reader.get).pending
      return .finish
    | some c =>
      if isBlank c then written commands isLiteral fuel
      else if c = '#' then
        discard (Reader.takeWhile (· != '\n'))
        written commands isLiteral fuel
      else if c = '\n' then
        readDocuments commands (← Reader.get).pending
        return .newline
      else if ['&', '|', ';'].contains c then
        if ← Reader.skip c then return .operator (String.ofList [c, c])
        else return .operator c.toString
      else if c = '(' || c = ')' then return .operator c.toString
      else
        Reader.set start
        let word ← parts commands fuel { closer := .word, isLiteral } []
        -- A digit right in front of a redirection is the number of its stream.
        let stops := (← Reader.peek).any fun c => c = '<' || c = '>'
        match stops, word with
        | true, [] => redirectionSign none
        | true, [.text [d] false] =>
          if d.isDigit then redirectionSign (some (d.toNat - '0'.toNat))
          else return .word word (isQuotedWord word)
        | _, _ => return .word word (isQuotedWord word)

/-- What a token may be. -/
structure Expectation where
  /-- Line ends do not count. -/
  skipsNewlines : Bool := false
  /-- A word may be a reserved one. -/
  allowsReserved : Bool := false
  /-- A word may be an alias. -/
  allowsAlias : Bool := false
  /-- Nothing is expanded in a word. -/
  isLiteral : Bool := false

/-- The next token. -/
def next (commands : CommandReader) : Nat → Expectation → Reader Token
  | 0, _ => pure .finish
  | fuel + 1, e => do
    let s ← Reader.get
    let token ←
      match s.held with
      | some token => do
        Reader.set { s with held := none }
        pure token
      | none => written commands e.isLiteral (s.size + 2)
    let s ← Reader.get
    Reader.set { s with joinsAlias := false }
    let allowsAlias := e.allowsAlias || s.joinsAlias
    match token with
    | .newline =>
      if e.skipsNewlines then next commands fuel e else return .newline
    | .word word false =>
      match word.plain? with
      | none => return token
      | some text =>
        let text := String.ofList text
        if e.allowsReserved && reservedWords.contains text then return .reserved text
        else
          -- What an alias stands for is read in its place, and may be an alias again.
          match if allowsAlias then s.alias? text else none with
          | some value =>
            Reader.modify fun s => s.push text value
            next commands fuel { e with allowsAlias }
          | none => return token
    | token => return token

end Lexer

end BuildTrace.Shell
