import BuildTrace.Shell.Script

/-!
# Tokens of shell scripts

What a script is cut into, and what can be wrong with a script.
-/

namespace BuildTrace.Shell

/-- The beginning of a redirection: what stands in front of its target. -/
structure RedirectionSign where
  /-- The stream. -/
  stream : Nat
  /-- What is done, unless the stream reads a document. -/
  direction : Option Direction
  /-- Tabs in front of the lines of the document do not count. -/
  stripsTabs : Bool := false

/-- A token. -/
inductive Token where
  /-- The end of a line. -/
  | newline
  /-- The end of the script. -/
  | finish
  /-- An operator. -/
  | operator (sign : String)
  /-- The beginning of a redirection. -/
  | redirection (sign : RedirectionSign)
  /-- A word with a meaning of its own. -/
  | reserved (word : String)
  /-- A word, and whether a part of it is quoted. -/
  | word (value : Word) (isQuoted : Bool)

instance : Inhabited Token := ⟨.finish⟩

/-- The words with a meaning of their own at the beginning of a command. -/
def reservedWords : List String :=
  ["!", "case", "do", "done", "elif", "else", "esac", "fi", "for", "if", "in", "then", "until",
    "while", "\x7b", "\x7d"]

namespace Token

/-- The token is the operator. -/
def isOperator (sign : String) : Token → Bool
  | operator s => s == sign
  | _ => false

/-- The token is the reserved word. -/
def isReserved (text : String) : Token → Bool
  | reserved w => w == text
  | _ => false

/-- A list of commands ends in front of the token. -/
def endsList : Token → Bool
  | finish => true
  | operator sign => [")", ";;"].contains sign
  | reserved w => ["do", "done", "elif", "else", "esac", "fi", "then", "\x7d"].contains w
  | _ => false

/-- The token as messages name it. -/
def shown : Token → String
  | newline => "newline"
  | finish => "end of file"
  | operator sign => "\"" ++ sign ++ "\""
  | redirection _ => "redirection"
  | reserved w => "\"" ++ w ++ "\""
  | word _ _ => "word"

end Token

/-- Why a script cannot be read. -/
inductive SyntaxError where
  /-- A quote is left open. -/
  | openQuote
  /-- A backquote is left open. -/
  | openBackquote
  /-- The brace of a parameter is left open. -/
  | openBrace
  /-- The brackets of an expression are left open. -/
  | openExpression
  /-- A token stands where it cannot, and the token that should stand there, if that is one. -/
  | unexpected (found : Token) (expected : Option Token)
  /-- A loop has no variable. -/
  | loopVariable
  /-- A function cannot have the name. -/
  | functionName
  /-- There is no such stream. -/
  | stream

/-- The message about a script that cannot be read. -/
def SyntaxError.message : SyntaxError → String
  | openQuote => "Syntax error: Unterminated quoted string"
  | openBackquote => "Syntax error: EOF in backquote substitution"
  | openBrace => "Syntax error: Missing '\x7d'"
  | openExpression => "Syntax error: Missing '))'"
  | unexpected found none => "Syntax error: " ++ found.shown ++ " unexpected"
  | unexpected found (some expected) =>
    "Syntax error: " ++ found.shown ++ " unexpected (expecting " ++ expected.shown ++ ")"
  | loopVariable => "Syntax error: Bad for loop variable"
  | functionName => "Syntax error: Bad function name"
  | stream => "Syntax error: Bad fd number"

end BuildTrace.Shell
