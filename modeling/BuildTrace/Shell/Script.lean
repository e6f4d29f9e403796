/-!
# Shell scripts

What a script says, as a tree of commands. A command is made of words, and a word of parts: texts
that stand for themselves, and parts that are expanded when the command runs.

A document for the input of a command is written behind the line of the command. It is known by a
number and kept apart from the commands.
-/

namespace BuildTrace.Shell

/-- What is done with the value of a parameter. -/
inductive Modifier where
  /-- Nothing. -/
  | plain
  /-- Its length is taken. -/
  | length
  /-- A word stands for a value that is missing. -/
  | fallback
  /-- A word is given to a parameter whose value is missing. -/
  | assignment
  /-- A word is the message about a value that is missing. -/
  | message
  /-- A word stands for a value that is not missing. -/
  | replacement
  /-- A part at the beginning, or at the end, that fits a pattern goes away. -/
  | cut (atEnd longest : Bool)
  /-- The substitution makes no sense. -/
  | bad
  deriving DecidableEq

/-- What a redirection does with a stream. -/
inductive Direction where
  /-- Read from a file. -/
  | read
  /-- Read from a file and write to it. -/
  | readWrite
  /-- Write to a file, which is emptied first; an existing one only if that is `allowed`. -/
  | write (allowed : Bool)
  /-- Write at the end of a file. -/
  | append
  /-- Use another stream. -/
  | copy
  deriving DecidableEq

mutual

/-- A part of a word. -/
inductive Part where
  /-- A text that stands for itself. -/
  | text (value : List Char) (isQuoted : Bool)
  /-- What stands between quotes. -/
  | quotes (parts : List Part)
  /-- The value of a parameter. With a colon, an empty value counts as missing. -/
  | parameter (name : String) (modifier : Modifier) (colon : Bool) (argument : List Part)
  /-- The output of a script. -/
  | output (script : Script)
  /-- The value of an expression. -/
  | number (expression : List Part)

/-- A redirection of a stream. -/
inductive Redirection where
  /-- The stream goes to a file or to another stream. -/
  | to (stream : Nat) (direction : Direction) (target : List Part)
  /-- The stream reads a document in the script. -/
  | document (stream : Nat) (number : Nat)

/-- A command with all its parts. -/
inductive Script where
  /-- Variables that are set, and a program with its arguments. -/
  | simple (line : Nat) (assignments : List (String × List Part)) (words : List (List Part))
      (redirections : List Redirection)
  /-- Commands of which each reads what the one before writes. -/
  | pipeline (commands : List Script)
  /-- The command with the opposite result. -/
  | negation (command : Script)
  /-- The second command, if the first one succeeds. -/
  | both (first second : Script)
  /-- The second command, if the first one fails. -/
  | either (first second : Script)
  /-- The command, while the script goes on. -/
  | background (command : Script)
  /-- One command after the other. -/
  | sequence (first second : Script)
  /-- The command in a shell of its own. -/
  | subshell (line : Nat) (command : Script) (redirections : List Redirection)
  /-- One of two commands, depending on the result of a third. -/
  | branch (condition first : Script) (second : Option Script)
  /-- The body as long as the condition succeeds, or as long as it fails. -/
  | loop (untilSuccess : Bool) (condition body : Script)
  /-- The body for each of the words. -/
  | each (line : Nat) (name : String) (words : List (List Part)) (body : Script)
  /-- The first branch with a pattern that fits the word. -/
  | choice (line : Nat) (subject : List Part) (branches : List (List (List Part) × Option Script))
  /-- A name for a command. -/
  | function (line : Nat) (name : String) (body : Script)
  /-- The command with other streams. -/
  | redirected (line : Nat) (command : Script) (redirections : List Redirection)
  /-- Nothing. -/
  | empty

end

instance : Inhabited Part := ⟨.text [] false⟩

instance : Inhabited Script := ⟨.empty⟩

/-- A word. -/
abbrev Word := List Part

/-! ## Names -/

/-- A character a name may begin with. -/
def beginsName (c : Char) : Bool := c.isAlpha || c = '_'

/-- A character of a name. -/
def isNameChar (c : Char) : Bool := c.isAlphanum || c = '_'

/-- The text is a name. -/
def isName (s : List Char) : Bool := s.head?.any beginsName && s.all isNameChar

/-- The commands whose mistakes end a shell; a function cannot have their names. -/
def specialCommands : List String :=
  [":", ".", "break", "continue", "eval", "exec", "exit", "export", "local", "readonly", "return",
    "set", "shift", "times", "trap", "unset"]

/-- Parameters whose name is a single sign. -/
def isSpecial (c : Char) : Bool :=
  c.isDigit || ['@', '*', '#', '?', '-', '$', '!'].contains c

namespace Word

/-- The text of a word without quotes and expansions. -/
def plain? : Word → Option (List Char)
  | [.text value false] => some value
  | _ => none

/-- The variable and the value of a word that sets one. -/
def assignment? (w : Word) : Option (String × Word) :=
  match w with
  | .text value false :: rest =>
    let name := value.takeWhile isNameChar
    match value.drop name.length with
    | '=' :: value =>
      if isName name then
        some (String.ofList name, if value.isEmpty then rest else .text value false :: rest)
      else none
    | _ => none
  | _ => none

end Word

end BuildTrace.Shell
