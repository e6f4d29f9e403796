import BuildTrace.Text.Basic

/-!
# Command lines

How the words of a command line are matched with the options, operands and subcommands a program
knows. Options may be given in a short form (`-c FILE`, `-cFILE`, `-c=FILE`), several short ones
in one word, or in a long form (`--config FILE`, `--config=FILE`). Behind `--` every word is an
operand.

The value of an option is checked when the next option, or the end, is reached. So it depends on
the order of the words which of two mistakes is reported.
-/

namespace BuildTrace.CommandLine

/-- Why a command line is refused. Help and version count, too: the program does nothing else. -/
inductive Refusal where
  /-- Help is asked for. -/
  | help
  /-- The version is asked for. -/
  | version
  /-- There are no arguments at all, so help is shown. -/
  | nothingGiven
  /-- A subcommand is missing. -/
  | missingSubcommand
  /-- There is no such subcommand. -/
  | invalidSubcommand
  /-- There is no such option, or an operand too many. -/
  | unknownArgument
  /-- The value of an option is missing or empty. -/
  | invalidValue
  /-- An option is given twice. -/
  | repeatedOption
  /-- An option that takes no value has one. -/
  | unexpectedValue
  /-- An operand is missing. -/
  | missingOperand
  deriving DecidableEq, Repr

/-- What an option does. -/
inductive Effect where
  /-- It is counted. -/
  | count
  /-- It is set, at most once. -/
  | flag
  /-- It takes a text, at most once. -/
  | text
  /-- It takes a path, at most once; a path is not empty. -/
  | path
  /-- It ends the reading of the command line. -/
  | refuse (refusal : Refusal)
  deriving DecidableEq, Repr

/-- The option takes a value. -/
def Effect.takesValue : Effect → Bool
  | text | path => true
  | _ => false

/-- An option. -/
structure Opt where
  /-- The name of the option, which is its long form, too. -/
  name : String
  /-- The short form. -/
  short : Option Char := none
  /-- What it does. -/
  effect : Effect
  deriving DecidableEq, Repr

/-- A command: what may stand behind its name. -/
structure Grammar where
  /-- The options. -/
  options : List Opt
  /-- The operand, if the command takes one. -/
  operand : Option String := none
  /-- The names of the subcommands. -/
  subcommands : List String := []

/-- What was read of a command. -/
structure Reading where
  /-- The values of options and operands. -/
  values : List (String × String) := []
  /-- The options that were given, in order. -/
  given : List String := []
  /-- An option that waits to be stored, and its value. Without a value it takes the next word. -/
  pending : Option (Opt × Option String) := none
  /-- The operand has been read. -/
  hasOperand : Bool := false
  /-- A `--` has been read. -/
  trailing : Bool := false

namespace Reading

/-- The number of times the option was given. -/
def count (r : Reading) (name : String) : Nat := (r.given.filter (· == name)).length

/-- The value of an option or operand. -/
def value? (r : Reading) (name : String) : Option String := r.values.lookup name

/-- Store the option that waits. -/
def settle (r : Reading) : Except Refusal Reading :=
  match r.pending with
  | none => .ok r
  | some (_, none) => .error .invalidValue
  | some (opt, some value) =>
    if r.given.contains opt.name then .error .repeatedOption
    else if opt.effect = .path && value.isEmpty then .error .invalidValue
    else
      .ok
        { r with
          pending := none
          values := (opt.name, value) :: r.values
          given := r.given ++ [opt.name] }

/-- An option without a value has been read. -/
def note (r : Reading) (opt : Opt) : Except Refusal Reading := do
  let r ← r.settle
  match opt.effect with
  | .refuse refusal => .error refusal
  | .count => .ok { r with given := r.given ++ [opt.name] }
  | _ =>
    if r.given.contains opt.name then .error .repeatedOption
    else .ok { r with given := r.given ++ [opt.name] }

/-- An option that takes a value has been read, with its value or without. -/
def expect (r : Reading) (opt : Opt) (value : Option String) : Except Refusal Reading := do
  let r ← r.settle
  let r := { r with pending := some (opt, value) }
  if value.isSome then r.settle else .ok r

/-- The next word is the value of an option. -/
def awaitsValue (r : Reading) : Bool :=
  match r.pending with
  | some (_, none) => true
  | _ => false

end Reading

namespace Grammar

/-- Read a word of short options. -/
def readShort (g : Grammar) (r : Reading) : List Char → Except Refusal Reading
  | [] => .ok r
  | c :: rest =>
    match g.options.find? (·.short == some c) with
    | none => .error .unknownArgument
    | some opt =>
      -- What is left of the word is the value, behind an equals sign or without one.
      if opt.effect.takesValue then
        match rest with
        | [] => r.expect opt none
        | '=' :: value => r.expect opt (some (String.ofList value))
        | value => r.expect opt (some (String.ofList value))
      else
        match r.note opt with
        | .ok r => readShort g r rest
        | .error refusal => .error refusal

/-- Read a long option, `word` being what stands behind its dashes. -/
def readLong (g : Grammar) (r : Reading) (word : List Char) : Except Refusal Reading :=
  let (name, value) :=
    match Text.splitOnce? '=' word with
    | some (name, value) => (name, some (String.ofList value))
    | none => (word, none)
  match g.options.find? (·.name == String.ofList name) with
  | none => .error .unknownArgument
  | some opt =>
    if opt.effect.takesValue then r.expect opt value
    else if value.isSome then .error .unexpectedValue
    else r.note opt

/-- Read an operand. -/
def readOperand (g : Grammar) (r : Reading) (word : String) : Except Refusal Reading :=
  match g.operand with
  | some name =>
    if r.hasOperand then .error .unknownArgument
    else do
      let r ← r.settle
      .ok { r with hasOperand := true, values := (name, word) :: r.values }
  | none =>
    if g.subcommands.isEmpty || (r.trailing && g.subcommands.contains word) then
      .error .unknownArgument
    else .error .invalidSubcommand

/-- Read a word in front of any `--`. -/
def readWord (g : Grammar) (r : Reading) (word : String) : Except Refusal Reading :=
  match word.toList with
  | '-' :: '-' :: rest => g.readLong r rest
  | '-' :: c :: rest => g.readShort r (c :: rest)
  | _ =>
    match r.pending with
    | some (opt, none) => .ok { r with pending := some (opt, some word) }
    | _ => g.readOperand r word

/-- Read the words of a command, up to the name of a subcommand. -/
def read (g : Grammar) (r : Reading) :
    List String → Except Refusal (Reading × Option (String × List String))
  | [] => .ok (r, none)
  | word :: rest =>
    -- Behind the two dashes every word is an operand, whatever it looks like.
    if r.trailing then
      match g.readOperand r word with
      | .ok r => read g r rest
      | .error refusal => .error refusal
    -- The value of an option may look like a subcommand.
    else if !r.awaitsValue && g.subcommands.contains word then .ok (r, some (word, rest))
    else if word = "--" then read g { r with trailing := true } rest
    else
      match g.readWord r word with
      | .ok r => read g r rest
      | .error refusal => .error refusal

end Grammar

end BuildTrace.CommandLine
