import BuildTrace.Path.Normal
import BuildTrace.Sort
import BuildTrace.Switch.Token
import BuildTrace.Text.Case

/-!
# Command line switches

A switch is recognized at the start of a token only. Its value may be glued to the name
(`-Iinc`), stand behind `:` or `=` (`/std:c++17`, `-std=c11`), or be the next token (`-I inc`).
A long option (`--name`) takes a value behind `=` or from the next token. Of several names that a
token spells, the longest one counts.
-/

namespace BuildTrace

/-- How a tool expects its switches. -/
inductive Switch.Style where
  /-- Switches begin with one or two dashes. -/
  | gnu
  /-- Switches may begin with a slash, too. -/
  | msvc
  deriving DecidableEq, Repr

/-- A switch as it appeared on a command line. -/
structure Switch where
  /-- The name, as it was asked for. -/
  name : String
  /-- The value, for a switch that takes one. -/
  value : Option String
  deriving DecidableEq, Repr

namespace Switch

/-- The switch as it is shown. -/
def text (s : Switch) : String :=
  match s.value with
  | some value => s.name ++ "=" ++ value
  | none => s.name

namespace Style

/-- The tools that follow the conventions of Microsoft's compiler. -/
def msvcTools : List String := ["cl", "clang-cl", "icl", "link", "lib", "lld-link"]

/-- The style of a tool, named with or without its path and extension, in any case. -/
def ofTool (tool : String) : Style :=
  match (Path.mk tool).fileStem? with
  | some stem =>
    if msvcTools.contains (String.ofList (Text.lower stem.toList)) then msvc else gnu
  | none => gnu

/-- What may stand in front of a name, the longest first. -/
def leads : Style → List (List Char)
  | gnu => [['-', '-'], ['-']]
  | msvc => [['-', '-'], ['-'], ['/']]

/-- What a token spells behind its lead, and whether the lead is that of a long option. -/
def spelled? (style : Style) (token : List Char) : Option (List Char × Bool) :=
  match style.leads.findSome? fun lead => (Text.strip? lead token).map (·, lead == ['-', '-']) with
  | some ([], _) => none
  | other => other

/-- The token is not the name of a file. -/
def looksLikeSwitch (style : Style) (token : List Char) : Bool :=
  token.head? == some '-' || (style == msvc && token.head? == some '/')

end Style

/-- A name to look for, and whether it takes a value. -/
structure Name where
  /-- The name without its lead. -/
  text : List Char
  /-- The switch takes a value. -/
  valued : Bool

/-- The names to look for, longest first; equally long ones stay in order. -/
def names (simple valued : List String) : List Name :=
  let all := simple.map (⟨·.toList, false⟩) ++ valued.map (⟨·.toList, true⟩)
  sortBy (fun a b => Text.byteLength b.text ≤ Text.byteLength a.text)
    (all.filter (!·.text.isEmpty))

/-- What a token says about a name. -/
inductive Spelling where
  /-- The name itself, which takes no value. -/
  | plain
  /-- The name with its value. -/
  | glued (value : List Char)
  /-- The name whose value is the next token. -/
  | separate

/-- How the text behind the lead spells the name, if it does. -/
def Name.spelling? (name : Name) (spelled : List Char) (long : Bool) : Option Spelling :=
  if name.valued then
    match Text.strip? name.text spelled with
    | none => none
    | some [] => some .separate
    | some (c :: rest) =>
      -- A long option needs an equals sign in front of its value.
      if long && c != '=' then none
      else if c = ':' || c = '=' then some (.glued rest)
      else some (.glued (c :: rest))
  else if spelled = name.text then some .plain
  else none

/-- The first of the names that the token spells. -/
def recognize? (style : Style) (names : List Name) (token : List Char) :
    Option (Name × Spelling) :=
  match style.spelled? (unwrapQuotes token) with
  | none => none
  | some (spelled, long) =>
    -- The names are in order, so the longest one that fits is found.
    names.findSome? fun name => (name.spelling? spelled long).map (name, ·)

/-- The switch with the name and the value written in the trace. -/
def ofValue (name : Name) (value : List Char) : Switch :=
  ⟨String.ofList name.text, some (String.ofList (Path.unquote value))⟩

/-- The switches among the tokens. The last token cannot be a switch that lacks its value. -/
def ofTokens (style : Style) (names : List Name) : List (List Char) → List Switch
  | [] => []
  | token :: rest =>
    match recognize? style names token with
    | none => ofTokens style names rest
    | some (name, .plain) => ⟨String.ofList name.text, none⟩ :: ofTokens style names rest
    | some (name, .glued value) => ofValue name value :: ofTokens style names rest
    | some (name, .separate) =>
      match rest with
      | [] => []
      | value :: rest => ofValue name value :: ofTokens style names rest

/-- The switches without and with a value, in the order they appear. -/
def ordered (style : Style) (arguments : String) (simple valued : List String) : List Switch :=
  ofTokens style (names simple valued) (tokens arguments.toList)

/-- The values of all occurrences of the switch, in order. -/
def repeatable (style : Style) (arguments name : String) : List String :=
  (ordered style arguments [] [name]).filterMap Switch.value

/-- The value of the last occurrence of any of the names. -/
def single? (style : Style) (arguments : String) (names : List String) : Option String :=
  ((ordered style arguments [] names).filterMap Switch.value).getLast?

/-- One of the names is a whole switch. -/
def isPresent (style : Style) (arguments : String) (names : List String) : Bool :=
  !(ordered style arguments names []).isEmpty

/-- The file ends with one of the endings, in any case, and has a name before it. -/
def hasEnding (endings : List (List Char)) (file : List Char) : Bool :=
  let small := Text.lower file
  endings.any fun ending =>
    Text.endsWith ending small && Text.byteLength ending < Text.byteLength small

/-- The tokens that are no switches and end with one of the extensions, given without dot. -/
def files (style : Style) (arguments : String) (extensions : List String) : List String :=
  let endings := extensions.map fun extension => '.' :: Text.lower extension.toList
  let plain := ((tokens arguments.toList).map unwrapQuotes).filter fun token =>
    -- Behind an at sign there is the name of a file with more arguments.
    !style.looksLikeSwitch token && token.head? != some '@'
  ((plain.map Path.unquote).filter (hasEnding endings)).map String.ofList

end Switch

end BuildTrace
