import BuildTrace.Path.Normal
import BuildTrace.Sort
import BuildTrace.Switch.Basic
import BuildTrace.Text.Digit

/-!
# Tool matchers

A line invokes a tool when its command, the first word, names one of the tools a matcher was made
for. The command may carry a path, quoted or not, and the name may carry decorations, as those of
cross compilers do (`arm-none-eabi-gcc-9`). A path must lead to a file, or to one of the paths
that are known anyway; a bare name is always taken.

The ways to read a command are listed in order of preference, and the first one that fits is
taken.
-/

namespace BuildTrace.Tool

/-- A way to cut a text: what is taken from its beginning, and what is left. -/
abbrev Cut := List Char × List Char

namespace Cut

/-- The same cut behind one more character. -/
def cons (c : Char) (cut : Cut) : Cut := (c :: cut.1, cut.2)

/-- The cuts into what the first reader takes and, behind it, what the second one takes. -/
def andThen (first second : List Char → List Cut) (s : List Char) : List Cut :=
  (first s).flatMap fun a => (second a.2).map fun b => (a.1 ++ b.1, b.2)

/-- The cuts behind each character of the longest run that satisfies `p`, longest first. -/
def runs (p : Char → Bool) : List Char → List Cut
  | [] => []
  | c :: s => if p c then (runs p s).map (cons c) ++ [([c], s)] else []

/-- The cuts that take one of the words. -/
def words (words : List (List Char)) (s : List Char) : List Cut :=
  words.filterMap fun word => (Text.strip? word s).map (word, ·)

end Cut

/-- A slash of either kind. -/
def isSlash (c : Char) : Bool := c = '/' || c = '\\'

/-- A character of a decoration, the dash at its end apart. -/
def isDecorationChar (c : Char) : Bool := c.isAlphanum || c = '_' || c = '.'

/-- The cuts behind each dash of the decorations, longest first. -/
def dashes : List Char → List Cut
  | [] => []
  | c :: s =>
    if c = '-' then (dashes s).map (Cut.cons c) ++ [([c], s)]
    else if isDecorationChar c then (dashes s).map (Cut.cons c)
    else []

/-- The cuts that take decorations in front of a name, down to none. -/
def decorations (s : List Char) : List Cut := dashes s ++ [([], s)]

/-- A character of a version. -/
def isVersionChar (c : Char) : Bool := Text.isDigit c || c = '.'

/-- The cuts that take a version behind a name, down to none. -/
def versions (s : List Char) : List Cut :=
  (match s with
    | '-' :: rest => (Cut.runs isVersionChar rest).map (Cut.cons '-')
    | _ => []) ++ [([], s)]

/-- The cuts behind each slash of a quoted directory, longest first. -/
def quotedSlashes : List Char → List Cut
  | [] => []
  | c :: s =>
    if c = '"' then []
    else (quotedSlashes s).map (Cut.cons c) ++ (if isSlash c then [([c], s)] else [])

/-- The cuts behind each slash of a directory, longest first. Parts of it may stand between double
quotes, and the slashes in there do not count. -/
def slashes (inside : Bool) : List Char → List Cut
  | [] => []
  | c :: s =>
    if inside then (slashes (c != '"') s).map (Cut.cons c)
    else if c = '"' then
      -- A quote that is never closed ends the directory.
      if s.contains '"' then (slashes true s).map (Cut.cons c) else []
    else if Text.isBlank c then []
    else (slashes false s).map (Cut.cons c) ++ (if isSlash c then [([c], s)] else [])

/-- A command as it was read. -/
structure Command where
  /-- The directory in front of the name, as it was written. -/
  directory : List Char
  /-- The name with its decorations. -/
  name : List Char
  /-- The name is followed by the extension of executables. -/
  hasExtension : Bool
  /-- The arguments. -/
  arguments : List Char

/-- An invocation of a tool on a line of a trace. -/
structure Invocation where
  /-- The directory of the command as it was written, without quotes. -/
  pathInTrace : String
  /-- The name of the tool with its decorations, without extension. -/
  toolName : String
  /-- The path of the tool. -/
  fullPath : Path
  /-- The path leads to a file. -/
  found : Bool
  /-- The arguments, without white space around them. -/
  arguments : String
  deriving DecidableEq

/-- The file name of the tool. -/
def Invocation.fileName (i : Invocation) : String := i.fullPath.fileName?.getD i.toolName

/-- What invocations are recognized by. -/
structure Matcher where
  /-- The names of the tools, in order of preference. -/
  names : List (List Char)
  /-- The names may carry decorations and versions. -/
  decorated : Bool
  /-- The extension of executables without its dot, empty if there is none. -/
  extension : List Char := []
  /-- Paths that are accepted although there may be no file. -/
  knownPaths : List Path := []

namespace Matcher

/-- A name goes before shorter ones, and before equally long ones that follow it in the order of
texts. -/
def goesBefore (a b : List Char) : Bool :=
  let la := Text.byteLength a
  let lb := Text.byteLength b
  lb < la || (la == lb && !(b < a))

/-- The matcher of the names. Longer names go first, so that `clang-cl` is not taken for a
decorated `cl`. -/
def ofNames (names : List String) (decorated : Bool) (extension : String := "") : Matcher where
  names :=
    sortBy goesBefore
      ((names.map fun name => Text.trim name.toList).filter (!·.isEmpty)).eraseDups
  decorated
  extension := extension.toList

/-- The dot and the extension. -/
def dotted (m : Matcher) : List Char := '.' :: m.extension

/-- The cuts that take the name of a tool. -/
def tools (m : Matcher) (s : List Char) : List Cut :=
  if m.decorated then Cut.andThen (Cut.andThen decorations (Cut.words m.names)) versions s
  else Cut.words m.names s

/-- What may be left behind a name when the extension is taken, or not. -/
def extensions (m : Matcher) (s : List Char) : List (Bool × List Char) :=
  if m.extension.isEmpty then [(true, s)]
  else (Text.strip? m.dotted s).toList.map (true, ·) ++ [(false, s)]

/-- The arguments at the end of a command: there must be white space or quotes before them, and
they must not run over the end of a line. -/
def arguments? (s : List Char) : Option (List Char) :=
  let isGap := fun c => Text.isBlank c || c = '"'
  match s with
  | c :: rest =>
    let arguments := rest.dropWhile isGap
    if isGap c && !arguments.contains '\n' then some arguments else none
  | [] => none

/-- The ways to read a command whose directory has been cut off, `close` being the text that ends
it. -/
def afterDirectory? (m : Matcher) (close : List Char) (cut : Cut) : Option Command :=
  -- All ways to read the rest are tried, the most preferred one first.
  (m.tools cut.2).findSome? fun tool =>
    (m.extensions tool.2).findSome? fun (hasExtension, rest) =>
      ((Text.strip? close rest).bind arguments?).map fun arguments =>
        ⟨cut.1, tool.1, hasExtension, arguments⟩

/-- The command at the beginning of a line, read in the most preferred way. -/
def command? (m : Matcher) (line : List Char) : Option Command :=
  let s := Text.trimStart line
  -- One pair of quotes may stand around the directory and the name.
  let quoted :=
    match s with
    | '"' :: rest => (quotedSlashes rest ++ [([], rest)]).findSome? (m.afterDirectory? ['"'])
    | _ => none
  quoted.or ((slashes false s ++ [([], s)]).findSome? (m.afterDirectory? []))

/-- The file name of the tool: its extension is added unless it is part of the name. -/
def fileName (m : Matcher) (c : Command) : List Char :=
  if !m.extension.isEmpty && (c.hasExtension || !Text.endsWith m.dotted c.name) then
    c.name ++ m.dotted
  else c.name

/-- The name of the tool without the extension. -/
def toolName (m : Matcher) (c : Command) : List Char :=
  if m.extension.isEmpty then c.name else (Text.stripEnd? m.dotted c.name).getD c.name

/-- The invocation on a line, if it is one, in the directory `base`. -/
def invocation? (m : Matcher) (isFile : Path → Bool) (line : String) (base : Path) :
    Option Invocation :=
  (m.command? line.toList).bind fun c =>
    let fullPath := Path.resolve (String.ofList (c.directory ++ m.fileName c)) base
    let found := isFile fullPath
    -- A bare name need not be a file here: the search for programs may find it elsewhere.
    if !c.directory.isEmpty && !found && !m.knownPaths.any (·.same fullPath) then none
    else
      some
        { pathInTrace := String.ofList (Path.unquote c.directory)
          toolName := String.ofList (m.toolName c)
          fullPath
          found
          arguments := String.ofList (Text.trim c.arguments) }

end Matcher

end BuildTrace.Tool
