import BuildTrace.Shell.Bytes
import BuildTrace.Shell.Token

/-!
# Scripts that are being read

A script is read character by character. The value of an alias is read in the place of its name,
before what stands behind the name. A backslash at the end of a line joins it to the next one.
-/

namespace BuildTrace.Shell

/-- A text that is being read. -/
structure Layer where
  /-- The characters that are left. -/
  chars : List Char
  /-- The alias whose value it is, if it is one. -/
  aliasName : Option String := none
  /-- The value of the alias ends in a blank: the word behind it may be an alias, too. -/
  joins : Bool := false

/-- A document that is still to be read. -/
structure PendingDocument where
  /-- The number of the document. -/
  number : Nat
  /-- The line behind its last one. -/
  mark : List Char
  /-- Expansions have their meaning in it. -/
  expands : Bool
  /-- Tabs in front of its lines do not count. -/
  stripsTabs : Bool

/-- A script that is read in part. -/
structure Source where
  /-- What is left: the values of aliases, the innermost first, and the script behind them. -/
  layers : List Layer
  /-- The number of the line. -/
  line : Nat := 1
  /-- The aliases with their values. -/
  aliases : List (String × String) := []
  /-- The value of an alias has ended in a blank just before. -/
  joinsAlias : Bool := false
  /-- The documents that begin behind the line. -/
  pending : List PendingDocument := []
  /-- The documents that have been read, with their numbers. -/
  documents : List (Nat × Word) := []
  /-- The number of the next document. -/
  nextDocument : Nat := 0
  /-- A token that is to be read again. -/
  held : Option Token := none

/-- A script that cannot be read, and the line where that turns out. -/
structure Mistake where
  /-- The line. -/
  line : Nat
  /-- Why the script cannot be read. -/
  error : SyntaxError

/-- A step of reading. -/
abbrev Reader (α : Type) := Source → Except Mistake (α × Source)

namespace Reader

instance : Monad Reader where
  pure a := fun s => .ok (a, s)
  bind step next := fun s =>
    match step s with
    | .ok (a, s) => next a s
    | .error e => .error e

/-- Give what is known of the script. -/
def get : Reader Source := fun s => .ok (s, s)

/-- Go on with another state. -/
def set (s : Source) : Reader Unit := fun _ => .ok ((), s)

/-- Change what is known of the script. -/
def modify (f : Source → Source) : Reader Unit := fun s => .ok ((), f s)

/-- The script is mistaken here. -/
def fail {α : Type} (error : SyntaxError) : Reader α := fun s => .error ⟨s.line, error⟩

end Reader

namespace Source

/-- The script with the text. -/
def ofText (text : List Char) : Source := { layers := [⟨text, none, false⟩] }

/-- The number of characters that are left. -/
def size (s : Source) : Nat := s.layers.foldl (fun n l => n + l.chars.length) 0

/-- The next character, and what is left then. -/
def next? (s : Source) : Option (Char × Source) :=
  go s.joinsAlias s.layers
where
  /-- Drop texts that have ended, and note whether one of them was a value that ends in a blank. -/
  go (joinsAlias : Bool) : List Layer → Option (Char × Source)
    | [] => none
    | layer :: layers =>
      match layer.chars with
      | c :: chars =>
        some (c, { s with
          layers := { layer with chars } :: layers
          line := if c = '\n' then s.line + 1 else s.line
          joinsAlias })
      | [] => go (joinsAlias || layer.joins) layers

/-- Skip line ends behind backslashes. -/
def join : Nat → Source → Source
  | 0, s => s
  | fuel + 1, s =>
    match s.next? with
    | some ('\\', t) =>
      match t.next? with
      | some ('\n', t) => join fuel t
      | _ => s
    | _ => s

/-- The script behind line ends that are joined. -/
def joined (s : Source) : Source :=
  if s.layers.all fun l => l.chars.head? != some '\\' then s else s.join (s.size + 1)

/-- The characters at the front that satisfy `p`, without those of the texts behind, and what is
left then. -/
def takeWhile (p : Char → Bool) (s : Source) : List Char × Source :=
  match s.layers with
  | layer :: layers =>
    let taken := layer.chars.takeWhile p
    (taken, { s with layers := { layer with chars := layer.chars.drop taken.length } :: layers })
  | [] => ([], s)

/-- Read the value of an alias first. -/
def push (s : Source) (name value : String) : Source :=
  let joins := value.toList.getLast?.any isBlank
  { s with layers := ⟨value.toList, some name, joins⟩ :: s.layers }

/-- The value of the alias with the name, unless it is being read. -/
def alias? (s : Source) (name : String) : Option String :=
  if s.layers.any (·.aliasName == some name) then none else s.aliases.lookup name

end Source

namespace Reader

/-- The next character. -/
def raw : Reader (Option Char) := fun s =>
  match s.next? with
  | some (c, s) => .ok (some c, s)
  | none => .ok (none, { s with layers := [] })

/-- The next character, over line ends that are joined. -/
def next : Reader (Option Char) := fun s => raw s.joined

/-- The next character, which is left in its place. -/
def peek : Reader (Option Char) := fun s =>
  let s := s.joined
  .ok (s.next?.map Prod.fst, s)

/-- Skip the next character if it is the given one. -/
def skip (c : Char) : Reader Bool := fun s =>
  let s := s.joined
  match s.next? with
  | some (d, t) => if d = c then .ok (true, t) else .ok (false, s)
  | none => .ok (false, s)

/-- The characters at the front that satisfy `p`. They include no backslash and no line end. -/
def takeWhile (p : Char → Bool) : Reader (List Char) := fun s =>
  .ok (s.takeWhile p)

end Reader

end BuildTrace.Shell
