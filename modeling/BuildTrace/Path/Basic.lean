import BuildTrace.Text.Basic

/-!
# Paths

A path is the text that was written. What it means are its components: the root, steps up and
names. Empty parts and `.` mean nothing, save for a `.` at the very beginning. Two paths are the
same when their components are; the written text stays what it was.
-/

namespace BuildTrace

/-- One step of a path. -/
inductive Component where
  /-- The leading slash. -/
  | root
  /-- A leading `.`. -/
  | here
  /-- The step `..`. -/
  | up
  /-- The name of an entry. -/
  | name (name : String)
  deriving DecidableEq, Repr

namespace Component

/-- The step as it is written, the root apart. -/
def text : Component → String
  | root => "/"
  | here => "."
  | up => ".."
  | name n => n

/-- The step goes to a named entry. -/
def isName : Component → Bool
  | name _ => true
  | _ => false

/-- The rank of the kinds of steps. -/
def rank : Component → Nat
  | root => 0
  | here => 1
  | up => 2
  | name _ => 3

/-- Steps are ordered by kind, names by their characters. -/
def compare : Component → Component → Ordering
  | name a, name b => Ord.compare a b
  | a, b => Ord.compare a.rank b.rank

end Component

/-- A path as it was written. -/
structure Path where
  /-- The written text. -/
  text : String
  deriving DecidableEq, Repr, Inhabited

namespace Path

/-- The characters of the written text. -/
def chars (p : Path) : List Char := p.text.toList

/-- The component of one part between slashes; `.` and the empty part have none. -/
def partComponent? (part : List Char) : Option Component :=
  if part = [] ∨ part = ['.'] then none
  else if part = ['.', '.'] then some .up
  else some (.name (String.ofList part))

/-- The components of a path that begins with no slash and no leading `.`. -/
def partsComponents (parts : List (List Char)) : List Component :=
  parts.filterMap partComponent?

/-- The path begins at the root. -/
def isAbsolute (p : Path) : Bool := p.chars.head? == some '/'

/-- The components of the path, in order. -/
def components (p : Path) : List Component :=
  match p.chars with
  | '/' :: rest => .root :: partsComponents (Text.splitOn '/' rest)
  | s =>
    match Text.splitOn '/' s with
    -- A leading dot counts, since the path begins where one is.
    | ['.'] :: parts => .here :: partsComponents parts
    | parts => partsComponents parts

/-- The paths lead the same way. -/
def same (p q : Path) : Bool := p.components == q.components

/-- The lexicographic order of lists of components. -/
def compareComponents : List Component → List Component → Ordering
  | [], [] => .eq
  | [], _ :: _ => .lt
  | _ :: _, [] => .gt
  | a :: as, b :: bs =>
    match a.compare b with
    | .eq => compareComponents as bs
    | order => order

/-- The order of paths by their components. -/
def compare (p q : Path) : Ordering := compareComponents p.components q.components

/-- The path `child` taken from `base`: an absolute path stands for itself. -/
def join (base child : Path) : Path :=
  if child.isAbsolute then child
  else if base.chars.isEmpty || base.chars.getLast? == some '/' then ⟨base.text ++ child.text⟩
  else ⟨base.text ++ "/" ++ child.text⟩

/-- The plainest path with the given components. -/
def ofComponents : List Component → Path
  | .root :: rest => ⟨"/" ++ "/".intercalate (rest.map Component.text)⟩
  | components => ⟨"/".intercalate (components.map Component.text)⟩

/-! ## Parent and name -/

/-- The parts without the meaningless ones at the end. The first part of a relative path counts,
even when it is `.`. -/
def trimParts (relative : Bool) : List (List Char) → List (List Char)
  | [] => []
  | part :: rest =>
    match trimParts false rest with
    | [] => if part = [] ∨ (part = ['.'] ∧ relative = false) then [] else [part]
    | kept => part :: kept

/-- The path without its last component; the root and the empty path have no parent. -/
def parent? (p : Path) : Option Path :=
  let (lead, relative, body) :=
    match p.chars with
    | '/' :: rest => (['/'], false, rest)
    | s => ([], true, s)
  match trimParts relative (Text.splitOn '/' body) with
  | [] => none
  | parts =>
    -- What was meaningless in front of the last part is at the end now.
    let above := trimParts relative parts.dropLast
    some ⟨String.ofList (lead ++ Text.joinWith ['/'] above)⟩

/-- The name of the entry the path leads to, if its last component is a name. -/
def fileName? (p : Path) : Option String :=
  match p.components.getLast? with
  | some (.name n) => some n
  | _ => none

/-- The name before its last dot, and what follows that dot. A dot at the front of the name and
the name `..` do not count. -/
def splitName (name : String) : String × Option String :=
  if name = ".." then (name, none)
  else
    match Text.splitLast? '.' name.toList with
    | some (stem, extension) =>
      if stem.isEmpty then (name, none)
      else (String.ofList stem, some (String.ofList extension))
    | none => (name, none)

/-- The file name without its extension. -/
def fileStem? (p : Path) : Option String := p.fileName?.map fun name => (splitName name).1

/-- The part of the file name behind its last dot. -/
def extension? (p : Path) : Option String := p.fileName?.bind fun name => (splitName name).2

/-- The path with another file name in place of its own, or with `name` below it if it has none. -/
def withFileName (p : Path) (name : String) : Path :=
  let base := if p.fileName?.isSome then p.parent?.getD p else p
  base.join ⟨name⟩

/-!
## Limits

Only some paths can be those of entries of a file system: a path and each of its names are bounded,
and a zero character cannot be told from the end of the path.
-/

/-- The greatest number of bytes in a name. -/
def nameLimit : Nat := 255

/-- The least number of bytes that are too many for a path. -/
def sizeLimit : Nat := 4096

/-- The path, or one of its names, has too many bytes. -/
def isTooLong (p : Path) : Bool :=
  sizeLimit ≤ p.text.utf8ByteSize ||
    p.components.any fun step => nameLimit < step.text.utf8ByteSize

/-- The path has a character that no path can have. -/
def hasZero (p : Path) : Bool := p.chars.contains '\x00'

/-- An entry may have the path. -/
def isUsable (p : Path) : Bool := !p.isTooLong && !p.hasZero

end Path

end BuildTrace
