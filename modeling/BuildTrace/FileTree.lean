import BuildTrace.Path.Basic
import BuildTrace.Text.Utf8

/-!
# File trees

The files and directories a run can see, as a value. An entry is known by its place: the names on
the way to it from the root. The root is always there and is a directory.

A path is followed name by name: `..` leads to the place above a directory that exists. A path that
no entry may have leads nowhere. Changes either give the new tree or fail and leave everything as
it was.
-/

namespace BuildTrace

/-- What a file holds: a text, or bytes that are no text. -/
inductive Content where
  /-- A text. -/
  | text (value : String)
  /-- Bytes that are not UTF-8. -/
  | bytes (value : List UInt8)
  deriving DecidableEq

namespace Content

/-- The content with the given bytes. -/
def ofBytes (bytes : List UInt8) : Content :=
  match Text.Utf8.decode? bytes with
  | some s => text (String.ofList s)
  | none => .bytes bytes

/-- The bytes of the content. -/
def toBytes : Content → List UInt8
  | text s => Text.Utf8.encode s
  | bytes b => b

/-- The text, if the content is one. -/
def text? : Content → Option String
  | text s => some s
  | bytes _ => none

/-- The content as a text, with U+FFFD for what is none. -/
def lossyText : Content → String
  | text s => s
  | bytes b => String.ofList (Text.Utf8.decodeLossy b)

end Content

/-- The place of an entry: the names from the root. -/
abbrev Place := List String

/-- An entry of a tree. -/
inductive FileTree.Node where
  /-- A directory. -/
  | directory
  /-- A file, and whether it may be executed. -/
  | file (content : Content) (executable : Bool)
  deriving DecidableEq

/-- The files and directories, each at its place. -/
structure FileTree where
  /-- The entries below the root. -/
  entries : List (Place × FileTree.Node) := []
  /-- The place from which relative paths are followed, if there is one. -/
  start : Option Place := none

namespace FileTree

/-- The entry at the place. -/
def at? (tree : FileTree) (place : Place) : Option Node :=
  if place.isEmpty then some .directory
  else (tree.entries.find? (·.1 == place)).map (·.2)

/-- The place holds a directory. -/
def hasDirectory (tree : FileTree) (place : Place) : Bool := tree.at? place == some .directory

/-- The tree with the entry at the place. -/
def put (tree : FileTree) (place : Place) (node : Node) : FileTree :=
  { tree with entries := (place, node) :: tree.entries.filter (·.1 != place) }

/-- The tree without the place and everything below it. -/
def drop (tree : FileTree) (place : Place) : FileTree :=
  { tree with entries := tree.entries.filter fun entry => !place.isPrefixOf entry.1 }

/-- The written path asks for a directory: it ends in a slash or in `.`. -/
def asksDirectory (p : Path) : Bool :=
  match (Text.splitOn '/' p.chars).getLast? with
  | some last => last = [] || last = ['.'] || last = ['.', '.']
  | none => false

/-- The place the components lead to from `place`. -/
def follow (tree : FileTree) (place : Place) : List Component → Option Place
  | [] => some place
  | .root :: rest => follow tree [] rest
  | .here :: rest => follow tree place rest
  | .up :: rest => if tree.hasDirectory place then follow tree place.dropLast rest else none
  | .name n :: rest => if tree.hasDirectory place then follow tree (place ++ [n]) rest else none

/-- The place at which a path begins, if an entry may have the path. -/
def origin? (tree : FileTree) (p : Path) : Option Place :=
  if !p.isUsable then none else if p.isAbsolute then some [] else tree.start

/-- The place a path leads to; its last name need not exist. -/
def place? (tree : FileTree) (p : Path) : Option Place :=
  (tree.origin? p).bind fun origin => tree.follow origin p.components

/-- The entry the path leads to. -/
def node? (tree : FileTree) (p : Path) : Option Node :=
  match (tree.place? p).bind tree.at? with
  | some (.file content executable) =>
    if asksDirectory p then none else some (.file content executable)
  | other => other

/-- The path leads to something. -/
def contains (tree : FileTree) (p : Path) : Bool := (tree.node? p).isSome

/-- The path leads to a file. -/
def isFile (tree : FileTree) (p : Path) : Bool :=
  match tree.node? p with
  | some (.file _ _) => true
  | _ => false

/-- The path leads to a directory. -/
def isDirectory (tree : FileTree) (p : Path) : Bool := tree.node? p == some .directory

/-- The path leads to a file that may be executed. -/
def isExecutable (tree : FileTree) (p : Path) : Bool :=
  match tree.node? p with
  | some (.file _ executable) => executable
  | _ => false

/-- The content of the file at the path. -/
def read? (tree : FileTree) (p : Path) : Option Content :=
  match tree.node? p with
  | some (.file content _) => some content
  | _ => none

/-- The text of the file at the path, if there is one. -/
def readText? (tree : FileTree) (p : Path) : Option String := (tree.read? p).bind Content.text?

/-- Make the directories on the way from `place`, where they are missing. -/
def makeAlong (tree : FileTree) (place : Place) : List Component → Option FileTree
  | [] => some tree
  | .root :: rest => makeAlong tree [] rest
  | .here :: rest => makeAlong tree place rest
  | .up :: rest => makeAlong tree place.dropLast rest
  | .name n :: rest =>
    let next := place ++ [n]
    match tree.at? next with
    | some .directory => makeAlong tree next rest
    | some (.file _ _) => none
    | none => makeAlong (tree.put next .directory) next rest

/-- Make the directory and all directories above it. Fails where a file is in the way. -/
def makeDirectories (tree : FileTree) (p : Path) : Option FileTree :=
  (tree.origin? p).bind fun origin => tree.makeAlong origin p.components

/-- Write the file. Fails where its directory is missing or the path leads to a directory. An
existing file may be executed as before. -/
def write (tree : FileTree) (p : Path) (content : Content) : Option FileTree :=
  match tree.place? p with
  | none => none
  | some place =>
    if asksDirectory p || place.isEmpty then none
    else
      match tree.at? place with
      | some .directory => none
      | some (.file _ executable) => some (tree.put place (.file content executable))
      | none => some (tree.put place (.file content false))

/-- Give the file at `source` the path `target`, in place of a file that may be there. -/
def rename (tree : FileTree) (source target : Path) : Option FileTree :=
  match tree.place? source, tree.place? target with
  | some origin, some place =>
    match tree.at? origin, tree.at? place with
    -- A file that is there gives way, but a directory does not.
    | some (.file content executable), old =>
      if asksDirectory target || place.isEmpty || old == some .directory then none
      else some ((tree.drop origin).put place (.file content executable))
    | _, _ => none
  | _, _ => none

/-- Remove the entry at the path and everything below it. -/
def remove (tree : FileTree) (p : Path) : FileTree :=
  match tree.place? p with
  | some [] | none => tree
  | some place => tree.drop place

/-- The files of the tree with their places. -/
def files (tree : FileTree) : List (Place × Content) :=
  tree.entries.filterMap fun (place, node) =>
    match node with
    | .file content _ => some (place, content)
    | .directory => none

/-- The path of a place. -/
def pathOf (place : Place) : Path := ⟨"/" ++ "/".intercalate place⟩

end FileTree

end BuildTrace
