import BuildTrace.FileTree
import BuildTrace.Json.Basic
import BuildTrace.Json.Parser
import BuildTrace.Store.Document

/-!
# Documents in files

A document is written to a temporary file beside its own, which then takes its place: whoever
reads the file never finds half a document.
-/

namespace BuildTrace.Store

/-! ## Files -/

/-- What is wrong with the file of a document. -/
inductive FileError where
  /-- The file cannot be read or written. -/
  | io
  /-- The file does not hold the document it should. -/
  | format
  deriving DecidableEq, Repr

/-- The temporary file of a document. -/
def temporaryPath (p : Path) : Path := p.withFileName (p.fileName?.getD "" ++ ".tmp")

/-- The value of a document that a file holds. -/
def value? : Content → Option Json
  | .text document => Json.parse? document
  | .bytes document => Json.parseBytes? document

/-- The document in the file, as `read?` understands it. -/
def read {α : Type} (read? : Json → Option α) (tree : FileTree) (p : Path) : Except FileError α :=
  match tree.node? p with
  | none => .error .io
  | some .directory => .error .format
  | some (.file content _) =>
    match (value? content).bind read? with
    | none => .error .format
    | some value => .ok value

/-- The tree with all directories above the path. -/
def makeParent (tree : FileTree) (p : Path) : Option FileTree :=
  match p.parent? with
  | some parent => if parent.text.isEmpty then some tree else tree.makeDirectories parent
  | none => some tree

/-- Write the document. What was done before a failure stays done. -/
def write (document : Json) (tree : FileTree) (p : Path) : Except FileError Unit × FileTree :=
  match makeParent tree p with
  | none => (.error .io, tree)
  | some tree =>
    -- The document is written to another file first, so the file is whole at any time.
    match tree.write (temporaryPath p) (.text document.pretty) with
    | none => (.error .io, tree)
    | some tree =>
      match tree.rename (temporaryPath p) p with
      | none => (.error .io, tree)
      | some tree => (.ok (), tree)

/-!
## The cache

The snapshot of the last run is kept in a file, so that a later run knows it at once.
-/

namespace Cache

/-- The snapshot in the file, or `none` if there is no file. -/
def load (tree : FileTree) (p : Path) : Except FileError (Option Snapshot) :=
  if tree.contains p then (Store.read Snapshot.ofJson? tree p).map some else .ok none

/-- Write the snapshot to the file. -/
def store (snapshot : Snapshot) (tree : FileTree) (p : Path) : Except FileError Unit × FileTree :=
  Store.write snapshot.toJson tree p

end Cache

/-!
## Sinks

A sink is where the configuration goes that a run finds. A sink in a file keeps the result of all
pushes since the last replacing one, and writes it after each push.
-/

/-- A sink with state `σ`: what becomes of the state and of the files when a configuration is
pushed. -/
structure Sink (σ : Type) where
  /-- Push a configuration. -/
  push : Configuration → UpdateMode → σ → FileTree → Except FileError Unit × σ × FileTree

/-- A sink that writes to a file. -/
structure FileSink where
  /-- The path of the file. -/
  path : Path
  /-- The result of the pushes. -/
  state : Configuration
  deriving DecidableEq

namespace FileSink

/-- The sink over a file. It begins with the configuration in the file; a file that cannot be read
counts as empty. -/
def opened (tree : FileTree) (path : Path) : FileSink where
  path
  state :=
    if tree.contains path then
      match Store.read Configuration.ofJson? tree path with
      | .ok c => c
      | .error _ => .empty
    else .empty

/-- Take in a configuration and write the file. The new state stays even if writing fails. -/
def push (c : Configuration) (mode : UpdateMode) (s : FileSink) (tree : FileTree) :
    Except FileError Unit × FileSink × FileTree :=
  let s := { s with state := s.state.update c mode }
  let (result, tree) := Store.write s.state.toJson tree s.path
  (result, s, tree)

/-- The sink over a file as a sink. -/
def sink : Sink FileSink := ⟨push⟩

end FileSink

end BuildTrace.Store
