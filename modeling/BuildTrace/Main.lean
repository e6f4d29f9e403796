import BuildTrace.Application

/-!
# The command line

The outermost layer: it brings the files and variables of the machine into a tree and an
environment, lets the application do its work on them, and carries the changes back.
-/

namespace BuildTrace.Main

/-- The variables that are looked at. -/
def variableNames : List String :=
  ["PATH", "HOME", Environment.sdkVariable] ++ Environment.makeVariables

/-- The variables of the machine that are looked at. -/
def readVariables : IO (List (String × String)) :=
  variableNames.filterMapM fun name => do
    return (← IO.getEnv name).map (name, ·)

/-- The content of a file, unless it cannot be read. -/
def readContent (path : String) : IO (Option Content) := do
  try
    let bytes ← IO.FS.readBinFile path
    return some (.ofBytes bytes.toList)
  catch _ => return none

/-- Take a file into the tree, with the directories above it. -/
def addFile (path : Path) (content : Content) (executable : Bool) (tree : FileTree) : FileTree :=
  match Store.makeParent tree path with
  | none => tree
  | some tree =>
    match tree.place? path with
    | some place => tree.put place (.file content executable)
    | none => tree

/-- Take what is below a directory into the tree, down to a depth. Files in `bare` directories are
taken without what they hold. -/
def addEntry (bare : Bool) : Nat → FileTree → IO.FS.DirEntry → IO FileTree
  | 0, tree, _ => return tree
  | depth + 1, tree, entry => do
    let path : Path := ⟨entry.path.toString⟩
    try
      if ← entry.path.isDir then
        let entries ← entry.path.readDir
        entries.foldlM (addEntry bare depth) ((tree.makeDirectories path).getD tree)
      else if bare then
        return addFile path (.text "") true tree
      else
        let data ← entry.path.metadata
        let content ← if data.type matches .file then readContent path.text else pure none
        return content.elim tree fun content => addFile path content true tree
    catch _ => return tree

/-- How deep directories are looked into. -/
def depthLimit : Nat := 32

/-- Carry a file of the tree back to the machine, unless it is there already. -/
def writeBack (before : FileTree) : Place × Content → IO Unit
  | (place, content) => do
    let path := FileTree.pathOf place
    if before.read? path != some content then
      if let some parent := path.parent? then IO.FS.createDirAll parent.text
      IO.FS.writeBinFile path.text ⟨content.toBytes.toArray⟩

/-- Remove a file from the machine that is no longer in the tree. -/
def removeGone (after : FileTree) : Place × Content → IO Unit
  | (place, _) => do
    let path := FileTree.pathOf place
    unless after.contains path do
      try IO.FS.removeFile path.text catch _ => pure ()

/-- What is said about a call without a task, and its exit code. -/
def complaint : Application.StartError → String × UInt32
  | .arguments .help | .arguments .version => ("", 0)
  | .arguments _ => ("error: the arguments are not understood", 2)
  | .settings (.access file) =>
    ("Error: Failed to access configuration file '" ++ file.text ++ "'", 1)
  | .settings (.parse file) =>
    ("Error: Failed to parse configuration from file '" ++ file.text ++ "'", 1)
  | .settings (.validation file error) =>
    ("Error: " ++ Settings.LoadError.validationMessage file error, 1)
  | .workspace root => ("Error: " ++ Application.workspaceMessage root, 1)
  | .launchTarget error => ("Error: " ++ Application.launchTargetMessage error, 1)

/-- What may be a path in a word of the command line: all of it, or what stands behind an option. -/
def pathsIn (word : String) : List String :=
  let behind := (Text.splitOnce? '=' word.toList).map fun (_, value) => String.ofList value
  (word :: behind.toList ++ [String.ofList (word.toList.drop 2)]).filter (!·.isEmpty)

/-- The files of the machine that a call may look at: those below the working directory and below
the directories and files that its words name, and the names of the programs on the search path. -/
def readTree (environment : Environment) (words : List String) : IO FileTree := do
  let root ← IO.currentDir
  let start := (⟨environment.directory.text⟩ : Path).components.filterMap fun
    | .name n => some n
    | _ => none
  let tree := (({} : FileTree).makeDirectories environment.directory).getD {}
  let mut tree := { tree with start := some start }
  -- The programs on the search path are known by their names only.
  for directory in environment.searchDirectories do
    let path := root / directory.text
    if ← path.isDir then
      for entry in ← path.readDir do
        tree ← addEntry true 1 tree entry
  -- What the call names is taken with what it holds.
  for word in "." :: words.flatMap pathsIn do
    let path := root / word
    if ← path.isDir then
      tree := (tree.makeDirectories ⟨path.toString⟩).getD tree
      for entry in ← path.readDir do
        tree ← addEntry false depthLimit tree entry
    else if let some content ← readContent path.toString then
      tree := addFile ⟨path.toString⟩ content true tree
  return tree

/-- Carry out a call. -/
def call (words : List String) : IO UInt32 := do
  let bindings ← readVariables
  let environment : Environment := ⟨⟨(← IO.currentDir).toString⟩, bindings⟩
  let tree ← readTree environment words
  match Application.run environment bindings false tree words with
  | .error error =>
    let (message, code) := complaint error
    unless message.isEmpty do IO.eprintln message
    return code
  | .ok outcome =>
    tree.files.forM (removeGone outcome.files)
    outcome.files.files.forM (writeBack tree)
    IO.print outcome.output
    return UInt32.ofNat outcome.exitCode

end BuildTrace.Main

/-- The program: it takes the words of the command line behind its own name. -/
def main (words : List String) : IO UInt32 := BuildTrace.Main.call words
