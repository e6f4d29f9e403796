import BuildTrace.Environment.Basic
import BuildTrace.FileTree

/-!
# Looking up executables

A name without a slash is looked for in the directories of the search path, in order. A name with
a slash is a path of its own. Relative paths are taken from the working directory, and a directory
`~` in front of a directory of the search path is the home directory.
-/

namespace BuildTrace.Environment

/-- Where executables are looked for. -/
structure Search where
  /-- The search path, as it is written. -/
  searchPath : Option String
  /-- The directory from which relative paths are taken. -/
  base : Path
  /-- The home directory. -/
  home : Option Path := none

namespace Search

/-- The path taken from `base`, step by step. -/
def follow (base : Path) (steps : List Component) : Path :=
  steps.foldl (fun path step => path.join ⟨step.text⟩) base

/-- The absolute form of a path. -/
def absolute (s : Search) (p : Path) : Path :=
  if p.isAbsolute then p else follow s.base (p.components.filter (· != .here))

/-- The directory that is meant by a directory of the search path. -/
def directory (s : Search) (p : Path) : Path :=
  match s.home, p.components with
  | some home, .name "~" :: steps => follow home steps
  | _, _ => s.absolute p

/-- The directories of the search path. -/
def directories (s : Search) : List Path :=
  ((s.searchPath.map directoriesOf).getD []).map s.directory

/-- The paths at which an executable is looked for, in order. -/
def candidates (s : Search) (name : String) : List Path :=
  if 1 < (Path.mk name).components.length then [s.absolute ⟨name⟩]
  else s.directories.map fun directory => directory.join ⟨name⟩

/-- The first executable file that is found. -/
def find? (s : Search) (tree : FileTree) (name : String) : Option Path :=
  (s.candidates name).find? tree.isExecutable

end Search

/-- Where executables are looked for in the environment. -/
def search (e : Environment) (home : Option Path) : Search :=
  { searchPath := e.searchPath?.map (·.2), base := e.directory, home }

end BuildTrace.Environment
