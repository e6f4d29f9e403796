import BuildTrace.CompileUnit.Basic
import BuildTrace.LaunchTarget.Basic

/-!
# Configurations

A configuration says how every source file is compiled, and in which directories a reader of the
code should look around. It is built up from compile units: the last unit to name a file decides
about it, and directories stay in the order in which they first appeared. A snapshot is all that a
run finds out: the configuration, the build targets and the launch targets.
-/

namespace BuildTrace

/-- How one source file is compiled. -/
structure FileConfiguration where
  /-- The preprocessor definitions, in order. -/
  defines : List String
  /-- The directories searched for included files, in order. -/
  includePaths : List Path
  /-- The files included in front of the source file. -/
  forcedIncludes : List Path
  /-- The language standard. -/
  standard : Option Standard
  /-- The path of the compiler. -/
  compiler : Path
  /-- The family and architecture of the compiler. -/
  mode : Toolchain.Mode
  /-- The version of the platform's development kit. -/
  sdkVersion : Option String
  deriving DecidableEq

/-- The configuration of the source files of a unit. -/
def CompileUnit.configuration (u : CompileUnit) : FileConfiguration where
  defines := u.defines
  includePaths := u.includePaths
  forcedIncludes := u.forcedIncludes
  standard := u.standard
  compiler := u.compiler
  mode := u.mode
  sdkVersion := u.sdkVersion

/-- The files of a configuration, in the order of their paths. -/
abbrev FileIndex := List (Path × FileConfiguration)

namespace FileIndex

/-- Set the configuration of a file. A file that is there keeps the path it was written with. -/
def insert (file : Path) (configuration : FileConfiguration) : FileIndex → FileIndex
  | [] => [(file, configuration)]
  | (f, old) :: rest =>
    match file.compare f with
    | .lt => (file, configuration) :: (f, old) :: rest
    | .eq => (f, configuration) :: rest
    | .gt => (f, old) :: insert file configuration rest

/-- Set the configurations of files, one after the other. -/
def insertAll (index : FileIndex) (files : List (Path × FileConfiguration)) : FileIndex :=
  files.foldl (fun index (file, configuration) => insert file configuration index) index

/-- The pairs that no later pair with the same path follows. -/
def lastOfEach : List (Path × FileConfiguration) → List (Path × FileConfiguration)
  | [] => []
  | pair :: rest =>
    if rest.any (·.1.same pair.1) then lastOfEach rest else pair :: lastOfEach rest

/-- The configuration of a file. -/
def get? (index : FileIndex) (file : Path) : Option FileConfiguration :=
  (index.find? (·.1.same file)).map (·.2)

end FileIndex

/-- Directories in order, no two of them the same. -/
abbrev BrowsePath := List Path

namespace BrowsePath

/-- Add a directory at the end, unless it is there. -/
def insert (browse : BrowsePath) (directory : Path) : BrowsePath :=
  if browse.any (·.same directory) then browse else browse ++ [directory]

/-- Add directories, one after the other. -/
def insertAll (browse : BrowsePath) (directories : List Path) : BrowsePath :=
  directories.foldl insert browse

/-- The browse path with the directories, the first of equal ones. -/
def ofList (directories : List Path) : BrowsePath := insertAll [] directories

end BrowsePath

/-- How the files are compiled, and where to look around. -/
structure Configuration where
  /-- The configurations of the files. -/
  files : FileIndex := []
  /-- The directories to look around in. -/
  browse : BrowsePath := []
  deriving DecidableEq

/-- How a newer configuration is combined with an older one. -/
inductive UpdateMode where
  /-- The older one is forgotten. -/
  | replace
  /-- The newer one is added to the older one. -/
  | merge
  deriving DecidableEq, Repr

namespace Configuration

/-- The configuration of nothing. -/
def empty : Configuration := {}

/-- The directories a unit adds to the browse path, in order: those searched for included files,
those of the files included anyway, and those of the sources. -/
def directoriesOf (u : CompileUnit) : List Path :=
  u.includePaths ++ u.forcedIncludes.filterMap Path.parent? ++ u.sources.filterMap Path.parent?

/-- Take in a compile unit. -/
def apply (c : Configuration) (u : CompileUnit) : Configuration where
  files := c.files.insertAll (u.sources.map (·, u.configuration))
  browse := c.browse.insertAll (directoriesOf u)

/-- The configuration of the units, taken in one after the other. -/
def ofUnits (units : List CompileUnit) : Configuration := units.foldl apply empty

/-- Combine with a newer configuration. -/
def update (c newer : Configuration) (mode : UpdateMode) : Configuration :=
  let base := match mode with | .replace => empty | .merge => c
  { files := base.files.insertAll newer.files, browse := base.browse.insertAll newer.browse }

/-- The configuration with the given files and directories. Of several files with the same path
the last one counts. -/
def ofParts (files : List (Path × FileConfiguration)) (browse : List Path) : Configuration where
  files := FileIndex.insertAll [] files
  browse := .ofList browse

end Configuration

/-! ## Snapshots -/

/-- All that is known about a workspace. -/
structure Snapshot where
  /-- How the files are compiled. -/
  configuration : Configuration := {}
  /-- The names of the build targets, sorted, each once. -/
  buildTargets : List String := []
  /-- The launch targets in order of discovery, each canonical form once. -/
  launchTargets : List LaunchTarget := []
  deriving DecidableEq

namespace Snapshot

/-- The name is one of the build targets. -/
def hasBuildTarget (s : Snapshot) (name : String) : Bool := s.buildTargets.contains name

/-- The text is the canonical form of one of the launch targets. -/
def hasLaunchTarget (s : Snapshot) (canonical : String) : Bool :=
  s.launchTargets.any (·.canonical == canonical)

end Snapshot

end BuildTrace
