import BuildTrace.Configure.Guard
import BuildTrace.Configure.Report
import BuildTrace.Process.Command
import BuildTrace.Settings.Basic
import BuildTrace.Store.File
import BuildTrace.Tool.Set

/-!
# Sessions

What a run is given, and what it changes. The build tool, the search for executables and the sink
are functions; the moments at which a run gets cancelled are given in advance. So a run is a
function, too.
-/

namespace BuildTrace.Configure

/-- A moment at which a run may be cancelled from outside; moments of a kind are counted from
one. -/
inductive Moment where
  /-- While the observer is told something. -/
  | report (count : Nat)
  /-- While an executable is searched. -/
  | lookup (count : Nat)
  deriving DecidableEq, Repr

/-- What a run is given; `τ` is the state of the build tool and `σ` that of the sink. -/
structure Equipment (τ σ : Type) where
  /-- The settings. -/
  settings : Settings
  /-- The directory of the workspace. -/
  root : Path
  /-- A build log that goes before the one of the settings. -/
  logFile : Option Path := none
  /-- The version of the platform's development kit. -/
  sdkVersion : Option String := none
  /-- Running the build tool; it is told whether the run has been cancelled before. -/
  runTool : Command → Bool → FileTree → τ → Command.Run × FileTree × τ
  /-- The search for executables. -/
  search : String → FileTree → Option Path
  /-- Where the configuration goes. -/
  sink : Store.Sink σ
  /-- The moments at which the run is cancelled. -/
  interrupts : Moment → Bool := fun _ => false

/-- The state that outlives a run. -/
structure Context where
  /-- The selected build target. -/
  buildTarget : Option String := none
  /-- The canonical form of the selected launch target. -/
  launchTarget : Option String := none
  /-- All that is known about the workspace. -/
  snapshot : Snapshot := {}
  /-- The operation that is running. -/
  guards : Guards := {}
  /-- The cache has been looked at. -/
  cacheTried : Bool := false
  /-- The snapshot was taken from the cache. -/
  loadedFromCache : Bool := false
  deriving DecidableEq

/-- A run under way: the lasting state, the surroundings, and what has been noted. -/
structure Session (τ σ : Type) where
  /-- The state that outlives the run. -/
  context : Context
  /-- The files. -/
  files : FileTree
  /-- The state of the build tool. -/
  tool : τ
  /-- The state of the sink. -/
  sink : σ
  /-- The run has been cancelled. -/
  cancelled : Bool := false
  /-- The report so far. -/
  report : Report := {}
  /-- What the observer was told. -/
  progress : List Progress := []
  /-- The number of searches for executables. -/
  lookups : Nat := 0
  /-- The commands that were run. -/
  commands : List Command := []
  /-- The counters. -/
  statistics : Statistics := {}

/-- Why a subphase did not succeed. -/
inductive Problem where
  /-- The run was cancelled. -/
  | cancelled
  /-- The build tool could not be run. -/
  | tool (error : Command.RunError)
  /-- The sink refused the configuration. -/
  | sink (error : Store.FileError)
  /-- The cache could not be read or written. -/
  | cache (error : Store.FileError)
  deriving DecidableEq, Repr

/-- The outcome of a subphase with the problem. -/
def Problem.outcome : Problem → Outcome
  | cancelled => .cancelled
  | tool (.notFound _) => .notFound
  | _ => .failed

/-- An action of a run that may fail: what becomes of the session either way. -/
abbrev Action (τ σ α : Type) := Session τ σ → Except Problem α × Session τ σ

variable {τ σ α : Type}

namespace Equipment

/-- The path as it is meant in the workspace. -/
def inWorkspace (e : Equipment τ σ) (p : Path) : Path := if p.isAbsolute then p else e.root.join p

/-- The file of the cache. -/
def cachePath (e : Equipment τ σ) : Path := e.inWorkspace e.settings.output.cacheFile

/-- The file the trace is copied to. -/
def tracePath (e : Equipment τ σ) : Path := e.inWorkspace e.settings.output.traceFile

/-- The build log to read, if there is one. -/
def logPath? (e : Equipment τ σ) : Option Path :=
  (e.logFile.or e.settings.trace.logFile).map e.inWorkspace

/-- The tools to look for. -/
def tools (e : Equipment τ σ) : ToolSet :=
  let t := e.settings.toolchain
  .extend t.compilers t.linkers t.exclude

/-- Tell the observer. -/
def tell (e : Equipment τ σ) (p : Progress) (s : Session τ σ) : Session τ σ :=
  let progress := s.progress ++ [p]
  { s with progress, cancelled := s.cancelled || e.interrupts (.report progress.length) }

/-- Search an executable. -/
def lookup (e : Equipment τ σ) (name : String) (s : Session τ σ) :
    Option Path × Session τ σ :=
  let lookups := s.lookups + 1
  (e.search name s.files,
    { s with lookups, cancelled := s.cancelled || e.interrupts (.lookup lookups) })

end Equipment

end BuildTrace.Configure
