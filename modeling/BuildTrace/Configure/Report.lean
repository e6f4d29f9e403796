/-!
# Reports

A run goes through subphases. Each of them is announced and reported, and the run has an outcome
of its own, and counters.
-/

namespace BuildTrace

/-- How much a run has found. -/
structure Statistics where
  /-- The lines of the trace with one command on each line. -/
  linesScanned : Nat := 0
  /-- The compile units. -/
  compileUnits : Nat := 0
  /-- The files with a configuration. -/
  sourceFiles : Nat := 0
  /-- The launch targets. -/
  launchTargets : Nat := 0
  /-- The build targets. -/
  buildTargets : Nat := 0
  deriving DecidableEq, Repr

namespace Statistics

/-- The counters as shown to the user. -/
def text (s : Statistics) : String :=
  "\n".intercalate
    ["Configure pipeline:",
      "  lines scanned: " ++ toString s.linesScanned,
      "  compile units: " ++ toString s.compileUnits,
      "  configured files: " ++ toString s.sourceFiles,
      "  launch targets: " ++ toString s.launchTargets,
      "  build targets: " ++ toString s.buildTargets]

end Statistics

end BuildTrace

namespace BuildTrace.Configure

/-- How a run or a subphase ended. -/
inductive Outcome where
  /-- All went well. -/
  | success
  /-- Another operation is running. -/
  | blocked
  /-- It was cancelled. -/
  | cancelled
  /-- The build tool is not there. -/
  | notFound
  /-- The build tool is not there, but the state of an earlier run is known. -/
  | outOfDate
  /-- Something else went wrong. -/
  | failed
  deriving DecidableEq, Repr

/-- The outcome as shown to the user. -/
def Outcome.text : Outcome → String
  | success => "success"
  | blocked => "blocked"
  | cancelled => "cancelled"
  | notFound => "not found"
  | outOfDate => "out of date"
  | failed => "failed"

/-- The first problem is the one that counts. -/
def Outcome.andThen (current next : Outcome) : Outcome :=
  if current = success then next else current

/-- A part of a run. -/
inductive Subphase where
  /-- The snapshot of an earlier run is taken from the cache. -/
  | loadFromCache
  /-- The trace is read or asked from the build tool. -/
  | obtainTrace
  /-- The trace is brought into a form with one command on each line. -/
  | preprocess
  /-- The compile units are extracted. -/
  | parseForConfiguration
  /-- The launch targets are extracted. -/
  | parseForLaunchTargets
  /-- The build targets are extracted from the database. -/
  | parseForBuildTargets
  /-- The snapshot is written to the cache. -/
  | persist
  deriving DecidableEq, Repr

/-- The subphase as announced to the user. -/
def Subphase.text : Subphase → String
  | loadFromCache => "Loading from cache"
  | obtainTrace => "Obtaining the dry-run trace"
  | preprocess => "Preprocessing the trace"
  | parseForConfiguration => "Parsing for configuration"
  | parseForLaunchTargets => "Parsing for launch targets"
  | parseForBuildTargets => "Parsing for build targets"
  | persist => "Persisting the state"

/-- What an observer of a run is told. -/
inductive Progress where
  /-- A subphase begins. -/
  | status (subphase : Subphase)
  /-- A subphase has ended. -/
  | increment
  deriving DecidableEq, Repr

/-- How a subphase ended. -/
structure Entry where
  /-- The subphase. -/
  subphase : Subphase
  /-- How it ended. -/
  outcome : Outcome
  deriving DecidableEq, Repr

/-- The report on a run. -/
structure Report where
  /-- How the run ended. -/
  outcome : Outcome := .success
  /-- The subphases in order. -/
  entries : List Entry := []
  /-- The run began again because the selected build target was gone. -/
  reran : Bool := false
  deriving DecidableEq, Repr

/-- How often the subphase was gone through. -/
def Report.count (r : Report) (subphase : Subphase) : Nat :=
  (r.entries.filter (·.subphase == subphase)).length

end BuildTrace.Configure
