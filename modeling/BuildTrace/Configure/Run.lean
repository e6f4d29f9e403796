import BuildTrace.BuildTarget.Extraction
import BuildTrace.Command.Line
import BuildTrace.CompileUnit.Extraction
import BuildTrace.Configure.Session
import BuildTrace.LaunchTarget.Extraction
import BuildTrace.Sort

/-!
# Runs

A run takes the trace of a dry run apart, hands the configuration to the sink, and keeps the
snapshot in the cache. A replacing run forgets what was known before, any other run adds to it.

The snapshot of an earlier run is loaded once in the life of a context. If the selected build
target turns out to be gone, the selection is given up and the run begins again, at most once.
-/

namespace BuildTrace.Configure

variable {τ σ α : Type}

namespace Equipment

/-- Run the build tool in the workspace and take its standard output. -/
def runForText (e : Equipment τ σ) (arguments : List String) : Action τ σ String := fun s =>
  let command : Command := ⟨e.settings.make.program, arguments, e.root⟩
  let (run, files, tool) := e.runTool command s.cancelled s.files s.tool
  let cancelled := s.cancelled || run.cancels
  let s := { s with files, tool, cancelled, commands := s.commands ++ [command] }
  match run.result with
  | .error error => (.error (.tool error), s)
  | .ok exit => (if exit.cancelled || cancelled then .error .cancelled else .ok run.text, s)

/-- The arguments that name the makefile. -/
def makefileArguments (e : Equipment τ σ) : List String :=
  match e.settings.make.makefile with
  | some makefile => ["-f", makefile.text]
  | none => []

/-- The arguments of the dry run. -/
def dryRunArguments (e : Equipment τ σ) (clean : Bool) (target : Option String) : List String :=
  let make := e.settings.make
  make.dryRunSwitches ++ (if clean then [make.forceRebuildSwitch] else []) ++
    e.makefileArguments ++ target.toList ++ make.extraArguments

/-- The arguments of the database dump. -/
def databaseArguments (e : Equipment τ σ) : List String :=
  let make := e.settings.make
  make.databaseSwitches ++ e.makefileArguments ++ make.extraArguments

/-- Keep a copy of the trace. If that is impossible, there is none. -/
def keepTrace (e : Equipment τ σ) (trace : String) (s : Session τ σ) : Session τ σ :=
  let files :=
    match e.tracePath.parent?.elim (some s.files) s.files.makeDirectories with
    | none => s.files
    | some files => (files.write e.tracePath (.text trace)).getD files
  { s with files }

/-! ## Subphases -/

/-- Take the snapshot of an earlier run from the cache and hand its configuration to the sink. -/
def loadFromCache (e : Equipment τ σ) : Action τ σ Unit := fun s =>
  match Store.Cache.load s.files e.cachePath with
  | .error error => (.error (.cache error), s)
  | .ok none => (.ok (), s)
  | .ok (some snapshot) =>
    let (result, sink, files) := e.sink.push snapshot.configuration .replace s.sink s.files
    let s := { s with sink, files }
    match result with
    | .error error => (.error (.sink error), s)
    -- The snapshot is taken over only when the sink has got its configuration.
    | .ok () =>
      (.ok (), { s with context := { s.context with snapshot, loadedFromCache := true } })

/-- Read the trace from the build log, or else from the dry run of the build tool. -/
def obtainTrace (e : Equipment τ σ) (clean : Bool) : Action τ σ String := fun s =>
  match e.logPath?.bind s.files.readText? with
  | some trace => (.ok trace, s)
  -- Without a log that can be read, the build tool is asked.
  | none =>
    match e.runForText (e.dryRunArguments clean s.context.buildTarget) s with
    | (.error problem, s) => (.error problem, s)
    | (.ok trace, s) => (.ok trace, e.keepTrace trace s)

/-- Bring the trace into a form with one command on each line. -/
def preprocess (e : Equipment τ σ) (raw : String) : Action τ σ String := fun s =>
  let (trace, s) :=
    BuildTrace.Command.normalize? Session.cancelled e.settings.trace.chunkSize raw s
  (trace.elim (.error .cancelled) .ok, s)

/-- The extractor of compile units, with the files as they are. -/
def unitExtractor (e : Equipment τ σ) (files : FileTree) :
    CompileUnit.Extractor (Session τ σ) where
  compilers := .ofNames e.tools.compilers true
  isFile := files.isFile
  lookup := e.lookup
  allowGnu := e.settings.toolchain.gnuStandards
  sdkVersion := e.sdkVersion

/-- Count a compile unit. -/
def countUnit (_ : CompileUnit) (s : Session τ σ) : Session τ σ :=
  { s with statistics := { s.statistics with compileUnits := s.statistics.compileUnits + 1 } }

/-- Extract the compile units and hand their configuration to the sink. -/
def parseForConfiguration (e : Equipment τ σ) (trace : String) (mode : UpdateMode) :
    Action τ σ Unit := fun s =>
  let (units, scan, s) :=
    Scan.items (e.unitExtractor s.files).scanner Session.cancelled e.settings.trace.chunkSize
      countUnit (Scan.start trace (.start e.root)) s
  -- The units that came before the cancellation are dropped, too.
  if scan.status = .cancelled then (.error .cancelled, s)
  else
    let found := Configuration.ofUnits units
    let (result, sink, files) := e.sink.push found mode s.sink s.files
    let s := { s with sink, files }
    match result with
    | .error error => (.error (.sink error), s)
    | .ok () =>
      -- The snapshot follows the sink, and stays as it was if the sink failed.
      let configuration := s.context.snapshot.configuration.update found mode
      (.ok (),
        { s with
          context := { s.context with snapshot := { s.context.snapshot with configuration } }
          statistics := { s.statistics with sourceFiles := configuration.files.length } })

/-- Extract the launch targets. A selected one that is not among them is given up. -/
def parseForLaunchTargets (e : Equipment τ σ) (trace : String) (mode : UpdateMode) :
    Action τ σ Unit := fun s =>
  let extractor := LaunchTarget.Extractor.ofTools e.tools s.files.isFile e.root
  match extractor.extract? Session.cancelled e.settings.trace.chunkSize trace s with
  | (none, s) => (.error .cancelled, s)
  | (some found, s) =>
    let launchTargets :=
      match mode with
      | .replace => found
      | .merge => LaunchTarget.dedup (s.context.snapshot.launchTargets ++ found)
    let snapshot := { s.context.snapshot with launchTargets }
    -- A selection stands if the new list has it, wherever the list has it from.
    let launchTarget := s.context.launchTarget.filter snapshot.hasLaunchTarget
    (.ok (),
      { s with
        context := { s.context with snapshot, launchTarget }
        statistics := { s.statistics with launchTargets := launchTargets.length } })

/-- The names in order, each once. -/
def sortNames (names : List String) : List String :=
  (sortBy (fun a b => !decide (b < a)) names).eraseReps

/-- Extract the build targets from the database. A selected one that is not among them is given
up; the result tells whether that happened. -/
def parseForBuildTargets (e : Equipment τ σ) (mode : UpdateMode) : Action τ σ Bool := fun s =>
  match e.runForText e.databaseArguments s with
  | (.error problem, s) => (.error problem, s)
  | (.ok dump, s) =>
    match BuildTarget.extract? Session.cancelled e.settings.trace.chunkSize dump s with
    | (none, s) => (.error .cancelled, s)
    | (some found, s) =>
      let known := match mode with | .replace => [] | .merge => s.context.snapshot.buildTargets
      let buildTargets := sortNames (known ++ found)
      let snapshot := { s.context.snapshot with buildTargets }
      let buildTarget := s.context.buildTarget.filter snapshot.hasBuildTarget
      -- The result tells whether a selection was given up just now.
      (.ok (s.context.buildTarget.isSome && buildTarget.isNone),
        { s with
          context := { s.context with snapshot, buildTarget }
          statistics := { s.statistics with buildTargets := buildTargets.length } })

/-- Write the snapshot to the cache. -/
def persist (e : Equipment τ σ) : Action τ σ Unit := fun s =>
  let (result, files) := Store.Cache.store s.context.snapshot s.files e.cachePath
  (result.mapError .cache, { s with files })

/-! ## Passes -/

/-- The outcome of a result. -/
def outcomeOf : Except Outcome α → Outcome
  | .ok _ => .success
  | .error outcome => outcome

/-- Go through a subphase: announce it, act, and note how it ended. -/
def subphase (e : Equipment τ σ) (which : Subphase) (action : Action τ σ α) (s : Session τ σ) :
    Except Outcome α × Session τ σ :=
  let (result, s) := action (e.tell (.status which) s)
  let result := result.mapError Problem.outcome
  let entries := s.report.entries ++ [⟨which, outcomeOf result⟩]
  (result, e.tell .increment { s with report := { s.report with entries } })

/-- Load the snapshot of an earlier run, unless that has been tried. A failure is noted only. -/
def loadOnce (e : Equipment τ σ) (s : Session τ σ) : Session τ σ :=
  if s.context.cacheTried then s
  else
    -- The attempt counts even if it fails.
    (e.subphase .loadFromCache e.loadFromCache
      { s with context := { s.context with cacheTried := true } }).2

/-- End a pass with the given outcome so far: unless it was cancelled, the snapshot is kept. -/
def conclude (e : Equipment τ σ) (outcome : Outcome) (s : Session τ σ) :
    Outcome × Session τ σ :=
  if s.cancelled then (.cancelled, s)
  else
    let (result, s) := e.subphase .persist e.persist s
    (outcome.andThen (outcomeOf result), s)

/-- Go once through the subphases that find something out. An error is the outcome of a pass that
ends here: the first problem that leaves nothing to do, or a cancellation. Otherwise the outcome so
far is that of the first problem, and the truth value tells whether the selected build target is
gone. -/
def survey (e : Equipment τ σ) (clean : Bool) (s : Session τ σ) :
    Except Outcome (Outcome × Bool) × Session τ σ :=
  let mode : UpdateMode := if clean then .replace else .merge
  -- Each pass counts anew.
  let s := e.loadOnce { s with statistics := {} }
  match e.subphase .obtainTrace (e.obtainTrace clean) s with
  | (.error outcome, s) => (.error outcome, s)
  | (.ok raw, s) =>
    match e.subphase .preprocess (e.preprocess raw) s with
    | (.error outcome, s) => (.error outcome, s)
    | (.ok trace, s) =>
      let linesScanned := (Text.lines trace.toList).length
      let s := { s with statistics := { s.statistics with linesScanned } }
      match e.subphase .parseForConfiguration (e.parseForConfiguration trace mode) s with
      | (.error .cancelled, s) => (.error .cancelled, s)
      -- A problem with the configuration does not keep the targets from being looked for.
      | (configured, s) =>
        match e.subphase .parseForLaunchTargets (e.parseForLaunchTargets trace mode) s with
        | (.error .cancelled, s) => (.error .cancelled, s)
        | (launched, s) =>
          let outcome := (outcomeOf configured).andThen (outcomeOf launched)
          -- The database takes another run of the tool, so it is not asked for what is known.
          if clean || s.context.snapshot.buildTargets.isEmpty then
            match e.subphase .parseForBuildTargets (e.parseForBuildTargets mode) s with
            | (.error .cancelled, s) => (.error .cancelled, s)
            | (.error other, s) => (.ok (outcome.andThen other, false), s)
            | (.ok vanished, s) => (.ok (outcome, vanished), s)
          else (.ok (outcome, false), s)

/-- Find out what there is to know, beginning again if the selected build target is gone and there
are `reruns` left. An error is the outcome of a pass that ended early. -/
def explore (e : Equipment τ σ) (clean : Bool) (reruns : Nat) (s : Session τ σ) :
    Except Outcome Outcome × Session τ σ :=
  match e.survey clean s, reruns with
  | (.error outcome, s), _ => (.error outcome, s)
  | (.ok (_, true), s), reruns + 1 =>
    e.explore clean reruns { s with report := { s.report with reran := true } }
  -- Without reruns left, a pass counts even if the selected target is gone.
  | (.ok (outcome, _), s), _ => (.ok outcome, s)

/-- Go through all subphases: the last one, in which the snapshot is kept, comes after all others,
unless they ended the pass. -/
def pass (e : Equipment τ σ) (clean : Bool) (reruns : Nat) (s : Session τ σ) :
    Outcome × Session τ σ :=
  match e.explore clean reruns s with
  | (.error outcome, s) => (outcome, s)
  | (.ok outcome, s) => e.conclude outcome s

/-- A session over the same state in which nothing has been noted yet. -/
def fresh (s : Session τ σ) : Session τ σ :=
  { s with report := {}, progress := [], lookups := 0, commands := [], statistics := {} }

/-- Find out how the workspace is built, unless an operation is running. -/
def configure (e : Equipment τ σ) (clean : Bool) (s : Session τ σ) : Report × Session τ σ :=
  match s.context.guards.begin? .configure with
  | none => ({ outcome := .blocked }, s)
  | some guards =>
    let (outcome, s) := e.pass clean 1 (fresh { s with context := { s.context with guards } })
    -- Without the build tool, what came from the cache still serves, but may be out of date.
    let outcome :=
      if outcome = .notFound ∧ s.context.loadedFromCache then .outOfDate else outcome
    let report := { s.report with outcome }
    let guards := s.context.guards.release
    (report, { s with report, context := { s.context with guards } })

end Equipment

end BuildTrace.Configure
