import BuildTrace.CommandLine.Arguments
import BuildTrace.Configure.Run
import BuildTrace.Environment.Lookup
import BuildTrace.Process.Execution
import BuildTrace.Settings.Load

/-!
# The application

What a call of the program does: its arguments and the settings give a task, and carrying out the
task gives an exit code, an output, and changed files.
-/

namespace BuildTrace

/-- A task with all it needs. -/
inductive Task where
  /-- Find out how the workspace is built. -/
  | configure (root : Path) (clean : Bool) (logFile : Option Path) (context : Configure.Context)
  /-- List the build targets in the cache. -/
  | listBuildTargets (cache : Path)
  /-- List the launch targets in the cache. -/
  | listLaunchTargets (cache : Path)
  /-- Show the parts of a launch target. -/
  | show (target : LaunchTarget)

namespace Application

/-- Why there is no task. -/
inductive StartError where
  /-- The arguments are refused. -/
  | arguments (refusal : CommandLine.Refusal)
  /-- The settings cannot be loaded. -/
  | settings (error : Settings.LoadError)
  /-- The workspace is no directory. -/
  | workspace (root : Path)
  /-- The launch target is none. -/
  | launchTarget (error : LaunchTarget.ParseError)

/-- The message to the user about a workspace that is no directory. -/
def workspaceMessage (root : Path) : String := "Workspace directory does not exist: " ++ root.text

/-- The message to the user about a launch target that is none. -/
def launchTargetMessage (error : LaunchTarget.ParseError) : String :=
  "Invalid launch target: " ++ error.message

/-- What becomes of a call. -/
structure Outcome where
  /-- The exit code. -/
  exitCode : Nat
  /-- The standard output. -/
  output : String := ""
  /-- The files afterwards. -/
  files : FileTree

/-- The exit code of a run that was cancelled, as for a program that is interrupted. -/
def cancelledCode : Nat := 130

/-- The exit code of a run with the outcome. -/
def exitCodeOf : Configure.Outcome → Nat
  | .success => 0
  | .cancelled => cancelledCode
  | _ => 1

/-- The directory of the workspace. -/
def workspace (e : Environment) (directory : Option Path) : Path :=
  directory.elim e.directory fun d => Path.resolve d.text e.directory

/-- The path as it is meant in the workspace. -/
def inWorkspace (root p : Path) : Path := if p.isAbsolute then p else root.join p

/-- The launch target with the canonical form. -/
def parseTarget (canonical : String) : Except StartError LaunchTarget :=
  (LaunchTarget.parse canonical).mapError .launchTarget

/-- The task that a call asks for. -/
def task (e : Environment) (files : FileTree) (settings : Settings) :
    CommandLine.Mode → Except StartError Task
  | .configure clean logFile buildTarget launchTarget directory => do
    let root := workspace e directory
    if !files.isDirectory root then throw (.workspace root)
    -- A form that cannot be read is refused here, before the build tool runs.
    match launchTarget with
    | some canonical => discard (parseTarget canonical)
    | none => pure ()
    -- The log is looked for from where the program was called, which need not be the workspace.
    let logFile := logFile.map fun p => Path.resolve p.text e.directory
    return .configure root clean logFile { buildTarget, launchTarget }
  | .targets directory =>
    .ok (.listBuildTargets (inWorkspace (workspace e directory) settings.output.cacheFile))
  | .launchTargets directory =>
    .ok (.listLaunchTargets (inWorkspace (workspace e directory) settings.output.cacheFile))
  | .resolveLaunch canonical => (parseTarget canonical).map .show

/-- The output of lines. -/
def linesText (lines : List String) : String := String.join (lines.map (· ++ "\n"))

/-- List what the cache holds. Without a cache there is nothing to list. -/
def list (files : FileTree) (cache : Path) (lines : Snapshot → List String) : Outcome :=
  match Store.Cache.load files cache with
  | .ok (some snapshot) => { exitCode := 0, output := linesText (lines snapshot), files }
  | .ok none => { exitCode := 0, files }
  | .error _ => { exitCode := 1, files }

/-- The parts of a launch target as a document. -/
def partsOf (target : LaunchTarget) : Json :=
  .object
    [("binaryPath", .text target.binary.text), ("workingDirectory", .text target.directory.text),
      ("arguments", .texts target.arguments)]

/-- Run the build tool with the variables it inherits. -/
def runTool (inherited : List (String × String)) (c : Command) (cancelled : Bool)
    (files : FileTree) (_ : Unit) : Command.Run × FileTree × Unit :=
  match Execution.start files inherited c with
  | .error error => ({ lines := [], result := .error error }, files, ())
  | .ok execution =>
    if cancelled then ({ lines := [], result := .ok (execution.exitWhenCancelled 0) }, files, ())
    else (execution.run, execution.files, ())

/-- Find out how the workspace is built. -/
def configure (e : Environment) (inherited : List (String × String)) (settings : Settings)
    (cancelled : Bool) (files : FileTree) (root : Path) (clean : Bool) (logFile : Option Path)
    (context : Configure.Context) : Outcome :=
  let equipment : Configure.Equipment Unit Store.FileSink :=
    { settings, root, logFile
      sdkVersion := e.sdkVersion?
      runTool := runTool inherited
      search := fun name files =>
        (e.search ((inherited.lookup "HOME").map Path.mk)).find? files name
      sink := Store.FileSink.sink }
  let sink := Store.FileSink.opened files (inWorkspace root settings.output.configurationFile)
  let (report, session) := equipment.configure clean { context, files, tool := (), sink, cancelled }
  { exitCode := exitCodeOf report.outcome, files := session.files }

/-- Carry out a task. -/
def perform (e : Environment) (inherited : List (String × String)) (settings : Settings)
    (cancelled : Bool) (files : FileTree) : Task → Outcome
  | .configure root clean logFile context =>
    configure e inherited settings cancelled files root clean logFile context
  | .listBuildTargets cache => list files cache fun snapshot => snapshot.buildTargets
  | .listLaunchTargets cache =>
    list files cache fun snapshot => snapshot.launchTargets.map LaunchTarget.canonical
  | .show target => { exitCode := 0, output := linesText [(partsOf target).pretty], files }

/-- What a call with the words behind the name of the program does. -/
def run (e : Environment) (inherited : List (String × String)) (cancelled : Bool)
    (files : FileTree) (words : List String) : Except StartError Outcome := do
  let arguments ← (CommandLine.Arguments.parse words).mapError .arguments
  let settings ←
    (Settings.load files e (arguments.config.map Path.mk)).mapError .settings
  let task ← task e files settings arguments.mode
  return perform e inherited settings cancelled files task

end Application

end BuildTrace
