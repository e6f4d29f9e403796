import BuildTrace.CommandLine.Grammar
import BuildTrace.Path.Basic

/-!
# Arguments

The arguments of the program: a mode of operation with its options, and the options that go before
the mode.
-/

namespace BuildTrace.CommandLine

/-- What the program is asked to do. -/
inductive Mode where
  /-- Find out how the workspace is built. -/
  | configure (clean : Bool) (logFile : Option Path) (buildTarget launchTarget : Option String)
    (directory : Option Path)
  /-- List the build targets. -/
  | targets (directory : Option Path)
  /-- List the launch targets. -/
  | launchTargets (directory : Option Path)
  /-- Show the parts of a launch target. -/
  | resolveLaunch (canonical : String)
  deriving DecidableEq, Repr

/-- The arguments of the program. -/
structure Arguments where
  /-- The file with the settings. -/
  config : Option String
  /-- How much the program says, up to 255. -/
  verbose : Nat
  /-- What to do. -/
  mode : Mode
  deriving DecidableEq, Repr

/-- The option that asks for help. -/
def helpOption : Opt := { name := "help", short := some 'h', effect := .refuse .help }

/-- The option with the directory of the workspace. -/
def directoryOption : Opt := { name := "directory", short := some 'C', effect := .path }

/-- The program itself. -/
def program : Grammar where
  options :=
    [{ name := "verbose", short := some 'v', effect := .count },
      { name := "config", short := some 'c', effect := .text }, helpOption,
      { name := "version", short := some 'V', effect := .refuse .version }]
  subcommands := ["configure", "targets", "launch-targets", "resolve-launch", "help"]

/-- The subcommand that finds out how the workspace is built. -/
def configureCommand : Grammar where
  options :=
    [{ name := "clean", effect := .flag }, { name := "log", effect := .path },
      { name := "target", effect := .text }, { name := "launch-target", effect := .text },
      directoryOption, helpOption]

/-- The subcommands that list targets. -/
def listCommand : Grammar where
  options := [directoryOption, helpOption]

/-- The subcommand that shows the parts of a launch target. -/
def resolveCommand : Grammar where
  options := [helpOption]
  operand := some "CANONICAL"

/-- Read all words of a subcommand. -/
def readSubcommand (g : Grammar) (words : List String) : Except Refusal Reading := do
  let (r, _) ← g.read {} words
  let r ← r.settle
  if g.operand.isSome && !r.hasOperand then .error .missingOperand else .ok r

/-- The value of an option as a path. -/
def Reading.path? (r : Reading) (name : String) : Option Path := (r.value? name).map Path.mk

/-- The mode of a subcommand. -/
def modeOf (name : String) (words : List String) : Except Refusal Mode :=
  if name = "configure" then
    (readSubcommand configureCommand words).map fun r =>
      .configure (r.count "clean" != 0) (r.path? "log") (r.value? "target")
        (r.value? "launch-target") (r.path? "directory")
  else if name = "targets" then
    (readSubcommand listCommand words).map fun r => .targets (r.path? "directory")
  else if name = "launch-targets" then
    (readSubcommand listCommand words).map fun r => .launchTargets (r.path? "directory")
  else if name = "resolve-launch" then
    (readSubcommand resolveCommand words).map fun r =>
      .resolveLaunch ((r.value? "CANONICAL").getD "")
  else
    -- Only the subcommand that asks for help is left.
    match words with
    | [] => .error .help
    | [subcommand] =>
      if program.subcommands.contains subcommand then .error .help else .error .invalidSubcommand
    | _ => .error .invalidSubcommand

namespace Arguments

/-- The arguments of a command line, the name of the program apart. -/
def parse (words : List String) : Except Refusal Arguments := do
  match ← program.read {} words with
  | (r, some (name, rest)) =>
    let mode ← modeOf name rest
    let r ← r.settle
    .ok { config := r.value? "config", verbose := min (r.count "verbose") 255, mode }
  | (r, none) =>
    let r ← r.settle
    if r.given.isEmpty then .error .nothingGiven else .error .missingSubcommand

/-- A line for an argument that may be missing. -/
def optionalLine (label : String) : Option String → List String
  | some value => [label ++ value]
  | none => []

/-- The lines about the mode. -/
def modeLines : Mode → List String
  | .configure clean logFile buildTarget launchTarget directory =>
    ["  mode: configure", "  clean: " ++ (if clean then "true" else "false")] ++
    optionalLine "  log file: " (logFile.map Path.text) ++
    optionalLine "  build target: " buildTarget ++
    optionalLine "  launch target: " launchTarget ++
    optionalLine "  directory: " (directory.map Path.text)
  | .targets _ => ["  mode: targets"]
  | .launchTargets _ => ["  mode: launch-targets"]
  | .resolveLaunch canonical => ["  mode: resolve-launch", "  target: " ++ canonical]

/-- The arguments as shown to the user. -/
def text (a : Arguments) : String :=
  String.join
    ((["Arguments:"] ++ optionalLine "  config: " a.config ++ modeLines a.mode).map (· ++ "\n"))

end Arguments

end BuildTrace.CommandLine
