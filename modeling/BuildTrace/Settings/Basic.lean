import BuildTrace.Path.Basic
import BuildTrace.Text.Quoted

/-!
# Settings

The settings of the program: how make is run, where the trace comes from, which tools are looked
for, and where the results go. Everything has a default.
-/

namespace BuildTrace

namespace Settings

/-- The version of the settings that is understood. -/
def supportedSchema : String := "1.0"

/-- How make is run for the trace and for the database. -/
structure Make where
  /-- The program. -/
  program : Path := ⟨"make"⟩
  /-- The makefile, if it has to be named. -/
  makefile : Option Path := none
  /-- The switches that make it print commands without running them. -/
  dryRunSwitches : List String := ["--dry-run", "--keep-going", "--print-directory"]
  /-- The switches that make it print its database. -/
  databaseSwitches : List String :=
    ["--print-data-base", "--no-builtin-variables", "--no-builtin-rules", "--question"]
  /-- The switch that makes it take everything for out of date. -/
  forceRebuildSwitch : String := "--always-make"
  /-- Arguments for both. -/
  extraArguments : List String := []
  deriving DecidableEq

/-- Where the trace comes from and how it is read. -/
structure Trace where
  /-- The build log to read instead of running make. -/
  logFile : Option Path := none
  /-- The number of lines read between two looks at the cancellation. -/
  chunkSize : Nat := 100
  /-- The seconds without output after which make is reported as stalled. -/
  stallTimeout : Nat := 30
  deriving DecidableEq

/-- The tools to look for. -/
structure Toolchain where
  /-- Compilers besides the known ones. -/
  compilers : List String := []
  /-- Linkers besides the known ones. -/
  linkers : List String := []
  /-- Tools not to look for. -/
  exclude : List String := []
  /-- The reader of the results knows the GNU dialects. -/
  gnuStandards : Bool := true
  deriving DecidableEq

/-- Where the results go; relative paths are taken from the workspace. -/
structure Output where
  /-- The file of the cache. -/
  cacheFile : Path := ⟨".mktrace/cache.json"⟩
  /-- The file of the configuration. -/
  configurationFile : Path := ⟨".mktrace/configuration.json"⟩
  /-- The file the trace is copied to. -/
  traceFile : Path := ⟨".mktrace/dryrun.log"⟩
  deriving DecidableEq

end Settings

/-- The settings of the program. -/
structure Settings where
  /-- The version of the settings. -/
  schema : String := Settings.supportedSchema
  /-- How make is run. -/
  make : Settings.Make := {}
  /-- Where the trace comes from. -/
  trace : Settings.Trace := {}
  /-- The tools to look for. -/
  toolchain : Settings.Toolchain := {}
  /-- Where the results go. -/
  output : Settings.Output := {}
  deriving DecidableEq

namespace Settings

/-- A line for a setting that may be missing. -/
def optionalLine (label : String) : Option Path → List String
  | some p => [label ++ p.text]
  | none => []

/-- The settings as shown to the user. -/
def text (s : Settings) : String :=
  "\n".intercalate <|
    ["Configuration:", "  schema: " ++ s.schema, "  make program: " ++ s.make.program.text] ++
    optionalLine "  makefile: " s.make.makefile ++
    ["  dry-run switches: " ++ Text.shellWords s.make.dryRunSwitches,
      "  database switches: " ++ Text.shellWords s.make.databaseSwitches,
      "  force rebuild switch: " ++ s.make.forceRebuildSwitch,
      "  extra arguments: " ++ Text.shellWords s.make.extraArguments] ++
    optionalLine "  log file: " s.trace.logFile ++
    ["  chunk size: " ++ toString s.trace.chunkSize,
      "  stall timeout: " ++ toString s.trace.stallTimeout ++ "s",
      "  additional compilers: " ++ Text.quotedList s.toolchain.compilers,
      "  additional linkers: " ++ Text.quotedList s.toolchain.linkers,
      "  excluded tools: " ++ Text.quotedList s.toolchain.exclude,
      "  GNU standards: " ++ (if s.toolchain.gnuStandards then "true" else "false"),
      "  cache file: " ++ s.output.cacheFile.text,
      "  configuration file: " ++ s.output.configurationFile.text,
      "  trace file: " ++ s.output.traceFile.text]

end Settings

end BuildTrace
