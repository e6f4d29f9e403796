import BuildTrace.Json.Record
import BuildTrace.Settings.Basic

/-!
# Settings in documents

How settings are read from a document of any format, and how they are written to one. Everything
except the version may be left out.
-/

namespace BuildTrace.Settings

open Document (Format Slot)

variable {ν : Type}

/-- A path. -/
def path? (f : Format ν) (value : ν) : Option Path := (f.text? value).map Path.mk

/-- A list of names. -/
def names? (f : Format ν) (value : ν) : Option (List String) := f.list? f.text? value

/-- A path, or nothing. -/
def optionalPath? (f : Format ν) (value : ν) : Option (Option Path) :=
  (Slot.given value).optional f (path? f)

/-- The section on running make. -/
def make? (f : Format ν) (value : ν) : Option Make := do
  let d : Make := {}
  match ← f.slots?
      ["program", "makefile", "dry_run_switches", "database_switches", "force_rebuild_switch",
        "extra_arguments"] value with
  | [program, makefile, dryRun, database, force, extra] =>
    some
      { program := ← program.withDefault d.program (path? f)
        makefile := ← makefile.withDefault d.makefile (optionalPath? f)
        dryRunSwitches := ← dryRun.withDefault d.dryRunSwitches (names? f)
        databaseSwitches := ← database.withDefault d.databaseSwitches (names? f)
        forceRebuildSwitch := ← force.withDefault d.forceRebuildSwitch f.text?
        extraArguments := ← extra.withDefault d.extraArguments (names? f) }
  | _ => none

/-- The section on the trace. -/
def trace? (f : Format ν) (value : ν) : Option Trace := do
  let d : Trace := {}
  match ← f.slots? ["log_file", "chunk_size", "stall_timeout"] value with
  | [logFile, chunkSize, stallTimeout] =>
    some
      { logFile := ← logFile.withDefault d.logFile (optionalPath? f)
        chunkSize := ← chunkSize.withDefault d.chunkSize f.nat?
        stallTimeout := ← stallTimeout.withDefault d.stallTimeout f.nat? }
  | _ => none

/-- The section on the tools. -/
def toolchain? (f : Format ν) (value : ν) : Option Toolchain := do
  let d : Toolchain := {}
  match ← f.slots? ["compilers", "linkers", "exclude", "gnu_standards"] value with
  | [compilers, linkers, exclude, gnuStandards] =>
    some
      { compilers := ← compilers.withDefault d.compilers (names? f)
        linkers := ← linkers.withDefault d.linkers (names? f)
        exclude := ← exclude.withDefault d.exclude (names? f)
        gnuStandards := ← gnuStandards.withDefault d.gnuStandards f.bool? }
  | _ => none

/-- The section on the results. -/
def output? (f : Format ν) (value : ν) : Option Output := do
  let d : Output := {}
  match ← f.slots? ["cache_file", "configuration_file", "trace_file"] value with
  | [cacheFile, configurationFile, traceFile] =>
    some
      { cacheFile := ← cacheFile.withDefault d.cacheFile (path? f)
        configurationFile := ← configurationFile.withDefault d.configurationFile (path? f)
        traceFile := ← traceFile.withDefault d.traceFile (path? f) }
  | _ => none

/-- The version, if it is the one that is understood. -/
def schema? (f : Format ν) (value : ν) : Option String :=
  match f.text? value with
  | some schema => if schema = supportedSchema then some schema else none
  | none => none

/-- The settings of a document. -/
def ofDocument? (f : Format ν) (value : ν) : Option Settings := do
  match ← f.slots? ["schema", "make", "trace", "toolchain", "output"] value with
  | [schema, make, trace, toolchain, output] =>
    some
      { schema := ← schema.required (schema? f)
        make := ← make.withDefault {} (make? f)
        trace := ← trace.withDefault {} (trace? f)
        toolchain := ← toolchain.withDefault {} (toolchain? f)
        output := ← output.withDefault {} (output? f) }
  | _ => none

/-- A path, or `null`. -/
def pathJson (p : Option Path) : Json := p.elim .null fun p => .text p.text

/-- A number. -/
def natJson (n : Nat) : Json := .number (Nat.toDigits 10 n)

/-- The settings as a value of a document, with all fields. -/
def toJson (s : Settings) : Json :=
  .object
    [("schema", .text s.schema),
      ("make", .object
        [("program", .text s.make.program.text), ("makefile", pathJson s.make.makefile),
          ("dry_run_switches", .texts s.make.dryRunSwitches),
          ("database_switches", .texts s.make.databaseSwitches),
          ("force_rebuild_switch", .text s.make.forceRebuildSwitch),
          ("extra_arguments", .texts s.make.extraArguments)]),
      ("trace", .object
        [("log_file", pathJson s.trace.logFile), ("chunk_size", natJson s.trace.chunkSize),
          ("stall_timeout", natJson s.trace.stallTimeout)]),
      ("toolchain", .object
        [("compilers", .texts s.toolchain.compilers), ("linkers", .texts s.toolchain.linkers),
          ("exclude", .texts s.toolchain.exclude),
          ("gnu_standards", .bool s.toolchain.gnuStandards)]),
      ("output", .object
        [("cache_file", .text s.output.cacheFile.text),
          ("configuration_file", .text s.output.configurationFile.text),
          ("trace_file", .text s.output.traceFile.text)])]

end BuildTrace.Settings
