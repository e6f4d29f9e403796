import BuildTrace.Configuration.Basic
import BuildTrace.Json.Basic
import BuildTrace.Json.Parser
import BuildTrace.Json.Record

/-!
# Documents of the results

How configurations and snapshots are written to documents, and how they are read back.
-/

namespace BuildTrace

open Document (Slot)

namespace Json

/-- The path, if the value is one. -/
def path? (value : Json) : Option Path := value.text?.map Path.mk

/-- A path. -/
def ofPath (p : Path) : Json := text p.text

/-- A list of paths. -/
def ofPaths (paths : List Path) : Json := array (paths.map ofPath)

/-- A member that is left out when there is no value. -/
def memberOf? (key : String) : Option String → List (String × Json)
  | some value => [(key, text value)]
  | none => []

/-- A text, or `null`. -/
def ofText? : Option String → Json
  | some value => text value
  | none => null

/-- A list of texts, each of them read. -/
def texts? (value : Json) : Option (List String) := format.list? text? value

/-- What `read` makes of the value, or nothing for `null`. -/
def optional? {α : Type} (read : Json → Option α) (value : Json) : Option (Option α) :=
  (Slot.given value).optional format read

/-- A list of paths. -/
def paths? (value : Json) : Option (List Path) := format.list? path? value

end Json

/-- The standard with the name in the document. -/
def Standard.ofJson? (value : Json) : Option Standard := value.text?.bind ofString?

/-- The mode with the name in the document. -/
def Toolchain.Mode.ofJson? (value : Json) : Option Toolchain.Mode := value.text?.bind ofName?

/-- The language with the name in the document. The name may also be the only key of an object, in
which it has no value. -/
def Language.ofJson? (value : Json) : Option Language :=
  match value with
  | .text name | .object [(name, .null)] => ofName? name
  | _ => none

/-- The launch target with the canonical form in the document. -/
def LaunchTarget.ofJson? (value : Json) : Option LaunchTarget :=
  value.text?.bind fun text => (parse text).toOption

namespace CompileUnit

/-- The keys of a unit in a document. -/
def keys : List String :=
  ["defines", "includePaths", "forcedIncludes", "languageStandard", "toolchainMode",
    "compilerFullPath", "sourceFiles", "platformSdkVersion", "language"]

/-- The unit as a value of a document. -/
def toJson (u : CompileUnit) : Json :=
  .object <|
    [("defines", .texts u.defines), ("includePaths", .ofPaths u.includePaths),
      ("forcedIncludes", .ofPaths u.forcedIncludes),
      ("languageStandard", .ofText? (u.standard.map Standard.name)),
      ("toolchainMode", .text u.mode.name), ("compilerFullPath", .ofPath u.compiler),
      ("sourceFiles", .ofPaths u.sources)] ++
    Json.memberOf? "platformSdkVersion" u.sdkVersion ++
    Json.memberOf? "language" (u.language.map Language.name)

/-- The unit of a document. -/
def ofJson? (value : Json) : Option CompileUnit := do
  let f := Json.format
  match ← f.slots? keys value with
  | [defines, includePaths, forcedIncludes, standard, mode, compiler, sources, sdk, language] =>
    some
      { defines := ← defines.required Json.texts?
        includePaths := ← includePaths.required Json.paths?
        forcedIncludes := ← forcedIncludes.required Json.paths?
        standard := ← standard.optional f Standard.ofJson?
        mode := ← mode.required Toolchain.Mode.ofJson?
        compiler := ← compiler.required Json.path?
        sources := ← sources.required Json.paths?
        sdkVersion := ← sdk.withDefault none (Json.optional? Json.text?)
        language := ← language.withDefault none (Json.optional? Language.ofJson?) }
  | _ => none

end CompileUnit

namespace FileConfiguration

/-- The keys of a configuration in a document. -/
def keys : List String :=
  ["defines", "includePaths", "forcedIncludes", "standard", "compilerPath", "toolchainMode",
    "platformSdkVersion"]

/-- The configuration as a value of a document. -/
def toJson (c : FileConfiguration) : Json :=
  .object <|
    [("defines", .texts c.defines), ("includePaths", .ofPaths c.includePaths),
      ("forcedIncludes", .ofPaths c.forcedIncludes),
      ("standard", .ofText? (c.standard.map Standard.name)),
      ("compilerPath", .ofPath c.compiler), ("toolchainMode", .text c.mode.name)] ++
    Json.memberOf? "platformSdkVersion" c.sdkVersion

/-- The configuration of a document. -/
def ofJson? (value : Json) : Option FileConfiguration := do
  let f := Json.format
  match ← f.slots? keys value with
  | [defines, includePaths, forcedIncludes, standard, compiler, mode, sdk] =>
    some
      { defines := ← defines.required Json.texts?
        includePaths := ← includePaths.required Json.paths?
        forcedIncludes := ← forcedIncludes.required Json.paths?
        standard := ← standard.optional f Standard.ofJson?
        compiler := ← compiler.required Json.path?
        mode := ← mode.required Toolchain.Mode.ofJson?
        sdkVersion := ← sdk.withDefault none (Json.optional? Json.text?) }
  | _ => none

/-- The configuration of a file whose path is the key of a member. -/
def ofMember? (member : String × Json) : Option (Path × FileConfiguration) :=
  (ofJson? member.2).map (⟨member.1⟩, ·)

/-- The configuration of a file as a pair of its path and the rest. -/
def ofPair? (value : Json) : Option (Path × FileConfiguration) :=
  match value with
  | .array [file, configuration] => do
    let file ← file.path?
    let configuration ← ofJson? configuration
    some (file, configuration)
  | _ => none

end FileConfiguration

namespace Configuration

/-- The configuration as a document: the files by their paths, and the directories. -/
def toJson (c : Configuration) : Json :=
  .object
    [("files", .object (c.files.map fun (file, settings) => (file.text, settings.toJson))),
      ("browsePath", .ofPaths c.browse)]

/-- The configuration of a document. -/
def ofJson? (value : Json) : Option Configuration := do
  match ← Json.format.slots? ["files", "browsePath"] value with
  | [files, browse] =>
    let files ← files.withDefault [] fun value =>
      value.members?.bind (·.mapM FileConfiguration.ofMember?)
    let browse ← browse.withDefault [] Json.paths?
    some (ofParts files browse)
  | _ => none

end Configuration

namespace Snapshot

/-- The keys of a snapshot in a document. -/
def keys : List String := ["buildTargets", "launchTargets", "fileIndex", "browsePath"]

/-- The snapshot as a document: launch targets by their canonical forms, files with their paths. -/
def toJson (s : Snapshot) : Json :=
  .object
    [("buildTargets", .texts s.buildTargets),
      ("launchTargets", .texts (s.launchTargets.map LaunchTarget.canonical)),
      ("fileIndex",
        .array (s.configuration.files.map fun (file, configuration) =>
          .array [.ofPath file, configuration.toJson])),
      ("browsePath", .ofPaths s.configuration.browse)]

/-- The snapshot of a document. -/
def ofJson? (value : Json) : Option Snapshot := do
  let f := Json.format
  match ← f.slots? keys value with
  | [buildTargets, launchTargets, files, browse] =>
    let files ← files.withDefault [] (f.list? FileConfiguration.ofPair?)
    let browse ← browse.withDefault [] Json.paths?
    some
      { configuration := .ofParts (FileIndex.lastOfEach files) browse
        buildTargets := ← buildTargets.withDefault [] Json.texts?
        launchTargets := ← launchTargets.withDefault [] (f.list? LaunchTarget.ofJson?) }
  | _ => none

end Snapshot

end BuildTrace
