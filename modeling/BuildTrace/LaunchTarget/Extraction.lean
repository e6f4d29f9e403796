import BuildTrace.Directory.History
import BuildTrace.Language
import BuildTrace.LaunchTarget.Basic
import BuildTrace.Scan.Basic
import BuildTrace.Tool.Matcher
import BuildTrace.Tool.Set

/-!
# Launch targets of a trace

Two passes find the launch targets of a trace. The first one deduces which binaries the lines of
compilers and linkers produce. The second one looks for the lines that run any of them, and takes
the directory and the arguments from there.
-/

namespace BuildTrace.LaunchTarget

/-- What the extraction of launch targets depends on. -/
structure Extractor where
  /-- The matcher of the compilers. -/
  compilers : Tool.Matcher
  /-- The matcher of the linkers. -/
  linkers : Tool.Matcher
  /-- The paths that lead to files. -/
  isFile : Path → Bool
  /-- The directory the trace starts in. -/
  root : Path
  /-- The extension of executables without its dot, empty if there is none. -/
  extension : String := ""

/-- The name of a file without its extension. -/
def stemOf? (file : String) : Option String := (Path.mk file).fileStem?

/-- The name of a file, to which the extension is added if it has none. -/
def withDefaultExtension (name extension : String) : String :=
  if (Path.mk name).extension?.isSome then name else name ++ "." ++ extension

namespace Extractor

/-- The extractor for the tools. -/
def ofTools (tools : ToolSet) (isFile : Path → Bool) (root : Path) (extension : String := "") :
    Extractor where
  compilers := .ofNames tools.compilers true extension
  linkers := .ofNames tools.linkers true extension
  isFile
  root
  extension

/-- The name of a binary that the command line does not name. -/
def defaultBinary (e : Extractor) : String :=
  if e.extension.isEmpty then "a.out" else "a." ++ e.extension

/-- The binary a compiler produces, as it is written. -/
def compilerOutput? (e : Extractor) (i : Tool.Invocation) : Option String :=
  let style := Switch.Style.ofTool i.toolName
  let arguments := i.arguments
  let sources := Switch.files style arguments Language.sourceExtensions
  if Switch.isPresent style arguments ["c", "E", "S", "shared", "LD", "LDd"] then none
  else if sources.isEmpty && (Switch.files style arguments Language.objectExtensions).isEmpty then
    none
  else
    match style with
    | .msvc =>
      let named :=
        (Switch.single? style arguments ["Fe"]).map (withDefaultExtension · "exe")
      let fromObject := ((Switch.repeatable style arguments "Fo").head?).bind stemOf?
      let fromSource := sources.head?.bind stemOf?
      named.or ((fromObject.or fromSource).map (· ++ ".exe"))
    | .gnu => some ((Switch.single? style arguments ["o"]).getD e.defaultBinary)

/-- The binary a linker produces, as it is written. -/
def linkerOutput? (e : Extractor) (i : Tool.Invocation) : Option String :=
  let style := Switch.Style.ofTool i.toolName
  let arguments := i.arguments
  let others := ["c", "E", "S", "r", "shared", "dll", "DLL", "lib", "LIB"]
  if Switch.isPresent style arguments others then
    none
  else
    let (extension, output) :=
      match style with
      | .msvc => ("exe", "out")
      | .gnu => (e.extension, "o")
    let fromInput :=
      ((Switch.files style arguments Language.linkerInputExtensions).head?.bind stemOf?).map
        fun stem => if extension.isEmpty then stem else stem ++ "." ++ extension
    let default :=
      match style with
      | .msvc => "a.exe"
      | .gnu => e.defaultBinary
    some (((Switch.single? style arguments [output]).or fromInput).getD default)

/-- The binary a line produces, run in the directory `base`. What the compiler says goes before
what the linker says. -/
def binaryOf? (e : Extractor) (line : String) (base : Path) : Option Path :=
  let fromCompiler := (e.compilers.invocation? e.isFile line base).bind e.compilerOutput?
  let fromLinker := (e.linkers.invocation? e.isFile line base).bind e.linkerOutput?
  (fromCompiler.or fromLinker).map (Path.resolve · base)

/-- The recognizer of the binaries. -/
def binaryScanner {ω : Type} (e : Extractor) : LineScanner ω Directory.History LaunchTarget :=
  .ofPure
    (fun line history =>
      match history.follow? line with
      | some history => ([], history)
      | none => (((e.binaryOf? line history.current).map (⟨·, e.root, []⟩)).toList, history))
    (fun _ => [])

/-- The name under which a binary is run: its file name without the extension of executables. -/
def runName? (e : Extractor) (t : LaunchTarget) : Option String :=
  t.binary.fileName?.map fun name =>
    if e.extension.isEmpty then name
    else ((Text.stripEnd? ('.' :: e.extension.toList) name.toList).map String.ofList).getD name

/-- The matcher of the lines that run one of the binaries, whether or not they exist yet. -/
def runMatcher (e : Extractor) (binaries : List LaunchTarget) : Tool.Matcher :=
  { Tool.Matcher.ofNames (binaries.filterMap e.runName?) false e.extension with
    knownPaths := binaries.map LaunchTarget.binary }

/-- A word that ends the arguments of a program in a shell command. -/
def isRedirection (word : List Char) : Bool :=
  [">", "1>", "2>", "|", "<", "&>"].any fun lead => Text.startsWith lead.toList word

/-- The arguments a line gives to a program. -/
def runArguments (arguments : String) : List String :=
  ((Text.words arguments.toList).takeWhile (!isRedirection ·)).map String.ofList

/-- The recognizer of the lines that run one of the binaries. -/
def invocationScanner {ω : Type} (e : Extractor) (binaries : List LaunchTarget) :
    LineScanner ω Directory.History LaunchTarget :=
  let matcher := e.runMatcher binaries
  .ofPure
    (fun line history =>
      match history.follow? line with
      | some history => ([], history)
      | none =>
        (((matcher.invocation? e.isFile line history.current).map fun i =>
            ⟨i.fullPath, history.current, runArguments i.arguments⟩).toList,
          history))
    (fun _ => [])

variable {ω : Type}

/-- The targets of a trace, each canonical form once, unless a scan was cancelled. Where there is
no binary there is no second pass. -/
def extract? (e : Extractor) (isCancelled : ω → Bool) (chunkSize : Nat) (trace : String) (w : ω) :
    Option (List LaunchTarget) × ω :=
  let start := Directory.History.start e.root
  match Scan.complete? e.binaryScanner isCancelled chunkSize trace start w with
  | (none, w) => (none, w)
  | (some found, w) =>
    let binaries := dedup found
    if binaries.isEmpty then (some [], w)
    else
      match Scan.complete? (e.invocationScanner binaries) isCancelled chunkSize trace start w with
      | (none, w) => (none, w)
      | (some runs, w) => (some (dedup (binaries ++ runs)), w)

end Extractor

end BuildTrace.LaunchTarget
