import BuildTrace.CompileUnit.Basic
import BuildTrace.Directory.History
import BuildTrace.Scan.Basic
import BuildTrace.Tool.Matcher
import BuildTrace.Tool.Set

/-!
# Compile units of a trace

Every line that invokes a compiler with source files gives compile units, one for each language
among its sources. The compiler that is named without a path is looked up, which may change the
surroundings of the extraction.
-/

namespace BuildTrace.CompileUnit

/-- How executables named without a path are found, in surroundings `ω`. -/
abbrev Lookup (ω : Type) := String → ω → Option Path × ω

/-- What the extraction of compile units depends on. -/
structure Extractor (ω : Type) where
  /-- The matcher of the compilers. -/
  compilers : Tool.Matcher
  /-- The paths that lead to files. -/
  isFile : Path → Bool
  /-- The search for executables. -/
  lookup : Lookup ω
  /-- The reader of the units knows the GNU dialects. -/
  allowGnu : Bool := true
  /-- The version of the platform's development kit. -/
  sdkVersion : Option String := none

/-- The architecture of the last switch that names one. -/
def architecture? (style : Switch.Style) (arguments : String) : Option Architecture :=
  (Switch.ordered style arguments ["m32", "m64"] ["target", "march", "arch"]).foldl
    (fun current switch =>
      let next :=
        if switch.name = "m32" then some .x86
        else if switch.name = "m64" then some .x64
        else switch.value.bind Architecture.parse?
      next.or current)
    none

/-- The language the command line asks for, whatever the extensions. -/
def forcedLanguage? (style : Switch.Style) (arguments : String) : Option Language :=
  (Switch.ordered style arguments ["TC", "TP"] ["x"]).foldl
    (fun current switch =>
      if switch.name = "TC" then some .c
      else if switch.name = "TP" then some .cpp
      else
        match switch.value with
        | some "c" | some "c-header" => some .c
        | some "c++" | some "c++-header" => some .cpp
        | some "none" => none
        | _ => current)
    none

/-- The paths given by the switches, in order. -/
def pathsOf (style : Switch.Style) (arguments : String) (names : List String) (base : Path) :
    List Path :=
  ((Switch.ordered style arguments [] names).filterMap Switch.value).map (Path.resolve · base)

/-- Add a file to the group of its language. A new language goes to the end. -/
def addToGroup (language : Language) (file : Path) :
    List (Language × List Path) → List (Language × List Path)
  | [] => [(language, [file])]
  | (l, files) :: rest =>
    if l = language then (l, files ++ [file]) :: rest
    else (l, files) :: addToGroup language file rest

/-- The files by their languages, in order of first appearance. A file without a language is
left out. -/
def groupByLanguage (forced : Option Language) (files : List Path) :
    List (Language × List Path) :=
  files.foldl
    (fun groups file =>
      match forced.or (Language.ofPath? file) with
      | some language => addToGroup language file groups
      | none => groups)
    []

namespace Extractor

variable {ω : Type}

/-- The path of the compiler: that of the trace if there is a file, else what the search finds,
else the bare name. -/
def compiler (e : Extractor ω) (i : Tool.Invocation) (w : ω) : Path × ω :=
  if i.found then (i.fullPath, w)
  else
    let (found, w) := e.lookup i.fileName w
    (found.getD ⟨i.fileName⟩, w)

/-- The compile units of a line run in the directory `base`. -/
def extract (e : Extractor ω) (line : String) (base : Path) (w : ω) : List CompileUnit × ω :=
  match e.compilers.invocation? e.isFile line base with
  | none => ([], w)
  | some i =>
    let style := Switch.Style.ofTool i.toolName
    let sources := Switch.files style i.arguments Language.sourceExtensions
    -- A call that compiles nothing, such as one that only links, gives no unit.
    if sources.isEmpty then ([], w)
    else
      let (compiler, w) := e.compiler i w
      let standard := Switch.single? style i.arguments ["std"]
      -- Each language has a unit of its own. The units differ in nothing but their sources, their
      -- language and its standard.
      let groups :=
        groupByLanguage (forcedLanguage? style i.arguments) (sources.map (Path.resolve · base))
      let units := groups.map fun (language, files) =>
        { defines := Switch.repeatable style i.arguments "D"
          includePaths :=
            pathsOf style i.arguments ["I", "isystem", "iquote", "idirafter"] base
          forcedIncludes := pathsOf style i.arguments ["FI", "include"] base
          standard := some (Standard.resolve standard language e.allowGnu)
          mode := Toolchain.modeOf compiler (architecture? style i.arguments)
          compiler
          sources := files
          sdkVersion := e.sdkVersion
          language := some language }
      (units, w)

/-- The recognizer of compile units, which follows the moves between directories. -/
def scanner (e : Extractor ω) : LineScanner ω Directory.History CompileUnit where
  scanLine line history w :=
    match history.follow? line with
    | some history => ([], history, w)
    | none =>
      let (units, w) := e.extract line history.current w
      (units, history, w)
  finish _ := []

end Extractor

end BuildTrace.CompileUnit
