import BuildTrace.Path.Basic
import BuildTrace.Standard
import BuildTrace.Toolchain

/-!
# Compile units

A compile unit tells how a group of source files of one language is compiled.
-/

namespace BuildTrace

/-- How a group of source files is compiled. -/
structure CompileUnit where
  /-- The preprocessor definitions, in order. -/
  defines : List String
  /-- The directories searched for included files, in order. -/
  includePaths : List Path
  /-- The files included in front of every source file. -/
  forcedIncludes : List Path
  /-- The language standard. -/
  standard : Option Standard
  /-- The family and architecture of the compiler. -/
  mode : Toolchain.Mode
  /-- The path of the compiler, or its name if it was not found. -/
  compiler : Path
  /-- The source files. -/
  sources : List Path
  /-- The version of the platform's development kit. -/
  sdkVersion : Option String
  /-- The language of the source files. -/
  language : Option Language
  deriving DecidableEq

end BuildTrace
