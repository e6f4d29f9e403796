/-!
# Tool sets

The names of the tools that are looked for in a trace.
-/

namespace BuildTrace

namespace Tool

/-- The compilers that are known. -/
def defaultCompilers : List String :=
  ["clang-cl", "clang-cpp", "clang++", "clang", "armclang", "gcc", "g++", "cpp", "xgcc", "xg++",
    "cc", "c++", "icc", "icl", "cl", "tcc"]

/-- The linkers that are known, among them the compilers that link. -/
def defaultLinkers : List String :=
  ["ilink", "link", "lld-link", "ld", "ld.lld", "ld.gold", "gcc", "g++", "clang", "clang++",
    "clang-cl", "cc", "c++"]

end Tool

/-- The names of compilers and linkers. -/
structure ToolSet where
  /-- The names of the compilers. -/
  compilers : List String
  /-- The names of the linkers. -/
  linkers : List String
  deriving DecidableEq, Repr

namespace ToolSet

/-- The names, each once, without the excluded ones. -/
def keep (names exclude : List String) : List String :=
  (names.filter (!exclude.contains ·)).eraseDups

/-- The known tools and the additional ones, without the excluded ones. -/
def extend (compilers linkers exclude : List String) : ToolSet where
  compilers := keep (Tool.defaultCompilers ++ compilers) exclude
  linkers := keep (Tool.defaultLinkers ++ linkers) exclude

/-- The known tools. -/
def standard : ToolSet := extend [] [] []

end ToolSet

end BuildTrace
