import BuildTrace.Path.Basic
import BuildTrace.Text.Case
import BuildTrace.Text.Digit

/-!
# Toolchains

The compiler family comes from the name of the compiler. The target architecture comes from the
switches, from the name of a cross compiler, or from the directory a compiler of Microsoft is
installed in.
-/

namespace BuildTrace

/-- A target architecture. -/
inductive Architecture where
  /-- 32 bit x86. -/
  | x86
  /-- 64 bit x86. -/
  | x64
  /-- 32 bit ARM. -/
  | arm
  /-- 64 bit ARM. -/
  | arm64
  deriving DecidableEq, Repr

namespace Architecture

/-- The name of the architecture. -/
def name : Architecture → String
  | x86 => "x86"
  | x64 => "x64"
  | arm => "arm"
  | arm64 => "arm64"

/-- The architectures. -/
def all : List Architecture := [x86, x64, arm, arm64]

/-- The architecture with the name. -/
def ofName? (name : String) : Option Architecture := all.find? (·.name == name)

/-- The architecture one part of a target names. -/
def ofPart? (part : List Char) : Option Architecture :=
  let s := String.ofList part
  if ["x86_64", "amd64", "x64"].contains s then some x64
  else if ["i386", "i486", "i586", "i686", "x86", "ia32"].contains s then some x86
  else if Text.startsWith "aarch64".toList part || Text.startsWith "arm64".toList part then
    some arm64
  else if Text.startsWith "arm".toList part || Text.startsWith "thumb".toList part then some arm
  else none

/-- The architecture of a name, a target triple or the value of a switch. The part before the
first dash decides; in `x86_arm` it is the part behind the last underscore. -/
def parse? (value : String) : Option Architecture :=
  let small := Text.lower (Text.trim value.toList)
  if small = "x86-64".toList then some x64
  else
    let small := (Text.strip? "host".toList small).getD small
    let head := small.takeWhile (· != '-')
    (ofPart? head).or ((Text.splitLast? '_' head).bind fun (_, target) => ofPart? target)

end Architecture

/-- A compiler family. -/
inductive Toolchain.Family where
  /-- Microsoft's compiler and those that behave like it. -/
  | msvc
  /-- The clang compilers. -/
  | clang
  /-- The GNU compilers and those that behave like them. -/
  | gcc
  deriving DecidableEq, Repr

namespace Toolchain

namespace Family

/-- The name of the family. -/
def name : Family → String
  | msvc => "msvc"
  | clang => "clang"
  | gcc => "gcc"

/-- The families. -/
def all : List Family := [msvc, clang, gcc]

/-- The family with the name. -/
def ofName? (name : String) : Option Family := all.find? (·.name == name)

end Family

/-- The family and the architecture a file is compiled with. -/
structure Mode where
  /-- The compiler family. -/
  family : Family
  /-- The target architecture. -/
  architecture : Architecture
  deriving DecidableEq, Repr

namespace Mode

/-- The name of the mode, such as `gcc-x64`. -/
def name (m : Mode) : String := m.family.name ++ "-" ++ m.architecture.name

/-- The mode with the name. -/
def ofName? (name : String) : Option Mode :=
  match Text.splitOnce? '-' name.toList with
  | none => none
  | some (family, architecture) =>
    (Family.ofName? (String.ofList family)).bind fun family =>
      (Architecture.ofName? (String.ofList architecture)).map (⟨family, ·⟩)

/-- What is said about a name that no mode has. -/
def unrecognized (name : String) : String := "Unrecognized toolchain mode: " ++ name

/-- The mode of compilers that are not recognized. -/
def fallback : Mode := ⟨.gcc, .x64⟩

end Mode

/-- The name of an executable in small letters, without `.exe`. -/
def executableName? (compiler : Path) : Option (List Char) :=
  compiler.fileName?.map fun name =>
    let small := Text.lower name.toList
    (Text.stripEnd? ".exe".toList small).getD small

/-- The names of clang compilers. -/
def clangNames : List (List Char) :=
  ["clang", "clang++", "clang-cl", "clang-cpp", "armclang", "armclang++", "armclang-cl",
    "armclang-cpp"].map String.toList

/-- The names of GNU compilers and of those that behave like them. -/
def gccNames : List (List Char) :=
  ["gcc", "g++", "cc", "c++", "cpp", "xgcc", "xg++", "icc", "tcc"].map String.toList

/-- The text is empty, or a dash and a version. -/
def isVersionSuffix : List Char → Bool
  | [] => true
  | c :: version =>
    c = '-' && !version.isEmpty && version.all fun c => Text.isDigit c || c = '.'

/-- The text is one of the names, with or without a version. -/
def isVersioned (names : List (List Char)) (s : List Char) : Bool :=
  names.any fun name => (Text.strip? name s).any isVersionSuffix

/-- What follows one of the dashes is one of the names with or without a version. -/
def isVersionedBehindDash (names : List (List Char)) : List Char → Bool
  | [] => false
  | c :: s => (c = '-' && isVersioned names s) || isVersionedBehindDash names s

/-- The text, or what follows one of its dashes, is one of the names with or without a version. -/
def endsVersioned (names : List (List Char)) (s : List Char) : Bool :=
  isVersioned names s || isVersionedBehindDash names s

/-- The family of a compiler, by its file name. -/
def recognize? (compiler : Path) : Option Family :=
  match executableName? compiler with
  | none => none
  | some name =>
    if name = "cl".toList ∨ name = "icl".toList then some .msvc
    -- Clang goes first, since `clang-cpp` could be taken for a decorated `cpp`.
    else if endsVersioned clangNames name then some .clang
    else if endsVersioned gccNames name then some .gcc
    else none

/-- The target in the name of a cross compiler: all before its last dash. A dash in front of a
version does not count. -/
def crossTarget? (compiler : Path) : Option (List Char) :=
  match (executableName? compiler).bind (Text.splitLast? '-') with
  | some (target, last) =>
    if target.contains '-' || !last.all (fun c => c.isDigit || c = '.') then some target else none
  | none => none

/-- The mode of a compiler, where `given` is the architecture on its command line. -/
def modeOf (compiler : Path) (given : Option Architecture) : Mode :=
  match recognize? compiler with
  | none => .fallback
  | some family =>
    let architecture :=
      match family with
      -- These compilers are kept in directories that are named for what they compile for.
      | .msvc => (((compiler.parent?.bind Path.fileName?).bind Architecture.parse?)).or given
      -- Elsewhere the command line goes before the name of the compiler.
      | _ => given.or ((crossTarget? compiler).bind fun t => Architecture.parse? (String.ofList t))
    ⟨family, architecture.getD .x64⟩

end Toolchain

end BuildTrace
