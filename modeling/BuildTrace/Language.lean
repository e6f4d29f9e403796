import BuildTrace.Path.Basic
import BuildTrace.Text.Case

/-!
# Languages

The languages of source files, and the extensions of the files that tools take.
-/

namespace BuildTrace

/-- The language of a source file. -/
inductive Language where
  /-- C. -/
  | c
  /-- C++. -/
  | cpp
  deriving DecidableEq, Repr

namespace Language

/-- The name of the language in documents. -/
def name : Language → String
  | c => "c"
  | cpp => "cpp"

/-- The language with the name. -/
def ofName? (name : String) : Option Language :=
  if name = "c" then some c else if name = "cpp" then some cpp else none

/-- The language of the files with an extension. A capital `C` means C++, all other extensions
are taken in any case. -/
def ofExtension? (extension : String) : Option Language :=
  if extension = "C" then some cpp
  else
    let small := String.ofList (Text.lower extension.toList)
    if small = "c" then some c
    else if ["cpp", "cc", "cxx", "c++", "cp"].contains small then some cpp
    else none

/-- The language of a file. -/
def ofPath? (p : Path) : Option Language := p.extension?.bind ofExtension?

/-- The extensions of source files. -/
def sourceExtensions : List String := ["c", "cpp", "cc", "cxx", "c++", "cp"]

/-- The extensions of object files. -/
def objectExtensions : List String := ["o", "obj"]

/-- The extensions of what a linker takes: objects and static libraries. -/
def linkerInputExtensions : List String := ["o", "obj", "lib", "a"]

end Language

end BuildTrace
