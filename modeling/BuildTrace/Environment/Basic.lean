import BuildTrace.Path.Basic
import BuildTrace.Text.Blank
import BuildTrace.Text.Case

/-!
# The environment

The directory the program was started in and its environment variables.
-/

namespace BuildTrace

/-- What the program was started with. -/
structure Environment where
  /-- The directory it was started in. -/
  directory : Path
  /-- The variables with their values, each once. -/
  bindings : List (String × String) := []

namespace Environment

/-- The variables that make looks at, besides the search path. -/
def makeVariables : List String :=
  ["MAKE", "MAKEFLAGS", "CC", "CXX", "CPP", "LD", "CFLAGS", "CXXFLAGS", "CPPFLAGS", "LDFLAGS",
    "LDLIBS"]

/-- The variable with the version of the platform's development kit. -/
def sdkVariable : String := "WindowsSDKVersion"

/-- The variable is the search path; its name is taken in any case. -/
def isSearchPath (name : String) : Bool := Text.eqIgnoringCase name.toList "PATH".toList

/-- The variable may change what make prints. -/
def isRelevant (name : String) : Bool :=
  makeVariables.contains name || name == sdkVariable || isSearchPath name

/-- The variable with the search path. -/
def searchPath? (e : Environment) : Option (String × String) :=
  e.bindings.find? (isSearchPath ·.1)

/-- The directories of a search path. -/
def directoriesOf (searchPath : String) : List Path :=
  (Text.splitOn ':' searchPath.toList).map fun directory => ⟨String.ofList directory⟩

/-- The directories of the search path. -/
def searchDirectories (e : Environment) : List Path :=
  (e.searchPath?.map (directoriesOf ·.2)).getD []

/-- The version of the platform's development kit, without slashes at its end. -/
def sdkVersion? (e : Environment) : Option String :=
  (e.bindings.lookup sdkVariable).bind fun value =>
    let version := Text.dropEndWhile (fun c => c = '\\' || c = '/') (Text.trim value.toList)
    if version.isEmpty then none else some (String.ofList version)

/-- The first variable goes before the second one. -/
def goesBefore (a b : String × String) : Bool :=
  a.1 < b.1 || (a.1 == b.1 && (a.2 < b.2 || a.2 == b.2))

/-- The relevant variables by their names. -/
def relevant (e : Environment) : List (String × String) :=
  (e.bindings.filter (isRelevant ·.1)).mergeSort goesBefore

/-- The environment as shown to the user. -/
def text (e : Environment) : String :=
  "Application Context:\n" ++
  "Current Directory: " ++ e.directory.text ++ "\n" ++
  "Total Environment Variables: " ++ toString e.bindings.length ++ " entries\n" ++
  "Relevant Environment Variables:\n" ++
  String.join (e.relevant.map fun (name, value) => "  " ++ name ++ "=" ++ value ++ "\n")

end Environment

end BuildTrace
