import BuildTrace.Language

/-!
# Language standards

Compilers accept many spellings of a standard (`c++1z`, `c++17`, `iso9899:2018`). A standard has
one canonical name. Those who do not know the GNU dialects get the plain standard instead.
-/

namespace BuildTrace

/-- A language standard, such as `c17` or `gnu++20`. -/
structure Standard where
  /-- The language. -/
  language : Language
  /-- The year of the standard, two digits. -/
  version : UInt8
  /-- The GNU dialect of the standard. -/
  gnu : Bool
  deriving DecidableEq, Repr

namespace Standard

/-- The version with at least two digits. -/
def versionText (version : UInt8) : String :=
  let digits := toString version.toNat
  if version.toNat < 10 then "0" ++ digits else digits

/-- The canonical name. -/
def name (s : Standard) : String :=
  let dialect :=
    match s.language, s.gnu with
    | .c, false => "c"
    | .c, true => "gnu"
    | .cpp, false => "c++"
    | .cpp, true => "gnu++"
  dialect ++ versionText s.version

/-- The standard of a command line that names none. -/
def defaultFor (language : Language) : Standard := ⟨language, 17, false⟩

/-- The spellings of the versions of C++. -/
def cppVersions : List (String × UInt8) :=
  [("98", 98), ("03", 3), ("11", 11), ("0x", 11), ("14", 14), ("1y", 14), ("17", 17), ("1z", 17),
    ("20", 20), ("2a", 20), ("23", 23), ("2b", 23), ("latest", 23)]

/-- The spellings of the versions of C. -/
def cVersions : List (String × UInt8) :=
  [("89", 89), ("90", 89), ("1990", 89), ("199409", 89), ("99", 99), ("9x", 99), ("1999", 99),
    ("11", 11), ("1x", 11), ("2011", 11), ("17", 17), ("18", 17), ("2017", 17), ("2018", 17),
    ("23", 23), ("2x", 23), ("latest", 23)]

/-- The dialect a token begins with, and what follows. -/
def dialect? (token : List Char) : Option (Bool × List Char) :=
  ((Text.strip? "gnu".toList token).map (true, ·)).or <|
    ((Text.strip? "iso9899:".toList token).map (false, ·)).or <|
      (Text.strip? ['c'] token).map (false, ·)

/-- The standard a token means, in any language. -/
def ofToken? (token : List Char) : Option Standard :=
  match dialect? (Text.lower (Text.trim token)) with
  | none => none
  | some (gnu, rest) =>
    match Text.strip? ['+', '+'] rest with
    | some version => (cppVersions.lookup (String.ofList version)).map (⟨.cpp, ·, gnu⟩)
    | none => (cVersions.lookup (String.ofList rest)).map (⟨.c, ·, gnu⟩)

/-- The standard a token means. If the language is given, it has to be one of that language. -/
def parse? (token : String) (language : Option Language) (allowGnu : Bool) : Option Standard :=
  match ofToken? token.toList with
  | none => none
  | some standard =>
    if language.all (· == standard.language) then
      some { standard with gnu := standard.gnu && allowGnu }
    else none

/-- The standard of the files of a language: that of the token, or else the default. -/
def resolve (token : Option String) (language : Language) (allowGnu : Bool) : Standard :=
  (token.bind fun token => parse? token (some language) allowGnu).getD (defaultFor language)

/-- The standard of any language with the GNU dialects. -/
def ofString? (token : String) : Option Standard := parse? token none true

/-- What is said about a token that is no standard. -/
def unrecognized (token : String) : String := "Unrecognized language standard: " ++ token

end Standard

end BuildTrace
