import BuildTrace.Path.Basic

/-!
# Normal paths

Normalization is lexical: `.` goes away, `..` takes back the name before it, is dropped at the
root, and stays where there is nothing to take back. Resolving makes a path written in a trace
absolute against a base directory.
-/

namespace BuildTrace

namespace Component

/-- Take one more step on the way, whose steps so far are given last one first. -/
def step (way : List Component) : Component → List Component
  | .here => way
  | .up =>
    match way with
    | .name _ :: rest => rest
    -- There is nothing above the root.
    | .root :: _ => way
    -- Where a relative way begins is not known.
    | _ => .up :: way
  | c => c :: way

/-- The steps without detours. -/
def normal (components : List Component) : List Component :=
  (components.foldl step []).reverse

end Component

namespace Path

/-- The path without `.` and without `..` where it can be avoided. -/
def normalize (p : Path) : Path := ofComponents (Component.normal p.components)

/-- The text without any quote character. -/
def unquote (s : List Char) : List Char := s.filter fun c => c != '"' && c != '\''

/-- The text without any quote character. -/
def removeQuotes (s : String) : String := String.ofList (unquote s.toList)

/-- The path a trace means by `written` in the directory `base`: white space around it and quotes
are no part of it. -/
def resolve (written : String) (base : Path) : Path :=
  (base.join ⟨String.ofList (unquote (Text.trim written.toList))⟩).normalize

end Path

end BuildTrace
