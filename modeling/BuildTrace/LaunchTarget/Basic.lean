import BuildTrace.Path.Normal

/-!
# Launch targets

A launch target is a program to run: the binary, the directory to run it in, and the arguments.
Its canonical form, `directory>binary(argument,argument)`, is its identity. The binary is written
relative to the directory wherever there is a relative path.
-/

namespace BuildTrace

/-- A program to run. -/
structure LaunchTarget where
  /-- The program. -/
  binary : Path
  /-- The directory to run it in. -/
  directory : Path
  /-- The arguments. -/
  arguments : List String
  deriving DecidableEq, Repr

namespace LaunchTarget

/-- The number of steps the two ways begin with in common. -/
def commonSteps : List Component → List Component → Nat
  | a :: as, b :: bs => if a = b then commonSteps as bs + 1 else 0
  | _, _ => 0

/-- The steps from one place to another, both given by the way to them. They must begin alike,
and must not be the same. -/
def relativeSteps? (base target : List Component) : Option (List Component) :=
  let common := commonSteps target base
  let steps := List.replicate (base.length - common) .up ++ target.drop common
  if common = 0 ∨ steps.isEmpty then none else some steps

/-- The binary as it is written from the working directory. -/
def writtenBinary (t : LaunchTarget) : Path :=
  ((relativeSteps? t.directory.components t.binary.components).map Path.ofComponents).getD
    t.binary

/-- The canonical form. -/
def canonical (t : LaunchTarget) : String :=
  t.directory.text ++ ">" ++ t.writtenBinary.text ++ "(" ++ ",".intercalate t.arguments ++ ")"

/-- Why a text is not a launch target. -/
inductive ParseError where
  /-- Nothing separates a working directory from the rest. -/
  | missingSeparator (text : String)
  /-- There is no list of arguments in parentheses at the end. -/
  | missingArguments (text : String)
  /-- Nothing stands between the directory and the arguments. -/
  | missingBinary (text : String)
  deriving DecidableEq, Repr

/-- The message to the user. -/
def ParseError.message : ParseError → String
  | missingSeparator text => "Missing '>' after the working directory: " ++ text
  | missingArguments text => "Missing argument list: " ++ text
  | missingBinary text => "Missing binary path: " ++ text

/-- Where the parenthesis opens that a closing one behind a text would close: what stands before
it and what stands behind it. The text is read from its end; `behind` has been passed, `depth`
parentheses in it are still to be opened. -/
def openingFromEnd? (behind : List Char) (depth : Nat) :
    List Char → Option (List Char × List Char)
  | [] => none
  | c :: before =>
    if c = ')' then openingFromEnd? (c :: behind) (depth + 1) before
    else if c = '(' then
      match depth with
      | 0 => some (before.reverse, behind)
      | depth + 1 => openingFromEnd? (c :: behind) depth before
    else openingFromEnd? (c :: behind) depth before

/-- The arguments of a list between parentheses. -/
def argumentsOf (list : List Char) : List String :=
  if list.isEmpty then [] else (Text.splitOn ',' list).map String.ofList

/-- The target with the given canonical form; the binary may be written in other ways, too. -/
def parse (text : String) : Except ParseError LaunchTarget :=
  match Text.splitOnce? '>' text.toList with
  | none => .error (.missingSeparator text)
  | some (directory, rest) =>
    match (Text.stripEnd? [')'] rest).bind fun s => openingFromEnd? [] 0 s.reverse with
    | none => .error (.missingArguments text)
    | some (binary, list) =>
      if binary.isEmpty then .error (.missingBinary text)
      else
        let directory : Path := ⟨String.ofList directory⟩
        .ok
          { binary := (directory.join ⟨String.ofList binary⟩).normalize
            directory
            arguments := argumentsOf list }

/-- The targets whose canonical form was not met before, where `seen` has been met. -/
def dedupFrom (seen : List String) : List LaunchTarget → List LaunchTarget
  | [] => []
  | t :: rest =>
    let canonical := t.canonical
    if seen.contains canonical then dedupFrom seen rest
    else t :: dedupFrom (canonical :: seen) rest

/-- The first target of each canonical form, in order. -/
def dedup (targets : List LaunchTarget) : List LaunchTarget := dedupFrom [] targets

end LaunchTarget

end BuildTrace
