import BuildTrace.Utility.Change

/-!
# Names and paths

The programs that take paths apart or make them complete.
-/

namespace BuildTrace.Utility

open Shell
open Machine (Entry Fault)

/-- The last names of paths. -/
def basename : Utility :=
  { OptionForms.make "as:z"
      [("multiple", "a", .nothing), ("suffix", "s", .value), ("zero", "z", .nothing)] with
    stopsEarly := true }.program fun name g => do
    needOperand name g
    let isList := g.hasAny ["a", "s"]
    if !isList && 2 < g.operands.length then
      misuse name ("extra operand " ++ quote ((g.operands[2]?).getD ""))
    let files := if isList then g.operands else g.operands.take 1
    let suffix := if isList then (g.value? "s").getD "" else (g.operands[1]?).getD ""
    for file in files do
      let last := lastNameOf file
      let cut := (Text.stripEnd? suffix.toList last.toList).getD []
      let shown := if cut.isEmpty || last.startsWith "/" then last else String.ofList cut
      say name (shown ++ if g.has "z" then "\x00" else "\n")
    return 0

/-- Paths without their last names. -/
def dirname : Utility :=
  (OptionForms.make "z" [("zero", "z", .nothing)]).program fun name g => do
    needOperand name g
    for file in g.operands do
      let s := (withoutSlashes file).toList
      let shown :=
        match Text.splitLast? '/' s with
        | some (lead, last) =>
          if last.isEmpty then "/"
          else
            let lead := Text.dropEndWhile (· = '/') lead
            if lead.isEmpty then "/" else String.ofList lead
        | none => "."
      say name (shown ++ if g.has "z" then "\x00" else "\n")
    return 0

/-- The path of a place. -/
def textOfPlace (place : Place) : String :=
  "/" ++ "/".intercalate (place.map Shell.encode)

/-- How much of a path has to be there. -/
inductive Needed where
  /-- All of it. -/
  | all
  /-- All but the last name. -/
  | parent
  /-- Nothing. -/
  | nothing
  deriving DecidableEq

/-- The complete path of a file. -/
def completePath (needed : Needed) (file : String) : Shell (Except Fault String) := do
  let s ← get
  let place ← look fun m => m.resolve s.directoryPath (State.pathOf file)
  match needed, place with
  | .nothing, _ =>
    if file.isEmpty then return .error .missing
    let steps := (s.directoryPath.join (State.pathOf file)).components
    let place := steps.foldl
      (fun (place : Place) step =>
        match step with
        | .root => []
        | .here => place
        | .up => place.dropLast
        | .name n => place ++ [n])
      []
    return .ok (textOfPlace place)
  | _, .error fault => return .error fault
  | .all, .ok _ => return (← entryOf file).map fun (place, _) => textOfPlace place
  | .parent, .ok place =>
    match ← entryOf file with
    | .ok (place, _) => return .ok (textOfPlace place)
    | .error .missing =>
      match ← look fun m => m.checkDirectory place.dropLast with
      | .ok () => return .ok (textOfPlace place)
      | .error fault => return .error fault
    | .error fault => return .error fault

/-- The complete paths of files. -/
def realpath : Utility :=
  (OptionForms.make "emLPqsz"
    [("canonicalize-existing", "e", .nothing), ("canonicalize-missing", "m", .nothing),
      ("quiet", "q", .nothing), ("strip", "s", .nothing), ("no-symlinks", "s", .nothing),
      ("zero", "z", .nothing)]).program fun name g => do
    needOperand name g
    let needed := match g.last? ["e", "m"] with
      | some "e" => Needed.all
      | some _ => .nothing
      | none => .parent
    forAll g.operands fun file => do
      match ← completePath needed file with
      | .ok path =>
        say name (path ++ if g.has "z" then "\x00" else "\n")
        return 0
      | .error fault =>
        if !g.has "q" then complain name (quoteIfNeeded file ++ ": " ++ fault.message)
        return 1

/-- The complete paths of files, if they are asked for; there are no files that stand for others. -/
def readlink : Utility :=
  (OptionForms.make "efmnqsvz"
    [("canonicalize", "f", .nothing), ("canonicalize-existing", "e", .nothing),
      ("canonicalize-missing", "m", .nothing), ("no-newline", "n", .nothing),
      ("verbose", "v", .nothing), ("zero", "z", .nothing)]).program fun name g => do
    needOperand name g
    forAll g.operands fun file => do
      let result ← match g.last? ["e", "f", "m"] with
        | some "e" => completePath .all file
        | some "f" => completePath .parent file
        | some _ => completePath .nothing file
        | none => pure ((← entryOf file).bind fun _ => .error .invalid)
      match result with
      | .ok path =>
        let ending := if g.has "n" then "" else if g.has "z" then "\x00" else "\n"
        say name (path ++ ending)
        return 0
      | .error fault =>
        if g.has "v" then complain name (quoteIfNeeded file ++ ": " ++ fault.message)
        return 1

/-- The working directory. -/
def pwd : Utility :=
  (OptionForms.make "LP" [("logical", "L", .nothing), ("physical", "P", .nothing)]).program
    fun name _ => do
      say name ((← get).directory ++ "\n")
      return 0

end BuildTrace.Utility
