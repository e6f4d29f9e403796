import BuildTrace.Utility.Change

/-!
# Moving and copying entries
-/

namespace BuildTrace.Utility

open Shell
open Machine (Entry Fault Opening)

/-- The options of programs that move or copy. -/
def transferForms (letters : String) : OptionForms :=
  OptionForms.make letters
    [("archive", "a", .nothing), ("force", "f", .nothing), ("no-clobber", "n", .nothing),
      ("no-target-directory", "T", .nothing), ("recursive", "r", .nothing),
      ("target-directory", "t", .value), ("update", "u", .optional), ("verbose", "v", .nothing)]

/-- The sources and the targets of a program that moves or copies: into a directory, or to another
path. -/
def transfers (name : String) (g : Given) : Shell (List (String × String)) := do
  let inside := fun (sources : List String) (directory : String) =>
    sources.map fun source => (source, within directory (lastNameOf source))
  match g.value? "t" with
  | some directory =>
    needOperand name g "file operand"
    match ← entryOf directory with
    | .ok (_, .directory) => return inside g.operands directory
    | .ok _ => fail name ("target directory " ++ quote directory ++ ": Not a directory")
    | .error fault => fail name ("target directory " ++ quote directory ++ ": " ++ fault.message)
  | none =>
    match g.operands with
    | [] => misuse name "missing file operand"
    | [source] => misuse name ("missing destination file operand after " ++ quote source)
    | [source, target] =>
      if g.has "T" then return [(source, target)]
      match ← entryOf target with
      | .ok (_, .directory) => return inside [source] target
      | _ => return [(source, target)]
    | operands =>
      let target := operands.getLast?.getD ""
      if g.has "T" then misuse name ("extra operand " ++ quote ((operands[2]?).getD ""))
      match ← entryOf target with
      | .ok (_, .directory) => return inside operands.dropLast target
      | .ok _ => fail name ("target " ++ quote target ++ ": Not a directory")
      | .error fault => fail name ("target " ++ quote target ++ ": " ++ fault.message)

/-- The place of a path at which nothing need be. -/
def placeOf (file : String) : Shell (Except Fault Place) := do
  let s ← get
  look fun m => m.resolve s.directoryPath (State.pathOf file)

/-- Move entries. -/
def mv : Utility := (transferForms "finTt:uv").program fun name g => do
  let mut status := 0
  for (source, target) in ← transfers name g do
    let refuse := fun (message : String) => do
      complain name message
      return 1
    let result ← do
      match ← entryOf source with
      | .error fault => refuse ("cannot stat " ++ quote source ++ ": " ++ fault.message)
      | .ok (origin, entry) =>
        let old := (← entryOf target).toOption
        let place := (← placeOf target).toOption.getD []
        if old.any fun o => o.1 = origin then
          refuse (quote source ++ " and " ++ quote target ++ " are the same file")
        else if entry.isDirectory && origin.isPrefixOf place then
          refuse ("cannot move " ++ quote source ++ " to a subdirectory of itself, " ++
            quote target)
        else if g.has "n" && old.isSome then pure 0
        else if entry.isDirectory && old.any fun o => !o.2.isDirectory then
          refuse ("cannot overwrite non-directory " ++ quote target ++ " with directory " ++
            quote source)
        else if !entry.isDirectory && old.any fun o => o.2.isDirectory then
          refuse ("cannot overwrite directory " ++ quote target ++ " with non-directory")
        else
          match ← change fun m d => m.rename d (State.pathOf source) (State.pathOf target) with
          | .ok () =>
            if g.has "v" then
              say name ("renamed " ++ quote source ++ " -> " ++ quote target ++ "\n")
            pure 0
          | .error fault =>
            refuse ("cannot move " ++ quote source ++ " to " ++ quote target ++ ": " ++
              fault.message)
    status := max status result
  return status

/-- Copy an entry, a directory with all that is in it. -/
def copyEntry (name : String) (g : Given) : Nat → (source target : String) → Shell Nat
  | 0, _, _ => return 1
  | fuel + 1, source, target => do
    let refuse := fun (message : String) => do
      complain name message
      return 1
    let told :=
      if g.has "v" then say name (quote source ++ " -> " ++ quote target ++ "\n") else pure ()
    match ← entryOf source with
    | .error fault => refuse ("cannot stat " ++ quote source ++ ": " ++ fault.message)
    | .ok (origin, entry) =>
      let old := (← entryOf target).toOption
      let place := (← placeOf target).toOption.getD []
      match entry with
      | .directory =>
        if !g.hasAny ["r", "R", "a"] then
          refuse ("-r not specified; omitting directory " ++ quote source)
        else if origin.isPrefixOf place then
          refuse ("cannot copy a directory, " ++ quote source ++ ", into itself, " ++ quote target)
        else if old.any fun o => !o.2.isDirectory then
          refuse ("cannot overwrite non-directory " ++ quote target ++ " with directory " ++
            quote source)
        else
          let names ← sortedNames origin
          let made ←
            if old.isSome then pure (.ok ())
            else do
              let result ← change fun m d => m.makeDirectory d (State.pathOf target)
              if result.isOk then told
              pure result
          match made with
          | .ok () =>
            let statuses ← names.mapM fun n =>
              copyEntry name g fuel (within source n) (within target n)
            return statuses.foldl max 0
          | .error fault =>
            refuse ("cannot create directory " ++ quote target ++ ": " ++ fault.message)
      | _ =>
        if old.any fun o => o.1 = origin then
          refuse (quote source ++ " and " ++ quote target ++ " are the same file")
        else if old.any fun o => o.2.isDirectory then
          refuse ("cannot overwrite directory " ++ quote target ++ " with non-directory")
        else if g.has "n" && old.isSome then return 0
        else
          match ← bytesOfInput (if source = "-" then "./-" else source) with
          | .error fault =>
            refuse ("cannot open " ++ quote source ++ " for reading: " ++ fault.message)
          | .ok bytes =>
            let toFile := if target = "-" then "./-" else target
            match ← writeFile toFile .toWrite bytes with
            | .error fault =>
              let fault := if fault = .isDirectory then Fault.notDirectory else fault
              refuse ("cannot create regular file " ++ quote target ++ ": " ++ fault.message)
            | .ok () =>
              let isExecutable := match entry with
                | .file _ e => e
                | .program _ => true
                | _ => false
              if old.isNone && isExecutable then
                discard (change fun m _ => .ok (m.setExecutable place true))
              told
              return 0

/-- Copy entries. -/
def cp : Utility := (transferForms "abdfHiLlnPpRrsTt:uvx").program fun name g => do
  let pairs ← transfers name g
  let statuses ← pairs.mapM fun (source, target) => copyEntry name g depthLimit source target
  return statuses.foldl max 0

end BuildTrace.Utility
