import BuildTrace.Shell.Arithmetic
import BuildTrace.Utility.Input

/-!
# Making and removing entries

The programs that make directories and files, remove them, and change their rights.
-/

namespace BuildTrace.Utility

open Shell
open Machine (Entry Fault Opening)

/-!
## Rights

The texts that say what rights files are to have. Of all rights only that to execute a file counts.
-/

/-- Who may execute a file. -/
structure Rights where
  /-- The owner may. -/
  owner : Bool
  /-- The group may. -/
  group : Bool
  /-- Others may. -/
  others : Bool

namespace Rights

/-- Everybody has the right, or nobody. -/
def all (value : Bool) : Rights := ⟨value, value, value⟩

/-- Somebody has the right. -/
def any (r : Rights) : Bool := r.owner || r.group || r.others

/-- Somebody gets or loses the right. -/
def put (who : List Char) (value : Bool) (r : Rights) : Rights :=
  let has := fun (c : Char) => who.contains c || who.contains 'a' || who.isEmpty
  ⟨if has 'u' then value else r.owner, if has 'g' then value else r.group,
    if has 'o' then value else r.others⟩

end Rights

/-- What a text makes of rights. -/
abbrev Mode := Rights → Rights

namespace Mode

/-- The mode for the signs and rights behind those whom they are about. -/
def actions? (who : List Char) : Nat → List Char → Option Mode
  | 0, _ => none
  | _, [] => some id
  | fuel + 1, sign :: rest =>
    if !(['+', '-', '='].contains sign) then none
    else
      let letters := rest.takeWhile ['r', 'w', 'x', 'X', 's', 't', 'u', 'g', 'o'].contains
      let own : Mode := fun r =>
        let given := letters.contains 'x' || (letters.contains 'X' && r.any) ||
          (letters.contains 'u' && r.owner) || (letters.contains 'g' && r.group) ||
          (letters.contains 'o' && r.others)
        match sign with
        | '+' => if given then r.put who true else r
        | '-' => if given then r.put who false else r
        | _ => r.put who given
      (actions? who fuel (rest.drop letters.length)).map fun more => more ∘ own

/-- The mode for a part of a text. -/
def clause? (s : List Char) : Option Mode :=
  let who := s.takeWhile ['u', 'g', 'o', 'a'].contains
  let actions := s.drop who.length
  if actions.isEmpty then none else actions? who (actions.length + 1) actions

/-- The mode that a text stands for: rights as a number, or changes of them. -/
def ofText? (text : String) : Option Mode :=
  let s := text.toList
  if !s.isEmpty && s.all Arithmetic.isOctalDigit then
    let n := digitsValue 8 s
    if 4096 ≤ n then none
    else some fun _ => ⟨n / 64 % 2 = 1, n / 8 % 2 = 1, n % 2 = 1⟩
  else
    (Text.splitOn ',' s).foldl
      (fun mode clause => mode.bind fun mode => (clause? clause).map fun more => more ∘ mode)
      (some id)

end Mode

/-! ## Operands -/

/-- End a program that has no operands where it needs some. -/
def needOperand (name : String) (g : Given) (what : String := "operand") : Shell Unit := do
  if g.operands.isEmpty then misuse name ("missing " ++ what)

/-- Without slashes at its end, unless it is the root. -/
def withoutSlashes (file : String) : String :=
  let s := Text.dropEndWhile (· = '/') file.toList
  if s.isEmpty && !file.isEmpty then "/" else String.ofList s

/-! ## Directories -/

/-- The beginnings of a path that end in front of a slash, and the path itself. -/
def stepsOf (file : String) : List String :=
  go [] file.toList
where
  /-- The steps behind what is read already, which is turned around. -/
  go (past : List Char) : List Char → List String
    | [] => if past.isEmpty then [] else [String.ofList past.reverse]
    | '/' :: rest =>
      let here := if past.isEmpty || past.head? = some '/' then [] else [String.ofList past.reverse]
      here ++ go ('/' :: past) rest
    | c :: rest => go (c :: past) rest

/-- Make directories. -/
def mkdir : Utility :=
  (OptionForms.make "m:pvZ"
    [("mode", "m", .value), ("parents", "p", .nothing),
      ("verbose", "v", .nothing)]).program fun name g => do
    needOperand name g
    match g.value? "m" with
    | some mode => if (Mode.ofText? mode).isNone then fail name ("invalid mode " ++ quote mode)
    | none => pure ()
    let make := fun (path : String) => change fun m d => m.makeDirectory d (State.pathOf path)
    let told := fun (path : String) =>
      if g.has "v" then say name (name ++ ": created directory " ++ quote path ++ "\n") else pure ()
    let refuse := fun (path : String) (fault : Fault) => do
      complain name ("cannot create directory " ++ quote path ++ ": " ++ fault.message)
      return 1
    forAll g.operands fun operand => do
      if !g.has "p" then
        match ← make operand with
        | .ok () =>
          told operand
          return 0
        | .error fault => refuse operand fault
      else
        -- Each directory on the way is made unless it is there.
        let steps := stepsOf operand
        for step in steps.map withoutSlashes do
          match ← entryOf step with
          | .ok (_, entry) =>
            if !entry.isDirectory then
              return ← refuse step
                (if step = withoutSlashes operand then .occupied else .notDirectory)
          | .error .missing =>
            match ← make step with
            | .ok () => told (if step = withoutSlashes operand then operand else step)
            | .error fault => return ← refuse step fault
          | .error fault => return ← refuse step fault
        if steps.isEmpty then refuse operand .missing else return 0

/-- Remove directories that are empty. -/
def rmdir : Utility :=
  (OptionForms.make "pv"
    [("ignore-fail-on-non-empty", "ignore-fail-on-non-empty", .nothing),
      ("parents", "p", .nothing), ("verbose", "v", .nothing)]).program fun name g => do
    needOperand name g
    forAll g.operands fun operand => do
      -- The directory itself goes first, then those above it.
      let paths := if g.has "p" then ((stepsOf operand).map withoutSlashes).reverse else [operand]
      for (path, i) in paths.zipIdx do
        if g.has "v" then say name (name ++ ": removing directory, " ++ quote path ++ "\n")
        match ← change fun m d => m.removeDirectory d (State.pathOf path) with
        | .ok () => pure ()
        | .error fault =>
          if fault = .notEmpty && g.has "ignore-fail-on-non-empty" then return 0
          let what := if i = 0 then "failed to remove " else "failed to remove directory "
          complain name (what ++ quote path ++ ": " ++ fault.message)
          return 1
      return 0

/-! ## Removing -/

/-- The last name of a path, without slashes behind it. -/
def lastNameOf (file : String) : String :=
  let s := (withoutSlashes file).toList
  match Text.splitLast? '/' s with
  | some (_, name) => if name.isEmpty then "/" else String.ofList name
  | none => String.ofList s

/-- The path of a name in a directory. -/
def within (directory name : String) : String :=
  if directory.endsWith "/" then directory ++ name else directory ++ "/" ++ name

/-- The names in a directory in order. -/
def sortedNames (place : Place) : Shell (List String) := do
  let names ← look fun m => m.namesIn place
  return (names.map Shell.encode).mergeSort fun a b => a ≤ b

/-- The paths of all that is in a directory, each behind what is in it. -/
def treeOf : Nat → String → Shell (List (String × Bool))
  | 0, _ => return []
  | fuel + 1, path => do
    match ← entryOf path with
    | .ok (place, .directory) =>
      let names ← sortedNames place
      let inner ← names.mapM fun n => treeOf fuel (within path n)
      return inner.flatten ++ [(path, true)]
    | _ => return [(path, false)]

/-- The depth up to which directories are looked through. -/
def depthLimit : Nat := 4096

/-- Remove files, and directories if that is asked for. -/
def rm : Utility :=
  (OptionForms.make "dfiIrRv"
    [("dir", "d", .nothing), ("force", "f", .nothing), ("recursive", "r", .nothing),
      ("verbose", "v", .nothing)]).program fun name g => do
    if !g.has "f" then needOperand name g
    let recursive := g.hasAny ["r", "R"]
    let refuse := fun (operand reason : String) => do
      complain name ("cannot remove " ++ quote operand ++ ": " ++ reason)
      return 1
    forAll g.operands fun operand => do
      let last := lastNameOf operand
      match ← entryOf operand with
      | .error fault =>
        if g.has "f" && (fault = .missing || fault = .notDirectory) then return 0
        else refuse operand fault.message
      | .ok (place, .directory) =>
        -- Neither the root nor the place one is at is removed with all that is in it.
        if place.isEmpty && recursive then
          complain name "it is dangerous to operate recursively on '/'"
          complain name "use --no-preserve-root to override this failsafe"
          return 1
        else if recursive && (last = "." || last = "..") then
          complain name
            ("refusing to remove '.' or '..' directory: skipping " ++
              quote (withoutSlashes operand))
          return 1
        else if recursive then
          let path := withoutSlashes operand
          if g.has "v" then
            for (path, isDirectory) in ← treeOf depthLimit path do
              let what := if isDirectory then "directory " else ""
              say name ("removed " ++ what ++ quote path ++ "\n")
          discard (change fun m _ => .ok (m.dropAt place))
          return 0
        else if g.has "d" then
          match ← change fun m d => m.removeDirectory d (State.pathOf operand) with
          | .ok () =>
            if g.has "v" then say name ("removed directory " ++ quote operand ++ "\n")
            return 0
          | .error fault => refuse operand fault.message
        else refuse operand Fault.isDirectory.message
      | .ok (place, _) =>
        discard (change fun m _ => .ok (m.dropAt place))
        if g.has "v" then say name ("removed " ++ quote operand ++ "\n")
        return 0

/-! ## Files -/

/-- Make files that are not there. -/
def touch : Utility :=
  (OptionForms.make "acd:fhmr:t:"
    [("no-create", "c", .nothing), ("date", "d", .value), ("reference", "r", .value),
      ("time", "time", .value)]).program fun name g => do
    needOperand name g "file operand"
    match g.value? "r" with
    | some file =>
      match ← entryOf file with
      | .ok _ => pure ()
      | .error fault =>
        fail name ("failed to get attributes of " ++ quote file ++ ": " ++ fault.message)
    | none => pure ()
    forAll g.operands fun operand => do
      if operand = "-" then return 0
      match ← entryOf operand with
      | .ok _ => return 0
      | .error fault =>
        if g.has "c" && fault = .missing then return 0
        let opened ← openFile operand { writes := true, creates := true }
        match opened with
        | .ok number =>
          close number
          return 0
        | .error fault =>
          let isSlashed := operand.endsWith "/"
          let what := if isSlashed then "setting times of " else "cannot touch "
          -- A path that ends in a slash asks for a directory, which is missing.
          let fault :=
            if !isSlashed then fault
            else
              match fault with
              | .isDirectory => .missing
              | fault => fault
          complain name (what ++ quote operand ++ ": " ++ fault.message)
          return 1

/-- Let files be executed, or not. -/
def chmod : Utility := fun _ name arguments => do
  let isMode := fun (a : String) =>
    match a.toList with
    | '-' :: c :: _ => "rwxXstugoa0".toList.contains c && a != "-"
    | _ => false
  -- A mode may begin with a dash, and is no option then.
  let arguments :=
    match arguments.findIdx? isMode with
    | some i => arguments.take i ++ ["--", (arguments[i]?).getD ""] ++
        (arguments.drop (i + 1)).filter (· != "--")
    | none => arguments
  let g ← (OptionForms.make "cfRv"
    [("changes", "c", .nothing), ("quiet", "f", .nothing), ("silent", "f", .nothing),
      ("recursive", "R", .nothing), ("verbose", "v", .nothing)]).given name arguments
  match g.operands with
  | [] => misuse name "missing operand"
  | [mode] => misuse name ("missing operand after " ++ quote mode)
  | text :: operands =>
    match Mode.ofText? text with
    | none => misuse name ("invalid mode: " ++ quote text)
    | some mode =>
      forAll operands fun operand => do
        match ← entryOf operand with
        | .error fault =>
          if !g.has "f" then
            complain name ("cannot access " ++ quote operand ++ ": " ++ fault.message)
          return 1
        | .ok _ =>
          let paths ← if g.has "R" then treeOf depthLimit operand else pure [(operand, false)]
          for (path, _) in paths do
            match ← entryOf path with
            | .ok (place, .file _ isExecutable) =>
              discard (change fun m _ => .ok (m.setExecutable place (mode (.all isExecutable)).any))
            | _ => pure ()
          return 0

/-- Make a file or a directory with a name of its own. -/
def mktemp : Utility :=
  (OptionForms.make "dp:qtu"
    [("directory", "d", .nothing), ("tmpdir", "p", .optional), ("quiet", "q", .nothing),
      ("dry-run", "u", .nothing)]).program fun name g => do
    match g.operands.drop 1 with
    | _ :: _ => misuse name "too many templates"
    | [] => pure ()
    let template := g.operands.headD "tmp.XXXXXXXXXX"
    let marks := (template.toList.reverse.takeWhile (· = 'X')).length
    if marks < 3 then fail name ("too few X's in template " ++ quote template)
    let s ← get
    let place := ((g.value? "p") <|> (s.environment.lookup "TMPDIR")).getD "/tmp"
    let lead := if g.operands.isEmpty || g.hasAny ["p", "t"] then place ++ "/" else ""
    -- A number that has not been used takes the place of a random one.
    let serial := Nat.toDigits 10 (s.process + (← look fun m => m.files.entries.length))
    let own := (List.replicate (marks - serial.length) 'a' ++ serial).take marks
    let path := lead ++ String.ofList (template.toList.take (template.length - marks) ++ own)
    let result ←
      if g.has "u" then pure (.ok ())
      else if g.has "d" then change fun m d => m.makeDirectory d (State.pathOf path)
      else do
        match ← openFile path { writes := true, creates := true, isNew := true } with
        | .ok number =>
          close number
          pure (.ok ())
        | .error fault => pure (.error fault)
    match result with
    | .ok () =>
      say name (path ++ "\n")
      return 0
    | .error fault =>
      let what := if g.has "d" then "directory" else "file"
      if !g.has "q" then
        complain name ("failed to create " ++ what ++ " via template " ++
          quote (lead ++ template) ++ ": " ++ fault.message)
      return 1

end BuildTrace.Utility
