import BuildTrace.Shell.Builtin.Process
import BuildTrace.Shell.Builtin.Text
import BuildTrace.Shell.Builtin.Variable
import BuildTrace.Shell.Program
import BuildTrace.Shell.Token

/-!
# The commands of the shell by name

Which names are those of commands of the shell, and what a name means in general.
-/

namespace BuildTrace.Shell.Builtin

open Machine (Fault)

/-! ## Endings -/

/-- End the shell. -/
def exit : Builtin := fun arguments => do
  match arguments with
  | [] => pure ()
  | a :: _ => setStatus (← number a)
  throw .exits

/-- End the function. -/
def returning : Builtin := fun arguments => do
  match arguments with
  | [] => pure ()
  | a :: _ => setStatus (← number a)
  throw .returns

/-- End loops, or go on with the next turn of one. -/
def leave (ending : Nat → Ending) : Builtin := fun arguments => do
  let count ← match arguments with
    | [] => pure 1
    | a :: _ => do
      let n ← number a
      if n = 0 then fail ("Illegal number: " ++ a)
      pure n
  let loops := (← get).loops
  if loops = 0 then return 0
  else
    setStatus 0
    throw (ending (min count loops))

/-! ## Names -/

/-- The commands that run other commands, or take the place of the shell. -/
def evaluating : List String := ["eval", ".", "exec", "command"]

/-- The commands whose arguments are read like settings of variables. -/
def declaring : List String := ["alias", "export", "local", "readonly"]

/-- The commands that do not run other commands. -/
def simple : List (String × Builtin) :=
  [(":", succeed), ("[", bracket), ("alias", naming), ("bg", resume), ("break", leave .breaks),
    ("cd", cd), ("chdir", cd), ("continue", leave .continues), ("echo", echo), ("exit", exit),
    ("export", exporting), ("false", fails), ("fg", resume), ("getopts", getopts), ("jobs", jobs),
    ("kill", kill), ("local", localizing), ("printf", printf), ("pwd", pwd), ("read", reading),
    ("readonly", protecting), ("return", returning), ("set", set), ("shift", shift),
    ("test", condition), ("times", times), ("trap", trap), ("true", succeed), ("ulimit", ulimit),
    ("umask", umask), ("unalias", unnaming), ("unset", unsetting), ("wait", wait)]

/-- The commands that look up names. -/
def lookingUp : List String := ["hash", "type"]

/-- The name is that of a command of the shell. -/
def isKnown (name : String) : Bool :=
  evaluating.contains name || lookingUp.contains name || (simple.lookup name).isSome

/-! ## Looking up names -/

/-- The directories in which programs are looked for. -/
def searchPath (s : State) : String := (s.value? "PATH").getD ""

/-- The search path that finds all programs that are always there. -/
def standardPath : String := "/usr/local/sbin:/usr/local/bin:/usr/sbin:/usr/bin:/sbin:/bin"

/-- The file with the name that is the first on the search path. -/
def found? (path name : String) : Shell (Option String) := do
  let s ← get
  look fun m =>
    if name.toList.contains '/' then
      if (m.entry s.directoryPath (State.pathOf name)).isOk then some name else none
    else (Program.candidates m s.directoryPath path name).head?

/-- Say what a name means, in a sentence or with a single word; the exit status. -/
def describe (isVerbose : Bool) (path name : String) : Shell Nat := do
  let s ← get
  let say := fun (sentence word : String) => do
    print ((if isVerbose then name ++ sentence else word) ++ "\n")
    return 0
  if reservedWords.contains name then say " is a shell keyword" name
  else
    match s.aliases.lookup name with
    | some value =>
      say (" is an alias for " ++ value)
        ("alias " ++ String.ofList (Text.dropEndWhile (· = '\n') (aliasText (name, value)).toList))
    | none =>
      if (s.functions.lookup name).isSome then say " is a shell function" name
      else if isKnown name then
        let kind := if specialCommands.contains name then "special shell" else "shell"
        say (" is a " ++ kind ++ " builtin") name
      else
        match ← found? path name with
        | some file => say (" is " ++ file) file
        | none =>
          if isVerbose then print (name ++ ": not found\n")
          return 127

/-- Say what names mean. -/
def type : Builtin := fun names => do
  let path := searchPath (← get)
  let statuses ← names.mapM (describe true path)
  return statuses.foldl max 0

/-- Look for programs. -/
def hash : Builtin := fun arguments => do
  let (_, names) ← letters "r" arguments
  let path := searchPath (← get)
  let statuses ← names.mapM fun name => do
    if isKnown name then return 0
    else
      match ← found? path name with
      | some _ => return 0
      | none =>
        complain (name ++ ": not found")
        return 1
  return statuses.foldl max 0

/-- The command of the shell with the name, if it does not run other commands. -/
def simple? (name : String) : Option Builtin :=
  match name with
  | "type" => some type
  | "hash" => some hash
  | _ => simple.lookup name

/-- Run a command of the shell. A mistake in a special one ends the shell. -/
def call (name : String) (isSpecial : Bool) (action : Shell Nat) : Shell Unit := do
  let outer := (← get).command
  modify fun s => { s with command := some name, lostOutput := false }
  match ← outcomeOf action with
  | .ok status =>
    if (← get).lostOutput then
      complain (name ++ ": I/O error")
      setStatus (Nat.lor status 1)
    else setStatus status
    modify fun s => { s with command := outer, lostOutput := false }
  | .error ending =>
    modify fun s => { s with command := outer, lostOutput := false }
    if ending = .fails && !isSpecial then pure () else throw ending

end BuildTrace.Shell.Builtin
