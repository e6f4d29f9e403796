import BuildTrace.Shell.Builtin.Table

/-!
# How a shell is called

The arguments with which a shell is started, and what it knows from its start.
-/

namespace BuildTrace.Shell

/-- What a shell is to run. -/
inductive Invocation.Task where
  /-- A script in an argument. -/
  | script (text : String)
  /-- The script in a file. -/
  | file (name : String)
  /-- The script on the standard input. -/
  | input
  deriving DecidableEq

namespace Invocation

/-- The names of the shell as a program. -/
def names : List String := ["sh", "dash"]

/-- The variables a shell has from its start. -/
def standardVariables : List (String × String) :=
  [("IFS", " \t\n"), ("PATH", Builtin.standardPath), ("PS1", "# "), ("PS2", "> "), ("PS4", "+ "),
    ("OPTIND", "1")]

/-- A variable that a shell takes over. -/
def isInherited (name : String) : Bool := isName name.toList && name != "IFS" && name != "OPTIND"

/-- The state with which a shell starts in the state of a program. -/
def startState (parent : Nat) (s : State) (name : String) : State :=
  let s : State :=
    { process := s.process
      main := s.process
      directory := s.directory
      umask := s.umask
      environment := s.environment
      name }
  let s := standardVariables.foldl (fun s (name, value) => s.assign name value) s
  let s := (s.environment.filter fun v => isInherited v.1).foldl
    (fun s (name, value) => s.putVariable name { value := some value, isExported := true }) s
  -- These two are set anew, whatever was inherited.
  let s := s.putVariable "PPID" { value := some (toString parent) }
  s.putVariable "PWD" { value := some s.directory, isExported := true }

/-- The options at the beginning of the arguments: whether the script is an argument, and the other
arguments. -/
def options : Nat → List String → Shell (Bool × List String)
  | 0, arguments => return (false, arguments)
  | fuel + 1, arguments => do
    match arguments with
    | [] => return (false, [])
    | a :: rest =>
      if a = "--" || a = "-" then return (false, rest)
      else
        match a.toList with
        | sign :: letters =>
          if sign = '-' || sign = '+' then
            let hasScript := letters.contains 'c'
            let rest ← Builtin.setLetters (sign = '-') (letters.filter (· != 'c')) rest
            let (more, rest) ← options fuel rest
            return (hasScript || more, rest)
          else return (false, arguments)
        | [] => return (false, arguments)

/-- What the shell is to run, with the options and the arguments set as it is told. -/
def task (arguments : List String) : Shell Task := do
  modify fun s => { s with line := 0 }
  let (hasScript, operands) ← options (arguments.length + 1) arguments
  Builtin.refuseJobControl
  let setArguments := fun (arguments : List String) =>
    modify fun s => { s with arguments, line := 1 }
  if hasScript then
    match operands with
    | [] => fail "-c requires an argument"
    | text :: rest =>
      match rest with
      | [] => setArguments []
      -- The argument behind the script is the name of the shell.
      | name :: rest =>
        modify fun s => { s with name }
        setArguments rest
      return .script text
  else if (← get).hasOption 's' || operands.isEmpty then
    modify fun s => s.setOption 's' true
    setArguments operands
    return .input
  else
    setArguments (operands.drop 1)
    return .file (operands.headD "")

end Invocation

end BuildTrace.Shell
