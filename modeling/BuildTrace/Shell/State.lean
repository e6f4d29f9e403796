import BuildTrace.Machine.Activity
import BuildTrace.Shell.Bytes
import BuildTrace.Shell.Script

/-!
# The state of a shell

What a shell knows by itself while it runs a script: its variables, its functions and what it has
been told to do. What it shares with other processes belongs to the machine.
-/

namespace BuildTrace.Shell

open Machine (Signal Outcome)

/-- A variable. -/
structure Variable where
  /-- Its value, if it has one. -/
  value : Option String := none
  /-- Programs get to see it. -/
  isExported : Bool := false
  /-- Its value cannot be changed. -/
  isReadonly : Bool := false

/-- Commands that run while the script goes on. -/
structure Job where
  /-- The number of the job. -/
  number : Nat
  /-- The processes, with their ends as far as they are known. The last one counts. -/
  processes : List (Nat × Option Outcome)
  /-- The end of the job has been told. -/
  isTold : Bool := false

/-- The outcome of a job that has ended. -/
def Job.outcome? (j : Job) : Option Outcome :=
  if j.processes.all fun (_, outcome) => outcome.isSome then
    j.processes.getLast?.bind Prod.snd
  else none

/-- Why the commands behind a command are not run. -/
inductive Ending where
  /-- A number of loops end. -/
  | breaks (loops : Nat)
  /-- A loop goes on with its next turn, after a number of inner loops have ended. -/
  | continues (loops : Nat)
  /-- A function or a script that is read ends. -/
  | returns
  /-- The shell ends. -/
  | exits
  /-- A mistake has happened, which ends the shell unless a command of the shell has made it. -/
  | fails
  deriving DecidableEq

/-- The state of a shell. -/
structure State where
  /-- The number of its process. -/
  process : Nat
  /-- The number that scripts see as the one of the process. -/
  main : Nat
  /-- The working directory. -/
  directory : String
  /-- The rights that new files do not get. -/
  umask : Nat := 18
  /-- The variables that programs are started with. -/
  environment : List (String × String) := []
  /-- The name of the script. -/
  name : String := "sh"
  /-- The arguments of the script. -/
  arguments : List String := []
  /-- The variables, in the order in which they were made. -/
  bindings : List (String × Variable) := []
  /-- The functions. -/
  functions : List (String × Script) := []
  /-- The aliases. -/
  aliases : List (String × String) := []
  /-- The options that are set, by their letters. -/
  options : List Char := []
  /-- The exit status of the last command. -/
  status : Nat := 0
  /-- The exit status of the last script in a word of the command. -/
  inner : Option Nat := none
  /-- The line of the command. -/
  line : Nat := 1
  /-- The command of the shell that is run. -/
  command : Option String := none
  /-- The documents, with their numbers. -/
  documents : List (Nat × Word) := []
  /-- The number of the next document. -/
  nextDocument : Nat := 0
  /-- What is done at signals, and at the end for the number zero. -/
  traps : List (Signal × String) := []
  /-- The signals that do nothing to the shell whatever is arranged for them. -/
  deaf : List Signal := []
  /-- The number of loops around the command. -/
  loops : Nat := 0
  /-- The number of functions around the command. -/
  depth : Nat := 0
  /-- The variables that get back their values, for each function and each command with variables of
  its own. -/
  saved : List (List (String × Option Variable)) := []
  /-- The jobs, the last first. -/
  jobs : List Job := []
  /-- The number of the last process that was started while the script went on. -/
  background : Option Nat := none
  /-- The number of the argument at which options are looked for, and the number of its characters
  that were looked at. -/
  optionPlace : Nat × Option Nat := (1, none)
  /-- The streams that get back what they were, for each redirected command: their numbers, with the
  numbers under which they are kept, unless they were closed. Programs do not get these numbers. -/
  kept : List (List (Nat × Option Nat)) := []
  /-- The commands are not printed, since they belong to what is printed in front of a command. -/
  isTracing : Bool := false
  /-- What was written has got lost. -/
  lostOutput : Bool := false

namespace State

/-- The option is set. -/
def hasOption (s : State) (letter : Char) : Bool := s.options.contains letter

/-- Set or unset an option. -/
def setOption (s : State) (letter : Char) (value : Bool) : State :=
  let others := s.options.filter (· != letter)
  { s with options := if value then letter :: others else others }

/-- The variable with the name. -/
def binding? (s : State) (name : String) : Option Variable := s.bindings.lookup name

/-- The value of a variable. -/
def value? (s : State) (name : String) : Option String := (s.binding? name).bind (·.value)

/-- The variable is changed, or made at the end. -/
def putVariable (s : State) (name : String) (v : Variable) : State :=
  let bindings :=
    if (s.binding? name).isSome then
      s.bindings.map fun entry => if entry.1 == name then (name, v) else entry
    else s.bindings ++ [(name, v)]
  { s with bindings }

/-- Forget a variable. -/
def dropVariable (s : State) (name : String) : State :=
  { s with bindings := s.bindings.filter (·.1 != name) }

/-- Give a variable a value. -/
def assign (s : State) (name value : String) : State :=
  let v := (s.binding? name).getD {}
  let isExported := v.isExported || s.hasOption 'a'
  let s := s.putVariable name { v with value := some value, isExported }
  if name = "OPTIND" then { s with optionPlace := (max 1 (value.toNat?.getD 1), none) } else s

/-- The path of a file that is named in the script. -/
def pathOf (name : String) : Path := ⟨decode name⟩

/-- The path of the working directory. -/
def directoryPath (s : State) : Path := ⟨decode s.directory⟩

/-- The characters at which fields are separated. -/
def separators (s : State) : List Char := ((s.value? "IFS").getD " \t\n").toList

/-! ## The variables that programs see -/

/-- The number of chains in which variables are kept. -/
def chainCount : Nat := 39

/-- The chain of a variable. -/
def chainOf (name : String) : Nat :=
  let first := (name.toList.head?.map Char.toNat).getD 0
  (name.toList.foldl (fun n c => n + c.toNat) (first * 16)) % chainCount

/-- The variables that programs get to see, chain by chain. -/
def exported (s : State) : List (String × String) :=
  let visible := s.bindings.filterMap fun (name, v) =>
    if v.isExported then v.value.map (name, ·) else none
  (List.range chainCount).flatMap fun chain => visible.filter fun (name, _) => chainOf name = chain

end State

end BuildTrace.Shell
