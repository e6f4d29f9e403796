import BuildTrace.Shell.Condition
import BuildTrace.Shell.Expansion

/-!
# Commands of the shell itself

What the commands that a shell does not hand to a program have in common: options, numbers, and
variables that may refuse a value.
-/

namespace BuildTrace.Shell

/-- A command of the shell itself: what it does with its arguments, and its exit status. -/
abbrev Builtin := List String → Shell Nat

namespace Builtin

/-! ## Options and numbers -/

/-- The options of a command, and its other arguments. `known` are the letters, each with whether it
takes an argument. -/
def options (known : List (Char × Bool)) : Nat → List String →
    Shell (List (Char × String) × List String)
  | 0, arguments => return ([], arguments)
  | fuel + 1, arguments => do
    match arguments with
    | [] => return ([], [])
    | a :: rest =>
      match a.toList with
      | '-' :: c :: letters =>
        if a = "--" then return ([], rest)
        else
          match known.lookup c with
          | none => fail ("Illegal option -" ++ c.toString)
          | some false =>
            -- The other letters of the argument are options, too.
            let rest := if letters.isEmpty then rest else String.ofList ('-' :: letters) :: rest
            let (more, operands) ← options known fuel rest
            return ((c, "") :: more, operands)
          | some true =>
            match letters, rest with
            | [], [] => fail ("No arg for -" ++ c.toString ++ " option")
            | [], value :: rest =>
              let (more, operands) ← options known fuel rest
              return ((c, value) :: more, operands)
            | letters, rest =>
              let (more, operands) ← options known fuel rest
              return ((c, String.ofList letters) :: more, operands)
      | _ => return ([], arguments)

/-- The options of a command that take no argument, and its other arguments. -/
def letters (known : String) (arguments : List String) : Shell (List Char × List String) := do
  let size := Text.stepsThrough arguments
  let (given, operands) ← options (known.toList.map (·, false)) size arguments
  return (given.map Prod.fst, operands)

/-- The number that an argument has to be. -/
def number (s : String) : Shell Nat := do
  match Condition.number s with
  | .ok n => if n < 0 || 2147483648 ≤ n then fail ("Illegal number: " ++ s) else return n.toNat
  | .error message => fail message

/-! ## Variables -/

/-- Refuse to change a variable that cannot be changed. -/
def checkWritable (name : String) : Shell Unit := do
  if ((← get).binding? name).any (·.isReadonly) then fail (name ++ ": is read only")

/-- Give a variable a value. -/
def assign (name value : String) : Shell Unit := do
  if !isName name.toList then fail (name ++ ": bad variable name")
  checkWritable name
  modify fun s => s.assign name value

/-- Remove a variable. -/
def unset (name : String) : Shell Unit := do
  if !isName name.toList then fail (name ++ ": bad variable name")
  checkWritable name
  modify fun s => s.dropVariable name

/-- The name and the value in an argument that may set a variable. -/
def splitAssignment (argument : String) : String × Option String :=
  match Text.splitOnce? '=' argument.toList with
  | some (name, value) => (String.ofList name, some (String.ofList value))
  | none => (argument, none)

/-- The text between quotes that take the meaning from all its characters. -/
def quoted (s : String) : String :=
  go s.length s.toList
where
  /-- Quote pieces of the text, of which each is free of quotes or made of them. -/
  go : Nat → List Char → String
    | 0, s => "'" ++ String.ofList s ++ "'"
    | fuel + 1, s =>
      let plain := s.takeWhile (· != '\'')
      let rest := s.drop plain.length
      let quotes := rest.takeWhile (· = '\'')
      let behind := rest.drop quotes.length
      "'" ++ String.ofList plain ++ "'" ++
        (if quotes.isEmpty then ""
         else "\"" ++ String.ofList quotes ++ "\"" ++ if behind.isEmpty then "" else go fuel behind)

/-- Print the variables that satisfy `p` by their names, each behind a word. -/
def listVariables (word : String) (p : Variable → Bool) : Shell Unit := do
  let shown := ((← get).bindings.filter fun v => p v.2).mergeSort fun a b => a.1 ≤ b.1
  let start := if word.isEmpty then "" else word ++ " "
  print (String.join (shown.map fun (name, v) =>
    start ++ name ++ (v.value.elim "" fun value => "=" ++ quoted value) ++ "\n"))

/-- Keep a variable until the end of the function. -/
def keep (name : String) : Shell Unit := modify fun s =>
  match s.saved with
  | [] => s
  | frame :: frames =>
    let old :=
      if name = "-" then some { value := some (String.ofList s.options) } else s.binding? name
    { s with saved := ((name, old) :: frame) :: frames }

/-- Give variables back what they were. -/
def restoreFrame (s : State) (frame : List (String × Option Variable)) : State :=
  frame.foldl
    (fun s (name, old) =>
      match old with
      | some v =>
        if name = "-" then { s with options := (v.value.getD "").toList }
        else
          let s := s.putVariable name v
          -- This variable says where the next option is looked for.
          if name = "OPTIND" then
            { s with optionPlace := (max 1 (((v.value.getD "").toNat?).getD 1), none) }
          else s
      | none => s.dropVariable name)
    s

/-- Give variables back what they were until only `depth` commands with variables of their own are
left. -/
def unwindVariables (depth : Nat) : Shell Unit := modify fun s =>
  let frames := s.saved.take (s.saved.length - depth)
  let s := { s with saved := s.saved.drop frames.length }
  frames.foldl restoreFrame s

end Builtin

end BuildTrace.Shell
