import BuildTrace.Shell.Builtin.Basic
import BuildTrace.Shell.Format

/-!
# Printing and looking at conditions

The commands of the shell that print texts or look at conditions.
-/

namespace BuildTrace.Shell.Builtin

/-- Print the arguments with spaces between them. -/
def echo : Builtin := fun arguments => do
  let (ends, arguments) :=
    match arguments with
    | "-n" :: rest => (false, rest)
    | arguments => (true, arguments)
  let (text, stops) := unescapeText (" ".intercalate arguments)
  print (String.ofList text ++ if ends && !stops then "\n" else "")
  return 0

/-- Print the arguments in a format. -/
def printf : Builtin := fun arguments => do
  let (_, operands) ← letters "" arguments
  match operands with
  | [] => fail "usage: printf format [arg ...]"
  | format :: arguments =>
    let p := Printing.ofFormat format arguments
    print p.text
    p.messages.reverse.forM complain
    if p.isWrong then
      setStatus 2
      throw .fails
    return if p.messages.isEmpty then 0 else 1

/-- Look at a condition. -/
def condition (words : List String) : Shell Nat := do
  let s ← get
  let verdict ← look fun m =>
    Condition.value ⟨m, s.process, s.directoryPath⟩ (words.length + 1) words
  match verdict with
  | .ok value => return if value then 0 else 1
  | .error message => fail message

/-- Look at a condition in brackets. -/
def bracket : Builtin := fun words => do
  if words.getLast? = some "]" then condition words.dropLast else fail "missing ]"

/-- Do nothing with success. -/
def succeed : Builtin := fun _ => return 0

/-- Do nothing without success. -/
def fails : Builtin := fun _ => return 1

end BuildTrace.Shell.Builtin
