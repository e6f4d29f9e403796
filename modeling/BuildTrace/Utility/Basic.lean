import BuildTrace.Shell.Basic

/-!
# Utilities

What the programs that are always there have in common. A program has a name under which it is
called, and arguments. It may ask for another program to take its place.
-/

namespace BuildTrace

open Machine (Fault)

/-- How a program hands over to another one: by its name and its arguments. There is a result only
if that is not possible. -/
abbrev Handover := List String → Shell Fault

/-- A program that is always there: what it does, and its exit status. -/
abbrev Utility := Handover → (name : String) → (arguments : List String) → Shell Nat

namespace Utility

open Shell

/-- Print a message of a program. -/
def complain (name message : String) : Shell Unit := printError (name ++ ": " ++ message ++ "\n")

/-- End the program. -/
def quit {α : Type} (status : Nat) : Shell α := finish (.exited status)

/-- End the program with a message. -/
def fail {α : Type} (name message : String) (status : Nat := 1) : Shell α := do
  complain name message
  quit status

/-- The line that says where there is more to know about a program. -/
def helpLine (name : String) : String := "Try '" ++ name ++ " --help' for more information."

/-- End the program with a message about how it is called. -/
def misuse {α : Type} (name message : String) (status : Nat := 1) : Shell α :=
  fail name (message ++ "\n" ++ helpLine name) status

/-- Print bytes for a program, which ends if that is not possible. -/
def put (name : String) (bytes : List UInt8) : Shell Unit := do
  if bytes.isEmpty then return
  match ← writeBytes 1 manySteps bytes with
  | .ok () => pure ()
  | .error fault => fail name ("write error: " ++ fault.message)

/-- Print a text for a program. -/
def say (name text : String) : Shell Unit := put name (bytesOf text)

end Utility

end BuildTrace
