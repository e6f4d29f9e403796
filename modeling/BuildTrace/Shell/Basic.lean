import BuildTrace.Shell.State

/-!
# Steps of a shell

A step of a shell changes the state of the shell, asks the machine for something, and gives a
result or an ending. It is written with what is done behind it, so that a shell can wait in the
middle of a script, and another process can go on in the meantime.
-/

namespace BuildTrace.Shell

open Machine (Activity Amount Fault Outcome Signal)

/-- What is done behind a step, which has given a result or an ending. -/
abbrev Behind (α : Type) := Except Ending α → State → Activity

end BuildTrace.Shell

namespace BuildTrace

/-- A step of a shell, or a number of them. -/
def Shell (α : Type) : Type := Shell.State → Shell.Behind α → Machine.Activity

namespace Shell

open Machine (Activity Amount Fault Outcome Signal)

instance : Monad Shell where
  pure a := fun s behind => behind (.ok a) s
  bind step next := fun s behind =>
    step s fun result s =>
      match result with
      | .ok a => next a s behind
      | .error e => behind (.error e) s

instance : MonadStateOf State Shell where
  get := fun s behind => behind (.ok s) s
  set t := fun _ behind => behind (.ok ()) t
  modifyGet f := fun s behind =>
    match f s with
    | (a, t) => behind (.ok a) t

instance : MonadExceptOf Ending Shell where
  throw e := fun s behind => behind (.error e) s
  tryCatch step handle := fun s behind =>
    step s fun result s =>
      match result with
      | .ok a => behind (.ok a) s
      | .error e => handle e s behind

instance {α : Type} : Inhabited (Shell α) := ⟨fun _ _ => default⟩

/-- The result of a step, or the ending it gives. -/
def outcomeOf {α : Type} (step : Shell α) : Shell (Except Ending α) := fun s behind =>
  step s fun result s => behind (.ok result) s

/-- Give the result or the ending. -/
def give {α : Type} (result : Except Ending α) : Shell α := fun s behind => behind result s

/-! ## Asking the machine -/

/-- Change the machine. -/
def onMachine {α : Type} (f : Machine → α × Machine) : Shell α := fun s behind =>
  .act fun m =>
    match f m with
    | (a, m) => (m, behind (.ok a) s)

/-- Look at the machine. -/
def look {α : Type} (f : Machine → α) : Shell α := onMachine fun m => (f m, m)

/-- Change the machine, or leave it if that fails. -/
def tryMachine (f : Machine → Except Fault Machine) : Shell (Except Fault Unit) :=
  onMachine fun m =>
    match f m with
    | .ok m => (.ok (), m)
    | .error fault => (.error fault, m)

/-- Wait until the machine gives a result, or for a time. -/
def await {α : Type} (deadline : Option Nat) (f : Machine → Option (α × Machine)) : Shell α :=
  fun s behind =>
    .await deadline fun m => (f m).map fun (a, m) => (m, behind (.ok a) s)

/-- End the process. -/
def finish {α : Type} (outcome : Outcome) : Shell α := fun _ _ => .finish outcome

/-- Do nothing for ever. -/
def hang {α : Type} : Shell α := await none fun _ => none

/-- Start another process; its number. -/
def start (child : Shell Unit) : Shell Nat := fun s behind =>
  .fork
    (fun number => child { s with process := number } fun _ s => .finish (.exited s.status))
    (fun number => behind (.ok number) s)

/-! ## Streams -/

/-- Read from a stream; nothing at its end. -/
def read (number : Nat) (amount : Amount) : Shell (Except Fault (List UInt8)) := do
  let process := (← get).process
  await none fun m => m.read? process number amount

/-- The greatest number of bytes that are read at once. -/
def blockSize : Nat := 65536

/-- Read from a stream up to its end. -/
def readAll (number : Nat) : Nat → List (List UInt8) → Shell (Except Fault (List UInt8))
  | 0, _ => hang
  | fuel + 1, chunks => do
    match ← read number { limit := blockSize } with
    | .ok [] => return .ok chunks.reverse.flatten
    | .ok bytes => readAll number fuel (bytes :: chunks)
    | .error fault => return .error fault

/-- Write to a stream. -/
def writeBytes (number : Nat) : Nat → List UInt8 → Shell (Except Fault Unit)
  | 0, _ => hang
  | fuel + 1, bytes => do
    let process := (← get).process
    match ← await none fun m => m.write? process number bytes with
    | .ok count =>
      if count < bytes.length then writeBytes number fuel (bytes.drop count) else return .ok ()
    | .error fault => return .error fault

/-- A number of steps that no script takes. -/
def manySteps : Nat := 1000000000000

/-- Write a text to a stream. -/
def write (number : Nat) (text : String) : Shell (Except Fault Unit) :=
  if text.isEmpty then pure (.ok ()) else writeBytes number manySteps (bytesOf text)

/-- Print a text for a command of the shell. -/
def print (text : String) : Shell Unit := do
  match ← write 1 text with
  | .ok () => pure ()
  | .error _ => modify fun s => { s with lostOutput := true }

/-- Print a text on the standard error. -/
def printError (text : String) : Shell Unit := discard (write 2 text)

/-- What stands in front of a message of the shell. -/
def messageStart (s : State) : String :=
  let command := (s.command.map (· ++ ": ")).getD ""
  s.name ++ ": " ++ toString s.line ++ ": " ++ command

/-- Print a message of the shell. -/
def complain (text : String) : Shell Unit := do
  printError (messageStart (← get) ++ text ++ "\n")

/-- Set the exit status. -/
def setStatus (status : Nat) : Shell Unit := modify fun s => { s with status }

/-- A mistake with a message. -/
def fail {α : Type} (text : String) (status : Nat := 2) : Shell α := do
  complain text
  setStatus status
  throw .fails

/-! ## Processes -/

/-- Wait for the end of a process. -/
def waitFor (number : Nat) : Shell Outcome :=
  await none fun m =>
    match m.process? number with
    | none => some (.exited 127, m)
    | some p =>
      p.outcome.map fun outcome =>
        (outcome, { m with processes := m.processes.filter (·.number != number) })

/-- Give up a number of a stream. -/
def close (number : Nat) : Shell Unit := do
  let process := (← get).process
  onMachine fun m => ((), m.release process (· == number))

/-- Let a number mean the stream of another number. -/
def duplicate (source number : Nat) : Shell (Except Fault Unit) := do
  let process := (← get).process
  tryMachine fun m => m.duplicate process source number

/-- A new pipe, whose ends get numbers from ten on: that to read from and that to write to. -/
def pipe : Shell (Nat × Nat) := do
  let process := (← get).process
  onMachine fun m =>
    let (reader, writer, m) := m.addPipe process 10
    ((reader, writer), m)

/-- The standard output of a process that is started, up to its end, and how the process ends. -/
def outputOf (child : Shell Unit) : Shell (List UInt8 × Outcome) := do
  let (reader, writer) ← pipe
  let number ← start do
    close reader
    discard (duplicate writer 1)
    if writer != 1 then close writer
    child
  close writer
  let bytes ← readAll reader manySteps []
  close reader
  let outcome ← waitFor number
  return (bytes.toOption.getD [], outcome)

end Shell

end BuildTrace
