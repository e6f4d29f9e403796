import BuildTrace.Shell.Expansion

/-!
# Redirections

How the streams of a shell are made to lead elsewhere, for a command or for good. What a stream was
before is kept under a number that scripts cannot write.
-/

namespace BuildTrace.Shell

open Machine (Fault Opening)

/-- A redirection whose target is known. -/
inductive Wiring where
  /-- The stream leads to a file. -/
  | file (stream : Nat) (direction : Direction) (name : String)
  /-- The stream is that of another number, or is closed. -/
  | copy (stream : Nat) (source : Option Nat)
  /-- The stream holds a text. -/
  | document (stream : Nat) (text : String)

namespace Wiring

/-- The stream that is changed. -/
def stream : Wiring → Nat
  | file n _ _ => n
  | copy n _ => n
  | document n _ => n

end Wiring

namespace Redirection

/-- Why a file cannot be opened, or made, in the words of the shell. -/
def reason (creates : Bool) : Fault → String
  | .missing | .notDirectory => if creates then "Directory nonexistent" else "No such file"
  | fault => fault.message

/-- The redirection with its target. -/
def resolve (substitute : Substitution) : Redirection → Shell Wiring
  | .document stream number => do
    let word := ((← get).documents.lookup number).getD []
    return .document stream (← Expansion.document substitute word)
  | .to stream direction target => do
    let name ← Expansion.text substitute target
    if direction = .copy then
      match name.toList with
      | [c] =>
        if c.isDigit then return .copy stream (some (c.toNat - '0'.toNat))
        else if c = '-' then return .copy stream none
        else fail "Syntax error: Bad fd number"
      | _ => fail "Syntax error: Bad fd number"
    else return .file stream direction name

/-- How the file of a direction is opened. -/
def openingOf (s : State) : Direction → Opening
  | .read | .copy => .toRead
  | .readWrite => { reads := true, writes := true, creates := true }
  | .write isAllowed =>
    if s.hasOption 'C' && !isAllowed then { Opening.toWrite with isNew := true } else .toWrite
  | .append => .toAppend

/-- Keep what a stream is, once for each command. -/
def keep (stream : Nat) : Shell Unit := do
  let s ← get
  match s.kept with
  | [] => return
  | frame :: frames =>
    if frame.any (·.1 == stream) then return
    let copy ← onMachine fun m =>
      match m.stream? s.process stream with
      | none => (none, m)
      | some (index, _) =>
        let number := m.freeNumber s.process 10
        (some number, m.assign s.process number index)
    modify fun s => { s with kept := ((stream, copy) :: frame) :: frames }

/-- Apply a redirection; whether that was possible. -/
def apply (w : Wiring) : Shell Bool := do
  let s ← get
  match w with
  | .file stream direction name =>
    let number ← look fun m => m.freeNumber s.process 10
    let opening := openingOf s direction
    let result ← tryMachine fun m =>
      m.openAs s.process number s.directoryPath (State.pathOf name) opening
    match result with
    | .error fault =>
      let verb := if opening.creates then "create " else "open "
      complain ("cannot " ++ verb ++ name ++ ": " ++ reason opening.creates fault)
      return false
    | .ok () =>
      -- The old stream is put aside only when the new one is there.
      keep stream
      discard (duplicate number stream)
      close number
      return true
  | .copy stream none =>
    keep stream
    close stream
    return true
  | .copy stream (some source) =>
    let isOpen ← look fun m => (m.stream? s.process source).isSome
    if isOpen then
      if source != stream then
        keep stream
        discard (duplicate source stream)
      return true
    else
      complain (toString source ++ ": " ++ Fault.badStream.message)
      return false
  | .document stream text =>
    -- The text waits in a pipe to be read.
    let (reader, writer) ← pipe
    onMachine fun m =>
      match m.stream? s.process writer with
      | some (_, { target := .pipe pipe, .. }) =>
        ((), m.setPipe pipe (((m.pipes.lookup pipe).getD {}).push (bytesOf text)))
      | _ => ((), m)
    close writer
    keep stream
    discard (duplicate reader stream)
    close reader
    return true

/-- Apply redirections up to the first one that is not possible. -/
def applyAll : List Wiring → Shell Bool
  | [] => return true
  | w :: rest => do
    if ← apply w then applyAll rest else return false

/-- Begin a command with streams of its own. -/
def begin : Shell Unit := modify fun s => { s with kept := [] :: s.kept }

/-- Give streams back what they were. -/
def restoreFrame (frame : List (Nat × Option Nat)) : Shell Unit :=
  frame.forM fun (stream, copy) => do
    match copy with
    | none => close stream
    | some number =>
      discard (duplicate number stream)
      close number

/-- End commands with streams of their own until there are only `depth` of them. -/
def unwind (depth : Nat) : Shell Unit := do
  let s ← get
  let frames := s.kept.take (s.kept.length - depth)
  set { s with kept := s.kept.drop frames.length }
  frames.forM restoreFrame

/-- The stream that was the standard error in front of the redirections of the command. -/
def errorStream (s : State) : Nat :=
  match (s.kept.headD []).lookup 2 with
  | some (some number) => number
  | _ => 2

/-- The streams of the command stay what they are. -/
def retain : Shell Unit := do
  match (← get).kept with
  | [] => return
  | frame :: frames =>
    modify fun s => { s with kept := frames }
    frame.forM fun (_, copy) => do
      match copy with
      | some number => close number
      | none => pure ()

end Redirection

end BuildTrace.Shell
