import BuildTrace.FileTree
import BuildTrace.Machine.Fault
import BuildTrace.Machine.Signal

/-!
# Machines

What processes share while they run: files, streams, pipes, and one another. A process knows a
stream by a number of its own; several numbers, also of several processes, may mean the same stream.
Time is counted in milliseconds. It passes only while all processes wait.
-/

namespace BuildTrace

namespace Machine

/-- Where a stream leads to. -/
inductive Target where
  /-- The standard output of the whole run. -/
  | output
  /-- The standard error of the whole run. -/
  | error
  /-- A device that holds nothing. -/
  | null
  /-- A device that holds zeros without an end. -/
  | zero
  /-- A device that holds zeros and takes nothing. -/
  | full
  /-- A pipe, by its number. -/
  | pipe (number : Nat)
  /-- A file. -/
  | file (place : Place)
  /-- A directory. -/
  | directory (place : Place)
  deriving DecidableEq

/-- A stream. -/
structure Stream where
  /-- Where it leads to. -/
  target : Target
  /-- The number of bytes of the file in front of what is read or written next. -/
  offset : Nat := 0
  /-- It can be read from. -/
  reads : Bool := false
  /-- It can be written to. -/
  writes : Bool := false
  /-- What is written goes to the end of the file. -/
  appends : Bool := false

/-- Bytes on their way from a process to another one. -/
structure Pipe where
  /-- The bytes that are read next, as they were written. -/
  front : List (List UInt8) := []
  /-- The bytes behind them, the last ones first. -/
  back : List (List UInt8) := []
  /-- The number of bytes. -/
  size : Nat := 0

/-- How a process ends. -/
inductive Outcome where
  /-- With an exit status. -/
  | exited (status : Nat)
  /-- By a signal. -/
  | killed (signal : Signal)
  deriving DecidableEq

/-- The exit status that stands for the outcome. -/
def Outcome.status : Outcome → Nat
  | exited status => status
  | killed signal => 128 + signal

/-- A process. -/
structure Process where
  /-- The number of the process. -/
  number : Nat
  /-- The number of the process that has started it. -/
  parent : Nat
  /-- Its numbers for streams, with the numbers of the streams. -/
  streams : List (Nat × Nat)
  /-- The signals it takes care of. -/
  caught : List Signal := []
  /-- The signals that do nothing to it. -/
  ignored : List Signal := []
  /-- The signals it has still to take care of. -/
  pending : List Signal := []
  /-- It is stopped. -/
  isStopped : Bool := false
  /-- How it has ended. -/
  outcome : Option Outcome := none
  /-- When it has ended. -/
  ended : Nat := 0

/-- Bytes that were written to the output of the whole run. -/
structure Chunk where
  /-- When they were written. -/
  time : Nat
  /-- They were written to the standard error. -/
  isError : Bool
  /-- The bytes. -/
  bytes : List UInt8

end Machine

open Machine in
/-- What processes share. -/
structure Machine where
  /-- The files. -/
  files : FileTree
  /-- The programs that are always there, by their names. -/
  programs : List String := []
  /-- The time. -/
  time : Nat := 0
  /-- The streams with their numbers. -/
  streams : List (Nat × Stream) := []
  /-- The number of the next stream. -/
  nextStream : Nat := 0
  /-- The pipes with their numbers. -/
  pipes : List (Nat × Pipe) := []
  /-- The processes. -/
  processes : List Process := []
  /-- The number of the next process. -/
  nextProcess : Nat := 1
  /-- What was written to the output of the whole run, the last first. -/
  written : List Chunk := []
  /-- When a process last had a stream to the output of the whole run. -/
  closed : Nat := 0

namespace Machine

/-! ## Processes -/

/-- The process with the number. -/
def process? (m : Machine) (number : Nat) : Option Process :=
  m.processes.find? (·.number == number)

/-- Change a process. -/
def modifyProcess (m : Machine) (number : Nat) (f : Process → Process) : Machine :=
  { m with processes := m.processes.map fun p => if p.number = number then f p else p }

/-- The process goes on. -/
def isAlive (m : Machine) (number : Nat) : Bool :=
  (m.process? number).any (·.outcome.isNone)

/-- The stream that is meant by a number of a process. -/
def stream? (m : Machine) (process number : Nat) : Option (Nat × Stream) :=
  (m.process? process).bind fun p =>
    (p.streams.lookup number).bind fun stream =>
      (m.streams.lookup stream).map (stream, ·)

/-- Some process that goes on has a stream of this kind. -/
def hasStream (m : Machine) (p : Stream → Bool) : Bool :=
  m.processes.any fun process =>
    process.outcome.isNone &&
      process.streams.any fun (_, stream) => (m.streams.lookup stream).any p

/-- The pipe can still be written to. -/
def hasWriter (m : Machine) (pipe : Nat) : Bool :=
  m.hasStream fun s => s.target = .pipe pipe && s.writes

/-- The pipe can still be read from. -/
def hasReader (m : Machine) (pipe : Nat) : Bool :=
  m.hasStream fun s => s.target = .pipe pipe && s.reads

/-! ## Numbers of streams -/

/-- A process gives up numbers of streams. -/
def release (m : Machine) (process : Nat) (gives : Nat → Bool) : Machine :=
  let isOutput := fun (number, stream) =>
    gives number && (m.streams.lookup stream).any fun s => s.target = .output || s.target = .error
  let closed :=
    if (m.process? process).any fun p => p.streams.any isOutput then m.time else m.closed
  let kept := m.modifyProcess process fun p =>
    { p with streams := p.streams.filter fun (number, _) => !gives number }
  -- A stream is closed when no process has a number for it.
  let used := kept.processes.flatMap fun p => p.streams.map Prod.snd
  { kept with closed, streams := m.streams.filter fun (number, _) => used.contains number }

/-- A process gets a number for a stream. -/
def assign (m : Machine) (process number stream : Nat) : Machine :=
  m.modifyProcess process fun p => { p with streams := (number, stream) :: p.streams }

/-- The least number from `least` on that a process has not in use. -/
def freeNumber (m : Machine) (process least : Nat) : Nat :=
  let used := ((m.process? process).map fun p => p.streams.map Prod.fst).getD []
  go used (used.length + 1) least
where
  /-- Try one number after the other. -/
  go (used : List Nat) : Nat → Nat → Nat
    | 0, n => n
    | fuel + 1, n => if used.contains n then go used fuel (n + 1) else n

/-- A new stream, which a process knows by the number. -/
def addStream (m : Machine) (process number : Nat) (stream : Stream) : Machine :=
  let m := m.release process (· == number)
  let grown :=
    { m with streams := (m.nextStream, stream) :: m.streams, nextStream := m.nextStream + 1 }
  grown.assign process number m.nextStream

/-! ## The ends of processes -/

/-- A process ends. -/
def finish (m : Machine) (number : Nat) (outcome : Outcome) : Machine :=
  (m.release number fun _ => true).modifyProcess number fun p =>
    { p with outcome := some outcome, ended := m.time, pending := [] }

/-- Send a signal to a process; zero is none. -/
def send (m : Machine) (number : Nat) (signal : Signal) : Except Fault Machine :=
  match m.process? number with
  | none => .error .noProcess
  | some p =>
    if signal = 0 || p.outcome.isSome then .ok m
    -- Two of the signals cannot be caught or ignored.
    else if signal = Signal.kill then .ok (m.finish number (.killed signal))
    else if signal = Signal.stop then .ok (m.modifyProcess number ({ · with isStopped := true }))
    else
      -- A stopped process goes on even if it catches or ignores the signal.
      let m :=
        if signal = Signal.cont then m.modifyProcess number ({ · with isStopped := false }) else m
      if p.ignored.contains signal then .ok m
      else if p.caught.contains signal then
        .ok (m.modifyProcess number fun p =>
          -- A signal is pending once, however often it is sent.
          { p with pending := p.pending.filter (· != signal) ++ [signal] })
      else if Signal.isHarmless signal then .ok m
      else if Signal.isStop signal then
        .ok (m.modifyProcess number ({ · with isStopped := true }))
      else .ok (m.finish number (.killed signal))

end Machine

end BuildTrace
