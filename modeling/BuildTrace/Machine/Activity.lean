import BuildTrace.Machine.Stream

/-!
# Activities

What a process is still to do: steps on the machine, each of which leads to a new state of the
machine and to what the process does then. A step may have to wait for other processes or for a
time.

Processes take turns. One goes on until it has to wait or ends, and a new process goes first. When
all of them have to wait, time passes up to the next time one of them waits for.
-/

namespace BuildTrace.Machine

/-- What a process is still to do. -/
inductive Activity where
  /-- Nothing: it ends. -/
  | finish (outcome : Outcome)
  /-- A step. -/
  | act (step : Machine → Machine × Activity)
  /-- A step that may have to wait, at most until a time. -/
  | await (deadline : Option Nat) (step : Machine → Option (Machine × Activity))
  /-- The start of another process, and what the process does then. Both get the number of the new
  process. -/
  | fork (child parent : Nat → Activity)

instance : Inhabited Activity := ⟨.finish (.exited 0)⟩

/-- A process with what it is still to do. -/
structure Thread where
  /-- The number of the process. -/
  process : Nat
  /-- What it is still to do. -/
  activity : Activity

/-- How a machine comes to rest. -/
inductive Rest where
  /-- All processes have ended. -/
  | done
  /-- The processes that are left do not end. -/
  | endless
  deriving DecidableEq

/-- The next time for which one of the threads waits. -/
def nextTime? (m : Machine) (threads : List Thread) : Option Nat :=
  (threads.filterMap fun t =>
    match t.activity with
    | .await (some time) _ => if m.time < time then some time else none
    | _ => none).min?

/-- The machine with a new process, which a process has started. -/
def addProcess (m : Machine) (parent : Nat) : Nat × Machine :=
  let number := m.nextProcess
  let streams := ((m.process? parent).map (·.streams)).getD []
  let ignored := ((m.process? parent).map (·.ignored)).getD []
  let process : Process := { number, parent, streams, ignored }
  (number, { m with processes := process :: m.processes, nextProcess := number + 1 })

/-- Let threads take turns, for a number of steps. `idle` of them had to wait one after the other,
the last ones. -/
def run : Nat → Machine → (threads : List Thread) → (idle : Nat) → Machine × Rest
  | 0, m, _, _ => (m, .endless)
  | _, m, [], _ => (m, .done)
  | fuel + 1, m, thread :: threads, idle =>
    match m.process? thread.process with
    | none => run fuel m threads 0
    | some p =>
      if p.outcome.isSome then run fuel m threads 0
      -- All threads have waited in turn. Only time can help, if one of them waits for it.
      else if (threads.length < idle) then
        match m.nextTime? (thread :: threads) with
        | some time => run fuel { m with time } (thread :: threads) 0
        | none => (m, .endless)
      -- A stopped process waits like any other, for the signal that lets it go on.
      else if p.isStopped then run fuel m (threads ++ [thread]) (idle + 1)
      else
        match thread.activity with
        | .finish outcome => run fuel (m.finish thread.process outcome) threads 0
        | .act step =>
          -- A thread keeps its turn until it has to wait.
          let (m, activity) := step m
          run fuel m ({ thread with activity } :: threads) 0
        | .await deadline step =>
          match step m with
          | some (m, activity) => run fuel m ({ thread with activity } :: threads) 0
          | none =>
            run fuel m (threads ++ [{ thread with activity := .await deadline step }]) (idle + 1)
        | .fork child parent =>
          -- The new process goes first.
          let (number, m) := m.addProcess thread.process
          let first : Thread := ⟨number, child number⟩
          let second : Thread := { thread with activity := parent number }
          run fuel m (first :: second :: threads) 0

/-- The machine at rest, after a process has done what it is to do. -/
def runAll (m : Machine) (process : Nat) (activity : Activity) (steps : Nat) : Machine × Rest :=
  m.run steps [⟨process, activity⟩] 0

end BuildTrace.Machine
