import BuildTrace.Process.Command
import BuildTrace.Shell.Evaluation

/-!
# Executions

What comes of starting a command: the lines it writes and when, how it ends, and the files it
leaves. The standard input of a command is empty. A command that is cancelled is ended together
with all processes it has started.
-/

namespace BuildTrace

/-- A line of output. -/
structure OutputLine where
  /-- When the line was complete. -/
  time : Nat
  /-- The stream it was written to. -/
  stream : Command.Stream
  /-- The line. -/
  text : String

/-- A command that was started and runs to its end. -/
structure Execution where
  /-- The lines it writes, in order. -/
  lines : List OutputLine
  /-- When it ends, unless it goes on for ever. -/
  finish : Option Nat
  /-- Its exit code, unless a signal ends it. -/
  code : Option Int
  /-- The files it leaves. -/
  files : FileTree

namespace Execution

/-- How the command ends if nobody cancels it. -/
def exit (e : Execution) : Command.Exit := ⟨e.code, false⟩

/-- How the command ends if it is cancelled: a command that is still running has no exit code. -/
def exitWhenCancelled (e : Execution) (time : Nat) : Command.Exit :=
  ⟨if e.finish.any (· ≤ time) then e.code else none, true⟩

/-- How the command ends if it is cancelled at its first line. -/
def exitAtFirstLine (e : Execution) : Command.Exit :=
  match e.lines.head? with
  | some line => e.exitWhenCancelled line.time
  | none => e.exit

/-- The run of the command. -/
def run (e : Execution) : Command.Run where
  lines := e.lines.map fun line => (line.stream, line.text)
  result := .ok e.exit

/-! ## Lines -/

/-- The bytes of a stream, line by line, each with the time at which it is complete. `started` are
the bytes of a line that is not; it is complete when the stream is closed. -/
def linesFrom (closed : Nat) (started : List UInt8) :
    List (Nat × List UInt8) → List (Nat × List UInt8)
  | [] => if started.isEmpty then [] else [(closed, started)]
  | (time, bytes) :: rest =>
    let lines := Command.byteLines (started ++ bytes)
    match lines.getLast? with
    | none => linesFrom closed [] rest
    | some last =>
      -- The last line may go on in the next chunk.
      if last.getLast? = some 10 then lines.map (time, ·) ++ linesFrom closed [] rest
      else lines.dropLast.map (time, ·) ++ linesFrom closed last rest

/-- The lines of one stream among chunks in order. -/
def streamLines (closed : Nat) (chunks : List Machine.Chunk) (stream : Command.Stream) :
    List OutputLine :=
  let own := chunks.filter fun c => c.isError == (stream == .error)
  (linesFrom closed [] (own.map fun c => (c.time, c.bytes))).flatMap fun (time, bytes) =>
    (Command.streamLines bytes).map fun text => ⟨time, stream, text⟩

/-- The lines of both streams by their times. -/
def linesOf (m : Machine) : List OutputLine :=
  let chunks := m.written.reverse
  (streamLines m.closed chunks .output ++ streamLines m.closed chunks .error).mergeSort
    fun a b => a.time ≤ b.time

/-! ## Starting a command -/

/-- The number of the process that starts the command. -/
def starter : Nat := 999

/-- The number of the process of the command. -/
def process : Nat := 1000

/-- The number of steps after which a command is one that does not end. -/
def stepLimit : Nat := 2000000

/-- The programs that are always there. -/
def programs : List String := Shell.Invocation.names ++ Utility.all.map Prod.fst

/-- The machine on which a command starts. The standard input holds nothing. -/
def initialMachine (files : FileTree) : Machine where
  files := files
  programs := programs
  streams :=
    [(0, { target := .null, reads := true }), (1, { target := .output, writes := true }),
      (2, { target := .error, writes := true })]
  nextStream := 3
  processes := [{ number := process, parent := starter, streams := [(0, 0), (1, 1), (2, 2)] }]
  nextProcess := process + 1

/-- The state in which a command is started. -/
def initialState (directory : Path) (bindings : List (String × String)) : Shell.State where
  process := process
  main := process
  directory := Shell.encode directory.text
  environment := bindings.map fun (name, value) => (Shell.encode name, Shell.encode value)

/-- The program that is run for a command; a name is looked for on the search path. -/
def imageOf (m : Machine) (directory : Path) (bindings : List (String × String)) (c : Command) :
    Except Machine.Fault Shell.Image := do
  let program := Shell.encode c.program.text
  let searchPath := ((bindings.lookup "PATH").map Shell.encode).getD Shell.Program.defaultPath
  if program.isEmpty then .error .missing
  else
    let arguments := program :: c.arguments.map Shell.encode
    let (_, image) ← Shell.Program.find m directory searchPath false program arguments
    .ok image

/-- Why a command cannot be started. -/
def errorOf (c : Command) : Machine.Fault → Command.RunError
  | .missing => .notFound c.program
  | _ => .spawn

/-- Start a command among the files, with the variables it inherits. -/
def start (files : FileTree) (bindings : List (String × String)) (c : Command) :
    Except Command.RunError Execution := do
  let texts := c.program.text :: c.directory.text :: c.arguments
  -- No word of a command can hold a zero character.
  if texts.any fun t => t.toList.contains '\x00' then .error .spawn
  else
    let m := initialMachine files
    match m.entry ⟨"/"⟩ c.directory with
    | .error fault => .error (errorOf c fault)
    | .ok (place, entry) =>
      if !entry.isDirectory then .error .spawn
      else
        -- The command knows its directory by its plainest path.
        let directory := FileTree.pathOf place
        match imageOf m directory bindings c with
        | .error fault => .error (errorOf c fault)
        | .ok image =>
          let activity :=
            Shell.Evaluation.start image (initialState directory bindings) fun _ _ =>
              .finish (.exited 0)
          let (m, _) := m.runAll process activity stepLimit
          let main := m.process? process
          let outcome := main.bind (·.outcome)
          .ok
            { lines := linesOf m
              -- A command whose steps ran out goes on for ever.
              finish := outcome.bind fun _ => main.map (·.ended)
              code := outcome.bind fun
                | .exited status => some (status : Int)
                | .killed _ => none
              files := m.files }

end Execution

end BuildTrace
