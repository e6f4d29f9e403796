import BuildTrace.Path.Basic
import BuildTrace.Text.Blank
import BuildTrace.Text.Quoted
import BuildTrace.Text.Utf8

/-!
# Commands

A command to run, and what comes of running it: lines on two streams, and how it ended.
-/

namespace BuildTrace

/-- A command to run. -/
structure Command where
  /-- The program. -/
  program : Path
  /-- The arguments. -/
  arguments : List String
  /-- The directory to run it in. -/
  directory : Path
  deriving DecidableEq

namespace Command

/-- The command as it would be typed. -/
def line (c : Command) : String := Text.shellWords (c.program.text :: c.arguments)

/-- An output stream. -/
inductive Stream where
  /-- The standard output. -/
  | output
  /-- The standard error. -/
  | error
  deriving DecidableEq, Repr

/-- Why a command could not be run. -/
inductive RunError where
  /-- There is no such program. -/
  | notFound (program : Path)
  /-- The program cannot be started. -/
  | spawn
  /-- The end of the program cannot be waited for. -/
  | wait
  deriving DecidableEq, Repr

/-- The message to the user about a program that is not there. -/
def RunError.notFoundMessage (program : Path) : String :=
  "Executable not found: '" ++ program.text ++ "'"

/-- How a command ended. -/
structure Exit where
  /-- The exit code, unless a signal ended it. -/
  code : Option Int
  /-- It was ended because the run was cancelled. -/
  cancelled : Bool
  deriving DecidableEq, Repr

/-- The command did what it should. -/
def Exit.isSuccess (e : Exit) : Bool := !e.cancelled && e.code == some 0

/-- A run of a command. -/
structure Run where
  /-- The lines it printed, in order. -/
  lines : List (Stream × String)
  /-- The run was cancelled while the command was running. -/
  cancels : Bool := false
  /-- How it ended. -/
  result : Except RunError Exit

namespace Run

/-- The lines of one stream. -/
def linesOf (r : Run) (stream : Stream) : List String :=
  r.lines.filterMap fun (s, line) => if s = stream then some line else none

/-- The text of the standard output. -/
def text (r : Run) : String := String.join ((r.linesOf .output).map (· ++ "\n"))

end Run

/-- The bytes up to and including each line feed, and those behind the last one. -/
def byteLines : List UInt8 → List (List UInt8)
  | [] => []
  | b :: bytes =>
    if b = 10 then [b] :: byteLines bytes
    else
      match byteLines bytes with
      | [] => [[b]]
      | line :: lines =>
        (b :: line) :: lines

/-- The lines of the bytes of a stream, without the line feeds and carriage returns at their
ends. -/
def streamLines (bytes : List UInt8) : List String :=
  (byteLines bytes).map fun line =>
    String.ofList (Text.dropEndWhile (fun c => c = '\n' || c = '\r') (Text.Utf8.decodeLossy line))

end Command

end BuildTrace
