/-!
# Signals

The signals that processes send to one another, by number and by name, and what they do to a
process that has made no arrangements.
-/

namespace BuildTrace.Machine

/-- A signal, by its number. -/
abbrev Signal := Nat

namespace Signal

/-- The signals with a meaning, in order from the first one, with what is said about a process that
one of them has ended. One of them has no name but its number. -/
def named : List (String × String) :=
  [("HUP", "Hangup"), ("INT", "Interrupt"), ("QUIT", "Quit"), ("ILL", "Illegal instruction"),
    ("TRAP", "Trace/breakpoint trap"), ("ABRT", "Aborted"), ("BUS", "Bus error"),
    ("FPE", "Floating point exception"), ("KILL", "Killed"), ("USR1", "User defined signal 1"),
    ("SEGV", "Segmentation fault"), ("USR2", "User defined signal 2"), ("PIPE", "Broken pipe"),
    ("ALRM", "Alarm clock"), ("TERM", "Terminated"), ("16", "Stack fault"),
    ("CHLD", "Child exited"), ("CONT", "Continued"), ("STOP", "Stopped (signal)"),
    ("TSTP", "Stopped"), ("TTIN", "Stopped (tty input)"), ("TTOU", "Stopped (tty output)"),
    ("URG", "Urgent I/O condition"), ("XCPU", "CPU time limit exceeded"),
    ("XFSZ", "File size limit exceeded"), ("VTALRM", "Virtual timer expired"),
    ("PROF", "Profiling timer expired"), ("WINCH", "Window changed"), ("IO", "I/O possible"),
    ("PWR", "Power failure"), ("SYS", "Bad system call")]

/-- The least number behind those of all signals. -/
def limit : Nat := 65

/-- The number of the signal that cannot be held up. -/
def kill : Signal := 9

/-- The number of the signal about a stream without readers. -/
def pipe : Signal := 13

/-- The number of the signal to end. -/
def term : Signal := 15

/-- The number of the signal to go on. -/
def cont : Signal := 18

/-- The number of the signal to stop that cannot be held up. -/
def stop : Signal := 19

/-- The signals that do nothing to a process. -/
def isHarmless (s : Signal) : Bool := [17, 18, 23, 28].contains s

/-- The signals that stop a process. -/
def isStop (s : Signal) : Bool := [19, 20, 21, 22].contains s

/-- The name of a signal. -/
def name (s : Signal) : String :=
  if s = 0 then "EXIT"
  else
    match named[s - 1]? with
    | some (name, _) => name
    | none =>
      if s = 32 || s = 33 then toString s
      else if s = 34 then "RTMIN"
      else if s < 50 then "RTMIN+" ++ toString (s - 34)
      else if s < 64 then "RTMAX-" ++ toString (64 - s)
      else "RTMAX"

/-- What is said about a process that the signal has ended. -/
def description (s : Signal) : String :=
  match named[s - 1]? with
  | some (_, text) => text
  | none =>
    if s < 34 then "Unknown signal " ++ toString s
    else "Real-time signal " ++ toString (s - 34)

/-- The signal with the name, which is taken in any case. -/
def ofName? (text : String) : Option Signal :=
  (List.range limit).find? fun s => name s == text.toUpper

end Signal

end BuildTrace.Machine
