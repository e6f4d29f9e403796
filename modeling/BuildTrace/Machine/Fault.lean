/-!
# Faults

Why a machine refuses what a process asks for.
-/

namespace BuildTrace.Machine

/-- Why an operation fails. -/
inductive Fault where
  /-- There is nothing at the path. -/
  | missing
  /-- The path leads through something that is no directory, or asks for one. -/
  | notDirectory
  /-- A directory stands where a file is wanted. -/
  | isDirectory
  /-- There is something at the path. -/
  | occupied
  /-- The directory is not empty. -/
  | notEmpty
  /-- The process may not do it. -/
  | refused
  /-- The path, or one of its names, is too long. -/
  | nameTooLong
  /-- The process has no such stream, or may not use it like this. -/
  | badStream
  /-- There is no room. -/
  | noSpace
  /-- Nobody reads what is written. -/
  | noReader
  /-- There is no such device. -/
  | noDevice
  /-- The argument makes no sense. -/
  | invalid
  /-- There is no such process. -/
  | noProcess
  /-- The file is no program. -/
  | noProgram
  /-- The stream has no places to go to. -/
  | noPlace
  /-- It is in use. -/
  | busy
  /-- Too many files lead to one another. -/
  | tooDeep
  deriving DecidableEq, Repr

/-- The message about the fault. -/
def Fault.message : Fault → String
  | missing => "No such file or directory"
  | notDirectory => "Not a directory"
  | isDirectory => "Is a directory"
  | occupied => "File exists"
  | notEmpty => "Directory not empty"
  | refused => "Permission denied"
  | nameTooLong => "File name too long"
  | badStream => "Bad file descriptor"
  | noSpace => "No space left on device"
  | noReader => "Broken pipe"
  | noDevice => "No such device or address"
  | invalid => "Invalid argument"
  | noProcess => "No such process"
  | noProgram => "Exec format error"
  | noPlace => "Illegal seek"
  | busy => "Device or resource busy"
  | tooDeep => "Too many levels of symbolic links"

end BuildTrace.Machine
