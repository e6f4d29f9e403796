import BuildTrace.Shell.Basic

/-!
# Programs

How the program with a name is found, and what is run when a file is. A file that begins with `#!`
names the program that is to read it, with at most one argument.
-/

namespace BuildTrace.Shell

open Machine (Entry Fault)

/-- What is run for a file: a program that is always there, with its arguments, the name under which
it is called the first of them. -/
structure Image where
  /-- The program. -/
  program : String
  /-- The arguments. -/
  arguments : List String

namespace Image

/-- The number of bytes at the beginning of a file that are looked at. -/
def headSize : Nat := 256

/-- The depth up to which a file may be read by another one. -/
def depthLimit : Nat := 6

/-- The end of a name in the first line of a file. -/
def endsName (c : Char) : Bool := c = ' ' || c = '\t' || c = '\x00'

/-- The program at the beginning of a line, and its argument, if it has one. -/
def interpreterIn (line : List Char) : String × Option String :=
  let name := line.takeWhile (!endsName ·)
  let behind := line.drop name.length
  let argument :=
    if behind.head?.all (· = '\x00') then []
    else (behind.dropWhile isBlank).takeWhile (· != '\x00')
  (String.ofList name, if argument.isEmpty then none else some (String.ofList argument))

/-- The program in the first line of a file, and its argument, if it has one. A line that is longer
than what is looked at has to be complete as far as the name of the program goes. -/
def interpreter? (text : List Char) : Option (String × Option String) :=
  match text with
  | '#' :: '!' :: body =>
    let size := headSize - 2
    let body := (body ++ List.replicate size '\x00').take size
    let line := body.takeWhile fun c => c != '\n' && c != '\x00'
    -- The line ends within what is looked at.
    if (body.drop line.length).head? = some '\n' then
      let line := (Text.dropEndWhile isBlank line).dropWhile isBlank
      if line.isEmpty then none else some (interpreterIn line)
    else if !(body.dropWhile isBlank).any endsName then none
    else
      let line := (Text.dropEndWhile isBlank body.dropLast).dropWhile isBlank
      if line.isEmpty then none else some (interpreterIn line)
  | _ => none

/-- What is run for the file at a path, with arguments. -/
def load (m : Machine) (directory : Path) : Nat → (path : String) → (arguments : List String) →
    Except Fault Image
  | 0, _, _ => .error .tooDeep
  | depth + 1, path, arguments =>
    match m.entry directory (State.pathOf path) with
    | .error fault => .error fault
    | .ok (_, .program name) => .ok ⟨name, arguments⟩
    | .ok (_, .file content true) =>
      match interpreter? (charsOf (content.toBytes.take headSize)) with
      | none => .error .noProgram
      | some (program, argument) =>
        -- The path of the file takes the place of the name it was called by.
        load m directory depth program (program :: argument.toList ++ path :: arguments.drop 1)
    | .ok _ => .error .refused

end Image

namespace Program

/-- The search path of a program that is told none. -/
def defaultPath : String := "/bin:/usr/bin"

/-- The directories of a search path. -/
def directoriesOf (searchPath : String) : List String :=
  (Text.splitOn ':' searchPath.toList).map String.ofList

/-- The path of a name in a directory. -/
def inDirectory (directory name : String) : String :=
  if directory.isEmpty then name else directory ++ "/" ++ name

/-- The paths of files with the name in the directories of a search path. -/
def candidates (m : Machine) (directory : Path) (searchPath name : String) : List String :=
  ((directoriesOf searchPath).map fun d => inDirectory d name).filter fun path =>
    match m.entry directory (State.pathOf path) with
    | .ok (_, entry) => entry.isFile
    | .error _ => false

/-- There is something with the name in a directory of a search path, though it is no file. -/
def hasOther (m : Machine) (directory : Path) (searchPath name : String) : Bool :=
  (directoriesOf searchPath).any fun d =>
    match m.entry directory (State.pathOf (inDirectory d name)) with
    | .ok _ => true
    | .error .missing | .error .notDirectory => false
    | .error _ => true

/-- The first of some paths for which something can be run. If there is none, the fault is that of
the last one that is there. A file that names no program is read by the shell if `readsPlain`. -/
def firstImage (m : Machine) (directory : Path) (readsPlain : Bool) (arguments : List String)
    (fault : Fault) : List String → Except Fault (String × Image)
  | [] => .error fault
  | path :: rest =>
    match Image.load m directory Image.depthLimit path arguments with
    | .ok image => .ok (path, image)
    | .error .noProgram =>
      if readsPlain then .ok (path, ⟨"sh", "/bin/sh" :: path :: arguments.drop 1⟩)
      else .error .noProgram
    | .error f =>
      let fault := if f = .missing || f = .notDirectory then fault else f
      firstImage m directory readsPlain arguments fault rest

/-- What is run for a program with a name, which may be a path, and its arguments. -/
def find (m : Machine) (directory : Path) (searchPath : String) (readsPlain : Bool) (name : String)
    (arguments : List String) : Except Fault (String × Image) :=
  if name.toList.contains '/' then firstImage m directory readsPlain arguments .missing [name]
  else
    firstImage m directory readsPlain arguments
      (if hasOther m directory searchPath name then .refused else .missing)
      ((directoriesOf searchPath).map fun d => inDirectory d name)

end Program

end BuildTrace.Shell
