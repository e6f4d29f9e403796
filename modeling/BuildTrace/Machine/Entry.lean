import BuildTrace.Machine.Basic

/-!
# Entries

What a path leads to on a machine: besides the files and directories of the tree there are programs,
devices and directories that are always there. In contrast to those of a tree, the operations here
say why they fail.
-/

namespace BuildTrace.Machine

/-- A device. -/
inductive Device where
  /-- It holds nothing. -/
  | null
  /-- It holds zeros. -/
  | zero
  /-- It holds zeros and takes nothing. -/
  | full
  /-- The terminal, which is not there. -/
  | terminal
  /-- A stream of the process. -/
  | stream (number : Nat)
  deriving DecidableEq

/-- What a path leads to. -/
inductive Entry where
  /-- A directory. -/
  | directory
  /-- A file. -/
  | file (content : Content) (isExecutable : Bool)
  /-- A program that is always there, by its name. -/
  | program (name : String)
  /-- A device. -/
  | device (device : Device)
  deriving DecidableEq

namespace Entry

/-- The entry is a directory. -/
def isDirectory : Entry → Bool
  | directory => true
  | _ => false

/-- The entry is a file, of which programs are some. -/
def isFile : Entry → Bool
  | file _ _ | program _ => true
  | _ => false

end Entry

/-- The directories in which the programs are that are always there. -/
def programDirectories : List Place := [["usr", "bin"], ["bin"]]

/-- The directories that are always there. -/
def standardDirectories : List Place :=
  [["bin"], ["dev"], ["etc"], ["home"], ["lib"], ["media"], ["mnt"], ["opt"], ["proc"], ["root"],
    ["run"], ["sbin"], ["srv"], ["sys"], ["tmp"], ["usr"], ["usr", "bin"], ["usr", "include"],
    ["usr", "lib"], ["usr", "local"], ["usr", "local", "bin"], ["usr", "local", "lib"],
    ["usr", "sbin"], ["usr", "share"], ["var"], ["var", "tmp"]]

/-- The device at a place. -/
def device? : Place → Option Device
  | ["dev", "null"] => some .null
  | ["dev", "zero"] => some .zero
  | ["dev", "full"] => some .full
  | ["dev", "tty"] => some .terminal
  | ["dev", "stdin"] => some (.stream 0)
  | ["dev", "stdout"] => some (.stream 1)
  | ["dev", "stderr"] => some (.stream 2)
  | ["dev", "fd", number] => number.toNat?.map .stream
  | _ => none

/-- The entry at a place. -/
def entryAt? (m : Machine) (place : Place) : Option Entry :=
  match m.files.at? place with
  | some .directory => some .directory
  | some (.file content isExecutable) => some (.file content isExecutable)
  -- The tree goes before what is always there.
  | none =>
    if standardDirectories.contains place then some .directory
    else
      match device? place with
      | some device => some (.device device)
      | none =>
        match place.getLast? with
        | some name =>
          if programDirectories.contains place.dropLast && m.programs.contains name then
            some (.program name)
          else none
        | none => none

/-- The place is a directory, or else why one cannot go on from it. -/
def checkDirectory (m : Machine) (place : Place) : Except Fault Unit :=
  match m.entryAt? place with
  | some .directory => .ok ()
  | some _ => .error .notDirectory
  | none => .error .missing

/-- The place to which components lead from a place. -/
def follow (m : Machine) (place : Place) : List Component → Except Fault Place
  | [] => .ok place
  | .root :: rest => m.follow [] rest
  | .here :: rest => m.follow place rest
  | .up :: rest =>
    match m.checkDirectory place with
    | .ok () => m.follow place.dropLast rest
    | .error fault => .error fault
  | .name n :: rest =>
    match m.checkDirectory place with
    | .ok () => m.follow (place ++ [n]) rest
    | .error fault => .error fault

/-- The place to which a path leads from a directory; nothing need be there. -/
def resolve (m : Machine) (directory path : Path) : Except Fault Place :=
  if path.text.isEmpty || path.hasZero then .error .missing
  else if path.isTooLong then .error .nameTooLong
  else m.follow [] (directory.join path).components

/-- The path is written as that of a directory. -/
def asksDirectory (path : Path) : Bool := FileTree.asksDirectory path

/-- The place and the entry to which a path leads from a directory. -/
def entry (m : Machine) (directory path : Path) : Except Fault (Place × Entry) := do
  let place ← m.resolve directory path
  match m.entryAt? place with
  | none => .error .missing
  | some entry =>
    if asksDirectory path && !entry.isDirectory then .error .notDirectory
    else .ok (place, entry)

/-- The names in a directory, without a particular order. -/
def namesIn (m : Machine) (place : Place) : List String :=
  let below := fun (entry : Place) =>
    if place.length < entry.length && place.isPrefixOf entry then entry[place.length]? else none
  let programs := if programDirectories.contains place then m.programs else []
  ((m.files.entries.map Prod.fst).filterMap below ++ standardDirectories.filterMap below ++
    programs).eraseDups

/-! ## Changes -/

/-- Put a directory at a place. -/
def makeDirectory (m : Machine) (directory path : Path) : Except Fault Machine := do
  let place ← m.resolve directory path
  if (m.entryAt? place).isSome then .error .occupied
  else
    m.checkDirectory place.dropLast
    .ok { m with files := m.files.put place .directory }

/-- Remove what is at a place and below it. -/
def dropAt (m : Machine) (place : Place) : Machine := { m with files := m.files.drop place }

/-- Remove a directory, which has to be empty. -/
def removeDirectory (m : Machine) (directory path : Path) : Except Fault Machine := do
  let (place, entry) ← m.entry directory path
  if !entry.isDirectory then .error .notDirectory
  -- Neither the directory itself, written as a dot, nor the root can be removed.
  else if (FileTree.asksDirectory path && path.components.getLast? = none) || place.isEmpty then
    .error .busy
  else if !(m.namesIn place).isEmpty then .error .notEmpty
  else .ok (m.dropAt place)

/-- Remove a file. -/
def removeFile (m : Machine) (directory path : Path) : Except Fault Machine := do
  let (place, entry) ← m.entry directory path
  if entry.isDirectory then .error .isDirectory
  else .ok (m.dropAt place)

/-- The content of a file that is there. -/
def contentAt? (m : Machine) (place : Place) : Option Content :=
  match m.entryAt? place with
  | some (.file content _) => some content
  | some (.program _) => some (.text "")
  | _ => none

/-- Give the file at a place a content. A new file may not be executed. -/
def putContent (m : Machine) (place : Place) (bytes : List UInt8) : Machine :=
  let isExecutable :=
    match m.files.at? place with
    | some (.file _ e) => e
    | _ => false
  { m with files := m.files.put place (.file (.ofBytes bytes) isExecutable) }

/-- Move what is at a place, with everything below it. -/
def moveAt (m : Machine) (source target : Place) : Machine :=
  let moved := m.files.entries.filterMap fun (place, node) =>
    if source.isPrefixOf place then some (target ++ place.drop source.length, node) else none
  let rest := (m.files.drop source).drop target
  { m with files := { rest with entries := moved ++ rest.entries } }

/-- Give what a path leads to another path, in the place of what may be there. -/
def rename (m : Machine) (directory source target : Path) : Except Fault Machine := do
  let (origin, entry) ← m.entry directory source
  let place ← m.resolve directory target
  m.checkDirectory place.dropLast
  match m.entryAt? place with
  | none =>
    if asksDirectory target && !entry.isDirectory then .error .notDirectory
    -- A directory cannot be moved below itself.
    else if origin.isPrefixOf place then .error .invalid
    else .ok (m.moveAt origin place)
  | some old =>
    if origin = place then .ok m
    else if entry.isDirectory && !old.isDirectory then .error .notDirectory
    else if !entry.isDirectory && old.isDirectory then .error .isDirectory
    else if origin.isPrefixOf place then .error .invalid
    else if old.isDirectory && !(m.namesIn place).isEmpty then .error .notEmpty
    else .ok (m.moveAt origin place)

/-- Let a file be executed, or not. -/
def setExecutable (m : Machine) (place : Place) (value : Bool) : Machine :=
  match m.files.at? place with
  | some (.file content _) => { m with files := m.files.put place (.file content value) }
  | _ => m

end BuildTrace.Machine
