import BuildTrace.Machine.Entry

/-!
# Streams

How processes open streams, read from them, write to them and close them. An operation that has to
wait gives nothing.
-/

namespace BuildTrace.Machine

/-! ## Opening -/

/-- How a file is opened. -/
structure Opening where
  /-- To be read. -/
  reads : Bool := false
  /-- To be written to. -/
  writes : Bool := false
  /-- What is written goes to the end. -/
  appends : Bool := false
  /-- A file that is missing is made. -/
  creates : Bool := false
  /-- A file that is there is emptied. -/
  empties : Bool := false
  /-- No file may be there. -/
  isNew : Bool := false

/-- Open a file to be read. -/
def Opening.toRead : Opening := { reads := true }

/-- Open a file to be written to, from the beginning. -/
def Opening.toWrite : Opening := { writes := true, creates := true, empties := true }

/-- Open a file to be written to, from the end. -/
def Opening.toAppend : Opening := { writes := true, creates := true, appends := true }

/-- The stream to a device. -/
def deviceTarget (m : Machine) (process : Nat) : Device → Except Fault Target
  | .null => .ok .null
  | .zero => .ok .zero
  | .full => .ok .full
  | .terminal => .error .noDevice
  | .stream number =>
    match m.stream? process number with
    | some (_, stream) => .ok stream.target
    | none => .error .missing

/-- Open what a path leads to from a directory. -/
def openPath (m : Machine) (process : Nat) (directory path : Path) (how : Opening) :
    Except Fault (Stream × Machine) := do
  let stream : Target → Stream := fun target =>
    { target, reads := how.reads, writes := how.writes, appends := how.appends }
  let place ← m.resolve directory path
  match m.entryAt? place with
  | some .directory =>
    if how.isNew && how.creates then .error .occupied
    else if how.writes then .error .isDirectory
    else .ok (stream (.directory place), m)
  | some (.device device) =>
    let target ← m.deviceTarget process device
    .ok (stream target, m)
  -- The programs that are always there can be read, but not changed.
  | some (.program _) =>
    if how.writes then .error .refused else .ok (stream (.file place), m)
  | some (.file _ _) =>
    if asksDirectory path then .error .notDirectory
    else if how.isNew then .error .occupied
    else .ok (stream (.file place), if how.empties then m.putContent place [] else m)
  | none =>
    if !how.creates then .error .missing
    else if asksDirectory path then .error .isDirectory
    else
      -- A new file needs a directory to be in.
      m.checkDirectory place.dropLast
      .ok (stream (.file place), m.putContent place [])

/-- Open what a path leads to, as the stream with a number. -/
def openAs (m : Machine) (process number : Nat) (directory path : Path) (how : Opening) :
    Except Fault Machine := do
  let (stream, m) ← m.openPath process directory path how
  .ok (m.addStream process number stream)

/-- A number for a stream that has another number already. -/
def duplicate (m : Machine) (process source number : Nat) : Except Fault Machine :=
  match m.stream? process source with
  | none => .error .badStream
  | some (stream, _) =>
    if source = number then .ok m
    else .ok ((m.release process (· == number)).assign process number stream)

/-- A new pipe: the numbers of its ends, to read from and to write to. -/
def addPipe (m : Machine) (process : Nat) (least : Nat) : Nat × Nat × Machine :=
  let pipe := m.nextStream
  let reader := m.freeNumber process least
  let m := m.addStream process reader { target := .pipe pipe, reads := true }
  let writer := m.freeNumber process least
  let m := m.addStream process writer { target := .pipe pipe, writes := true }
  (reader, writer, { m with pipes := (pipe, {}) :: m.pipes })

/-- Change the pipe with the number. -/
def setPipe (m : Machine) (number : Nat) (pipe : Pipe) : Machine :=
  { m with pipes := m.pipes.map fun p => if p.1 = number then (number, pipe) else p }

/-- Go on in a file. -/
def advance (m : Machine) (stream count : Nat) : Machine :=
  { m with
    streams := m.streams.map fun (n, s) =>
      if n = stream then (n, { s with offset := s.offset + count }) else (n, s) }

/-! ## Reading -/

/-- How much is read. -/
structure Amount where
  /-- The greatest number of bytes. -/
  limit : Nat
  /-- Nothing is read behind the end of a line. -/
  isLine : Bool := false

/-- The bytes of a text that are read at once. -/
def Amount.of (a : Amount) (bytes : List UInt8) : List UInt8 :=
  let bytes := bytes.take a.limit
  if a.isLine then
    let line := bytes.takeWhile (· != 10)
    bytes.take (line.length + 1)
  else bytes

namespace Pipe

/-- Put bytes in at the end. -/
def push (p : Pipe) (bytes : List UInt8) : Pipe :=
  { p with back := bytes :: p.back, size := p.size + bytes.length }

/-- The next bytes that were written at once, if there are any, and what is left. -/
def pop? (p : Pipe) : Option (List UInt8 × Pipe) :=
  match p.front with
  | bytes :: front => some (bytes, { p with front, size := p.size - bytes.length })
  | [] =>
    match p.back.reverse with
    | bytes :: front =>
      some (bytes, { front, back := [], size := p.size - bytes.length })
    | [] => none

/-- Put bytes back to the beginning. -/
def unread (p : Pipe) (bytes : List UInt8) : Pipe :=
  if bytes.isEmpty then p
  else { p with front := bytes :: p.front, size := p.size + bytes.length }

/-- Take bytes out, at most as many as were written at once. -/
def take? (p : Pipe) (amount : Amount) : Option (List UInt8 × Pipe) :=
  p.pop?.map fun (bytes, rest) =>
    let taken := amount.of bytes
    (taken, rest.unread (bytes.drop taken.length))

end Pipe

/-- Read from a stream. Nothing is read at its end, and there is no result while the bytes are
still to be written. -/
def read? (m : Machine) (process number : Nat) (amount : Amount) :
    Option (Except Fault (List UInt8) × Machine) :=
  match m.stream? process number with
  | none => some (.error .badStream, m)
  | some (index, stream) =>
    if !stream.reads then some (.error .badStream, m)
    else
      match stream.target with
      -- Nothing ever comes from the output of the whole run.
      | .output | .error => none
      | .null => some (.ok [], m)
      | .zero | .full => some (.ok (List.replicate (min amount.limit 4096) 0), m)
      | .directory _ => some (.error .isDirectory, m)
      | .file place =>
        let bytes := ((m.contentAt? place).map Content.toBytes).getD []
        let taken := amount.of (bytes.drop stream.offset)
        some (.ok taken, m.advance index taken.length)
      | .pipe pipe =>
        match ((m.pipes.lookup pipe).getD {}).take? amount with
        | some (taken, rest) => some (.ok taken, m.setPipe pipe rest)
        -- An empty pipe is at its end when nobody can write to it any more.
        | none => if m.hasWriter pipe then none else some (.ok [], m)

/-! ## Writing -/

/-- The number of bytes that a pipe holds. -/
def pipeCapacity : Nat := 65536

/-- The content of a file with bytes written at an offset. -/
def patch (content : List UInt8) (offset : Nat) (bytes : List UInt8) : List UInt8 :=
  content.take offset ++ List.replicate (offset - content.length) 0 ++ bytes ++
    content.drop (offset + bytes.length)

/-- Write to a stream: the number of bytes that were written. There is no result while there is no
room for them. A process that writes to a pipe nobody reads is sent a signal. -/
def write? (m : Machine) (process number : Nat) (bytes : List UInt8) :
    Option (Except Fault Nat × Machine) :=
  match m.stream? process number with
  | none => some (.error .badStream, m)
  | some (index, stream) =>
    if !stream.writes then some (.error .badStream, m)
    else
      let all : Except Fault Nat := .ok bytes.length
      match stream.target with
      | .output | .error =>
        if bytes.isEmpty then some (all, m)
        else
          let isError := decide (stream.target = .error)
          some (all, { m with written := ⟨m.time, isError, bytes⟩ :: m.written })
      | .null | .zero => some (all, m)
      | .full => some (if bytes.isEmpty then all else .error .noSpace, m)
      | .directory _ => some (.error .isDirectory, m)
      | .file place =>
        let old := ((m.contentAt? place).map Content.toBytes).getD []
        -- Where the file ends is looked up at each write: others may have appended to it.
        let offset := if stream.appends then old.length else stream.offset
        let m := m.putContent place (patch old offset bytes)
        some (all, m.advance index (offset + bytes.length - stream.offset))
      | .pipe pipe =>
        if !m.hasReader pipe then
          some (.error .noReader, (m.send process Signal.pipe).toOption.getD m)
        else if bytes.isEmpty then some (all, m)
        else
          let p := (m.pipes.lookup pipe).getD {}
          let room := pipeCapacity - p.size
          if room = 0 then none
          else
            -- What finds room is written, and the rest is left to the caller.
            let taken := bytes.take room
            some (.ok taken.length, m.setPipe pipe (p.push taken))

end BuildTrace.Machine
