import BuildTrace.Shell.Pattern
import BuildTrace.Utility.Input

/-!
# Parts of inputs

The programs that put out the beginning or the end of what they read, count it, or number its lines.
-/

namespace BuildTrace.Utility

open Shell
open Machine (Fault)

/-! ## Beginnings and ends -/

/-- A part of an input, counted in lines or in bytes. -/
structure Part where
  /-- It is counted in bytes. -/
  inBytes : Bool
  /-- It is counted from the other end. -/
  isRest : Bool
  /-- How much it is. -/
  count : Nat
  /-- What ends a line. -/
  sign : Char

namespace Part

/-- The beginning of a text. -/
def start (p : Part) (text : List Char) : List Char :=
  if p.inBytes then text.take (if p.isRest then text.length - p.count else p.count)
  else
    let lines := linesWithEnds p.sign text
    (lines.take (if p.isRest then lines.length - p.count else p.count)).flatten

/-- The end of a text. -/
def ending (p : Part) (text : List Char) : List Char :=
  if p.inBytes then text.drop (if p.isRest then p.count - 1 else text.length - p.count)
  else
    let lines := linesWithEnds p.sign text
    (lines.drop (if p.isRest then p.count - 1 else lines.length - p.count)).flatten

/-- The part that options ask for. A sign in front of the number stands for counting from the other
end. -/
def ofGiven (name : String) (sign : Char) (g : Given) : Shell Part := do
  let (inBytes, text) :=
    match (g.options.filter fun o => o.1 == "c" || o.1 == "n").getLast? with
    | some (key, value) => (key == "c", value.getD "")
    | none => (false, "10")
  let (isRest, digits) :=
    match text.toList with
    | c :: digits =>
      if c = sign then (true, digits)
      else if c = '-' then (false, digits)
      else (false, text.toList)
    | [] => (false, [])
  match amount? digits with
  | some count => return ⟨inBytes, isRest, count, if g.has "z" then '\x00' else '\n'⟩
  | none =>
    let unit := if inBytes then "bytes" else "lines"
    fail name ("invalid number of " ++ unit ++ ": " ++ quote text)

end Part

/-- The stream is a pipe. -/
def isPipe (number : Nat) : Shell Bool := do
  let process := (← get).process
  look fun m =>
    match m.stream? process number with
    | some (_, stream) => match stream.target with | .pipe _ => true | _ => false
    | none => false

/-- Put out the beginning of a stream. From a pipe more may be read than is needed. -/
def copyStart (name : String) (p : Part) (number : Nat) (isLoose : Bool) :
    Nat → Nat → Shell (Except Fault Unit)
  | 0, _ => hang
  | _, 0 => return .ok ()
  | fuel + 1, count + 1 => do
    let limit := if p.inBytes then min (count + 1) 8192 else 8192
    let isLine := !p.inBytes && !isLoose && p.sign = '\n'
    match ← read number { limit, isLine } with
    | .error fault => return .error fault
    | .ok [] => return .ok ()
    | .ok bytes =>
      let part := { p with count := count + 1 }.start (charsOf bytes)
      say name (String.ofList part)
      let done := if p.inBytes then part.length else (part.filter (· = p.sign)).length
      copyStart name p number isLoose fuel (count + 1 - done)

/-- Put out a part of each input, behind its name if there are several. -/
def copyParts (name : String) (g : Given)
    (copy : Nat → Shell (Except Fault Unit)) : Shell Nat := do
  let files := inputsOf g.operands
  let hasTitles :=
    match g.last? ["q", "v"] with
    | some "q" => false
    | some _ => true
    | none => 1 < files.length
  let mut isFirst := true
  let mut status := 0
  for file in files do
    let shown := if file = "-" then "standard input" else file
    let isFirstTitle := isFirst
    let result ← withInput file fun number => do
      if hasTitles then
        say name ((if isFirstTitle then "" else "\n") ++ "==> " ++ shown ++ " <==\n")
      match ← copy number with
      | .ok () => return .ok none
      | .error fault => return .ok (some fault)
    match result with
    | .ok none => isFirst := false
    | .ok (some fault) =>
      isFirst := false
      complain name ("error reading " ++ quote shown ++ ": " ++ fault.message)
      status := 1
    | .error fault =>
      complain name ("cannot open " ++ quote file ++ " for reading: " ++ fault.message)
      status := 1
  return status

/-- The options of the programs for beginnings and ends. -/
def partForms : OptionForms := OptionForms.make "c:n:qvz"
  [("bytes", "c", .value), ("lines", "n", .value), ("quiet", "q", .nothing),
    ("silent", "q", .nothing), ("verbose", "v", .nothing), ("zero-terminated", "z", .nothing)]

/-- Put out the beginnings of inputs. -/
def head : Utility := fun _ name arguments => do
  let arguments := modernize ['-'] ['c', 'q', 'v', 'z'] arguments
  let g ← partForms.given name arguments
  let p ← Part.ofGiven name '-' g
  copyParts name g fun number => do
    if p.isRest then
      match ← readAll number manySteps [] with
      | .error fault => return .error fault
      | .ok bytes =>
        say name (String.ofList (p.start (charsOf bytes)))
        return .ok ()
    else copyStart name p number (← isPipe number) manySteps p.count

/-- Put out the ends of inputs. -/
def tail : Utility := fun _ name arguments => do
  let arguments := modernize ['-', '+'] ['c', 'l'] arguments
  let g ← partForms.given name (arguments.filter (· != "-l"))
  let p ← Part.ofGiven name '+' g
  copyParts name g fun number => do
    if p.count = 0 && !p.isRest then return .ok ()
    else
      match ← readAll number manySteps [] with
      | .error fault => return .error fault
      | .ok bytes =>
        say name (String.ofList (p.ending (charsOf bytes)))
        return .ok ()

/-! ## Counting -/

/-- The numbers that are counted in a text. -/
structure Counts where
  /-- The number of ends of lines. -/
  lines : Nat := 0
  /-- The number of words. -/
  words : Nat := 0
  /-- The number of bytes. -/
  bytes : Nat := 0
  /-- The width of the widest line. -/
  widest : Nat := 0

namespace Counts

/-- The numbers of both texts. -/
def add (a b : Counts) : Counts :=
  ⟨a.lines + b.lines, a.words + b.words, a.bytes + b.bytes, max a.widest b.widest⟩

/-- The number of words, where `inside` says whether the text begins within one. -/
def countWords (text : List Char) : Nat :=
  (text.foldl
    (fun (count, inside) c =>
      if isSpace c then (count, false) else (if inside then count else count + 1, true))
    (0, false)).1

/-- The widest line. -/
def widestOf (text : List Char) : Nat :=
  let (best, width) := text.foldl
    (fun (best, width) c =>
      if c = '\n' || c = '\r' || c = '\x0c' then (max best width, 0)
      else if c = '\t' then (best, width + (8 - width % 8))
      else if CharClass.print.has c then (best, width + 1)
      else (best, width))
    (0, 0)
  max best width

/-- The numbers of a text. -/
def ofText (text : List Char) : Counts where
  lines := text.countP (· = '\n')
  words := countWords text
  bytes := text.length
  widest := widestOf text

end Counts

/-- The width of numbers for inputs: that of the size of all files, but enough for what is no
file. -/
def countWidth (files : List String) : Shell Nat := do
  let s ← get
  let sizes ← files.mapM fun file => look fun m =>
    let sizeAt := fun (place : Place) => ((m.contentAt? place).map fun c => c.toBytes.length).getD 0
    if file = "-" then
      match m.stream? s.process 0 with
      | some (_, ⟨.file place, _, _, _, _⟩) => some (true, sizeAt place)
      | some _ => some (false, 0)
      | none => none
    else
      match m.entry s.directoryPath (State.pathOf file) with
      | .ok (place, entry) => if entry.isFile then some (true, sizeAt place) else some (false, 0)
      | .error _ => none
  let sizes := sizes.filterMap id
  let total := sizes.foldl (fun n s => n + s.2) 0
  let width := (Nat.toDigits 10 total).length
  return if sizes.any (!·.1) then max 7 width else width

/-- Count lines, words and bytes of inputs. -/
def wc : Utility :=
  (OptionForms.make "clLmw"
    [("bytes", "c", .nothing), ("chars", "m", .nothing), ("lines", "l", .nothing),
      ("max-line-length", "L", .nothing), ("words", "w", .nothing),
      ("total", "total", .value)]).program fun name g => do
    let files := inputsOf g.operands
    let asked := ["l", "w", "m", "c", "L"].filter g.has
    let asked := if asked.isEmpty then ["l", "w", "c"] else asked
    let width ←
      if files.length = 1 && asked.length = 1 then pure 1 else countWidth files
    let line := fun (c : Counts) (title : String) =>
      let numbers := asked.map fun key =>
        padNumber width <|
          match key with
          | "l" => c.lines
          | "w" => c.words
          | "L" => c.widest
          | _ => c.bytes
      String.ofList (Text.joinWith [' '] numbers) ++
        (if title.isEmpty then "" else " " ++ title) ++ "\n"
    let mut total : Counts := {}
    let mut status := 0
    for file in files do
      let title := if g.operands.isEmpty then "" else file
      let message := fun (fault : Fault) => quoteIfNeeded file ++ ": " ++ fault.message
      let result ← withInput file fun number => do return .ok (← readAll number manySteps [])
      match result with
      | .ok (.ok bytes) =>
        let counts := Counts.ofText (charsOf bytes)
        total := total.add counts
        say name (line counts title)
      | .ok (.error fault) =>
        complain name (message fault)
        say name (line {} title)
        status := 1
      | .error fault =>
        complain name (message fault)
        status := 1
    if 1 < files.length then say name (line total "total")
    return status

/-! ## Numbers of lines -/

/-- Put out the lines of inputs with numbers. -/
def nl : Utility :=
  (OptionForms.make "b:i:n:s:v:w:"
    [("body-numbering", "b", .value), ("line-increment", "i", .value),
      ("number-format", "n", .value), ("number-separator", "s", .value),
      ("starting-line-number", "v", .value),
      ("number-width", "w", .value)]).program fun name g => do
    let style := (g.value? "b").getD "t"
    if !(["a", "t", "n"].contains style) then
      misuse name ("invalid body numbering style: " ++ quote style)
    let form := (g.value? "n").getD "rn"
    if !(["ln", "rn", "rz"].contains form) then
      misuse name ("invalid line numbering format: " ++ quote form)
    let numberOf := fun (key what : String) (standard : Int) => do
      match g.value? key with
      | none => pure standard
      | some text =>
        match signedNumber? text.toList with
        | some n => pure n
        | none => fail name ("invalid " ++ what ++ ": " ++ quote text)
    let first ← numberOf "v" "starting line number" 1
    let step ← numberOf "i" "line number increment" 1
    let width := (← numberOf "w" "line number field width" 6).toNat
    let separator := ((g.value? "s").getD "\t").toList
    let numberText := fun (n : Int) =>
      let digits := (toString n).toList
      match form with
      | "ln" => digits ++ List.replicate (width - digits.length) ' '
      | "rz" => List.replicate (width - digits.length) '0' ++ digits
      | _ => padStart width digits
    let mut next := first
    let mut status := 0
    for file in inputsOf g.operands do
      match ← textOfInput file with
      | .error fault =>
        complain name (quoteIfNeeded file ++ ": " ++ fault.message)
        status := 1
      | .ok text =>
        let mut pieces := []
        for line in linesOf '\n' text.toList do
          let isNumbered := style = "a" || (style = "t" && !line.isEmpty)
          let lead :=
            if isNumbered then numberText next ++ separator
            else List.replicate (width + separator.length) ' '
          if isNumbered then next := next + step
          pieces := (lead ++ line ++ ['\n']) :: pieces
        say name (String.ofList pieces.reverse.flatten)
    return status

end BuildTrace.Utility
